import TriggerScript.Machine.Entry
import TriggerScript.Proofs.StoredRuns
import TriggerScript.Proofs.SceneImage
/-!
Scenes a caller can reach, and what their images keep.

A caller starts from a fresh scene or from one read from its image, then makes calls: the
entry points with any readings, the line and description editors, the setters, the pattern
and MIDI methods. Each call keeps a scene stored (`Call.stored`), so every reachable scene
is stored (`Reachable.stored`), and a reachable scene whose calibration is valid reads back
from its image as itself, and from its layout 1 image as itself without the layout 2
additions (`Reachable.image_round_trip`).
-/

set_option autoImplicit false
set_option relaxedAutoImplicit false

namespace TriggerScript

open Act Record

/-! ### Pattern and MIDI methods -/

/-- A change a caller can make to a pattern through its methods, or by replacing it with one
built from parts. -/
inductive PatternEdit
  | set (v : Int16)
  | setAt (i v : Int16)
  | step (n : Int16)
  | setIndex (i : Int16)
  | setStart (v : Int16)
  | setFinish (v : Int16)
  | setLen (l : Int16)
  | setWrap (w : Bool)
  | insert (i v : Int16)
  | remove (i : Int16)
  | push (v : Int16)
  | pop
  | rewind
  /-- Replacing the pattern by the one these parts make; parts that do not fit together
  change nothing. -/
  | replace (values : Vector Int16 Pattern.size) (len start finish index : Nat) (wrap : Bool)

namespace PatternEdit

def apply : PatternEdit → Pattern → Pattern
  | .set v, p => p.set v
  | .setAt i v, p => p.setAt i v
  | .step n, p => (p.step n).2
  | .setIndex i, p => p.setIndex i
  | .setStart v, p => (p.setStart v).2
  | .setFinish v, p => (p.setFinish v).2
  | .setLen l, p => p.setLen l
  | .setWrap w, p => p.setWrap w
  | .insert i v, p => p.insert i v
  | .remove i, p => (p.remove i).2
  | .push v, p => p.push v
  | .pop, p => p.pop.2
  | .rewind, p => p.rewind
  | .replace values len start finish index wrap, p =>
    (Pattern.ofParts? values.toList len start finish index wrap).getD p

theorem valid {p : Pattern} (h : p.Valid) : ∀ e : PatternEdit, (e.apply p).Valid
  | .set v => h.set v
  | .setAt i v => h.setAt i v
  | .step n => h.step n
  | .setIndex i => h.setIndex i
  | .setStart v => h.setStart v
  | .setFinish v => h.setFinish v
  | .setLen l => h.setLen l
  | .setWrap w => h.setWrap w
  | .insert i v => h.insert i v
  | .remove i => h.remove i
  | .push v => h.push v
  | .pop => h.pop
  | .rewind => h.rewind
  | .replace values len start finish index wrap => by
    dsimp only [apply]
    cases hp : Pattern.ofParts? values.toList len start finish index wrap with
    | none => exact h
    | some q => exact Pattern.valid_of_ofParts values.length_toList hp

end PatternEdit

/-- A change a caller can make to the MIDI state through its methods. -/
inductive MidiEdit
  | bind (e : MidiEvent) (script : Option Nat)
  | setClockDiv (div : Int16)
  | resetClock
  | receive (msg : MidiMessage)

namespace MidiEdit

def apply : MidiEdit → Midi → Midi
  | .bind e script, m => m.bind e script
  | .setClockDiv div, m => m.setClockDiv div
  | .resetClock, m => m.resetClock
  | .receive msg, m => (m.receive msg).2

theorem stored {s : Scene} (h : s.Stored) : ∀ e : MidiEdit, { s with midi := e.apply s.midi }.Stored
  | .bind e script => h.bindMidi e script
  | .setClockDiv div => h.setClockDiv div
  | .resetClock => h.withMidiSame rfl rfl
  | .receive msg => h.receive msg

end MidiEdit

/-! ### Scene edits -/

namespace Scene

variable {s s' : Scene}

theorem mem_of_script? {n : Nat} {sc : Script} (h : s.script? n = .ok sc) : sc ∈ s.scripts := by
  unfold script? at h
  split at h
  · rename_i hn
    cases h
    exact List.mem_of_getElem? hn
  · cases h

theorem Stored.setScript (h : s.Stored) (n : Nat) {sc : Script} (hsc : sc.Stored) :
    ({ s with scripts := s.scripts.set n sc }.scriptChanged n).Stored :=
  (h.withScripts (by simp [h.scripts_length]) (forall_mem_set h.scripts hsc)).congr (by rfl)

theorem Stored.placeLine (h : s.Stored) {script n : Nat} {text : String} {insert : Bool}
    {e : Option Error} (hp : s.placeLine script n text insert = .ok (s', e)) : s'.Stored := by
  unfold Scene.placeLine at hp
  obtain ⟨target, ht, hp⟩ := Reader.bind_eq_ok hp
  have htarget := h.scripts target (mem_of_script? ht)
  dsimp only at hp
  split at hp
  · obtain ⟨_, hthrow, -⟩ := Reader.bind_eq_ok hp
    cases hthrow
  rename_i hstorable
  have hline : (Line.ofText text).Stored := Line.stored_ofText (by simpa using hstorable)
  split at hp
  · obtain ⟨changed, hc, hp⟩ := Reader.bind_eq_ok hp
    cases hp
    exact h.setScript script (htarget.insertLine hline hc)
  · obtain ⟨changed, hc, hp⟩ := Reader.bind_eq_ok hp
    cases hp
    exact h.setScript script (htarget.setLine hline hc)

theorem Stored.deleteLine (h : s.Stored) {script n : Nat} (hd : s.deleteLine script n = .ok s') :
    s'.Stored := by
  unfold Scene.deleteLine at hd
  obtain ⟨target, ht, hd⟩ := Reader.bind_eq_ok hd
  obtain ⟨changed, hc, hd⟩ := Reader.bind_eq_ok hd
  cases hd
  exact h.setScript script ((h.scripts target (mem_of_script? ht)).deleteLine hc)

theorem Stored.clearScript (h : s.Stored) {script : Nat} (hc : s.clearScript script = .ok s') :
    s'.Stored := by
  unfold Scene.clearScript at hc
  obtain ⟨_, -, hc⟩ := Reader.bind_eq_ok hc
  cases hc
  exact h.setScript script Script.stored_empty

theorem Stored.setDescriptionLine (h : s.Stored) {n : Nat} {text : String}
    (hd : s.setDescriptionLine n text = .ok s') : s'.Stored := by
  unfold Scene.setDescriptionLine at hd
  split at hd
  · cases hd
  split at hd
  · cases hd
  rename_i hprint
  split at hd
  · cases hd
  rename_i hlen
  cases hd
  have hfit : Fits descriptionLength text :=
    ⟨fun c hc => by simpa using List.findIdx?_eq_none_iff.mp hprint c hc, by omega⟩
  exact h.withDescription (by simp [h.description_length]) (forall_mem_set h.description hfit)

theorem Stored.resetTransient (h : s.Stored) : s.resetTransient.Stored := by
  have hrewound : ∀ p ∈ s.patterns.map Pattern.rewind, p.Valid := by
    simpa using fun p hp => (h.patterns p hp).rewind
  have hpatterns := h.withPatterns (by simp [h.patterns_length]) hrewound
  exact (hpatterns.withMidiSame (m := s.midi.endBatch) rfl rfl).congr (by rfl)

end Scene

/-! ### Calls -/

/-- A call a caller can make on a scene: an entry point, an editor, a setter, or a pattern
or MIDI method. -/
inductive Call
  | execute (text : String)
  | run (script : Nat)
  | init
  | dispatch (input : Input)
  | drain (inputs : List Input)
  | editLine (script n : Nat) (text : String)
  | insertLine (script n : Nat) (text : String)
  | deleteLine (script n : Nat)
  | clearScript (script : Nat)
  | resetTransient
  | reseed (seed : UInt64)
  | setDescriptionLine (n : Nat) (text : String)
  | setMute (input : Nat) (muted : Bool)
  | setPolarity (input p : Nat)
  | setCalibration (c : Calibration)
  | setFlip (flip : Bool)
  | setSlot (slot : Nat)
  | setVar (n : Nat) (v : Int16)
  | editPattern (n : Nat) (e : PatternEdit)
  | editMidi (e : MidiEdit)

namespace Call

/-- The scene after a call made with the connection `io`; a call that fails leaves the scene
as it was. -/
def apply (io : Io) (s : Scene) : Call → Scene
  | .execute text => ((Machine.execute text).run ⟨s, io⟩).2.scene
  | .run script => ((Machine.run script).run ⟨s, io⟩).2.scene
  | .init => (Machine.init.run ⟨s, io⟩).2.scene
  | .dispatch input => ((Machine.dispatch input).run ⟨s, io⟩).2.scene
  | .drain inputs => ((Machine.drain inputs).run ⟨s, io⟩).2.scene
  | .editLine script n text =>
    match s.placeLine script n text false with
    | .ok (s', _) => s'
    | .error _ => s
  | .insertLine script n text =>
    match s.placeLine script n text true with
    | .ok (s', _) => s'
    | .error _ => s
  | .deleteLine script n => (s.deleteLine script n).toOption.getD s
  | .clearScript script => (s.clearScript script).toOption.getD s
  | .resetTransient => s.resetTransient
  | .reseed seed => s.reseed seed
  | .setDescriptionLine n text => (s.setDescriptionLine n text).toOption.getD s
  | .setMute input muted => s.setMute input muted
  | .setPolarity input p => s.setPolarity input p
  | .setCalibration c => { s with calibration := c }
  | .setFlip flip => { s with flip }
  | .setSlot slot => { s with slot }
  | .setVar n v => { s with globals := s.globals.set n v }
  | .editPattern n e => s.modifyPattern n e.apply
  | .editMidi e => { s with midi := e.apply s.midi }

theorem drain_keeps (inputs : List Input) : Keeps Scene.Stored (Machine.drain inputs) :=
  Machine.drain_keeps_of Machine.stored_entryStable inputs

theorem holds_getD {P : Scene → Prop} {r : Except Error Scene} {s : Scene} (hs : P s)
    (hr : ∀ s', r = .ok s' → P s') : P (r.toOption.getD s) := by
  cases r with
  | error e => exact hs
  | ok s' => exact hr s' rfl

theorem stored_placeLine {s : Scene} (hs : s.Stored) (script n : Nat) (text : String)
    (insert : Bool) :
    (match s.placeLine script n text insert with
      | .ok (s', _) => s'
      | .error _ => s).Stored := by
  split
  · rename_i hp
    exact hs.placeLine hp
  · exact hs

theorem stored (io : Io) {s : Scene} (hs : s.Stored) : ∀ c : Call, (c.apply io s).Stored
  | .execute text => Machine.execute_keeps text ⟨s, io⟩ hs
  | .run script => Machine.run_keeps script ⟨s, io⟩ hs
  | .init => Machine.init_keeps ⟨s, io⟩ hs
  | .dispatch input => Machine.dispatch_keeps input ⟨s, io⟩ hs
  | .drain inputs => drain_keeps inputs ⟨s, io⟩ hs
  | .editLine script n text => stored_placeLine hs script n text false
  | .insertLine script n text => stored_placeLine hs script n text true
  | .deleteLine script n => holds_getD hs fun _ => hs.deleteLine
  | .clearScript script => holds_getD hs fun _ => hs.clearScript
  | .resetTransient => hs.resetTransient
  | .reseed seed => hs.congr (by rfl)
  | .setDescriptionLine n text => holds_getD hs fun _ => hs.setDescriptionLine
  | .setMute input muted => hs.withMutes (by simp [hs.mutes_length])
  | .setPolarity input p =>
    hs.withPolarity (by simp [hs.polarity_length])
      (Scene.forall_mem_set hs.polarity (Nat.le_of_lt_succ (Nat.mod_lt p (by decide))))
  | .setCalibration c => hs.congr (by rfl)
  | .setFlip flip => hs.congr (by rfl)
  | .setSlot slot => hs.congr (by rfl)
  | .setVar n v => hs.withGlobals (by simp [hs.globals_length])
  | .editPattern n e => hs.modifyPattern n fun p hp => e.valid (hs.patterns p hp)
  | .editMidi e => e.stored hs

end Call

/-! ### Reachable scenes -/

/-- The scenes a caller can reach: a fresh scene, or one read from its image, changed by any
sequence of calls. -/
inductive Scene.Reachable : Scene → Prop
  | fresh (seed : UInt64) : Scene.Reachable (Scene.withSeed seed)
  | loaded {bytes : List UInt8} {s : Scene} (h : sceneOfImage bytes = .ok s) : Scene.Reachable s
  | call {s : Scene} (io : Io) (c : Call) : Scene.Reachable s → Scene.Reachable (c.apply io s)

theorem Scene.Reachable.stored {s : Scene} (h : s.Reachable) : s.Stored := by
  induction h with
  | fresh seed => exact Scene.stored_withSeed seed
  | loaded h => exact stored_of_sceneOfImage h
  | call io c _ ih => exact Call.stored io ih c

theorem Scene.Reachable.calls {s : Scene} (h : s.Reachable) (io : Io) (calls : List Call) :
    (calls.foldl (fun s c => c.apply io s) s).Reachable := by
  induction calls generalizing s with
  | nil => exact h
  | cons c calls ih => exact ih (h.call io c)

/-- A session: the image of a fresh scene is loaded, script 1 is given `CV 1 X` and
`DEL 100: TR.P 1`, the live line sets `X` to 5 and stacks `SCRIPT 1`, script 1 runs, and a
note-on arrives once note-ons are bound to script 2. It is left with stored lines, a pending
delay, a stacked command and a note in its MIDI batch. -/
def Scene.session : Scene :=
  [Call.editLine 0 0 "CV 1 X", .editLine 0 1 "DEL 100: TR.P 1", .execute "X 5",
    .execute "S: SCRIPT 1", .run 0, .editMidi (.bind .noteOn (some 1)),
    .dispatch (.midi (.noteOn 0 60 100))].foldl (fun s c => c.apply Io.silent s)
    (Fields.ofScene (Scene.withSeed 0)).scene

theorem Scene.reachable_session : Scene.session.Reachable :=
  (Reachable.loaded (sceneOfImage_sceneImage (Scene.stored_withSeed 0) (by decide))).calls _ _

/-- **Images round-trip.** A reachable scene whose calibration is valid reads back from its
image as itself, as stored; from its layout 1 image it reads back as itself with the
description lines empty, every MIDI binding unbound and the divider one. -/
theorem Scene.Reachable.image_round_trip {s : Scene} (h : s.Reachable)
    (hc : s.calibration.isValid = true) :
    (∃ s', sceneOfImage (sceneImage s) = .ok s' ∧ s'.samePersisted s = true) ∧
    (∃ bytes s', sceneImageVersion s 1 = .ok bytes ∧ sceneOfImage bytes = .ok s' ∧
      s'.persisted = { s.persisted with
        description := List.replicate Scene.descriptionLines "",
        bindings := List.replicate Midi.kinds (-1),
        clockDiv := 1 }) := by
  have hs := h.stored
  constructor
  · refine ⟨_, sceneOfImage_sceneImage hs hc, ?_⟩
    rw [Scene.samePersisted_iff]
    exact Fields.scene_ofScene_persisted hs
  · obtain ⟨bytes, hb, hl⟩ := sceneOfImage_firstLayout hs hc
    exact ⟨bytes, _, hb, hl, Fields.scene_firstLayout_persisted hs⟩

/-- The session's scene, with its two stored lines, round-trips through both layouts. -/
theorem session_round_trip :
    Scene.session.Reachable ∧ (Scene.session.scripts[0]?.map (·.lines.length)) = some 2 ∧
    Scene.session.calibration.isValid = true ∧
    (∃ s', sceneOfImage (sceneImage Scene.session) = .ok s' ∧
      s'.samePersisted Scene.session = true) ∧
    (∃ bytes s', sceneImageVersion Scene.session 1 = .ok bytes ∧
      sceneOfImage bytes = .ok s' ∧
      s'.persisted = { Scene.session.persisted with
        description := List.replicate Scene.descriptionLines "",
        bindings := List.replicate Midi.kinds (-1),
        clockDiv := 1 }) :=
  ⟨Scene.reachable_session, by decide +kernel, by decide +kernel,
    Scene.Reachable.image_round_trip Scene.reachable_session (by decide +kernel)⟩

end TriggerScript
