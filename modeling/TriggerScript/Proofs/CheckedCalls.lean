import TriggerScript.Proofs.CheckedEntries
import TriggerScript.Proofs.CheckedRecord
/-!
No call a caller can make stops the program.

A call is an entry point, whose checked run is `Machine.Checked`'s, or an editor, a setter or
a method of a pattern or of the MIDI state, which makes the checks of the methods it calls:
placing a line compiles it, resetting the run state rewinds every pattern, a pattern method
makes its own, and taking a MIDI message makes its own. From a reachable scene every call
stops nothing and ends in the scene `Call.apply` computes, as long as the counters kept in
machine words end within them (`checks_never_stop`). Reading any image and writing the image
of a reachable scene stop nothing either. The methods stop nothing of themselves: the pure
operators over any operands, the methods of a valid pattern and of a turtle on the grid,
taking due entries off a valid queue and scheduling while sequence numbers are left, and
reading any line or any lexemes of a text.

The other operations of the library make no checked operation of their own: bindings and
the clock divider are held to their ranges by `clamp`, and a pattern reads and writes its
slots through positions held below sixty-four.
-/

set_option autoImplicit false
set_option relaxedAutoImplicit false

namespace TriggerScript

open Checked CheckedAct

/-! ### The checks of a call -/

def PatternEdit.checks : PatternEdit → Pattern → Checked Unit
  | .setAt i _, p => p.positionChecks i
  | .step n, p => p.moveChecks n
  | .setIndex i, p => p.setIndexChecks i
  | .setStart v, p => p.setStartChecks v
  | .setFinish v, p => p.setFinishChecks v
  | .insert i _, p => p.insertChecks i
  | .remove i, p => p.removeChecks i
  | .pop, p => p.popChecks
  | .rewind, p => p.rewindChecks
  | _, _ => pure ()

/-- The checks of a MIDI method: only taking a message makes any. -/
def MidiEdit.checks : MidiEdit → Midi → Checked Unit
  | .receive msg, m => m.receiveChecks msg
  | _, _ => pure ()

def Scene.placeLineChecks (s : Scene) (script : Nat) (text : String) : Checked Unit :=
  match s.script? script with
  | .ok _ => Line.ofTextChecks text
  | .error _ => pure ()

def Scene.resetTransientChecks (s : Scene) : Checked Unit := forM s.patterns Pattern.rewindChecks

namespace Call

def endScene {α : Type} (m : CheckedAct α) (st : Machine) : Checked Scene :=
  (fun r => r.2.scene) <$> m.run st

/-- The checks of a call that is not an entry point, made on the scene it starts from. -/
def editChecks (s : Scene) : Call → Checked Unit
  | .editLine script _ text | .insertLine script _ text => s.placeLineChecks script text
  | .resetTransient => s.resetTransientChecks
  | .editPattern n e => e.checks (s.pattern n)
  | .editMidi e => e.checks s.midi
  | _ => pure ()

/-- A call with its checks: an entry point's checked run, or the call's checks and then the
scene it computes. -/
def checked (io : Io) (s : Scene) : Call → Checked Scene
  | .execute text => endScene (Machine.Checked.execute text) ⟨s, io⟩
  | .run script => endScene (Machine.Checked.run script) ⟨s, io⟩
  | .init => endScene Machine.Checked.init ⟨s, io⟩
  | .dispatch input => endScene (Machine.Checked.dispatch input) ⟨s, io⟩
  | .drain inputs => endScene (Machine.Checked.drain inputs) ⟨s, io⟩
  | c => do
    c.editChecks s
    pure (c.apply io s)

end Call

/-! ### No edit stops the program -/

theorem PatternEdit.checks_ok {p : Pattern} (h : p.Valid) (e : PatternEdit) : e.checks p = .ok () := by
  have hu := h.untrapped
  cases e
  case setAt i _ => exact hu.position i
  case step n => exact hu.move n
  case setIndex i => exact hu.setIndex i
  case setStart v => exact hu.setStart v
  case setFinish v => exact hu.setFinish v
  case insert i _ => exact hu.insert i
  case remove i => exact hu.remove i
  case pop => exact hu.pop
  case rewind => exact hu.rewind
  all_goals rfl

theorem MidiEdit.checks_ok {m : Midi} (hb : m.Batched) (hc : m.ClockRange) (e : MidiEdit) :
    e.checks m = .ok () := by
  cases e
  case receive msg => exact Midi.receiveChecks_ok hb hc msg
  all_goals rfl

theorem Scene.placeLineChecks_ok (s : Scene) (script : Nat) (text : String) :
    s.placeLineChecks script text = .ok () := by
  unfold Scene.placeLineChecks
  split
  · exact Line.ofTextChecks_ok text
  · rfl

theorem Scene.resetTransientChecks_ok (s : Scene) : s.resetTransientChecks = .ok () := by
  unfold Scene.resetTransientChecks
  generalize s.patterns = ps
  induction ps with
  | nil => rfl
  | cons p ps ih =>
    simp only [List.forM_cons, Pattern.rewindChecks, Pattern.clampIndexChecks_ok, ok_bind, ih]

namespace Call

theorem editChecks_ok {s : Scene} (hs : s.Sound) (c : Call) : c.editChecks s = .ok () := by
  cases c
  case editLine script _ text => exact s.placeLineChecks_ok script text
  case insertLine script _ text => exact s.placeLineChecks_ok script text
  case resetTransient => exact s.resetTransientChecks_ok
  case editPattern n e => exact e.checks_ok (hs.stored.pattern_valid n)
  case editMidi e => exact e.checks_ok hs.bounded.midi hs.clock
  all_goals rfl

theorem endScene_of_refines {α : Type} {mc : CheckedAct α} {m : Act α} (h : Refines mc m)
    {s : Scene} (hs : s.Sound) {io : Io} (hfit : (m.run ⟨s, io⟩).2.scene.CountersFit) :
    endScene mc ⟨s, io⟩ = .ok (m.run ⟨s, io⟩).2.scene := by
  rw [endScene, h.agrees ⟨s, io⟩ hs hfit]
  rfl

/-- From a sound scene every call ends in the scene `apply` computes when the counters at its
end fit. -/
theorem checked_of_sound {s : Scene} (hs : s.Sound) (io : Io) (c : Call)
    (hfit : (c.apply io s).CountersFit) : c.checked io s = .ok (c.apply io s) := by
  cases c
  case execute text => exact endScene_of_refines (Machine.Checked.refines_execute text) hs hfit
  case run script => exact endScene_of_refines (Machine.Checked.refines_run script) hs hfit
  case init => exact endScene_of_refines Machine.Checked.refines_init hs hfit
  case dispatch input => exact endScene_of_refines (Machine.Checked.refines_dispatch input) hs hfit
  case drain inputs => exact endScene_of_refines (Machine.Checked.refines_drain inputs) hs hfit
  all_goals
    show (Call.editChecks s _ >>= fun _ => pure _) = _
    rw [editChecks_ok hs]
    rfl

/-- **No call stops the program.** From a reachable scene, every call, with any readings of
the hardware, makes its checked operations without stopping and ends in the scene it
computes, as long as the counts of the statistics end within 32 bits and the delay queue's
sequence number within 64. Reading any bytes as an image, and writing the image of a
reachable scene, stop nothing. The methods stop nothing of themselves: the pure operators
over any operands, the methods of a valid pattern and of a turtle on the grid, taking due
entries off a valid queue, scheduling while sequence numbers are left, and reading the
lexemes of any text and any line. -/
theorem checks_never_stop :
    (∀ s : Scene, s.Reachable → ∀ (io : Io) (c : Call),
      (c.apply io s).CountersFit → c.checked io s = .ok (c.apply io s)) ∧
    (∀ bytes : List UInt8, Record.sceneOfImageChecked bytes = .ok (Record.sceneOfImage bytes)) ∧
    (∀ s : Scene, s.Reachable → ∀ version, Record.sceneImageChecks s version = .ok ()) ∧
    (∀ (o : Operator) (args : List Int16), o.pureChecks args = .ok ()) ∧
    (∀ p : Pattern, p.Valid → p.Untrapped) ∧
    (∀ t : Turtle, t.OnGrid → t.Untrapped) ∧
    (∀ q : DelayQueue, q.Valid → ∀ now before, q.popDueBeforeChecks now before = .ok ()) ∧
    (∀ q : DelayQueue, q.nextSeq < DelayQueue.seqLimit → q.scheduleChecks = .ok ()) ∧
    (∀ text : String,
      Command.ofLexemesChecks (lex text) = .ok () ∧ Line.ofTextChecks text = .ok ()) :=
  ⟨fun _ hr io c hfit => checked_of_sound ⟨hr.stored, hr.bounded, hr.clockRange⟩ io c hfit,
    Record.sceneOfImageChecked_eq, fun _ hr => Record.sceneImageChecks_ok hr.stored,
    Operator.pureChecks_ok, fun _ h => h.untrapped, fun _ h => h.untrapped,
    fun _ h => h.popDueBeforeChecks_ok, fun _ h => DelayQueue.scheduleChecks_ok h,
    fun text => ⟨Command.ofLexemesChecks_lex text, Line.ofTextChecks_ok text⟩⟩

/-- A scene whose first script divides: `X DIV 7 2`. -/
def dividingScene : Scene := (Call.editLine 0 0 "X DIV 7 2").apply Io.silent (Scene.withSeed 0)

/-- Running the dividing script makes its division, writes `X`, and stops nothing; the
scene's image is written, and read back, without stopping too. -/
theorem dividing_run_never_stops :
    (Call.run 0).checked Io.silent dividingScene =
        .ok ((Call.run 0).apply Io.silent dividingScene) ∧
      ((Call.run 0).apply Io.silent dividingScene).globals[23]? = some 3 ∧
      Record.sceneImageChecks dividingScene 2 = .ok () ∧
      Record.sceneOfImageChecked (Record.sceneImage dividingScene) =
        .ok (Record.sceneOfImage (Record.sceneImage dividingScene)) := by
  have hreach : dividingScene.Reachable := .call _ _ (.fresh 0)
  have hend : ((Call.run 0).apply Io.silent dividingScene).stats = {} ∧
      ((Call.run 0).apply Io.silent dividingScene).delays.nextSeq = 0 := by decide +kernel
  have hfit : ((Call.run 0).apply Io.silent dividingScene).CountersFit := by
    refine ⟨?_, ?_, ?_, ?_⟩ <;> simp only [hend.1, hend.2] <;> decide
  exact ⟨checks_never_stop.1 _ hreach Io.silent _ hfit, by decide +kernel,
    checks_never_stop.2.2.1 _ hreach 2, checks_never_stop.2.1 _⟩

end Call

end TriggerScript
