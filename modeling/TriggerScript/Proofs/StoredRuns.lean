import TriggerScript.Machine.Entry
import TriggerScript.Record.Scene
import TriggerScript.Proofs.RunInvariant
import TriggerScript.Proofs.StoredState
/-!
Runs keep a scene stored.

The executor's primitive steps keep a scene stored (`Scene.Stored`): the steps that write a
stored field hold the value to its range, and the others leave the stored part alone
(`stored_stable`). So every run of every command and script does (`kept`). A property kept by
every step of a run and by the entry points' own changes (`EntryStable`) is kept by every entry
point: starting a scene, running or executing, and handling each input; being stored is one.
-/

set_option autoImplicit false
set_option relaxedAutoImplicit false

namespace TriggerScript

open Act Executor

/-! ### MIDI settings -/

namespace Midi

theorem setClockDiv_clockDiv (m : Midi) (d : Int16) :
    1 ≤ (m.setClockDiv d).clockDiv ∧ (m.setClockDiv d).clockDiv ≤ clockDivMax := by
  simp only [setClockDiv, clockDivMax]
  omega

theorem bind_bindings (m : Midi) (e : MidiEvent) (script : Option Nat) {b : Int}
    (hb : b ∈ (m.bind e script).bindings) (hm : ∀ b ∈ m.bindings, -1 ≤ b ∧ b < scriptCount) :
    -1 ≤ b ∧ b < scriptCount := by
  refine Scene.forall_mem_set hm ?_ b hb
  split
  · split <;> omega
  · decide

theorem receive_stored (m : Midi) (msg : MidiMessage) :
    (m.receive msg).2.bindings = m.bindings ∧ (m.receive msg).2.clockDiv = m.clockDiv := by
  cases msg <;> simp only [receive, receiveNoteOn, receiveNoteOff, receiveControl] <;>
    repeat (first | split | exact ⟨rfl, rfl⟩ | exact ⟨trivial, trivial⟩)

end Midi

namespace Scene

variable {s : Scene}

theorem Stored.setClockDiv (h : s.Stored) (d : Int16) :
    { s with midi := s.midi.setClockDiv d }.Stored :=
  h.withMidi h.bindings_length h.bindings (Midi.setClockDiv_clockDiv _ d).1
    (Midi.setClockDiv_clockDiv _ d).2

theorem Stored.bindMidi (h : s.Stored) (e : MidiEvent) (script : Option Nat) :
    { s with midi := s.midi.bind e script }.Stored :=
  h.withMidi (by simp [Midi.bind, h.bindings_length])
    (fun _ hb => Midi.bind_bindings _ e script hb h.bindings) h.clockDiv_pos h.clockDiv_le

theorem Stored.setGridLed (h : s.Stored) (x y level : Nat) : (s.setGridLed x y level).Stored :=
  h.congr rfl

theorem Stored.clearData (h : s.Stored) :
    { s with globals := List.replicate varCount 0,
             patterns := List.replicate patternCount Pattern.empty }.Stored :=
  (h.withGlobals (g := List.replicate varCount 0) (by simp)).withPatterns (by simp)
    (by simp [Pattern.valid_empty])

theorem Stored.receive (h : s.Stored) (msg : MidiMessage) :
    { s with midi := (s.midi.receive msg).2 }.Stored :=
  h.withMidiSame (Midi.receive_stored _ msg).1 (Midi.receive_stored _ msg).2

end Scene

namespace Operators

theorem patternRead_keeps (n : Nat) (p : PatternOp) (a : List Int16) :
    Keeps Scene.Stored (patternRead n p a) := by
  unfold patternRead
  refine Triple.scene_bind fun s₀ hs₀ => ?_
  have hpat := hs₀.pattern_valid n
  have hupdate : ∀ q : Pattern, q.Valid → ∀ v : Int16,
      Triple (fun s => s.Stored ∧ s = s₀)
        (do Act.modifyScene fun s => s.modifyPattern n fun _ => q; return v) fun _ => Scene.Stored :=
    fun q hq v => Triple.bind (Triple.modifyScene fun s hs => hs.1.modifyPattern n fun _ _ => hq)
      fun _ => Triple.pure fun _ hs => hs
  -- The operations that move the cursor or the data return a value and the moved pattern;
  -- naming the pair keeps the moved pattern a variable.
  have hmoved : ∀ (r : Int16 × Pattern), r.2.Valid → Triple (fun s => s.Stored ∧ s = s₀)
      (do Act.modifyScene fun s => s.modifyPattern n fun _ => r.2; return r.1)
      fun _ => Scene.Stored := fun r hq => hupdate r.2 hq r.1
  cases p
  case next => exact hmoved _ (hpat.step 1)
  case prev => exact hmoved _ (hpat.step (-1))
  case step => exact hmoved _ (hpat.step _)
  case ins => exact hupdate _ (hpat.insert _ _) _
  case rm => exact hmoved _ (hpat.remove _)
  case push => exact hupdate _ (hpat.push _) _
  case pop => exact hmoved _ hpat.pop
  case rnd =>
    refine Triple.ite (Triple.pure fun _ hs => hs.1) ?_
    split
    exact Triple.bind (Triple.modifyScene fun s hs => hs.1.congr (by rfl)) fun _ =>
      Triple.pure fun _ hs => hs
  all_goals exact Triple.pure fun _ hs => hs.1

theorem patternWrite_keeps (n : Nat) (p : PatternOp) (a : List Int16) (v : Int16) :
    Keeps Scene.Stored (patternWrite n p a v) :=
  Keeps.modifyScene fun s hs => hs.modifyPattern n fun q hq => by
    have h := hs.patterns q hq
    cases p
    case value => exact h.setAt _ _
    case len => exact h.setLen _
    case wrap => exact h.setWrap _
    case start => exact h.setStart _
    case finish => exact h.setFinish _
    case index => exact h.setIndex _
    case here => exact h.set _
    all_goals exact h

theorem read_keeps (f : Frame) (o : Operator) (a : List Int16) :
    Keeps Scene.Stored (read f o a) := by
  unfold read
  refine Keeps.bind Keeps.scene fun s => ?_
  split <;> simp only [kill, calibrate, writeCv, drawBetween] <;>
  repeat (first
    | with_reducible exact Keeps.pure _
    | with_reducible exact Keeps.scene
    | with_reducible exact Keeps.get
    | with_reducible exact Keeps.ticks
    | with_reducible exact Keeps.emit _
    | with_reducible exact patternRead_keeps _ _ _
    | with_reducible refine Keeps.bind ?_ fun _ => ?_
    | with_reducible refine Keeps.forIn_list _ _ _ fun _ _ => ?_
    | with_reducible exact Keeps.modifyScene fun _ (hs : Scene.Stored _) => hs.congr (by rfl)
    | exact Keeps.modifyScene fun _ (hs : Scene.Stored _) => hs.withPatterns (by simp [hs.patterns_length])
        (Scene.forall_mem_set hs.patterns Pattern.valid_empty)
    | exact Keeps.modifyScene fun _ (hs : Scene.Stored _) => hs.withPatterns (by simp [Scene.patternCount])
        (by simp [Pattern.valid_empty])
    | with_reducible exact Keeps.modifyScene fun _ (hs : Scene.Stored _) => hs.clearData
    | exact Keeps.modifyScene fun _ (hs : Scene.Stored _) => hs.withMidiSame rfl rfl
    | split)

theorem binding_range (v : Int16) (b : Int) (hb : b = match channel v Scene.scriptCount with
      | some s => (s : Int)
      | none => -1) : -1 ≤ b ∧ b < Midi.scriptCount := by
  subst hb
  unfold channel
  by_cases h : 1 ≤ v.toInt ∧ v.toInt ≤ (Scene.scriptCount : Nat)
  · simp only [if_pos h]
    have hk : v.toInt.toNat - 1 < Midi.scriptCount := by
      simp only [Scene.scriptCount, Midi.scriptCount] at *
      omega
    exact ⟨by omega, by exact_mod_cast hk⟩
  · simp only [if_neg h, Midi.scriptCount]
    omega

theorem write_keeps (o : Operator) (a : List Int16) (v : Int16) :
    Keeps Scene.Stored (write o a v) := by
  unfold write
  split <;> simp only [writeCv] <;>
  repeat (first
    | with_reducible exact Keeps.pure _
    | with_reducible exact Keeps.scene
    | with_reducible exact Keeps.ticks
    | with_reducible exact Keeps.emit _
    | with_reducible exact patternWrite_keeps _ _ _ _
    | with_reducible refine Keeps.bind ?_ fun _ => ?_
    | with_reducible exact Keeps.modifyScene fun _ (hs : Scene.Stored _) => hs.congr (by rfl)
    | exact Keeps.modifyScene fun _ (hs : Scene.Stored _) => hs.withPolarity (by simp [hs.polarity_length])
        (Scene.forall_mem_set hs.polarity (by omega))
    | exact Keeps.modifyScene fun _ (hs : Scene.Stored _) => hs.withMutes (by simp [hs.mutes_length])
    | with_reducible exact Keeps.modifyScene fun _ (hs : Scene.Stored _) => hs.setGridLed _ _ _
    | exact Keeps.modifyScene fun _ (hs : Scene.Stored _) => hs.setClockDiv _
    | exact Keeps.modifyScene fun _ (hs : Scene.Stored _) => hs.withMidiSame rfl rfl
    | exact Keeps.modifyScene fun _ (hs : Scene.Stored _) => hs.withMidi (by simp [hs.bindings_length])
        (Scene.forall_mem_set hs.bindings (binding_range _ _ rfl)) hs.clockDiv_pos hs.clockDiv_le
    | split)

end Operators

namespace Executor

/-- Every primitive step of a run keeps a scene stored: the steps that write a stored field
hold the value to its range, and the rest leave the stored part alone. -/
theorem stored_stable : Stable Scene.Stored where
  exhaust := Keeps.modifyScene fun _ (hs : Scene.Stored _) => hs.congr (by rfl)
  readVar f v := by
    cases v <;> simp only [readVar] <;>
    repeat (first
      | with_reducible exact Keeps.pure _
      | with_reducible exact Keeps.scene
      | with_reducible exact Keeps.get
      | with_reducible refine Keeps.bind ?_ fun _ => ?_)
  writeVar f v x := by
    cases v <;> simp only [writeVar]
    · exact Keeps.bind (Keeps.modifyScene fun _ (hs : Scene.Stored _) => hs.withGlobals (by simp [hs.globals_length]))
        fun _ => Keeps.pure _
    · exact Keeps.pure _
    · exact Keeps.bind (Keeps.modifyScene fun _ (hs : Scene.Stored _) => hs.modifyPattern _ fun p hp =>
        (hs.patterns p hp).set _) fun _ => Keeps.pure _
    · exact Keeps.pure _
  tickEvery f n := by
    simp only [tickEvery]
    repeat (first
      | with_reducible exact Keeps.pure _
      | with_reducible exact Keeps.scene
      | with_reducible refine Keeps.bind ?_ fun _ => ?_
      | with_reducible exact Keeps.modifyScene fun _ (hs : Scene.Stored _) => hs.congr (by rfl)
      | split)
  defer f body t := by
    simp only [defer]
    repeat (first
      | with_reducible exact Keeps.scene
      | with_reducible exact Keeps.ticks
      | with_reducible refine Keeps.bind ?_ fun _ => ?_
      | with_reducible exact Keeps.modifyScene fun _ (hs : Scene.Stored _) => hs.congr (by rfl)
      | split)
  stackBody f body := by
    simp only [stackBody]
    refine Keeps.bind Keeps.scene fun _ => ?_
    split <;> exact Keeps.modifyScene fun _ (hs : Scene.Stored _) => hs.congr (by rfl)
  popStack := Keeps.bind Keeps.scene fun _ =>
    Keeps.bind (Keeps.modifyScene fun _ (hs : Scene.Stored _) => hs.congr (by rfl)) fun _ => Keeps.pure _
  read := Operators.read_keeps
  write := Operators.write_keeps
  abort _ hs := hs.congr (by rfl)
  lastRun _ _ _ hs := hs.congr (by rfl)
  rng _ _ hs := hs.congr (by rfl)

end Executor

/-! ### Entry points -/

namespace Machine

theorem stored_kept (n : Nat) : Kept Scene.Stored n := kept stored_stable n

section Stable

variable {I : Scene → Prop}

theorem run_keeps_of (h : Stable I) (script : Nat) : Keeps I (run script) := by
  unfold run
  repeat (first
    | with_reducible exact Keeps.pure _
    | with_reducible exact Keeps.scene
    | with_reducible exact (kept h _).runAt _ _
    | with_reducible refine Keeps.bind ?_ fun _ => ?_
    | split)

theorem execute_keeps_of (h : Stable I) (text : String) : Keeps I (execute text) := by
  unfold execute
  dsimp only
  repeat (first
    | with_reducible exact Keeps.pure _
    | with_reducible exact (kept h _).exec _ _
    | with_reducible refine Keeps.bind ?_ fun _ => ?_
    | split)

end Stable

/-- A property of scenes kept by every step of a run and by what the entry points do besides
running: raising and lowering the `INIT` flag, taking a delay off the queue, ending a trigger
pulse, pressing a grid key, taking a MIDI message and ending a MIDI batch. -/
structure EntryStable (I : Scene → Prop) : Prop extends Stable I where
  initializing : ∀ s b, I s → I { s with initializing := b }
  delays : ∀ s q, I s → I { s with delays := q }
  outputs : ∀ s o, I s → I { s with outputs := o }
  keys : ∀ s k, I s → I { s with keys := k }
  receive : ∀ s msg, I s → I { s with midi := (s.midi.receive msg).2 }
  endBatch : ∀ s, I s → I { s with midi := s.midi.endBatch }

section Entry

variable {I : Scene → Prop} (h : EntryStable I)
include h

theorem init_keeps_of : Keeps I init := by
  unfold init
  repeat (first
    | with_reducible exact Keeps.pure _
    | with_reducible exact run_keeps_of h.toStable _
    | with_reducible refine Keeps.bind ?_ fun _ => ?_
    | with_reducible exact Keeps.modifyScene fun s hs => h.initializing s _ hs)

theorem fireDue_keeps_of (now : UInt32) (before count fired : Nat) :
    Keeps I (fireDue now before count fired) := by
  induction count generalizing fired with
  | zero => exact Keeps.pure _
  | succ count ih =>
    simp only [fireDue]
    repeat (first
      | with_reducible exact Keeps.pure _
      | with_reducible exact Keeps.scene
      | with_reducible exact (kept h.toStable _).exec _ _
      | with_reducible exact ih _
      | with_reducible refine Keeps.bind ?_ fun _ => ?_
      | with_reducible exact Keeps.modifyScene fun s hs => h.delays s _ hs
      | split)

theorem midiIn_keeps_of (msg : MidiMessage) : Keeps I (midiIn msg) := by
  unfold midiIn
  refine Triple.scene_bind fun s₀ _ => ?_
  split
  rename_i r m heq
  refine Triple.bind (Q := fun _ => I) (Triple.modifyScene fun s hs => ?_) fun _ => ?_
  · obtain ⟨hs, rfl⟩ := hs
    have hm : m = (s.midi.receive msg).2 := by rw [heq]
    exact hm ▸ h.receive s msg hs
  · split
    · exact Keeps.bind (run_keeps_of h.toStable _) fun _ => Keeps.pure _
    · exact Keeps.pure _

theorem midiFlush_keeps_of : Keeps I midiFlush := by
  unfold midiFlush
  refine Keeps.bind Keeps.scene fun _ => ?_
  refine Keeps.bind (Keeps.forIn_list _ _ _ fun _ _ =>
    Keeps.bind (run_keeps_of h.toStable _) fun _ => Keeps.pure _) fun _ => ?_
  exact Keeps.bind (Keeps.modifyScene fun s hs => h.endBatch s hs) fun _ => Keeps.pure _

theorem dispatch_keeps_of (i : Input) : Keeps I (dispatch i) := by
  cases i <;> simp only [dispatch, trigger, metroTick, pulseEnd, gridPress, advanceDelays]
  case midi msg => exact midiIn_keeps_of h msg
  case midiFlush => exact Keeps.bind (midiFlush_keeps_of h) fun _ => Keeps.pure _
  all_goals
    repeat (first
      | with_reducible exact Keeps.pure _
      | with_reducible exact Keeps.scene
      | with_reducible exact Keeps.emit _
      | with_reducible exact run_keeps_of h.toStable _
      | with_reducible exact fireDue_keeps_of h _ _ _ _
      | with_reducible refine Keeps.bind ?_ fun _ => ?_
      | with_reducible exact Keeps.modifyScene fun s hs => h.outputs s _ hs
      | with_reducible exact Keeps.modifyScene fun s hs => h.keys s _ hs
      | split)

theorem drain_keeps_of (inputs : List Input) : Keeps I (drain inputs) :=
  Keeps.bind (Keeps.forIn_list _ _ _ fun i _ =>
    Keeps.bind (dispatch_keeps_of h i) fun _ => Keeps.pure _) fun _ => Keeps.pure _

end Entry

/-- The entry points' own changes leave the stored part alone, and a MIDI message leaves the
bindings and the divider as they are. -/
theorem stored_entryStable : EntryStable Scene.Stored :=
  { stored_stable with
    initializing := fun _ _ hs => hs.congr (by rfl)
    delays := fun _ _ hs => hs.congr (by rfl)
    outputs := fun _ _ hs => hs.congr (by rfl)
    keys := fun _ _ hs => hs.congr (by rfl)
    receive := fun _ msg hs => hs.receive msg
    endBatch := fun _ hs => hs.withMidiSame rfl rfl }

theorem run_keeps (script : Nat) : Keeps Scene.Stored (run script) :=
  run_keeps_of stored_stable script

theorem execute_keeps (text : String) : Keeps Scene.Stored (execute text) :=
  execute_keeps_of stored_stable text

theorem init_keeps : Keeps Scene.Stored init := init_keeps_of stored_entryStable

theorem fireDue_keeps (now : UInt32) (before count fired : Nat) :
    Keeps Scene.Stored (fireDue now before count fired) :=
  fireDue_keeps_of stored_entryStable now before count fired

theorem midiIn_keeps (msg : MidiMessage) : Keeps Scene.Stored (midiIn msg) :=
  midiIn_keeps_of stored_entryStable msg

theorem midiFlush_keeps : Keeps Scene.Stored midiFlush := midiFlush_keeps_of stored_entryStable

theorem dispatch_keeps (i : Input) : Keeps Scene.Stored (dispatch i) :=
  dispatch_keeps_of stored_entryStable i

end Machine

end TriggerScript
