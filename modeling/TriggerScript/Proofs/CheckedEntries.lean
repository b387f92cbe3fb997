import TriggerScript.Proofs.CheckedSteps
/-!
The entry points stop nothing from a sound scene while the counters have room.

Each entry point is a run of scripts or of delayed commands around a few steps of its own:
raising and lowering the `INIT` flag, taking the first due entry off the delay queue, taking a
MIDI message, ending a MIDI batch, ending a trigger pulse and pressing a grid key. A step of
its own keeps the scene sound and lowers no counter; the ones that write back what they read
from the scene (the queue after a pop, the MIDI state after a message) do so from that scene,
which `RefinesFrom` follows. Taking an entry off a valid queue finds it in its slot, and a
message is taken by a clock in range and batches within their limit.
-/

set_option autoImplicit false
set_option relaxedAutoImplicit false

namespace TriggerScript

open Act Checked CheckedAct

/-! ### The entry points' own steps keep a scene sound -/

namespace Scene.Sound

variable {s : Scene} (hs : s.Sound)
include hs

theorem withInitializing (b : Bool) : { s with initializing := b }.Sound :=
  ⟨Machine.stored_entryStable.initializing s b hs.stored, hs.bounded.congr rfl, hs.clock⟩

theorem withDelays {q : DelayQueue} (hq : q.Valid) : { s with delays := q }.Sound :=
  ⟨Machine.stored_entryStable.delays s q hs.stored, hs.bounded.withDelays hq, hs.clock⟩

theorem receive (msg : MidiMessage) : { s with midi := (s.midi.receive msg).2 }.Sound :=
  ⟨hs.stored.receive msg, hs.bounded.withMidi (hs.bounded.midi.receive msg), hs.clock.receive msg⟩

theorem endBatch : { s with midi := s.midi.endBatch }.Sound :=
  ⟨Machine.stored_entryStable.endBatch s hs.stored,
    hs.bounded.withMidi (Midi.batched_endBatch _),
    Midi.clockRange_invariant.entryStable.endBatch s hs.clock⟩

end Scene.Sound

theorem Machine.dispatch_sound (i : Input) : Keeps Scene.Sound (Machine.dispatch i) :=
  .sound (Machine.dispatch_keeps_of Machine.stored_entryStable i) (Machine.dispatch_logs i).keeps
    (Machine.dispatch_keeps_of Midi.clockRange_invariant.entryStable i)

theorem Machine.pulseEnd_grows (ch : Nat) : Moves Grows (Machine.pulseEnd ch) := by
  unfold Machine.pulseEnd
  repeat (first
    | with_reducible exact grows_chains.pure _
    | with_reducible exact grows_chains.scene
    | with_reducible refine grows_chains.bind ?_ fun _ => ?_
    | with_reducible exact Moves.emit fun st => .refl st.scene
    | exact Moves.modifyScene fun _ => .same rfl rfl rfl rfl
    | split)

theorem Machine.gridPress_grows (x y : Nat) (pressed : Bool) :
    Moves Grows (Machine.gridPress x y pressed) := by
  unfold Machine.gridPress
  repeat (first
    | with_reducible exact grows_chains.pure _
    | with_reducible refine grows_chains.bind ?_ fun _ => ?_
    | with_reducible exact Moves.emit fun st => .refl st.scene
    | exact Moves.modifyScene fun _ => .same rfl rfl rfl rfl
    | split)

/-! ### The entry points -/

namespace Machine.Checked

open Executor.Checked

theorem refines_initializing (b : Bool) :
    Refines (modifyScene fun s => { s with initializing := b })
      (Act.modifyScene fun s => { s with initializing := b }) :=
  .lift (Keeps.modifyScene fun _ hs => hs.withInitializing b)
    (Moves.modifyScene fun _ => .same rfl rfl rfl rfl)

theorem refines_endBatch :
    Refines (modifyScene fun s => { s with midi := s.midi.endBatch })
      (Act.modifyScene fun s => { s with midi := s.midi.endBatch }) :=
  .lift (Keeps.modifyScene fun _ hs => hs.endBatch) (Moves.modifyScene fun _ => .same rfl rfl rfl rfl)

theorem refines_run (script : Nat) : Refines (run script) (Machine.run script) := by
  unfold run Machine.run
  repeat (first
    | with_reducible exact Refines.pure _
    | with_reducible exact refines_scene
    | with_reducible exact (refinesAt _).runAt _ _
    | with_reducible refine Refines.bind ?_ fun _ => ?_
    | split)

theorem refines_execute (text : String) : Refines (execute text) (Machine.execute text) := by
  unfold execute Machine.execute
  refine Refines.check_bind (Line.ofTextChecks_ok text) ?_
  dsimp only
  cases (Line.ofText text).error with
  | some e => exact Refines.pure _
  | none => exact Refines.bind ((refinesAt _).exec _ _) fun _ => Refines.pure _

theorem refines_init : Refines init Machine.init := by
  unfold init Machine.init
  exact Refines.bind (refines_initializing _) fun _ => Refines.bind (refines_run _) fun _ =>
    Refines.bind (refines_initializing _) fun _ => Refines.pure _

theorem refines_trigger (input : Nat) (rising : Bool) :
    Refines (trigger input rising) (Machine.trigger input rising) := by
  unfold trigger Machine.trigger
  repeat (first
    | with_reducible exact Refines.pure _
    | with_reducible exact refines_scene
    | with_reducible exact refines_run _
    | with_reducible refine Refines.bind ?_ fun _ => ?_
    | dsimp only
    | split)

theorem refines_metroTick : Refines metroTick Machine.metroTick := by
  unfold metroTick Machine.metroTick
  repeat (first
    | with_reducible exact Refines.pure _
    | with_reducible exact refines_scene
    | with_reducible exact refines_run _
    | with_reducible refine Refines.bind ?_ fun _ => ?_
    | split)

/-- Firing due delays: each entry is taken out of its slot of a valid queue, and the queue
written back is valid with the same sequence number. -/
theorem refines_fireDue (now : UInt32) (before : Nat) :
    ∀ count fired, Refines (fireDue now before count fired) (Machine.fireDue now before count fired)
  | 0, fired => Refines.pure fired
  | count + 1, fired => by
    rw [fireDue, Machine.fireDue]
    refine Refines.scene_bind fun s hs => ?_
    refine RefinesFrom.check_bind (hs.bounded.delays.popDueBeforeChecks_ok now before) ?_
    have hq : (s.delays.popDueBefore now before).2.Valid := hs.bounded.delays.popDueBefore
    have hseq := DelayQueue.nextSeq_popDueBefore s.delays now before
    rcases hpop : s.delays.popDueBefore now before with ⟨_ | e, q⟩
    · exact (Refines.pure _).from hs
    · rw [hpop] at hq hseq
      refine RefinesFrom.bind (.modifyScene (hs.withDelays hq)
        ⟨Nat.le_refl _, Nat.le_refl _, Nat.le_refl _, Nat.le_of_eq hseq.symm⟩) fun _ => ?_
      exact Refines.bind ((refinesAt _).exec _ _) fun _ => refines_fireDue now before count _

theorem refines_advanceDelays (now : UInt32) :
    Refines (advanceDelays now) (Machine.advanceDelays now) :=
  Refines.bind refines_scene fun _ => refines_fireDue now _ _ _

/-- Taking a MIDI message: a clock in range adds one in eight bits, and a controller change
finds its batch within its limit. -/
theorem refines_midiIn (msg : MidiMessage) : Refines (midiIn msg) (Machine.midiIn msg) := by
  unfold midiIn Machine.midiIn
  refine Refines.scene_bind fun s hs => ?_
  refine RefinesFrom.check_bind (Midi.receiveChecks_ok hs.bounded.midi hs.clock msg) ?_
  have hm := hs.receive msg
  rcases hrec : s.midi.receive msg with ⟨r, m⟩
  simp only [hrec] at hm
  refine RefinesFrom.bind (.modifyScene hm (.same rfl rfl rfl rfl)) fun _ => ?_
  cases r with
  | run script => exact Refines.bind (refines_run _) fun _ => Refines.pure _
  | kept => exact Refines.pure _
  | dropped => exact Refines.pure _

theorem refines_midiFlush : Refines midiFlush Machine.midiFlush := by
  unfold midiFlush Machine.midiFlush
  refine Refines.bind refines_scene fun _ => ?_
  refine Refines.bind (Refines.forIn_list _ _ fun _ _ =>
    Refines.bind (refines_run _) fun _ => Refines.pure _) fun _ => ?_
  exact Refines.bind refines_endBatch fun _ => Refines.pure _

theorem refines_dispatch (i : Input) : Refines (dispatch i) (Machine.dispatch i) := by
  cases i with
  | trigger input rising =>
    exact Refines.bind (refines_trigger input rising) fun _ => Refines.pure _
  | tick now => exact Refines.bind (refines_advanceDelays now) fun _ => Refines.pure _
  | metro => exact Refines.bind refines_metroTick fun _ => Refines.pure _
  | pulseEnd ch => exact .lift (Machine.dispatch_sound (.pulseEnd ch)) (Machine.pulseEnd_grows ch)
  | gridKey x y pressed =>
    exact .lift (Machine.dispatch_sound (.gridKey x y pressed)) (Machine.gridPress_grows x y pressed)
  | midi msg => exact refines_midiIn msg
  | midiFlush => exact Refines.bind refines_midiFlush fun _ => Refines.pure _

theorem refines_drain (inputs : List Input) : Refines (drain inputs) (Machine.drain inputs) :=
  Refines.bind (Refines.forIn_list _ _ fun i _ =>
    Refines.bind (refines_dispatch i) fun _ => Refines.pure _) fun _ => Refines.pure _

end Machine.Checked

end TriggerScript
