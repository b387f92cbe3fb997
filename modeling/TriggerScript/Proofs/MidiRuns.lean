import TriggerScript.Proofs.EveryLines
/-!
What runs and calls do to the MIDI state.

A script reaches the MIDI state only through `MI.CLKR`, `MI.CLKD` and `MI.$`, so a property of
the MIDI state that restarting the clock count, setting the divider and setting a binding keep
is kept by every step of a run (`midi_stable`), and so by every run of a script. Outside runs,
the entry points only receive messages and end batches, and the calls only change the MIDI state
through its methods. A property that all of these keep (`Midi.Invariant`) therefore holds of
every reachable scene once it holds of each MIDI state a scene can start with: nothing
received, any bindings and a divider in range (`Scene.Reachable.midi`).
-/

set_option autoImplicit false
set_option relaxedAutoImplicit false

namespace TriggerScript

open Act

namespace Executor

/-- A property of the MIDI state is kept by every step of a run when `MI.CLKR`, `MI.CLKD` and
`MI.$` keep it: they are the only steps that touch the MIDI state. -/
theorem midi_stable (Q : Midi → Prop) (hreset : ∀ m, Q m → Q m.resetClock)
    (hdiv : ∀ m v, Q m → Q (m.setClockDiv v))
    (hbind : ∀ m k b, Q m → Q { m with bindings := m.bindings.set k b }) :
    Stable fun s => Q s.midi where
  exhaust := Keeps.modifyScene fun _ hs => hs
  readVar f v := by
    cases v <;> simp only [readVar] <;>
    repeat (first
      | with_reducible exact Keeps.pure _
      | with_reducible exact Keeps.scene
      | with_reducible exact Keeps.get
      | with_reducible refine Keeps.bind ?_ fun _ => ?_)
  writeVar f v x := by
    cases v <;> simp only [writeVar] <;>
    first
      | exact Keeps.pure _
      | exact Keeps.bind (Keeps.modifyScene fun _ hs => hs) fun _ => Keeps.pure _
  tickEvery f n := by
    simp only [tickEvery]
    repeat (first
      | with_reducible exact Keeps.pure _
      | with_reducible exact Keeps.scene
      | with_reducible refine Keeps.bind ?_ fun _ => ?_
      | exact Keeps.modifyScene fun _ hs => hs
      | split)
  defer f body t := by
    simp only [defer]
    repeat (first
      | with_reducible exact Keeps.scene
      | with_reducible exact Keeps.ticks
      | with_reducible refine Keeps.bind ?_ fun _ => ?_
      | exact Keeps.modifyScene fun _ hs => hs
      | split)
  stackBody f body := by
    simp only [stackBody]
    refine Keeps.bind Keeps.scene fun _ => ?_
    split <;> exact Keeps.modifyScene fun _ hs => hs
  popStack := Keeps.bind Keeps.scene fun _ =>
    Keeps.bind (Keeps.modifyScene fun _ hs => hs) fun _ => Keeps.pure _
  read f o a := by
    unfold Operators.read
    refine Keeps.bind Keeps.scene fun s => ?_
    -- among the getters only `MI.CLKR` writes the MIDI state
    split <;>
      simp only [Operators.kill, Operators.calibrate, Operators.patternRead, Operators.writeCv,
        drawBetween] <;>
    repeat (first
      | with_reducible exact Keeps.pure _
      | with_reducible exact Keeps.scene
      | with_reducible exact Keeps.get
      | with_reducible exact Keeps.ticks
      | with_reducible exact Keeps.emit _
      | with_reducible refine Keeps.bind ?_ fun _ => ?_
      | with_reducible refine Keeps.forIn_list _ _ _ fun _ _ => ?_
      | exact Keeps.modifyScene fun _ hs => hs
      | exact Keeps.modifyScene fun _ hs => hreset _ hs
      | split)
  write o a v := by
    unfold Operators.write
    -- among the setters only `MI.CLKD` and `MI.$` write the MIDI state
    split <;> simp only [Operators.patternWrite, Operators.writeCv] <;>
    repeat (first
      | with_reducible exact Keeps.pure _
      | with_reducible exact Keeps.scene
      | with_reducible exact Keeps.ticks
      | with_reducible exact Keeps.emit _
      | with_reducible refine Keeps.bind ?_ fun _ => ?_
      | exact Keeps.modifyScene fun _ hs => hs
      | exact Keeps.modifyScene fun _ hs => hdiv _ _ hs
      | exact Keeps.modifyScene fun _ hs => hbind _ _ _ hs
      | split)
  abort _ hs := hs
  lastRun _ _ _ hs := hs
  rng _ _ hs := hs

end Executor

namespace Midi

/-- A property of the MIDI state that every MIDI method keeps: restarting the clock count,
setting the divider, setting a binding, receiving a message and ending a batch. -/
structure Invariant (Q : Midi → Prop) : Prop where
  resetClock : ∀ m, Q m → Q m.resetClock
  setClockDiv : ∀ m v, Q m → Q (m.setClockDiv v)
  setBinding : ∀ m k b, Q m → Q { m with bindings := m.bindings.set k b }
  receive : ∀ m msg, Q m → Q (m.receive msg).2
  endBatch : ∀ m, Q m → Q m.endBatch

variable {Q : Midi → Prop}

theorem Invariant.stable (h : Invariant Q) : Executor.Stable fun s => Q s.midi :=
  Executor.midi_stable Q h.resetClock h.setClockDiv h.setBinding

theorem Invariant.apply (h : Invariant Q) {m : Midi} (hm : Q m) (e : MidiEdit) :
    Q (e.apply m) := by
  cases e with
  | bind e script => exact h.setBinding m _ _ hm
  | setClockDiv div => exact h.setClockDiv m div hm
  | resetClock => exact h.resetClock m hm
  | receive msg => exact h.receive m msg hm

end Midi

namespace Midi

variable {Q : Midi → Prop}

theorem Invariant.entryStable (h : Invariant Q) : Machine.EntryStable fun s => Q s.midi :=
  { h.stable with
    initializing := fun _ _ hs => hs
    delays := fun _ _ hs => hs
    outputs := fun _ _ hs => hs
    keys := fun _ _ hs => hs
    receive := fun s msg hs => h.receive s.midi msg hs
    endBatch := fun s hs => h.endBatch s.midi hs }

end Midi

/-! ### Calls and reachable scenes -/

namespace Call

variable {Q : Midi → Prop}

theorem midi (hQ : Midi.Invariant Q) (io : Io) {s : Scene} (hs : Q s.midi) (c : Call) :
    Q (c.apply io s).midi := by
  cases c <;> simp only [apply]
  case execute text => exact Machine.execute_keeps_of hQ.stable text ⟨s, io⟩ hs
  case run script => exact Machine.run_keeps_of hQ.stable script ⟨s, io⟩ hs
  case init => exact Machine.init_keeps_of hQ.entryStable ⟨s, io⟩ hs
  case dispatch input => exact Machine.dispatch_keeps_of hQ.entryStable input ⟨s, io⟩ hs
  case drain inputs => exact Machine.drain_keeps_of hQ.entryStable inputs ⟨s, io⟩ hs
  case editLine script n text | insertLine script n text =>
    split
    · next hp =>
      obtain ⟨sc, rfl⟩ := Scene.placeLine_ok hp
      exact hs
    · exact hs
  case deleteLine script n =>
    refine holds_getD (P := fun s' => Q s'.midi) hs fun _ hd => ?_
    obtain ⟨sc, rfl⟩ := Scene.deleteLine_ok hd
    exact hs
  case clearScript script =>
    refine holds_getD (P := fun s' => Q s'.midi) hs fun _ hd => ?_
    rw [Scene.clearScript_ok hd]
    exact hs
  case setDescriptionLine n text =>
    refine holds_getD (P := fun s' => Q s'.midi) hs fun _ hd => ?_
    rw [Scene.setDescriptionLine_ok hd]
    exact hs
  case resetTransient => exact hQ.endBatch _ hs
  case editMidi e => exact hQ.apply hs e
  all_goals exact hs

end Call

/-- A MIDI invariant that holds of every MIDI state a scene starts with (nothing received, any
bindings and a divider in range) holds of every reachable scene. -/
theorem Scene.Reachable.midi {Q : Midi → Prop} (hQ : Midi.Invariant Q)
    (hstart : ∀ (b : List Int) (d : Nat), 1 ≤ d → d ≤ Midi.clockDivMax →
      Q { Midi.empty with bindings := b, clockDiv := d })
    {s : Scene} (h : s.Reachable) : Q s.midi := by
  induction h with
  | fresh seed => exact hstart _ 1 (Nat.le_refl 1) (by decide)
  | loaded h =>
    have hstored := Record.stored_of_sceneOfImage h
    obtain ⟨version, f, -, -, rfl, -⟩ := Record.sceneOfImage_inverts h
    exact hstart _ _ hstored.clockDiv_pos hstored.clockDiv_le
  | call io c _ ih => exact Call.midi hQ io ih c

end TriggerScript
