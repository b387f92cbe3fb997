import TriggerScript.Proofs.MidiBatches
import TriggerScript.Proofs.MidiRuns
/-!
Flushing the MIDI batches.

`midiFlush` reads the scripts due, runs each in turn, then empties the three batches and answers
how many scripts it ran. The scripts due are those bound to note-on, note-off and controller
changes whose batch is not empty, in that order, each kept at its first occurrence only
(`dueScripts_eq`): the fold that collects them appends a script only when it is not there yet.
So no script is due twice, however many kinds it is bound to. A run reaches the MIDI state only
through `MI.CLKR`, `MI.CLKD` and `MI.$`, none of which touches a batch, so every run starts on the
batches the flush started with (`forIn_runsSeeing`).
-/

set_option autoImplicit false
set_option relaxedAutoImplicit false

namespace TriggerScript

namespace Midi

/-! ### First occurrences -/

theorem nodup_eraseDups {α : Type} [BEq α] [LawfulBEq α] (l : List α) : l.eraseDups.Nodup := by
  induction l using List.reverseRecOn with
  | nil => exact List.nodup_nil
  | append_singleton l x ih =>
    rw [eraseDups_concat]
    split
    · rwa [List.append_nil]
    · next hx =>
      refine List.nodup_append.mpr ⟨ih, List.nodup_cons.mpr ⟨List.not_mem_nil, List.nodup_nil⟩,
        fun a ha b hb => ?_⟩
      rw [List.mem_singleton.mp hb]
      rintro rfl
      exact hx (List.mem_eraseDups.mp ha)

theorem foldl_firsts {α : Type} (step : List Nat → α → List Nat) (candidate : α → Option Nat)
    (hstep : ∀ acc x, step acc x = acc ++ ((candidate x).filter fun s => !acc.contains s).toList)
    (l : List α) (pre : List Nat) :
    l.foldl step pre.eraseDups = (pre ++ l.filterMap candidate).eraseDups := by
  induction l generalizing pre with
  | nil => rw [List.foldl_nil, List.filterMap_nil, List.append_nil]
  | cons x l ih =>
    rw [List.foldl_cons, hstep]
    cases hx : candidate x with
    | none =>
      rw [List.filterMap_cons_none hx, Option.filter_none, Option.toList_none, List.append_nil, ih]
    | some s =>
      -- the candidate is new exactly when it is not among the first occurrences so far
      have hnew : ((some s).filter fun s => !pre.eraseDups.contains s).toList =
          if s ∈ pre then [] else [s] := by
        by_cases hs : s ∈ pre <;> simp [Option.filter, hs]
      rw [List.filterMap_cons_some hx, hnew, ← eraseDups_concat, ih, List.append_assoc,
        List.singleton_append]

theorem foldl_firsts_nil {α : Type} (step : List Nat → α → List Nat) (candidate : α → Option Nat)
    (hstep : ∀ acc x, step acc x = acc ++ ((candidate x).filter fun s => !acc.contains s).toList)
    (l : List α) : l.foldl step [] = (l.filterMap candidate).eraseDups :=
  foldl_firsts step candidate hstep l []

/-! ### The scripts due -/

/-- Each kind with a batch and the number of events in its batch, in the order a flush takes
them. -/
def batchCounts (m : Midi) : List (MidiEvent × Nat) :=
  [(.noteOn, m.notesOn.length), (.noteOff, m.notesOff.length),
    (.controlChange, m.controls.length)]

/-- The scripts bound to the kinds whose batch is not empty, in order, repeats kept. -/
def boundScripts (m : Midi) : List Nat :=
  m.batchCounts.filterMap fun x => if 0 < x.2 then m.binding x.1 else none

/-- The scripts due are the scripts bound to a kind with a non-empty batch, each at its first
occurrence in the order note-on, note-off, controller change. -/
theorem dueScripts_eq (m : Midi) : m.dueScripts = m.boundScripts.eraseDups := by
  unfold dueScripts boundScripts batchCounts
  refine foldl_firsts_nil _ _ (fun acc x => ?_) _
  obtain ⟨e, count⟩ := x
  dsimp only
  by_cases hc : 0 < count <;> cases m.binding e with
  | none => simp [hc]
  | some s => by_cases hs : s ∈ acc <;> simp [hc, hs, Option.filter]

theorem nodup_dueScripts (m : Midi) : m.dueScripts.Nodup := by
  rw [dueScripts_eq]
  exact nodup_eraseDups _

theorem mem_dueScripts (m : Midi) (script : Nat) :
    script ∈ m.dueScripts ↔ ∃ x ∈ m.batchCounts, 0 < x.2 ∧ m.binding x.1 = some script := by
  rw [dueScripts_eq, List.mem_eraseDups, boundScripts, List.mem_filterMap]
  refine exists_congr fun x => and_congr_right fun _ => ?_
  split <;> simp [*]

example : Midi.dueScripts { Midi.empty with
    bindings := [2, 2, 5, -1, -1, -1, -1]
    notesOn := [(0, 60, 100)], notesOff := [(0, 60)], controls := [(0, 7, 1)] } = [2, 5] := by
  decide

def batches (m : Midi) :
    List (Int16 × Int16 × Int16) × List (Int16 × Int16) × List (Int16 × Int16 × Int16) :=
  (m.notesOn, m.notesOff, m.controls)

end Midi

/-! ### Running the scripts due -/

namespace Machine

open Act

theorem run_keeps_batches (b : List (Int16 × Int16 × Int16) × List (Int16 × Int16) ×
    List (Int16 × Int16 × Int16)) (script : Nat) :
    Keeps (fun s => s.midi.batches = b) (run script) :=
  run_keeps_of (Executor.midi_stable (fun m => m.batches = b) (fun _ h => h) (fun _ _ h => h)
    (fun _ _ _ h => h)) script

/-- Scripts run one after another from `st` to `st'`, each starting on a machine whose MIDI
batches are `b`. -/
inductive RunsSeeing (b : List (Int16 × Int16 × Int16) × List (Int16 × Int16) ×
    List (Int16 × Int16 × Int16)) : Machine → List Nat → Machine → Prop
  | nil (st : Machine) : RunsSeeing b st [] st
  | cons {st st' : Machine} {script : Nat} {rest : List Nat}
      (hsees : st.scene.midi.batches = b)
      (hrest : RunsSeeing b ((run script).run st).2 rest st') :
      RunsSeeing b st (script :: rest) st'

theorem act_run_bind {α β : Type} (x : Act α) (f : α → Act β) (st : Machine) :
    (x >>= f).run st = (f (x.run st).1).run (x.run st).2 := rfl

theorem forIn_runsSeeing (scripts : List Nat) (st : Machine)
    {b : List (Int16 × Int16 × Int16) × List (Int16 × Int16) × List (Int16 × Int16 × Int16)}
    (hb : st.scene.midi.batches = b) :
    ∃ st', RunsSeeing b st scripts st' ∧
      (forIn scripts PUnit.unit fun script _ => do
        let _ ← run script
        pure (ForInStep.yield PUnit.unit)).run st = (PUnit.unit, st') := by
  induction scripts generalizing st with
  | nil => exact ⟨st, .nil st, rfl⟩
  | cons script rest ih =>
    obtain ⟨st', hruns, hloop⟩ := ih _ (run_keeps_batches b script st hb)
    refine ⟨st', .cons hb hruns, ?_⟩
    simp only [List.forIn_cons, bind_assoc, pure_bind]
    rw [act_run_bind]
    exact hloop

/-- **A flush runs each due script once.** The scripts due are the scripts bound to note-on,
note-off and controller changes whose batch is not empty, each at its first occurrence in that
order, so each once however many kinds it is bound to. The flush runs exactly these, in that
order, each starting on the batches as they were when the flush began; it then empties the three
batches and answers the number of scripts it ran. -/
theorem midiFlush_runs_due_once (st : Machine) :
    let m := st.scene.midi
    m.dueScripts = m.boundScripts.eraseDups ∧ m.dueScripts.Nodup ∧
      (∀ script, script ∈ m.dueScripts ↔
        ∃ x ∈ m.batchCounts, 0 < x.2 ∧ m.binding x.1 = some script) ∧
      ∃ st', RunsSeeing m.batches st m.dueScripts st' ∧
        midiFlush.run st = (m.dueScripts.length,
          ⟨{ st'.scene with midi := st'.scene.midi.endBatch }, st'.io⟩) ∧
        (midiFlush.run st).2.scene.midi.batches = ([], [], []) := by
  dsimp only
  obtain ⟨st', hruns, hloop⟩ := forIn_runsSeeing st.scene.midi.dueScripts st rfl
  have hflush : midiFlush.run st = (st.scene.midi.dueScripts.length,
      ⟨{ st'.scene with midi := st'.scene.midi.endBatch }, st'.io⟩) := by
    unfold midiFlush
    rw [run_scene_bind, act_run_bind, hloop]
    rfl
  refine ⟨st.scene.midi.dueScripts_eq, st.scene.midi.nodup_dueScripts,
    st.scene.midi.mem_dueScripts, st', hruns, hflush, ?_⟩
  rw [hflush]
  rfl

end Machine

end TriggerScript
