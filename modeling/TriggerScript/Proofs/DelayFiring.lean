import TriggerScript.Proofs.DelayOrder
import TriggerScript.Proofs.RunInvariant
/-!
Firing the delayed commands that are due.

`advanceDelays now` notes the queue's next sequence number `before` and then pops, one at a
time, the first entry due at `now` among those scheduled before `before`, running each
command at depth 0 in its own script with the loop index it captured (`Fires` records such a
run step by step). The loop is bounded by the number of entries held when it starts. The
bound never cuts it short: a run only adds entries numbered `before` or later, and only
removes others (`delays_stable`, `holds_stable`), so each pass takes one entry off a list
that was never longer than the bound. The loop therefore fires exactly the entries held at
the start that are due, less those that a fired command cancels, each once, in the order the
queue lets them leave, and none scheduled while it runs (`advanceDelays_fires_due`).
-/

set_option autoImplicit false
set_option relaxedAutoImplicit false

namespace TriggerScript

namespace Executor

open Act

/-- A property of the delay queue alone is kept by every step of a run when cancelling all
entries and scheduling one keep it: only `DEL` schedules, only `KILL` and `DEL.CLR` cancel,
and no other step touches the queue. -/
theorem delays_stable (P : DelayQueue → Prop) (hcancel : ∀ q, P q → P q.cancelAll)
    (hschedule : ∀ (q q' : DelayQueue) script index command fire, P q →
      q.schedule script index command fire = .ok q' → P q') :
    Stable fun s => P s.delays where
  exhaust := Keeps.modifyScene fun _ hs => hs
  readVar f v := by
    cases v <;> simp only [readVar] <;>
    repeat (first
      | with_reducible exact Keeps.pure _
      | with_reducible exact Keeps.scene
      | with_reducible exact Keeps.get
      | with_reducible refine Keeps.bind ?_ fun _ => ?_)
  writeVar f v x := by
    cases v <;> simp only [writeVar] <;>
    first
      | exact Keeps.pure _
      | exact Keeps.bind (Keeps.modifyScene fun _ hs => hs) fun _ => Keeps.pure _
  tickEvery f n := by
    simp only [tickEvery]
    repeat (first
      | with_reducible exact Keeps.pure _
      | with_reducible exact Keeps.scene
      | with_reducible refine Keeps.bind ?_ fun _ => ?_
      | exact Keeps.modifyScene fun _ hs => hs
      | split)
  defer f body t := by
    simp only [defer]
    refine Keeps.bind Keeps.ticks fun now => ?_
    refine Triple.scene_bind fun s₀ hs₀ => ?_
    split
    · next q hok => exact Triple.modifyScene fun _ _ => hschedule _ _ _ _ _ _ hs₀ hok
    · exact Triple.modifyScene fun _ hs => hs.1
  stackBody f body := by
    simp only [stackBody]
    refine Keeps.bind Keeps.scene fun _ => ?_
    split <;> exact Keeps.modifyScene fun _ hs => hs
  popStack := Keeps.bind Keeps.scene fun _ =>
    Keeps.bind (Keeps.modifyScene fun _ hs => hs) fun _ => Keeps.pure _
  read f o a := by
    unfold Operators.read
    refine Keeps.bind Keeps.scene fun s => ?_
    split <;>
      simp only [Operators.kill, Operators.calibrate, Operators.patternRead, Operators.writeCv,
        drawBetween] <;>
    repeat (first
      | with_reducible exact Keeps.pure _
      | with_reducible exact Keeps.scene
      | with_reducible exact Keeps.get
      | with_reducible exact Keeps.ticks
      | with_reducible exact Keeps.emit _
      | with_reducible refine Keeps.bind ?_ fun _ => ?_
      | with_reducible refine Keeps.forIn_list _ _ _ fun _ _ => ?_
      | exact Keeps.modifyScene fun _ hs => hs
      | exact Keeps.modifyScene fun _ hs => hcancel _ hs
      | split)
  write o a v := by
    unfold Operators.write
    split <;> simp only [Operators.patternWrite, Operators.writeCv] <;>
    repeat (first
      | with_reducible exact Keeps.pure _
      | with_reducible exact Keeps.scene
      | with_reducible exact Keeps.ticks
      | with_reducible exact Keeps.emit _
      | with_reducible refine Keeps.bind ?_ fun _ => ?_
      | exact Keeps.modifyScene fun _ hs => hs
      | split)
  abort _ hs := hs
  lastRun _ _ _ hs := hs
  rng _ _ hs := hs

end Executor

namespace DelayQueue

variable {q q' : DelayQueue}

theorem Valid.schedule_ok {script : Nat} {index : Int16} {command : Command} {fire : UInt32}
    (hq : q.Valid) (h : q.schedule script index command fire = .ok q') :
    q'.Valid ∧ q'.nextSeq = q.nextSeq + 1 ∧ ∀ e ∈ q'.entries, e ∈ q.entries ∨ e.seq = q.nextSeq := by
  rcases Nat.lt_or_ge q.size capacity with hlt | hge
  · obtain ⟨q'', hok, hlen, hseq, hperm⟩ := schedule_room script index command fire hq hlt
    obtain rfl : q'' = q' := Except.ok.inj (hok.symm.trans h)
    refine ⟨hq.insert_fresh hlen hseq rfl hperm, hseq, fun e he => ?_⟩
    rcases List.mem_cons.mp (hperm.mem_iff.mp he) with rfl | he
    · exact .inr rfl
    · exact .inl he
  · rw [schedule_full script index command fire hq (Nat.le_antisymm hq.size_le hge)] at h
    cases h

theorem Valid.cancelAll (hq : q.Valid) : q.cancelAll.Valid :=
  hq.of_sublist ((List.length_map _).trans hq.length_slots) rfl
    (by rw [entries_cancelAll]; exact List.nil_sublist _)

end DelayQueue

namespace Machine

open DelayQueue Executor Act

/-- The queue is valid, has handed out every number below `before`, and of its entries
numbered below `before` holds only some of `S`. -/
def Holds (before : Nat) (S : List DelayEntry) (q : DelayQueue) : Prop :=
  q.Valid ∧ before ≤ q.nextSeq ∧ ∀ e ∈ q.entries, e.seq < before → e ∈ S

theorem holds_stable (before : Nat) (S : List DelayEntry) :
    Stable fun s => Holds before S s.delays := by
  refine delays_stable _ (fun q hq => ⟨hq.1.cancelAll, hq.2.1, ?_⟩) fun q q' _ _ _ _ hq h => ?_
  · intro e he
    rw [entries_cancelAll] at he
    cases he
  · obtain ⟨hvalid, hseq, hnew⟩ := hq.1.schedule_ok h
    have hbefore := hq.2.1
    refine ⟨hvalid, by omega, fun e he hlt => ?_⟩
    rcases hnew e he with he | heq
    · exact hq.2.2 e he hlt
    · omega

/-- Running a command keeps `Holds`: it numbers new entries `before` or later and only
takes older ones away. -/
theorem exec_holds (before : Nat) (S : List DelayEntry) (f : Frame) (c : Command) :
    Keeps (fun s => Holds before S s.delays) (exec fuel f c) :=
  (kept (holds_stable before S) fuel).exec f c

/-- A run of the firing loop from `st` to `st'`, firing `fired`: each step pops the first
entry due at `now` among those scheduled before `before` and runs its command at depth 0, in
the script that owns it, with the loop index it captured; the run stops when no such entry
is left. -/
inductive Fires (now : UInt32) (before : Nat) : Machine → List DelayEntry → Machine → Prop
  | done {st : Machine} (h : (st.scene.delays.popDueBefore now before).1 = none) :
      Fires now before st [] st
  | step {st st' : Machine} {e : DelayEntry} {fired : List DelayEntry}
      (h : (st.scene.delays.popDueBefore now before).1 = some e)
      (hrest : Fires now before
        ((exec fuel { script := e.script, depth := 0, index := e.index } e.command).run
          { st with scene := { st.scene with
            delays := (st.scene.delays.popDueBefore now before).2 } }).2 fired st') :
      Fires now before st (e :: fired) st'

section Loop

variable {now : UInt32} {before : Nat}

theorem run_scene_bind {α : Type} (f : Scene → Act α) (st : Machine) :
    (Act.scene >>= f).run st = (f st.scene).run st := rfl

theorem fireDue_none {count k : Nat} {st : Machine}
    (h : (st.scene.delays.popDueBefore now before).1 = none) :
    (fireDue now before (count + 1) k).run st = (k, st) := by
  rw [fireDue, run_scene_bind]
  rcases hpop : st.scene.delays.popDueBefore now before with ⟨_ | e, q⟩
  · rfl
  · rw [hpop] at h
    cases h

theorem fireDue_some {count k : Nat} {st : Machine} {e : DelayEntry}
    (h : (st.scene.delays.popDueBefore now before).1 = some e) :
    (fireDue now before (count + 1) k).run st =
      (fireDue now before count (k + 1)).run
        ((exec fuel { script := e.script, depth := 0, index := e.index } e.command).run
          { st with scene := { st.scene with
            delays := (st.scene.delays.popDueBefore now before).2 } }).2 := by
  rw [fireDue, run_scene_bind]
  rcases hpop : st.scene.delays.popDueBefore now before with ⟨_ | e', q⟩
  · rw [hpop] at h
    cases h
  · rw [hpop] at h
    cases h
    rfl

/-- What a run of the firing loop from `st` to `st'` guarantees: it fires only due entries
held at the start, in the order they leave; what stays below the cut-off was held at the
start; every due entry held at the start is fired or gone; and nothing due is left below the
cut-off. -/
structure Firing (now : UInt32) (before : Nat) (st : Machine) (fired : List DelayEntry)
    (st' : Machine) : Prop where
  fires : Fires now before st fired st'
  mem : ∀ e ∈ fired, e ∈ st.scene.delays.entries ∧ Due now before e
  ordered : fired.Pairwise (LeavesBefore now)
  kept : ∀ e ∈ st'.scene.delays.entries, e.seq < before → e ∈ st.scene.delays.entries
  complete : ∀ e ∈ st.scene.delays.entries, Due now before e →
    e ∈ fired ∨ e ∉ st'.scene.delays.entries
  drained : ∀ e ∈ st'.scene.delays.entries, ¬ Due now before e

theorem Firing.stop {st : Machine} (hq : st.scene.delays.Valid)
    (hnone : ∀ e ∈ st.scene.delays.entries, ¬ Due now before e) : Firing now before st [] st where
  fires := .done ((popDueBefore_none_iff hq).mpr hnone)
  mem _ he := absurd he List.not_mem_nil
  ordered := List.Pairwise.nil
  kept _ he _ := he
  complete e he hdue := absurd hdue (hnone e he)
  drained := hnone

/-- The loop's run from a queue whose entries below the cut-off are among `S`, with at least
`|S|` passes left: the bound is never reached before the due entries run out. The induction
is on the passes left; each pass fires one entry of `S` and leaves the rest of `S` as the
bound for the next. -/
theorem fireDue_firing : ∀ (count k : Nat) (st : Machine) (S : List DelayEntry),
    Holds before S st.scene.delays → S.length ≤ count →
    ∃ fired st', (fireDue now before count k).run st = (k + fired.length, st') ∧
      Firing now before st fired st'
  | 0, k, st, S, hholds, hlen => by
    obtain rfl : S = [] := List.eq_nil_of_length_eq_zero (Nat.le_zero.mp hlen)
    refine ⟨[], st, rfl, Firing.stop hholds.1 fun e he hdue => ?_⟩
    exact List.not_mem_nil (hholds.2.2 e he hdue.1)
  | count + 1, k, st, S, hholds, hlen => by
    cases hpop : (st.scene.delays.popDueBefore now before).1 with
    | none =>
      refine ⟨[], st, fireDue_none hpop, Firing.stop hholds.1 ?_⟩
      exact (popDueBefore_none_iff hholds.1).mp hpop
    | some e =>
      obtain ⟨hdue, hfirst, slot, hslot, hq⟩ := popDueBefore_some hholds.1 hpop
      let q := (st.scene.delays.popDueBefore now before).2
      let st₁ : Machine := { st with scene := { st.scene with delays := q } }
      let st₂ := ((exec fuel { script := e.script, depth := 0, index := e.index } e.command).run
        st₁).2
      have hentries : q.entries = st.scene.delays.entries.erase e := by
        show (st.scene.delays.popDueBefore now before).2.entries = _
        rw [hq]
        exact entries_set_none hholds.1 hslot
      have hmem : e ∈ st.scene.delays.entries :=
        List.mem_filterMap.mpr ⟨_, List.mem_of_getElem? hslot, rfl⟩
      have hnodup := hholds.1.nodup
      have hleft : ∀ x ∈ q.entries, x ∈ st.scene.delays.entries ∧ x ≠ e := by
        intro x hx
        rw [hentries, hnodup.mem_erase_iff] at hx
        exact ⟨hx.2, hx.1⟩
      have hvalid₁ : q.Valid := hholds.1.popDueBefore
      have hseq₁ : q.nextSeq = st.scene.delays.nextSeq := nextSeq_popDueBefore _ _ _
      -- two readings of `Holds` after the command: against the rest of the bound, for the
      -- count, and against the popped queue, for where the entries come from
      have hbound : Holds before (S.erase e) st₂.scene.delays := by
        refine exec_holds before (S.erase e) _ _ st₁ ⟨hvalid₁, hseq₁ ▸ hholds.2.1, ?_⟩
        intro x hx hlt
        obtain ⟨hx, hne⟩ := hleft x hx
        exact (List.mem_erase_of_ne hne).mpr (hholds.2.2 x hx hlt)
      have hfrom : Holds before q.entries st₂.scene.delays :=
        exec_holds before q.entries _ _ st₁ ⟨hvalid₁, hseq₁ ▸ hholds.2.1, fun x hx _ => hx⟩
      have hlen' : (S.erase e).length ≤ count := by
        rw [List.length_erase_of_mem (hholds.2.2 e hmem hdue.1)]
        omega
      obtain ⟨fired, st', hrun, hrest⟩ := fireDue_firing count (k + 1) st₂ (S.erase e) hbound hlen'
      have hback : ∀ x ∈ st₂.scene.delays.entries, x.seq < before →
          x ∈ st.scene.delays.entries ∧ x ≠ e := fun x hx hlt => hleft x (hfrom.2.2 x hx hlt)
      refine ⟨e :: fired, st', ?_, ?_⟩
      · rw [fireDue_some hpop, hrun, List.length_cons]
        congr 1
        omega
      refine ⟨.step hpop hrest.fires, ?_, ?_, ?_, ?_, hrest.drained⟩
      · intro x hx
        rcases List.mem_cons.mp hx with rfl | hx
        · exact ⟨hmem, hdue⟩
        · obtain ⟨hx₂, hxdue⟩ := hrest.mem x hx
          exact ⟨(hback x hx₂ hxdue.1).1, hxdue⟩
      · refine List.pairwise_cons.mpr ⟨fun x hx => ?_, hrest.ordered⟩
        -- a later entry was held when `e` was popped, and `e` left first
        obtain ⟨hx₂, hxdue⟩ := hrest.mem x hx
        obtain ⟨hxmem, hne⟩ := hback x hx₂ hxdue.1
        exact (hfirst x hxmem hxdue).resolve_left hne
      · intro x hx hlt
        exact (hback x (hrest.kept x hx hlt) hlt).1
      · intro x hx hxdue
        by_cases hxe : x = e
        · exact .inl (hxe ▸ List.mem_cons_self)
        by_cases hx₂ : x ∈ st₂.scene.delays.entries
        · exact (hrest.complete x hx₂ hxdue).imp_left (List.mem_cons_of_mem e)
        · exact .inr fun hx' => hx₂ (hrest.kept x hx' hxdue.1)

end Loop

/-- `advanceDelays now` fires exactly the entries due at `now` that the queue `q₀` held when
it was called, less those a fired command cancels (`KILL`, `DEL.CLR`): it runs them as
`Fires` says, each in a fresh frame at depth 0 in its own script with the index it captured,
each once, the entry that fell due longest ago first and of equal ages the one scheduled
first; what is left due afterwards was scheduled while it ran; and it answers the number it
ran. -/
theorem advanceDelays_fires_due (now : UInt32) (st : Machine) (hq : st.scene.delays.Valid) :
    let q₀ := st.scene.delays
    ∃ fired st', (advanceDelays now).run st = (fired.length, st') ∧
      Fires now q₀.nextSeq st fired st' ∧
      (∀ e ∈ fired, e ∈ q₀.entries ∧ Tick.notAfter e.fire now = true) ∧
      fired.Nodup ∧ fired.Pairwise (LeavesBefore now) ∧
      (∀ e ∈ q₀.entries, Tick.notAfter e.fire now = true →
        e ∈ fired ∨ e ∉ st'.scene.delays.entries) ∧
      (∀ e ∈ st'.scene.delays.entries, Tick.notAfter e.fire now = true →
        q₀.nextSeq ≤ e.seq) := by
  intro q₀
  have hholds : Holds q₀.nextSeq q₀.entries q₀ := ⟨hq, Nat.le_refl _, fun e he _ => he⟩
  obtain ⟨fired, st', hrun, hfiring⟩ :=
    @fireDue_firing now q₀.nextSeq q₀.size 0 st q₀.entries hholds (Nat.le_refl _)
  refine ⟨fired, st', ?_, hfiring.fires, fun e he => ?_, ?_, hfiring.ordered, ?_, ?_⟩
  · rw [Nat.zero_add] at hrun
    exact hrun
  · exact ⟨(hfiring.mem e he).1, (hfiring.mem e he).2.2⟩
  · refine List.Pairwise.imp (fun {a b} hlt => ?_) hfiring.ordered
    rintro rfl
    exact LeavesBefore.irrefl now a hlt
  · intro e he hnow
    exact hfiring.complete e he ⟨hq.seq_lt e he, hnow⟩
  · intro e he hnow
    exact Nat.not_lt.mp fun hlt => hfiring.drained e he ⟨hlt, hnow⟩

/-- A machine that has scheduled `X 1` 10 ms on and then `Y 2` 5 ms on. -/
def twoDelays : Machine :=
  let st₁ := ((execute "DEL 10: X 1").run ⟨Scene.withSeed 0, Io.silent⟩).2
  ((execute "DEL 5: Y 2").run st₁).2

/-- At 20 ms both delayed commands are due: the guarantee holds of them, both fire, and each
sets its variable. -/
theorem twoDelays_fire_at_twenty :
    twoDelays.scene.delays.entries.length = 2 ∧
    (∃ fired st', (advanceDelays 20).run twoDelays = (fired.length, st') ∧
      Fires 20 twoDelays.scene.delays.nextSeq twoDelays fired st' ∧
      (∀ e ∈ fired, e ∈ twoDelays.scene.delays.entries ∧ Tick.notAfter e.fire 20 = true) ∧
      fired.Nodup ∧ fired.Pairwise (LeavesBefore 20) ∧
      (∀ e ∈ twoDelays.scene.delays.entries, Tick.notAfter e.fire 20 = true →
        e ∈ fired ∨ e ∉ st'.scene.delays.entries) ∧
      (∀ e ∈ st'.scene.delays.entries, Tick.notAfter e.fire 20 = true →
        twoDelays.scene.delays.nextSeq ≤ e.seq)) ∧
    ((advanceDelays 20).run twoDelays).1 = 2 ∧
    ((advanceDelays 20).run twoDelays).2.scene.globals[23]? = some 1 ∧
    ((advanceDelays 20).run twoDelays).2.scene.globals[24]? = some 2 := by
  have hq : twoDelays.scene.delays.Valid :=
    ⟨by decide +kernel, by decide +kernel, by decide +kernel⟩
  exact ⟨by decide +kernel, advanceDelays_fires_due 20 twoDelays hq, by decide +kernel⟩

end Machine

end TriggerScript
