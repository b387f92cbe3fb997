import TriggerScript.Proofs.RunRelation
import TriggerScript.Proofs.LineFrame
import TriggerScript.Proofs.RuntimeBounds
/-!
What the delay modifiers schedule.

A delay line tries to put its body on the delay queue once for each copy it makes. Each try
(`Scene.Attempt`) either adds one entry, owned by the script of the line's frame, with the
frame's loop index and the next sequence number, or, with sixteen delays pending, counts one
more dropped delay; nothing else changes. The copies of a line are spaced by its delay, at least
one tick, from the clock the line read: the `k`-th fires at `now + k * max t 1`, wrapping
(`spacedTicks`).

`DEL t: B` makes one try; `DEL.X n t: B` makes `n` of them, clamped to `0..=16`, and does not run
`B`; `DEL.R n t: B` runs `B` at once when it makes at least one copy and tries the others after,
with the frame `B` handed back. The run of `B` reads the clock the line read
(`Executor.exec_readings`), so all copies are spaced from one tick
(`Executor.delay_lines_attempt`).
-/

set_option autoImplicit false
set_option relaxedAutoImplicit false

namespace TriggerScript

/-! ### Tries -/

namespace Scene

/-- One try to put `body` on the delay queue of `s`, owned by `script`, with loop index `index`,
to fire at `fire`; `s'` is the scene after it. With a slot free the queue holds one entry more,
stamped with the next sequence number, and stays valid; with sixteen delays pending one more
delay is counted dropped. Nothing else changes. -/
def Attempt (script : Nat) (index : Int16) (body : Command) (fire : UInt32) (s s' : Scene) : Prop :=
  if s.delays.size < DelayQueue.capacity then
    ∃ q : DelayQueue, s' = { s with delays := q } ∧ q.Valid ∧ q.nextSeq = s.delays.nextSeq + 1 ∧
      q.entries.Perm
        ({ fire, seq := s.delays.nextSeq, script, index, command := body } :: s.delays.entries)
  else s' = { s with stats := { s.stats with droppedDelays := s.stats.droppedDelays + 1 } }

/-- Tries in turn, one for each fire tick, from `s` to `s'`. -/
inductive Attempts (script : Nat) (index : Int16) (body : Command) :
    List UInt32 → Scene → Scene → Prop
  | nil (s : Scene) : Attempts script index body [] s s
  | cons {fire : UInt32} {fires : List UInt32} {s s₁ s₂ : Scene}
      (h : Attempt script index body fire s s₁) (hs : Attempts script index body fires s₁ s₂) :
      Attempts script index body (fire :: fires) s s₂

theorem Attempt.valid {script : Nat} {index : Int16} {body : Command} {fire : UInt32}
    {s s' : Scene} (hq : s.delays.Valid) (h : Attempt script index body fire s s') :
    s'.delays.Valid := by
  unfold Attempt at h
  split at h
  · obtain ⟨q, rfl, hvalid, -⟩ := h
    exact hvalid
  · rw [h]
    exact hq

end Scene

namespace Executor

open Act

/-- The fire ticks of `m` copies spaced by `t`, at least one tick, from `now`: the `k`-th at
`now + k * max t 1` for `k = 1..m`, wrapping. -/
def spacedTicks (now : UInt32) (t : Int16) (m : Nat) : List UInt32 :=
  (List.range' 1 m).map fun k => now + UInt32.ofNat (k * (max t.toInt 1).toNat)

theorem ticksOf_eq (t : Int16) : ticksOf t = UInt32.ofNat (max t.toInt 1).toNat := by
  rw [ticksOf, int16_toInt_max, Nat.toUInt32_eq]
  rfl

theorem ticksOf_mul (t : Int16) (k : Nat) :
    ticksOf t * k.toUInt32 = UInt32.ofNat (k * (max t.toInt 1).toNat) := by
  rw [ticksOf_eq, Nat.toUInt32_eq, UInt32.ofNat_mul, UInt32.mul_comm]

theorem copiesOf_eq (n : Int16) : copiesOf n = (min (max n.toInt 0) 16).toNat := by
  rw [copiesOf]
  omega

/-! ### Runs -/

theorem run_ticks_bind {α : Type} (g : UInt32 → Act α) (st : Machine) :
    (ticks >>= g).run st = (g st.io.ticks).run st := rfl

theorem defer_attempt (f : Frame) (body : Command) (d : UInt32) (st : Machine)
    (hq : st.scene.delays.Valid) :
    ∃ s', (defer f body d).run st = ((), { st with scene := s' }) ∧
      Scene.Attempt f.script f.index body (st.io.ticks + d) st.scene s' := by
  rcases Nat.lt_or_ge st.scene.delays.size DelayQueue.capacity with hlt | hge
  · -- a slot is free: the entry goes in
    obtain ⟨q, hok, hlen, hseq, hperm⟩ :=
      DelayQueue.schedule_room f.script f.index body (st.io.ticks + d) hq hlt
    refine ⟨{ st.scene with delays := q }, ?_, ?_⟩
    · simp only [defer, run_ticks_bind, Machine.run_scene_bind, hok]
      rfl
    · rw [Scene.Attempt, if_pos hlt]
      exact ⟨q, rfl, hq.insert_fresh hlen hseq rfl hperm, hseq, hperm⟩
  · -- sixteen delays are pending: the drop is counted
    have hfull := DelayQueue.schedule_full f.script f.index body (st.io.ticks + d) hq
      (Nat.le_antisymm hq.size_le hge)
    refine ⟨{ st.scene with stats := { st.scene.stats with
      droppedDelays := st.scene.stats.droppedDelays + 1 } }, ?_, ?_⟩
    · simp only [defer, run_ticks_bind, Machine.run_scene_bind, hfull]
      rfl
    · rw [Scene.Attempt, if_neg (Nat.not_lt.mpr hge)]

theorem deferCopies_attempts (f : Frame) (body : Command) (d : UInt32) (j m : Nat) (st : Machine)
    (hq : st.scene.delays.Valid) :
    ∃ s', (deferCopies f body d j m).run st = ((), { st with scene := s' }) ∧
      Scene.Attempts f.script f.index body
        ((List.range' j m).map fun k => st.io.ticks + d * k.toUInt32) st.scene s' := by
  induction m generalizing j st with
  | zero => exact ⟨st.scene, rfl, .nil _⟩
  | succ m ih =>
    obtain ⟨s₁, hrun₁, h₁⟩ := defer_attempt f body (d * j.toUInt32) st hq
    obtain ⟨s₂, hrun₂, h₂⟩ := ih (j + 1) { st with scene := s₁ } (h₁.valid hq)
    refine ⟨s₂, ?_, ?_⟩
    · rw [deferCopies, StateT.run_bind, hrun₁]
      exact hrun₂
    · rw [List.range'_succ, List.map_cons]
      exact .cons h₁ h₂

theorem deferCopies_spaced (f : Frame) (body : Command) (t : Int16) (m : Nat) (st : Machine)
    (hq : st.scene.delays.Valid) :
    ∃ s', (deferCopies f body (ticksOf t) 1 m).run st = ((), { st with scene := s' }) ∧
      Scene.Attempts f.script f.index body (spacedTicks st.io.ticks t m) st.scene s' := by
  obtain ⟨s', hrun, hs'⟩ := deferCopies_attempts f body (ticksOf t) 1 m st hq
  have hticks : ((List.range' 1 m).map fun k => st.io.ticks + ticksOf t * k.toUInt32) =
      spacedTicks st.io.ticks t m := by
    simp only [spacedTicks, ticksOf_mul]
  exact ⟨s', hrun, hticks ▸ hs'⟩

theorem evalArg_literal (fuel : Nat) {args : List Command} {i : Nat} {v : Int16}
    (h : args[i]? = some (.literal v)) (f : Frame) (st : Machine) :
    (evalArg (fuel + 2) f args i).run st = ((v, f), st) := by
  simp only [evalArg, h, exec]
  rfl

theorem exec_delay_run (fuel : Nat) (f : Frame) (t : Int16) (body : Command) (st : Machine) :
    (exec (fuel + 4) f (.modified .delay [.literal t] body)).run st =
      ((none, f), ((defer f body (ticksOf t)).run st).2) := by
  simp only [exec, execModifier, StateT.run_bind, evalArg_literal fuel List.getElem?_cons_zero]
  rfl

theorem exec_delayRepeat_run (fuel : Nat) (f : Frame) (n t : Int16) (body : Command)
    (st : Machine) :
    (exec (fuel + 4) f (.modified .delayRepeat [.literal n, .literal t] body)).run st =
      ((none, f), ((deferCopies f body (ticksOf t) 1 (copiesOf n)).run st).2) := by
  have ht : [Command.literal n, .literal t][1]? = some (.literal t) := rfl
  simp only [exec, execModifier, StateT.run_bind, evalArg_literal fuel List.getElem?_cons_zero,
    evalArg_literal fuel ht]
  rfl

/-- `DEL.R` runs its body at once, then defers the copies left, from the frame the body handed
back; with no copy to make it does nothing. -/
theorem exec_delayRun_run (fuel : Nat) (f : Frame) (n t : Int16) (body : Command)
    (st : Machine) :
    (exec (fuel + 4) f (.modified .delayRun [.literal n, .literal t] body)).run st =
      if 0 < copiesOf n then
        ((none, ((exec (fuel + 2) f body).run st).1.2),
          ((deferCopies ((exec (fuel + 2) f body).run st).1.2 body (ticksOf t) 1
            (copiesOf n - 1)).run ((exec (fuel + 2) f body).run st).2).2)
      else ((none, f), st) := by
  have ht : [Command.literal n, .literal t][1]? = some (.literal t) := rfl
  simp only [exec, execModifier, StateT.run_bind, evalArg_literal fuel List.getElem?_cons_zero,
    evalArg_literal fuel ht]
  dsimp only [bind]
  by_cases hpos : 0 < copiesOf n
  · simp only [gt_iff_lt, hpos, if_true]
    rfl
  · simp only [Nat.eq_zero_of_not_pos hpos, gt_iff_lt, Nat.lt_irrefl, if_false]
    rfl

/-- A delay line tries to put its body on the delay queue once for each copy. `DEL t: B`
tries once, at the clock plus `max t 1`. `DEL.X n t: B` tries `n` times, clamped to `0..=16`,
the `k`-th at the clock plus `k * max t 1`, and does not run `B`. `DEL.R n t: B` with a count
that clamps to zero does nothing; else it runs `B` once, at once, and tries for the copies
left, from the scene and with the loop index `B` left, at the ticks of the first copies, from
the clock the line read. Every try is owned by the script of the line's frame; it adds one
entry, or with sixteen delays pending counts one more dropped delay, and changes nothing
else. Ticks wrap at 2³². -/
theorem delay_lines_attempt (fuel : Nat) (f : Frame) (st : Machine) (n t : Int16)
    (body : Command) (hq : st.scene.delays.Valid) (hbody : body.hasModifier = false) :
    (∃ s', (exec (fuel + 4) f (.modified .delay [.literal t] body)).run st =
        ((none, f), { st with scene := s' }) ∧
      Scene.Attempts f.script f.index body [st.io.ticks + UInt32.ofNat (max t.toInt 1).toNat]
        st.scene s') ∧
    (∃ s', (exec (fuel + 4) f (.modified .delayRepeat [.literal n, .literal t] body)).run st =
        ((none, f), { st with scene := s' }) ∧
      Scene.Attempts f.script f.index body
        (spacedTicks st.io.ticks t (min (max n.toInt 0) 16).toNat) st.scene s') ∧
    ((min (max n.toInt 0) 16).toNat = 0 →
      (exec (fuel + 4) f (.modified .delayRun [.literal n, .literal t] body)).run st =
        ((none, f), st)) ∧
    (0 < (min (max n.toInt 0) 16).toNat →
      ∃ s', (exec (fuel + 4) f (.modified .delayRun [.literal n, .literal t] body)).run st =
          ((none, ((exec (fuel + 2) f body).run st).1.2),
            { ((exec (fuel + 2) f body).run st).2 with scene := s' }) ∧
        Scene.Attempts f.script ((exec (fuel + 2) f body).run st).1.2.index body
          (spacedTicks st.io.ticks t ((min (max n.toInt 0) 16).toNat - 1))
          ((exec (fuel + 2) f body).run st).2.scene s') := by
  rw [← copiesOf_eq]
  refine ⟨?delay, ?delayRepeat, fun hzero => ?delayRunZero, fun hpos => ?delayRun⟩
  case delay =>
    obtain ⟨s', hrun, hs'⟩ := defer_attempt f body (ticksOf t) st hq
    rw [ticksOf_eq] at hs'
    exact ⟨s', by rw [exec_delay_run, hrun], .cons hs' (.nil _)⟩
  case delayRepeat =>
    obtain ⟨s', hrun, hs'⟩ := deferCopies_spaced f body t (copiesOf n) st hq
    exact ⟨s', by rw [exec_delayRepeat_run, hrun], hs'⟩
  case delayRunZero =>
    rw [exec_delayRun_run, if_neg (Nat.not_lt.mpr (Nat.le_of_eq hzero))]
  case delayRun =>
    have hq₁ := ((kept (Machine.holds_stable 0 []) (fuel + 2)).exec f body st
      ⟨hq, Nat.zero_le _, fun _ _ h => absurd h (Nat.not_lt_zero _)⟩).1
    have hscript := ((carriesOn (fuel + 2)).exec f body hbody st).script
    have hticks : ((exec (fuel + 2) f body).run st).2.io.ticks = st.io.ticks :=
      congrArg Readings.now (exec_readings (fuel + 2) f body st)
    obtain ⟨s', hrun, hs'⟩ :=
      deferCopies_spaced _ body t (copiesOf n - 1) ((exec (fuel + 2) f body).run st).2 hq₁
    rw [hscript, hticks] at hs'
    exact ⟨s', by rw [exec_delayRun_run, if_pos hpos, hrun], hs'⟩

/-- From a new scene, `DEL.X 3 100: ...` on a live line tries three times, at ticks 100, 200
and 300. -/
theorem delay_repeat_fresh :
    (Scene.withSeed 0).delays.Valid ∧ Command.nop.hasModifier = false ∧
      ∃ s', (exec 4 { script := Scene.liveScript, depth := 0 }
          (.modified .delayRepeat [.literal 3, .literal 100] .nop)).run
          ⟨Scene.withSeed 0, Io.silent⟩ =
        ((none, { script := Scene.liveScript, depth := 0 }),
          ⟨s', Io.silent⟩) ∧
      Scene.Attempts Scene.liveScript 0 .nop [100, 200, 300] (Scene.withSeed 0) s' := by
  have hthree : (min (max (3 : Int16).toInt 0) 16).toNat = 3 := by decide
  have hticks : spacedTicks 0 100 3 = [100, 200, 300] := by decide
  have h := (delay_lines_attempt 0 { script := Scene.liveScript, depth := 0 }
    ⟨Scene.withSeed 0, Io.silent⟩ 3 100 .nop DelayQueue.valid_empty rfl).2.1
  rw [hthree] at h
  exact ⟨DelayQueue.valid_empty, rfl, hticks ▸ h⟩

end Executor

end TriggerScript
