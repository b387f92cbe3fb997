import TriggerScript.Proofs.CheckedRuns
/-!
Every step and every run of the checked executor refines its plain namesake.

A primitive step's checks hold of a sound scene: a reading is scaled between sixteen-bit
bounds, an `EVERY` counter is at most 32766, the pattern an operator works on is valid, the
turtle is on the grid, a MIDI batch holds at most twenty entries, and a count a step raises is
in its word because the counters at the end of the run are. `refinesAt` carries this through
the mutual recursion of the executor by induction on the fuel: an operator checks its
arithmetic over any operands, the index of `L` moves by one from a sixteen-bit value towards
another, and the copies of `DEL.X` and `DEL.R` lie at most seventeen periods of at most 32767
ticks ahead.
-/

set_option autoImplicit false
set_option relaxedAutoImplicit false

namespace TriggerScript

open Act Checked CheckedAct

theorem Stats.countChecks_ok {n : Nat} (h : n + 1 ≤ 4294967295) : Stats.countChecks n = .ok () := by
  rw [Stats.countChecks, u32_of (by omega) (by omega)]
  rfl

/-! ### The operators' checks -/

namespace Operators

theorem batchChecks_ok {count : Nat} (h : count ≤ Midi.batchLimit) (n : Int16) :
    batchChecks n count = .ok () := by
  unfold batchChecks
  split
  · next k hk => exact index_of (Nat.lt_of_lt_of_le (position_lt hk) h)
  · rfl

theorem patternReadChecks_ok {s : Scene} (hs : s.Stored) {n : Nat} (hn : n < Scene.patternCount)
    (p : PatternOp) (a : List Int16) : patternReadChecks s n p a = .ok () := by
  have hu := (hs.pattern_valid n).untrapped
  rw [patternReadChecks, index_of hn, ok_bind]
  cases p
  case value => exact hu.position _
  case next | prev | step => exact hu.move _
  case ins => exact hu.insert _
  case rm => exact hu.remove _
  case pop => exact hu.pop
  case min | max => exact hu.data
  case rnd => exact hu.random _
  all_goals rfl

theorem patternWriteChecks_ok {s : Scene} (hs : s.Stored) {n : Nat} (hn : n < Scene.patternCount)
    (p : PatternOp) (a : List Int16) (v : Int16) : patternWriteChecks s n p a v = .ok () := by
  have hu := (hs.pattern_valid n).untrapped
  rw [patternWriteChecks, index_of hn, ok_bind]
  cases p
  case value => exact hu.position _
  case start => exact hu.setStart _
  case finish => exact hu.setFinish _
  case index => exact hu.setIndex _
  all_goals rfl

theorem min_toInt_le_max_toInt (x y : Int16) : (min x y).toInt ≤ (max x y).toInt := by
  rw [int16_toInt_min, int16_toInt_max]
  omega

theorem readChecks_ok {st : Machine} (hs : st.scene.Sound) (o : Operator) (a : List Int16) :
    readChecks o a st = .ok () := by
  have ht := hs.bounded.turtle.untrapped
  have hm := hs.bounded.midi
  unfold readChecks
  split
  · exact rangeTo_of (min_toInt_le_max_toInt _ _)
  · exact rangeTo_of (min_toInt_le_max_toInt _ _)
  · exact patternReadChecks_ok hs.stored hs.bounded.bank_lt _ _
  · exact patternReadChecks_ok hs.stored (bank_lt _) _ _
  · exact ht.forward _
  · exact ht.forward _
  · exact ht.bump _
  · exact ht.moveBy _ _
  · exact ht.turn _
  · exact ht.quarterTurn _
  · exact batchChecks_ok hm.notesOn _
  · exact batchChecks_ok hm.notesOn _
  · exact batchChecks_ok hm.notesOn _
  · exact batchChecks_ok hm.notesOff _
  · exact batchChecks_ok hm.notesOff _
  · exact batchChecks_ok hm.controls _
  · exact batchChecks_ok hm.controls _
  · exact batchChecks_ok hm.controls _
  · exact Operator.pureChecks_ok _ _

theorem writeChecks_ok {st : Machine} (hs : st.scene.Sound) (o : Operator) (a : List Int16)
    (v : Int16) : writeChecks o a v st = .ok () := by
  unfold writeChecks
  split
  · exact patternWriteChecks_ok hs.stored hs.bounded.bank_lt _ _ _
  · exact patternWriteChecks_ok hs.stored (bank_lt _) _ _ _
  · exact hs.bounded.turtle.untrapped.cell
  · exact Turtle.setCoordChecks_ok v
  · exact Turtle.setCoordChecks_ok v
  · exact Turtle.setHeadingChecks_ok v
  · rfl

end Operators

/-! ### The primitive steps -/

namespace Executor

variable {f : Frame} {body : Command} {d : UInt32} {st : Machine}

theorem defer_run_ok {q : DelayQueue}
    (h : st.scene.delays.schedule f.script f.index body (st.io.ticks + d) = .ok q) :
    (defer f body d).run st = ((), { st with scene := { st.scene with delays := q } }) := by
  simp only [defer, run_ticks_bind, Machine.run_scene_bind, h]
  rfl

theorem defer_run_error {e : Error}
    (h : st.scene.delays.schedule f.script f.index body (st.io.ticks + d) = .error e) :
    (defer f body d).run st = ((), { st with scene := { st.scene with stats := { st.scene.stats with
      droppedDelays := st.scene.stats.droppedDelays + 1 } } }) := by
  simp only [defer, run_ticks_bind, Machine.run_scene_bind, h]
  rfl

theorem stackBody_run_error {e : Error}
    (h : st.scene.stack.push { script := f.script, index := f.index, command := body } = .error e) :
    (stackBody f body).run st = ((), { st with scene := { st.scene with stats := { st.scene.stats with
      droppedStack := st.scene.stats.droppedStack + 1 } } }) := by
  simp only [stackBody, Machine.run_scene_bind, h]
  rfl

theorem everyCount_le {s : Scene} (h : s.Bounded) (f : Frame) : everyCount f s ≤ Scene.everyMax := by
  unfold everyCount
  split
  · split
    · next line _ _ =>
      simp only [List.getD_eq_getElem?_getD]
      cases hrow : s.every[f.script]? with
      | none => exact Nat.zero_le _
      | some row =>
        rw [Option.getD_some]
        cases hc : row[line]? with
        | none => exact Nat.zero_le _
        | some c => exact h.every row (List.mem_of_getElem? hrow) c (List.mem_of_getElem? hc)
    · exact h.liveEvery
  · exact h.liveEvery

end Executor

namespace Executor.Checked

theorem refines_exhaust : Refines exhaust Executor.exhaust :=
  .lift sound_stable.exhaust grows_moveStable.exhaust

theorem refines_scene : Refines scene Act.scene :=
  .lift Keeps.scene grows_chains.scene

theorem refines_ticks : Refines ticks Act.ticks :=
  .lift Keeps.ticks grows_chains.ticks

theorem refines_lastRun (script : Nat) (now : UInt32) :
    Refines (modifyScene fun s => { s with lastRun := s.lastRun.set script now })
      (Act.modifyScene fun s => { s with lastRun := s.lastRun.set script now }) :=
  .lift (Keeps.modifyScene fun s hs => sound_stable.lastRun s script now hs)
    (Moves.modifyScene fun _ => .same rfl rfl rfl rfl)

theorem refines_rng (g : Generator) :
    Refines (modifyScene fun s => { s with rng := g }) (Act.modifyScene fun s => { s with rng := g }) :=
  .lift (Keeps.modifyScene fun s hs => sound_stable.rng s g hs)
    (Moves.modifyScene fun _ => .same rfl rfl rfl rfl)

theorem refines_readVar (f : Frame) (v : Variable) : Refines (readVar f v) (Executor.readVar f v) :=
  .guarded (sound_stable.readVar f v) (grows_moveStable.readVar f v) fun st hs _ => by
    cases v with
    | special which => exact Calibration.readChecks_ok _ which _
    | global => rfl
    | index => rfl
    | pattern => rfl

theorem refines_writeVar (f : Frame) (v : Variable) (x : Int16) :
    Refines (writeVar f v x) (Executor.writeVar f v x) :=
  .lift (sound_stable.writeVar f v x) (grows_moveStable.writeVar f v x)

theorem refines_tickEvery (f : Frame) (n : Int16) :
    Refines (tickEvery f n) (Executor.tickEvery f n) :=
  .guarded (sound_stable.tickEvery f n) (grows_moveStable.tickEvery f n) fun _ hs _ =>
    everyTickChecks_ok (everyCount_le hs.bounded f)

theorem refines_defer (f : Frame) (body : Command) (d : UInt32) :
    Refines (defer f body d) (Executor.defer f body d) :=
  .guarded (sound_stable.defer f body d) (grows_moveStable.defer f body d) fun st _ hfit => by
    unfold deferChecks
    split
    · next q hok =>
      have hseq : q.nextSeq ≤ DelayQueue.seqLimit := by
        simpa only [defer_run_ok hok] using hfit.nextSeq
      rw [DelayQueue.schedule_nextSeq hok] at hseq
      exact DelayQueue.scheduleChecks_ok (by omega)
    · next e herr =>
      have hcount : st.scene.stats.droppedDelays + 1 ≤ 4294967295 := by
        simpa only [defer_run_error herr] using hfit.droppedDelays
      exact Stats.countChecks_ok hcount

theorem refines_stackBody (f : Frame) (body : Command) :
    Refines (stackBody f body) (Executor.stackBody f body) :=
  .guarded (sound_stable.stackBody f body) (grows_moveStable.stackBody f body) fun st _ hfit => by
    unfold stackBodyChecks
    split
    · rfl
    · next e herr =>
      have hcount : st.scene.stats.droppedStack + 1 ≤ 4294967295 := by
        simpa only [stackBody_run_error herr] using hfit.droppedStack
      exact Stats.countChecks_ok hcount

theorem refines_popStack : Refines popStack Executor.popStack :=
  .lift sound_stable.popStack grows_moveStable.popStack

theorem refines_read (f : Frame) (o : Operator) (a : List Int16) :
    Refines (read f o a) (Operators.read f o a) :=
  .guarded (sound_stable.read f o a) (grows_moveStable.read f o a) fun _ hs _ =>
    Operators.readChecks_ok hs o a

theorem refines_write (o : Operator) (a : List Int16) (v : Int16) :
    Refines (write o a v) (Operators.write o a v) :=
  .guarded (sound_stable.write o a v) (grows_moveStable.write o a v) fun _ hs _ =>
    Operators.writeChecks_ok hs o a v

theorem refines_abort : Refines abort (Act.modifyScene fun s =>
    { s with stats := { s.stats with depthAborts := s.stats.depthAborts + 1 } }) :=
  .guarded (Keeps.modifyScene sound_stable.abort) (Moves.modifyScene grows_moveStable.abort)
    fun _ _ hfit => Stats.countChecks_ok hfit.depthAborts

theorem refines_deferCopies (f : Frame) (body : Command) (t : UInt32) :
    ∀ k n, t.toNat * (k + n) ≤ 4294967295 →
      Refines (deferCopies f body t k n) (Executor.deferCopies f body t k n)
  | _, 0, _ => .pure ()
  | k, n + 1, h => by
    have hk : t.toNat * k ≤ 4294967295 := Nat.le_trans (Nat.mul_le_mul_left _ (by omega)) h
    have hrest : t.toNat * (k + 1 + n) ≤ 4294967295 := by rwa [Nat.add_right_comm]
    rw [deferCopies, Executor.deferCopies]
    refine Refines.check_bind ?_ (.bind (refines_defer f body _) fun _ =>
      refines_deferCopies f body t (k + 1) n hrest)
    rw [u32_of (by omega) (by omega)]
    rfl

theorem ticksOf_toNat_le (t : Int16) : (ticksOf t).toNat ≤ 32767 := by
  have ht := Int16.toInt_bounds t
  rw [ticksOf_eq, UInt32.toNat_ofNat']
  omega

theorem refines_deferCopies_ticks (f : Frame) (body : Command) (t : Int16) {k n : Nat}
    (h : k + n ≤ 17) :
    Refines (deferCopies f body (ticksOf t) k n) (Executor.deferCopies f body (ticksOf t) k n) :=
  refines_deferCopies f body _ k n
    (Nat.le_trans (Nat.mul_le_mul (ticksOf_toNat_le t) h) (by decide))

theorem copies_room {n : Int16} {k : Nat} (hk : k ≤ copiesOf n) : 1 + k ≤ 17 := by
  rw [copiesOf_eq] at hk
  omega

/-! ### Loops -/

/-- Room for the passes of `L` left: the index moves by one each pass, and the first and the
last index left fit in 32 bits. -/
structure LoopRoom (i step : Int) (count : Nat) : Prop where
  unit : step = 1 ∨ step = -1
  first_ge : -2147483648 ≤ i
  first_le : i ≤ 2147483647
  last_ge : -2147483648 ≤ i + step * ((count : Int) - 1)
  last_le : i + step * ((count : Int) - 1) ≤ 2147483647

namespace LoopRoom

variable {i step : Int} {count : Nat}

theorem next_fits (h : LoopRoom i step (count + 1)) (hc : count ≠ 0) :
    -2147483648 ≤ i + step ∧ i + step ≤ 2147483647 := by
  have := h.first_ge
  have := h.first_le
  have := h.last_ge
  have := h.last_le
  rcases h.unit with rfl | rfl <;> omega

theorem next (h : LoopRoom i step (count + 1)) (hc : count ≠ 0) : LoopRoom (i + step) step count := by
  obtain ⟨h₁, h₂⟩ := h.next_fits hc
  have := h.last_ge
  have := h.last_le
  refine ⟨h.unit, h₁, h₂, ?_, ?_⟩ <;> rcases h.unit with rfl | rfl <;> push_cast at * <;> omega

theorem start (a b : Int16) :
    LoopRoom a.toInt (if a.toInt ≤ b.toInt then 1 else -1) ((b.toInt - a.toInt).natAbs + 1) := by
  have ha := Int16.toInt_bounds a
  have hb := Int16.toInt_bounds b
  split
  · exact ⟨.inl rfl, by omega, by omega, by omega, by omega⟩
  · exact ⟨.inr rfl, by omega, by omega, by omega, by omega⟩

end LoopRoom

/-! ### Runs -/

/-- Every function of the checked executor refines its plain namesake at fuel `n`; the rest of
a loop does when its indices have room. -/
structure RefinesAt (n : Nat) : Prop where
  exec : ∀ f c, Refines (exec n f c) (Executor.exec n f c)
  execSeq : ∀ f cs acc, Refines (execSeq n f cs acc) (Executor.execSeq n f cs acc)
  evalArgs : ∀ f cs, Refines (evalArgs n f cs) (Executor.evalArgs n f cs)
  evalArg : ∀ f args i, Refines (evalArg n f args i) (Executor.evalArg n f args i)
  evalOp : ∀ f o args, Refines (evalOp n f o args) (Executor.evalOp n f o args)
  getOp : ∀ f o a, Refines (getOp n f o a) (Executor.getOp n f o a)
  setOp : ∀ f o a v, Refines (setOp n f o a v) (Executor.setOp n f o a v)
  stackAll : ∀ d count, Refines (stackAll n d count) (Executor.stackAll n d count)
  runStacked : ∀ d e, Refines (runStacked n d e) (Executor.runStacked n d e)
  execModifier : ∀ f m args body,
    Refines (execModifier n f m args body) (Executor.execModifier n f m args body)
  execLoop : ∀ f body i step count, LoopRoom i step count →
    Refines (execLoop n f body i step count) (Executor.execLoop n f body i step count)
  execWhile : ∀ f cond body count,
    Refines (execWhile n f cond body count) (Executor.execWhile n f cond body count)
  runAt : ∀ script d, Refines (runAt n script d) (Executor.runAt n script d)
  runLines : ∀ f cs i acc, Refines (runLines n f cs i acc) (Executor.runLines n f cs i acc)

theorem refinesAt_zero : RefinesAt 0 := by
  constructor <;> intros <;>
    simp only [exec, execSeq, evalArgs, evalArg, evalOp, getOp, setOp, stackAll, runStacked,
      execModifier, execLoop, execWhile, runAt, runLines, Executor.exec, Executor.execSeq,
      Executor.evalArgs, Executor.evalArg, Executor.evalOp, Executor.getOp, Executor.setOp,
      Executor.stackAll, Executor.runStacked, Executor.execModifier, Executor.execLoop,
      Executor.execWhile, Executor.runAt, Executor.runLines]
  all_goals first
    | exact refines_exhaust
    | exact Refines.bind refines_exhaust fun _ => Refines.pure _

/-- One more unit of fuel: each function is unfolded once on both sides, and its steps are the
primitive steps and the calls that refine at fuel `n`. -/
theorem refinesAt_succ {n : Nat} (ih : RefinesAt n) : RefinesAt (n + 1) := by
  refine ⟨fun f c => ?exec, fun f cs acc => ?execSeq, fun f cs => ?evalArgs,
    fun f args i => ?evalArg, fun f o args => ?evalOp, fun f o a => ?getOp,
    fun f o a v => ?setOp, fun d count => ?stackAll, fun d e => ?runStacked,
    fun f m args body => ?execModifier, fun f body i step count hroom => ?execLoop,
    fun f cond body count => ?execWhile, fun script d => ?runAt, fun f cs i acc => ?runLines⟩
  -- the index of `L` is checked before each pass after the first, which the room allows
  case execLoop =>
    cases count with
    | zero =>
      simp only [execLoop, Executor.execLoop]
      exact Refines.pure _
    | succ count =>
      simp only [execLoop, Executor.execLoop]
      refine Refines.bind (ih.exec _ _) fun p => ?_
      split
      · exact Refines.pure _
      · next hgo =>
        have hc : count ≠ 0 := by
          simp only [Bool.or_eq_true, beq_iff_eq, not_or] at hgo
          exact hgo.2
        obtain ⟨h₁, h₂⟩ := hroom.next_fits hc
        refine Refines.check_bind ?_ (ih.execLoop _ _ _ _ _ (hroom.next hc))
        rw [i32_of h₁ h₂]
        rfl
  case' exec => cases c <;> simp only [exec, Executor.exec]
  case' execSeq => cases cs <;> simp only [execSeq, Executor.execSeq]
  case' evalArgs => cases cs <;> simp only [evalArgs, Executor.evalArgs]
  case' evalArg => simp only [evalArg, Executor.evalArg]
  case' evalOp => simp only [evalOp, Executor.evalOp]
  -- the operators both sides single out are told apart by cases on the operator
  case' getOp => cases o <;> simp only [getOp.eq_def, Executor.getOp.eq_def]
  case' setOp => cases o <;> simp only [setOp.eq_def, Executor.setOp.eq_def]
  -- `if let` has a case for everything else, so the value is taken apart on both sides at once
  case getOp.stackPop =>
    refine Refines.bind refines_popStack fun e => ?_
    cases e with
    | none => exact Refines.pure _
    | some e => exact Refines.bind (ih.runStacked _ _) fun _ => Refines.pure _
  case setOp.script =>
    cases Operators.channel v Scene.scriptCount with
    | none => exact Refines.pure _
    | some s => exact Refines.bind (ih.runAt _ _) fun _ => Refines.pure _
  case' stackAll => cases count <;> simp only [stackAll, Executor.stackAll]
  case' runStacked => simp only [runStacked, Executor.runStacked]
  case' execModifier => cases m <;> simp only [execModifier, Executor.execModifier]
  case' execWhile => simp only [execWhile, Executor.execWhile]
  case' runAt => simp only [runAt, Executor.runAt]
  case' runLines => cases cs <;> simp only [runLines, Executor.runLines]
  all_goals
    repeat (first
      | with_reducible exact Refines.pure _
      | with_reducible exact refines_scene
      | with_reducible exact refines_ticks
      | with_reducible exact refines_readVar _ _
      | with_reducible exact refines_writeVar _ _ _
      | with_reducible exact refines_tickEvery _ _
      | with_reducible exact refines_defer _ _ _
      | with_reducible exact refines_deferCopies_ticks _ _ _ (copies_room (Nat.le_refl _))
      | with_reducible exact refines_deferCopies_ticks _ _ _ (copies_room (Nat.sub_le _ 1))
      | with_reducible exact refines_stackBody _ _
      | with_reducible exact refines_popStack
      | with_reducible exact refines_read _ _ _
      | with_reducible exact refines_write _ _ _
      | with_reducible exact refines_abort
      | with_reducible exact refines_lastRun _ _
      | with_reducible exact refines_rng _
      | with_reducible exact ih.exec _ _
      | with_reducible exact ih.execSeq _ _ _
      | with_reducible exact ih.evalArgs _ _
      | with_reducible exact ih.evalArg _ _ _
      | with_reducible exact ih.evalOp _ _ _
      | with_reducible exact ih.getOp _ _ _
      | with_reducible exact ih.setOp _ _ _ _
      | with_reducible exact ih.stackAll _ _
      | with_reducible exact ih.runStacked _ _
      | with_reducible exact ih.execModifier _ _ _ _
      | with_reducible exact ih.execLoop _ _ _ _ _ (LoopRoom.start _ _)
      | with_reducible exact ih.execWhile _ _ _ _
      | with_reducible exact ih.runAt _ _
      | with_reducible exact ih.runLines _ _ _ _
      | with_reducible exact Refines.check_bind (Operator.pureChecks_ok _ _) (Refines.pure _)
      | with_reducible refine Refines.bind ?_ fun _ => ?_
      | dsimp only
      -- both sides match on the same value: split one, and the case reduces the other
      | (split <;> (rename_i heq; simp only [heq]))
      | split)

theorem refinesAt (n : Nat) : RefinesAt n := by
  induction n with
  | zero => exact refinesAt_zero
  | succ n ih => exact refinesAt_succ ih

end Executor.Checked

end TriggerScript
