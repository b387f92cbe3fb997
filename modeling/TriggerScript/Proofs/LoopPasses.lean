import TriggerScript.Proofs.LineFrame
import TriggerScript.Proofs.Reachable
/-!
The passes of an `L` loop.

`L a b: B` evaluates its two operands, then runs `B` once for each index from `a` to `b`, one
step towards `b` at a time (`Executor.loopIndices`), setting the loop index `I` before each
pass: whatever `B` writes to `I`, the next pass starts from the next index of the plan. The
loop stops early only after a pass that leaves the break flag set; the line then hands back a
frame with the flag set, and no later line of its script runs (`Executor.runLines_stops`).

The flag is read after each pass, never before the first. A set flag stays set and a clear one
is set only by a `BREAK` of what ran (`Frame.BreakFollows`, `Executor.flagFollows`), so a
`BREAK` among the operands still lets the body run once
(`Executor.loop_operand_break_runs_once`), and a loop entered with a clear flag and with no
`BREAK` in its operands or body runs every pass of its plan.
-/

set_option autoImplicit false
set_option relaxedAutoImplicit false

namespace TriggerScript

/-! ### The break flag -/

namespace Command

theorem anyImmediate_eq_true_iff {cs : List Command} :
    anyImmediate cs = true ↔ ∃ c ∈ cs, c.hasImmediate = true := by
  induction cs with
  | nil => simp [anyImmediate]
  | cons c cs ih => simp [anyImmediate, ih]

theorem anyImmediate_of_take {cs : List Command} {n : Nat} (h : anyImmediate (cs.take n) = true) :
    anyImmediate cs = true := by
  obtain ⟨c, hc, hi⟩ := anyImmediate_eq_true_iff.mp h
  exact anyImmediate_eq_true_iff.mpr ⟨c, List.mem_of_mem_take hc, hi⟩

theorem anyImmediate_of_getElem? {cs : List Command} {n : Nat} {c : Command} (h : cs[n]? = some c)
    (hc : c.hasImmediate = true) : anyImmediate cs = true :=
  anyImmediate_eq_true_iff.mpr ⟨c, List.mem_of_getElem? h, hc⟩

end Command

namespace Frame

/-- `f'` follows `f` in its break flag as a command may that holds a `BREAK` only when `brk`
holds: a set flag stays set, and a clear one is set only when `brk` holds. -/
structure BreakFollows (brk : Bool) (f f' : Frame) : Prop where
  keeps : f.breaking = true → f'.breaking = true
  sets : f'.breaking = true → f.breaking = true ∨ brk = true

variable {f f₁ f₂ : Frame} {b₁ b₂ : Bool}

theorem BreakFollows.refl (brk : Bool) (f : Frame) : f.BreakFollows brk f := ⟨id, .inl⟩

theorem BreakFollows.trans (h₁ : f.BreakFollows b₁ f₁) (h₂ : f₁.BreakFollows b₂ f₂) :
    f.BreakFollows (b₁ || b₂) f₂ where
  keeps h := h₂.keeps (h₁.keeps h)
  sets h := by
    rcases h₂.sets h with h | h
    · rcases h₁.sets h with h | h
      · exact .inl h
      · simp [h]
    · simp [h]

theorem BreakFollows.mono (h : f.BreakFollows b₁ f₁) (hb : b₁ = true → b₂ = true) :
    f.BreakFollows b₂ f₁ :=
  ⟨h.keeps, fun h' => (h.sets h').imp_right hb⟩

theorem breakFollows_index (brk : Bool) (f : Frame) (i : Int16) :
    f.BreakFollows brk { f with index := i } :=
  ⟨id, .inl⟩

end Frame

namespace Executor

open Act Command TriggerScript.Frame

theorem writeVar_breakFollows (f : Frame) (v : Variable) (x : Int16) :
    Answers (writeVar f v x) (f.BreakFollows false) := by
  cases v <;> simp only [writeVar]
  · exact Answers.seq fun _ => Answers.pure (BreakFollows.refl _ f)
  · exact Answers.pure (breakFollows_index _ f x)
  · exact Answers.seq fun _ => Answers.pure (BreakFollows.refl _ f)
  · exact Answers.pure (BreakFollows.refl _ f)

section Flag

variable (n : Nat)

/-- The break flag after each expression-level function of the executor at fuel `n`, on
operands without modifiers: once set it stays set, and it is set only by a `BREAK` among what
ran. -/
structure FlagFollows : Prop where
  exec : ∀ (f : Frame) (c : Command), c.hasModifier = false →
    Answers (exec n f c) fun r => f.BreakFollows c.hasImmediate r.2
  execSeq : ∀ (f : Frame) (cs : List Command) (acc : Option Int16), anyModifier cs = false →
    Answers (execSeq n f cs acc) fun r => f.BreakFollows (anyImmediate cs) r.2
  evalArgs : ∀ (f : Frame) (cs : List Command), anyModifier cs = false →
    Answers (evalArgs n f cs) fun r => f.BreakFollows (anyImmediate cs) r.2
  evalArg : ∀ (f : Frame) (args : List Command) (i : Nat), anyModifier args = false →
    Answers (evalArg n f args i) fun r => f.BreakFollows (anyImmediate args) r.2
  evalOp : ∀ (f : Frame) (o : Operator) (args : List Command), anyModifier args = false →
    Answers (evalOp n f o args) fun r => f.BreakFollows (!o.deferrable || anyImmediate args) r.2
  getOp : ∀ (f : Frame) (o : Operator) (a : List Int16),
    Answers (getOp n f o a) fun r => f.BreakFollows (!o.deferrable) r.2
  setOp : ∀ (f : Frame) (o : Operator) (a : List Int16) (v : Int16),
    Answers (setOp n f o a v) (f.BreakFollows false)

theorem flagFollows_zero : FlagFollows 0 := by
  constructor <;> intros <;>
    simp only [exec, execSeq, evalArgs, evalArg, evalOp, getOp, setOp] <;>
    exact Answers.seq fun _ => Answers.pure (BreakFollows.refl _ _)

variable {n}

theorem getOp_flagFollows (f : Frame) (o : Operator) (a : List Int16) :
    Answers (getOp (n + 1) f o a) fun r => f.BreakFollows (!o.deferrable) r.2 := by
  simp only [getOp.eq_def]
  -- only `BREAK` touches the flag of its own frame
  split
  · exact Answers.pure ⟨fun _ => rfl, fun _ => .inr rfl⟩
  · exact Answers.seq fun _ => Answers.seq fun _ => Answers.pure (BreakFollows.refl _ f)
  · refine Answers.seq fun e => ?_
    cases e with
    | none => exact Answers.pure (BreakFollows.refl _ f)
    | some e => exact Answers.seq fun _ => Answers.pure (BreakFollows.refl _ f)
  · exact Answers.seq fun _ => Answers.pure (BreakFollows.refl _ f)

theorem setOp_flagFollows (f : Frame) (o : Operator) (a : List Int16) (v : Int16) :
    Answers (setOp (n + 1) f o a v) (f.BreakFollows false) := by
  simp only [setOp.eq_def]
  split
  · split
    · exact Answers.seq fun _ => Answers.pure (BreakFollows.refl _ f)
    · exact Answers.pure (BreakFollows.refl _ f)
  · exact Answers.seq fun _ => Answers.pure (BreakFollows.refl _ f)

theorem evalArg_flagFollows (ih : FlagFollows n) (f : Frame) (args : List Command) (i : Nat)
    (hargs : anyModifier args = false) :
    Answers (evalArg (n + 1) f args i) fun r => f.BreakFollows (anyImmediate args) r.2 := by
  simp only [evalArg]
  split
  · next c hc =>
    exact Answers.bind_pair (ih.exec f c (hasModifier_of_getElem? hargs hc)) fun _ _ h =>
      Answers.pure (h.mono (anyImmediate_of_getElem? hc))
  · exact Answers.pure (BreakFollows.refl _ f)

theorem evalArgs_flagFollows (ih : FlagFollows n) (f : Frame) (cs : List Command)
    (hcs : anyModifier cs = false) :
    Answers (evalArgs (n + 1) f cs) fun r => f.BreakFollows (anyImmediate cs) r.2 := by
  cases cs with
  | nil => simp only [evalArgs]; exact Answers.pure (BreakFollows.refl _ f)
  | cons c cs =>
    simp only [anyModifier, Bool.or_eq_false_iff] at hcs
    simp only [evalArgs, anyImmediate]
    exact Answers.bind_pair (ih.exec f c hcs.1) fun _ f₁ h₁ =>
      Answers.bind_pair (ih.evalArgs f₁ cs hcs.2) fun _ _ h₂ => Answers.pure (h₁.trans h₂)

theorem execSeq_flagFollows (ih : FlagFollows n) (f : Frame) (cs : List Command)
    (acc : Option Int16) (hcs : anyModifier cs = false) :
    Answers (execSeq (n + 1) f cs acc) fun r => f.BreakFollows (anyImmediate cs) r.2 := by
  cases cs with
  | nil => simp only [execSeq]; exact Answers.pure (BreakFollows.refl _ f)
  | cons c cs =>
    simp only [anyModifier, Bool.or_eq_false_iff] at hcs
    simp only [execSeq, anyImmediate]
    refine Answers.bind_pair (ih.exec f c hcs.1) fun _ f₁ h₁ => ?_
    exact Answers.ite (Answers.pure (h₁.mono fun h => by simp [h]))
      ((ih.execSeq f₁ cs _ hcs.2).imp fun _ h₂ => h₁.trans h₂)

theorem evalOp_flagFollows (ih : FlagFollows n) (f : Frame) (o : Operator) (args : List Command)
    (hargs : anyModifier args = false) :
    Answers (evalOp (n + 1) f o args) fun r =>
      f.BreakFollows (!o.deferrable || anyImmediate args) r.2 := by
  simp only [evalOp]
  split
  · refine Answers.bind_pair (ih.evalArg f args 0 hargs) fun _ f₁ h₁ => ?_
    exact Answers.ite
      ((ih.evalArg f₁ args 1 hargs).imp fun _ h₂ => (h₁.trans h₂).mono fun h => by simp_all)
      ((ih.evalArg f₁ args 2 hargs).imp fun _ h₂ => (h₁.trans h₂).mono fun h => by simp_all)
  · exact Answers.bind_pair (ih.evalArgs f _ (anyModifier_take hargs 3)) fun _ _ h =>
      Answers.pure (h.mono fun h => by simp [anyImmediate_of_take h])
  · refine Answers.bind_pair (ih.evalArgs f _ (anyModifier_take hargs 3)) fun _ f₁ h₁ => ?_
    refine (ih.getOp f₁ o _).imp fun _ h₂ => (h₁.trans h₂).mono fun h => ?_
    rcases Bool.or_eq_true _ _ ▸ h with h | h
    · simp [anyImmediate_of_take h]
    · simp [h]

theorem exec_flagFollows (ih : FlagFollows n) (f : Frame) (c : Command)
    (hc : c.hasModifier = false) :
    Answers (exec (n + 1) f c) fun r => f.BreakFollows c.hasImmediate r.2 := by
  cases c with
  | nop => simp only [exec]; exact Answers.pure (BreakFollows.refl _ f)
  | literal v => simp only [exec]; exact Answers.pure (BreakFollows.refl _ f)
  | var v => simp only [exec]; exact Answers.seq fun _ => Answers.pure (BreakFollows.refl _ f)
  | op o args =>
    simp only [exec, hasImmediate]
    exact Answers.bind_pair (ih.evalOp f o args hc) fun _ _ h => Answers.pure h
  | set o args value =>
    simp only [hasModifier, Bool.or_eq_false_iff] at hc
    simp only [exec, hasImmediate]
    refine Answers.bind_pair (ih.evalArgs f _ (anyModifier_take hc.1 3)) fun _ f₁ h₁ => ?_
    refine Answers.bind_pair (ih.exec f₁ value hc.2) fun _ f₂ h₂ => ?_
    refine Answers.bind (ih.setOp f₂ o _ _) fun _ h₃ => Answers.pure ?_
    refine ((h₁.trans h₂).trans h₃).mono fun h => ?_
    simp only [Bool.or_false, Bool.or_eq_true] at h
    rcases h with h | h
    · simp [anyImmediate_of_take h]
    · simp [h]
  | store var value =>
    simp only [exec, hasImmediate]
    refine Answers.bind_pair (ih.exec f value hc) fun _ f₁ h₁ => ?_
    exact Answers.bind (writeVar_breakFollows f₁ var _) fun _ h₂ =>
      Answers.pure ((h₁.trans h₂).mono fun h => by simpa using h)
  | modified m args body => cases hc
  | seq parts => simp only [exec, hasImmediate]; exact ih.execSeq f parts none hc

theorem flagFollows (n : Nat) : FlagFollows n := by
  induction n with
  | zero => exact flagFollows_zero
  | succ n ih =>
    exact ⟨exec_flagFollows ih, execSeq_flagFollows ih, evalArgs_flagFollows ih,
      evalArg_flagFollows ih, evalOp_flagFollows ih, getOp_flagFollows, setOp_flagFollows⟩

end Flag

end Executor

/-! ### The passes of a loop -/

/-- One pass of an `L` loop: the loop index it set before running the body, and whether the
body left the break flag set. -/
structure LoopPass where
  index : Int16
  broke : Bool
  deriving DecidableEq, Repr

namespace Executor

open Act TriggerScript.Frame

/-- Runs the passes of a loop as `execLoop` does, and records each. -/
def recordLoop : Nat → Frame → Command → Int → Int → Nat → Act (Frame × List LoopPass)
  | 0, f, _, _, _, _ => do exhaust; return (f, [])
  | _ + 1, f, _, _, _, 0 => return (f, [])
  | fuel + 1, f, body, i, step, count + 1 => do
    let (_, f) ← exec fuel { f with index := Int16.ofInt i } body
    if f.breaking || count == 0 then return (f, [⟨Int16.ofInt i, f.breaking⟩])
    else
      let (g, ps) ← recordLoop fuel f body (i + step) step count
      return (g, ⟨Int16.ofInt i, f.breaking⟩ :: ps)

theorem recordLoop_forget (fuel : Nat) (f : Frame) (body : Command) (i step : Int) (count : Nat) :
    Prod.fst <$> recordLoop fuel f body i step count = execLoop fuel f body i step count := by
  induction fuel generalizing f i count with
  | zero => simp [recordLoop, execLoop]
  | succ fuel ih =>
    cases count with
    | zero => simp [recordLoop, execLoop]
    | succ count =>
      simp only [recordLoop, execLoop, map_bind]
      refine bind_congr fun _ => ?_
      split <;> simp [← ih]

/-- What the passes `ps` of a loop from the frame `f` over `body` show, planned from index `i`
by `step` for `count` passes, with `g` the frame it handed back. -/
structure PassesFollow (f : Frame) (body : Command) (i step : Int) (count : Nat)
    (ps : List LoopPass) (g : Frame) : Prop where
  /-- The passes set the planned indices, in order. -/
  indices : ps.map LoopPass.index =
    (List.range ps.length).map fun k : Nat => Int16.ofInt (i + k * step)
  length_pos : 0 < ps.length
  length_le : ps.length ≤ count
  /-- Every pass but the last left the flag clear. -/
  clear : ∀ p ∈ ps.dropLast, p.broke = false
  /-- The loop stops before its plan is done only after a pass that left the flag set. -/
  stopped : ps.length < count → ∀ p ∈ ps.getLast?, p.broke = true
  /-- The loop hands back the frame of its last pass. -/
  frame : ∀ p ∈ ps.getLast?, g.breaking = p.broke
  /-- Entered with the flag set, the loop makes one pass. -/
  first : f.breaking = true → ps.length = 1
  /-- Entered with the flag clear, a body without `BREAK` never sets it. -/
  unbroken : f.breaking = false → body.hasImmediate = false → ∀ p ∈ ps, p.broke = false

namespace PassesFollow

variable {f f₁ g : Frame} {body : Command} {i step : Int} {count : Nat} {ps : List LoopPass}

theorem last (h₁ : { f with index := Int16.ofInt i }.BreakFollows body.hasImmediate f₁)
    (hstop : (f₁.breaking || count == 0) = true) :
    PassesFollow f body i step (count + 1) [⟨Int16.ofInt i, f₁.breaking⟩] f₁ where
  indices := by simp
  length_pos := by simp
  length_le := by simp
  clear := by simp
  stopped h := by
    simp only [List.length_singleton, Nat.lt_add_left_iff_pos] at h
    simp only [Bool.or_eq_true, beq_iff_eq] at hstop
    simp only [List.getLast?_singleton, Option.mem_def, Option.some.injEq, forall_eq']
    exact hstop.resolve_right (by omega)
  frame := by simp
  first _ := rfl
  unbroken hf hb := by
    simp only [List.mem_singleton, forall_eq]
    cases hset : f₁.breaking with
    | false => rfl
    | true => simpa [hf, hb] using h₁.sets hset

theorem map_range_succ_ofInt (i step : Int) (n : Nat) :
    (List.range (n + 1)).map (fun k : Nat => Int16.ofInt (i + k * step)) =
      Int16.ofInt i :: (List.range n).map fun k : Nat => Int16.ofInt (i + step + k * step) := by
  rw [List.range_succ_eq_map, List.map_cons, List.map_map]
  congr 1
  · simp
  · refine List.map_congr_left fun k _ => ?_
    simp only [Function.comp_apply, Nat.succ_eq_add_one, Int.natCast_add, Int.add_mul,
      Int.cast_ofNat_Int, Int.one_mul]
    congr 1
    omega

theorem cons (h₁ : { f with index := Int16.ofInt i }.BreakFollows body.hasImmediate f₁)
    (hgo : ¬(f₁.breaking || count == 0) = true)
    (h : PassesFollow f₁ body (i + step) step count ps g) :
    PassesFollow f body i step (count + 1) (⟨Int16.ofInt i, f₁.breaking⟩ :: ps) g := by
  simp only [Bool.or_eq_true, beq_iff_eq, not_or, Bool.not_eq_true] at hgo
  obtain ⟨hclear, hcount⟩ := hgo
  obtain ⟨q, qs, hps⟩ := List.exists_cons_of_length_pos h.length_pos
  have hlast : (⟨Int16.ofInt i, f₁.breaking⟩ :: ps).getLast? = ps.getLast? := by
    rw [hps, List.getLast?_cons_cons]
  constructor
  case indices => rw [List.map_cons, h.indices, List.length_cons, map_range_succ_ofInt]
  case length_pos => simp
  case length_le => simpa using h.length_le
  case clear =>
    rw [hps, List.dropLast_cons_cons, ← hps]
    simp only [List.mem_cons, forall_eq_or_imp]
    exact ⟨hclear, h.clear⟩
  case stopped =>
    intro hlt
    rw [hlast]
    exact h.stopped (by simpa using hlt)
  case frame =>
    rw [hlast]
    exact h.frame
  case first =>
    intro hf
    simp [h₁.keeps hf] at hclear
  case unbroken =>
    intro hf hb
    simp only [List.mem_cons, forall_eq_or_imp]
    exact ⟨hclear, h.unbroken hclear hb⟩

end PassesFollow

/-- With the fuel for every pass planned, a loop's record follows its plan. The induction is on
the fuel, one pass for each unit of it. -/
theorem recordLoop_passes (fuel : Nat) (f : Frame) (body : Command) (i step : Int) (count : Nat)
    (hbody : body.hasModifier = false) (hpos : 0 < count) (hfuel : count ≤ fuel) :
    Answers (recordLoop fuel f body i step count) fun r =>
      PassesFollow f body i step count r.2 r.1 := by
  induction fuel generalizing f i count with
  | zero => omega
  | succ fuel ih =>
    obtain ⟨count, rfl⟩ : ∃ c, count = c + 1 := ⟨count - 1, by omega⟩
    simp only [recordLoop]
    refine Answers.bind_pair ((flagFollows fuel).exec _ body hbody) fun _ f₁ h₁ => ?_
    split
    · next hstop => exact Answers.pure (PassesFollow.last h₁ hstop)
    · next hgo =>
      have hcount : 0 < count := by
        simp only [Bool.or_eq_true, beq_iff_eq, not_or] at hgo
        omega
      exact Answers.bind_pair (ih f₁ (i + step) count hcount (by omega)) fun _ _ h =>
        Answers.pure (PassesFollow.cons h₁ hgo h)

/-! ### The plan of a loop line -/

/-- The step of a loop from `a` to `b`: up when `a ≤ b`, down otherwise. -/
def loopStep (a b : Int16) : Int := if a.toInt ≤ b.toInt then 1 else -1

/-- The indices a loop from `a` to `b` plans to visit, in order: `a`, `a + s`, `a + 2s`, …, one
for each of its `|b - a| + 1` passes. -/
def loopIndices (a b : Int16) : List Int :=
  (List.range ((b.toInt - a.toInt).natAbs + 1)).map fun k : Nat => a.toInt + k * loopStep a b

@[simp]
theorem length_loopIndices (a b : Int16) :
    (loopIndices a b).length = (b.toInt - a.toInt).natAbs + 1 := by
  simp [loopIndices]

theorem head?_loopIndices (a b : Int16) : (loopIndices a b).head? = some a.toInt := by
  simp [loopIndices, List.range_succ_eq_map]

theorem getLast?_loopIndices (a b : Int16) : (loopIndices a b).getLast? = some b.toInt := by
  simp only [loopIndices, List.getLast?_map, List.getLast?_range, Nat.add_sub_cancel,
    Nat.add_one_ne_zero, if_false, Option.map_some, Option.some.injEq, loopStep]
  split <;> omega

theorem planned_le (a b : Int16) : (b.toInt - a.toInt).natAbs + 1 ≤ 65536 := by
  have := Int16.le_toInt a
  have := Int16.toInt_lt a
  have := Int16.le_toInt b
  have := Int16.toInt_lt b
  omega

theorem toInt_ofInt_planned (a b : Int16) {k : Nat} (hk : k < (b.toInt - a.toInt).natAbs + 1) :
    (Int16.ofInt (a.toInt + k * loopStep a b)).toInt = a.toInt + k * loopStep a b := by
  have := Int16.le_toInt a
  have := Int16.toInt_lt a
  have := Int16.le_toInt b
  have := Int16.toInt_lt b
  have hsize : (Int16.size : Int) = 65536 := rfl
  rw [Int16.toInt_ofInt]
  apply Int.bmod_eq_of_le <;> simp only [loopStep, hsize] <;> split <;> omega

/-- An `L` line's run, recorded: the bounds its operands gave, the frame after them, the frame
the line handed back, and the passes. -/
structure LoopRun where
  first : Int16
  last : Int16
  entry : Frame
  frame : Frame
  passes : List LoopPass

/-- Runs an `L` line as `execModifier` does, and records it. -/
def recordLoopLine (fuel : Nat) (f : Frame) (args : List Command) (body : Command) :
    Act LoopRun := do
  let (a, f) ← evalArg fuel f args 0
  let (b, f) ← evalArg fuel f args 1
  let (g, ps) ← recordLoop fuel f body a.toInt (loopStep a b) ((b.toInt - a.toInt).natAbs + 1)
  return ⟨a, b, f, g, ps⟩

theorem recordLoopLine_forget (fuel : Nat) (f : Frame) (args : List Command) (body : Command) :
    LoopRun.frame <$> recordLoopLine fuel f args body = execModifier (fuel + 1) f .loop args body := by
  simp only [recordLoopLine, execModifier, map_bind, ← recordLoop_forget, loopStep]
  refine bind_congr fun _ => bind_congr fun _ => ?_
  simp

/-- What a recorded `L` line from the frame `f`, with operands `args` and body `body`, did. -/
structure LoopRun.Visits (f : Frame) (args : List Command) (body : Command) (r : LoopRun) :
    Prop where
  /-- The passes set the first planned indices, in order. -/
  indices : r.passes.map (fun p => p.index.toInt) <+: loopIndices r.first r.last
  nonempty : r.passes ≠ []
  /-- Every pass but the last left the flag clear. -/
  clear : ∀ p ∈ r.passes.dropLast, p.broke = false
  /-- The loop stops before its plan is done only after a pass that left the flag set. -/
  stopped : r.passes.length < (loopIndices r.first r.last).length →
    ∀ p ∈ r.passes.getLast?, p.broke = true
  /-- The line hands back the flag its last pass left. -/
  frame : ∀ p ∈ r.passes.getLast?, r.frame.breaking = p.broke
  /-- A flag set when the passes begin makes one pass. -/
  first : r.entry.breaking = true → r.passes.length = 1
  /-- A flag clear when the passes begin stays clear under a body without `BREAK`. -/
  unbroken : r.entry.breaking = false → body.hasImmediate = false → ∀ p ∈ r.passes, p.broke = false
  /-- Operands without `BREAK` keep a clear flag clear. -/
  entry : f.breaking = false → Command.anyImmediate args = false → r.entry.breaking = false

theorem PassesFollow.visits {f f₂ g : Frame} {args : List Command} {body : Command}
    {a b : Int16} {ps : List LoopPass}
    (h₂ : f.BreakFollows (Command.anyImmediate args) f₂)
    (h : PassesFollow f₂ body a.toInt (loopStep a b) ((b.toInt - a.toInt).natAbs + 1) ps g) :
    LoopRun.Visits f args body ⟨a, b, f₂, g, ps⟩ where
  indices := by
    have hmap : ps.map (fun p => p.index.toInt) = (loopIndices a b).take ps.length := by
      rw [show (fun p : LoopPass => p.index.toInt) = Int16.toInt ∘ LoopPass.index from rfl,
        ← List.map_map, h.indices, List.map_map, loopIndices, ← List.map_take, List.take_range,
        Nat.min_eq_left h.length_le]
      refine List.map_congr_left fun k hk => ?_
      exact toInt_ofInt_planned a b (Nat.lt_of_lt_of_le (List.mem_range.mp hk) h.length_le)
    rw [hmap]
    exact List.take_prefix _ _
  nonempty := List.ne_nil_of_length_pos h.length_pos
  clear := h.clear
  stopped hlt := h.stopped (by simpa using hlt)
  frame := h.frame
  first := h.first
  unbroken := h.unbroken
  entry hf hargs := by
    cases hset : f₂.breaking with
    | false => rfl
    | true => simpa [hf, hargs] using h₂.sets hset

/-- A loop entered with a clear flag, with no `BREAK` in its operands or its body, makes every
pass of its plan. -/
theorem LoopRun.Visits.passes_eq_plan {f : Frame} {args : List Command} {body : Command}
    {r : LoopRun} (h : r.Visits f args body) (hf : f.breaking = false)
    (hargs : Command.anyImmediate args = false) (hbody : body.hasImmediate = false) :
    r.passes.map (fun p => p.index.toInt) = loopIndices r.first r.last := by
  have hclear := h.unbroken (h.entry hf hargs) hbody
  refine h.indices.eq_of_length ?_
  -- a shorter run would end on a pass that left the flag set
  by_contra hne
  have hlt : r.passes.length < (loopIndices r.first r.last).length := by
    have hle := h.indices.length_le
    rw [List.length_map] at hle hne
    omega
  have hlast := List.getLast?_eq_some_getLast h.nonempty
  have hbroke := h.stopped hlt _ hlast
  rw [hclear _ (List.mem_of_getLast? hlast)] at hbroke
  cases hbroke

theorem recordLoopLine_visits (fuel : Nat) (hfuel : 65536 ≤ fuel) (f : Frame)
    (args : List Command) (body : Command) (hargs : Command.anyModifier args = false)
    (hbody : body.hasModifier = false) :
    Answers (recordLoopLine fuel f args body) (LoopRun.Visits f args body) := by
  simp only [recordLoopLine]
  refine Answers.bind_pair ((flagFollows fuel).evalArg f args 0 hargs) fun a f₁ h₁ => ?_
  refine Answers.bind_pair ((flagFollows fuel).evalArg f₁ args 1 hargs) fun b f₂ h₂ => ?_
  dsimp only
  have hplan := planned_le a b
  refine Answers.bind_pair
    (recordLoop_passes fuel f₂ body _ _ _ hbody (Nat.succ_pos _) (by omega)) fun g ps h => ?_
  exact Answers.pure (h.visits ((h₁.trans h₂).mono fun h => by simpa using h))

/-! ### Stopping a script -/

theorem runLines_stops {fuel : Nat} {f f' : Frame} {c : Command} {n : Nat} {acc v : Option Int16}
    {st st' : Machine} (h : (exec fuel { f with line := some n } c).run st = ((v, f'), st'))
    (hf : f'.breaking = true) (cs : List Command) :
    (runLines (fuel + 1) f (c :: cs) n acc).run st = (if v.isSome then v else acc, st') := by
  simp only [runLines, StateT.run_bind, h]
  show StateT.run (if f'.breaking = true then _ else _) st' = _
  rw [if_pos hf]
  rfl

theorem exec_loop_run (fuel : Nat) (f : Frame) (args : List Command) (body : Command)
    (st : Machine) :
    (exec (fuel + 2) f (.modified .loop args body)).run st =
      ((none, ((recordLoopLine fuel f args body).run st).1.frame),
        ((recordLoopLine fuel f args body).run st).2) := by
  simp only [exec, ← recordLoopLine_forget]
  rfl

end Executor

open Executor Act in
/-- **An `L` line visits its plan until a pass leaves the break flag set.** The plan from `a` to
`b` has `|b - a| + 1` indices, from `a` to `b`. With the fuel for a full plan, and operands and
body without modifiers, as a line of a script has them, recording an `L` line gives back its run,
and the record shows: the passes set the first indices of the plan, in order, whatever the body
wrote to `I`; every pass but the last left the flag clear; the loop stops before its plan is done
only after a pass that left the flag set, and the line hands back the flag its last pass left. The
flag is read after each pass, not before the first: set when the passes begin, by a `BREAK` in
the operands, it allows one pass. Entered with a clear flag and without `BREAK` in its operands
or body, the loop makes every pass of its plan. A last pass that left the flag set ends the
script: the run of its lines ends where the `L` line's run ended, whatever lines follow. -/
theorem Executor.loop_visits_plan_until_break (fuel : Nat) (hfuel : 65536 ≤ fuel)
    (args : List Command) (body : Command) (hargs : Command.anyModifier args = false)
    (hbody : body.hasModifier = false) :
    (∀ a b : Int16, (loopIndices a b).length = (b.toInt - a.toInt).natAbs + 1 ∧
      (loopIndices a b).head? = some a.toInt ∧ (loopIndices a b).getLast? = some b.toInt) ∧
    (∀ f : Frame,
      LoopRun.frame <$> recordLoopLine fuel f args body = execModifier (fuel + 1) f .loop args body) ∧
    (∀ f : Frame, Answers (recordLoopLine fuel f args body) (LoopRun.Visits f args body)) ∧
    (∀ f : Frame, f.breaking = false → Command.anyImmediate args = false →
      body.hasImmediate = false →
      Answers (recordLoopLine fuel f args body) fun r =>
        r.passes.map (fun p => p.index.toInt) = loopIndices r.first r.last) ∧
    (∀ (g : Frame) (n : Nat) (cs : List Command) (acc : Option Int16) (st : Machine),
      (∃ p ∈ ((recordLoopLine fuel { g with line := some n } args body).run st).1.passes.getLast?,
        p.broke = true) →
      (runLines (fuel + 3) g (.modified .loop args body :: cs) n acc).run st =
        (acc, ((recordLoopLine fuel { g with line := some n } args body).run st).2)) := by
  have hvisits f := recordLoopLine_visits fuel hfuel f args body hargs hbody
  refine ⟨fun a b => ⟨length_loopIndices a b, head?_loopIndices a b, getLast?_loopIndices a b⟩,
    fun f => recordLoopLine_forget fuel f args body, hvisits, ?_, ?_⟩
  · intro f hf hargs' hbody'
    exact (hvisits f).imp fun r h => h.passes_eq_plan hf hargs' hbody'
  · rintro g n cs acc st ⟨p, hp, hbroke⟩
    have hflag := (hvisits { g with line := some n } st).frame p hp
    exact runLines_stops (exec_loop_run fuel _ args body st) (hflag.trans hbroke) cs

/-- `L 0 3: A ADD A 1`, which counts `A` up once a pass, run with the fuel of a full plan. -/
theorem Executor.count_loop_visits_plan :
    Command.anyModifier [.literal 0, .literal 3] = false ∧
    (Command.store (.global 0) (.op .add [.var (.global 0), .literal 1])).hasModifier = false ∧
    (∀ a b : Int16, (loopIndices a b).length = (b.toInt - a.toInt).natAbs + 1 ∧
      (loopIndices a b).head? = some a.toInt ∧ (loopIndices a b).getLast? = some b.toInt) ∧
    (∀ f : Frame,
      LoopRun.frame <$> recordLoopLine 65536 f [.literal 0, .literal 3]
          (.store (.global 0) (.op .add [.var (.global 0), .literal 1])) =
        execModifier 65537 f .loop [.literal 0, .literal 3]
          (.store (.global 0) (.op .add [.var (.global 0), .literal 1]))) ∧
    (∀ f : Frame, Act.Answers (recordLoopLine 65536 f [.literal 0, .literal 3]
        (.store (.global 0) (.op .add [.var (.global 0), .literal 1])))
      (LoopRun.Visits f [.literal 0, .literal 3]
        (.store (.global 0) (.op .add [.var (.global 0), .literal 1])))) ∧
    (∀ f : Frame, f.breaking = false → Command.anyImmediate [.literal 0, .literal 3] = false →
      (Command.store (.global 0) (.op .add [.var (.global 0), .literal 1])).hasImmediate = false →
      Act.Answers (recordLoopLine 65536 f [.literal 0, .literal 3]
          (.store (.global 0) (.op .add [.var (.global 0), .literal 1]))) fun r =>
        r.passes.map (fun p => p.index.toInt) = loopIndices r.first r.last) ∧
    (∀ (g : Frame) (n : Nat) (cs : List Command) (acc : Option Int16) (st : Machine),
      (∃ p ∈ ((recordLoopLine 65536 { g with line := some n } [.literal 0, .literal 3]
          (.store (.global 0) (.op .add [.var (.global 0), .literal 1]))).run st).1.passes.getLast?,
        p.broke = true) →
      (runLines 65539 g (.modified .loop [.literal 0, .literal 3]
          (.store (.global 0) (.op .add [.var (.global 0), .literal 1])) :: cs) n acc).run st =
        (acc, ((recordLoopLine 65536 { g with line := some n } [.literal 0, .literal 3]
          (.store (.global 0) (.op .add [.var (.global 0), .literal 1]))).run st).2)) :=
  ⟨rfl, rfl, Executor.loop_visits_plan_until_break 65536 (Nat.le_refl _) _ _ rfl rfl⟩

/-- A `BREAK` among the operands of `L` sets the flag before the first pass, and the loop reads
it only after: on a new scene `L BREAK 3: A ADD A 1` plans the four passes from 0 to 3, yet runs
its body once, leaving `A` at one. -/
theorem Executor.loop_operand_break_runs_once :
    (Line.ofText "L BREAK 3: A ADD A 1").command =
      .modified .loop [.op .halt [], .literal 3]
        (.store (.global 0) (.op .add [.var (.global 0), .literal 1])) ∧
    (Executor.loopIndices 0 3).length = 4 ∧
    ((Call.execute "L BREAK 3: A ADD A 1").apply Io.silent (Scene.withSeed 0)).var 0 = 1 := by
  decide +kernel

end TriggerScript
