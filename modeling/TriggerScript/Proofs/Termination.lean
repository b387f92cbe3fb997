import TriggerScript.Machine.Execute
import TriggerScript.Proofs.ActionSpec
import TriggerScript.Proofs.RunInvariant
import Mathlib
/-!
How deep a run nests.

`SCRIPT` calls nest one level deeper each time and stop at `Scene.maxDepth`; `L` and `W`
loops have fixed bounds. `S.POP` and `S.ALL` run a stacked command at the caller's own
depth, so the depth counter does not bound them: a script whose `S` line pushes a call of
itself and a pop runs for ever (`stacked_self_call_never_ends`). Without `S` lines the stack
only empties during a run, and every run ends (`runs_end_without_stacking`).

A run ends when it leaves the count of calls cut short for want of fuel unchanged. The
fuel it needs is the `cost` of its command, which pays for the nodes and loops of the
command itself, plus a `reserve` for the runs it starts: one `b` for each command still on
the stack and for each level of depth left below the limit.
-/

set_option autoImplicit false
set_option relaxedAutoImplicit false

namespace TriggerScript

namespace Command

mutual

/-- Whether an `S` modifier stands anywhere in the command: the only command that puts
entries on the command stack. -/
def pushes : Command → Bool
  | .nop | .literal _ | .var _ => false
  | .op _ args => pushesAny args
  | .set _ args value => pushesAny args || pushes value
  | .store _ value => pushes value
  | .modified m args body => m == .stack || pushesAny args || pushes body
  | .seq parts => pushesAny parts

/-- Whether any command of a list holds an `S` modifier. -/
def pushesAny : List Command → Bool
  | [] => false
  | c :: cs => pushes c || pushesAny cs

end

mutual

/-- The fuel a command needs apart from the scripts and stacked commands it runs: each
node, each operand list, and the longest `L` loop, which outlasts any `W` loop. -/
def cost : Command → Nat
  | .nop | .literal _ | .var _ => 1
  | .op _ args => costList args + 3
  | .set _ args value => costList args + cost value + 2
  | .store _ value => cost value + 1
  | .modified _ args body => costList args + cost body + 65539
  | .seq parts => costList parts + 1

/-- The fuel a list of commands run one after another needs. -/
def costList : List Command → Nat
  | [] => 1
  | c :: cs => cost c + costList cs + 1

end

end Command

def Script.cost (sc : Script) : Nat := Command.costList (sc.lines.map (·.command))

namespace Executor

open Command Act

section Cost

theorem cost_pos (c : Command) : 1 ≤ c.cost := by
  cases c <;> simp only [cost] <;> omega

theorem costList_pos (cs : List Command) : 1 ≤ costList cs := by
  cases cs <;> simp only [costList] <;> omega

theorem cost_lt_costList {c : Command} {cs : List Command} (h : c ∈ cs) :
    c.cost < costList cs := by
  induction cs with
  | nil => cases h
  | cons d ds ih =>
    simp only [costList]
    rcases List.mem_cons.mp h with rfl | hds
    · omega
    · have := ih hds
      omega

theorem costList_take_le (cs : List Command) (n : Nat) : costList (cs.take n) ≤ costList cs := by
  induction cs generalizing n with
  | nil => simp
  | cons c cs ih =>
    cases n with
    | zero => simp only [List.take_zero, costList]; omega
    | succ n =>
      simp only [List.take_succ_cons, costList]
      have := ih n
      omega

theorem cost_headD_le (cs : List Command) : (cs.headD .nop).cost ≤ costList cs := by
  cases cs with
  | nil => simp [cost, costList]
  | cons c cs => simp only [List.headD_cons, costList]; omega

theorem cost_getElem?_lt {cs : List Command} {n : Nat} {c : Command} (h : cs[n]? = some c) :
    c.cost < costList cs :=
  cost_lt_costList (List.mem_of_getElem? h)

theorem pushes_eq_false_of_mem {c : Command} {cs : List Command} (hcs : pushesAny cs = false)
    (h : c ∈ cs) : c.pushes = false := by
  induction cs with
  | nil => cases h
  | cons d ds ih =>
    simp only [pushesAny, Bool.or_eq_false_iff] at hcs
    rcases List.mem_cons.mp h with rfl | hds
    · exact hcs.1
    · exact ih hcs.2 hds

theorem pushesAny_eq_false_of_forall {cs : List Command} (h : ∀ c ∈ cs, c.pushes = false) :
    pushesAny cs = false := by
  induction cs with
  | nil => rfl
  | cons c cs ih =>
    simp only [pushesAny, h c List.mem_cons_self, ih fun d hd => h d (List.mem_cons_of_mem c hd),
      Bool.or_false]

theorem pushes_headD {cs : List Command} (hcs : pushesAny cs = false) :
    (cs.headD .nop).pushes = false := by
  cases cs with
  | nil => rfl
  | cons c cs => exact pushes_eq_false_of_mem hcs List.mem_cons_self

theorem pushesAny_take {cs : List Command} (hcs : pushesAny cs = false) (n : Nat) :
    pushesAny (cs.take n) = false := by
  induction cs generalizing n with
  | nil => simp [pushesAny]
  | cons c cs ih =>
    simp only [pushesAny, Bool.or_eq_false_iff] at hcs
    cases n with
    | zero => simp [pushesAny]
    | succ n => simp [pushesAny, hcs.1, ih hcs.2 n]

end Cost

section Quiet

/-- What a run that pushes nothing keeps: no script line and no stacked command holds an
`S` modifier, each script needs at most `z` fuel and each stacked command at most `z`, at
most `k` commands are stacked, and `cuts` calls were cut short so far. -/
structure Quiet (z k cuts : Nat) (s : Scene) : Prop where
  lines : ∀ sc ∈ s.scripts, ∀ l ∈ sc.lines, l.command.pushes = false
  scripts : ∀ sc ∈ s.scripts, sc.cost ≤ z
  stacked : ∀ e ∈ s.stack.items, e.command.pushes = false ∧ e.command.cost ≤ z
  size : s.stack.size ≤ k
  cut : s.stats.exhausted = cuts

variable {z k cuts : Nat} {s s' : Scene}

theorem Quiet.of_eq (h : Quiet z k cuts s) (hscripts : s'.scripts = s.scripts)
    (hstack : s'.stack = s.stack) (hcut : s'.stats.exhausted = s.stats.exhausted) :
    Quiet z k cuts s' where
  lines := hscripts ▸ h.lines
  scripts := hscripts ▸ h.scripts
  stacked := hstack ▸ h.stacked
  size := hstack ▸ h.size
  cut := hcut ▸ h.cut

theorem Quiet.of_clear (h : Quiet z k cuts s) (hscripts : s'.scripts = s.scripts)
    (hstack : s'.stack = s.stack.clear) (hcut : s'.stats.exhausted = s.stats.exhausted) :
    Quiet z k cuts s' where
  lines := hscripts ▸ h.lines
  scripts := hscripts ▸ h.scripts
  stacked := by simp [hstack, BoundedStack.clear]
  size := by simp [hstack, BoundedStack.clear, BoundedStack.size]
  cut := hcut ▸ h.cut

theorem Quiet.of_frame {st st' : Machine} (h : Quiet z k cuts st.scene)
    (hf : OperatorFrame st st') : Quiet z k cuts st'.scene := by
  have hcut := congrArg Stats.exhausted hf.stats
  rcases hf.stack with hstack | hstack
  · exact h.of_eq hf.scripts hstack hcut
  · exact h.of_clear hf.scripts hstack hcut

theorem Quiet.mono {k' : Nat} (h : Quiet z k cuts s) (hk : k ≤ k') : Quiet z k' cuts s :=
  { h with size := Nat.le_trans h.size hk }

theorem Quiet.pop (h : Quiet z k cuts s) :
    Quiet z (k - 1) cuts { s with stack := s.stack.pop.2 } ∧
      ∀ e ∈ s.stack.pop.1, e.command.pushes = false ∧ e.command.cost ≤ z ∧ 1 ≤ k := by
  unfold BoundedStack.pop
  split
  · next hnone =>
    have hempty : s.stack.items = [] := List.getLast?_eq_none_iff.mp hnone
    exact ⟨{ h with size := by simp [BoundedStack.size, hempty] }, by simp⟩
  · next e hsome =>
    refine ⟨{ lines := h.lines, scripts := h.scripts, cut := h.cut, stacked := ?_, size := ?_ }, ?_⟩
    · intro x hx
      exact h.stacked x (List.dropLast_subset _ hx)
    · have := h.size
      simp only [BoundedStack.size, List.length_dropLast] at this ⊢
      omega
    · intro x hx
      cases hx
      have hne : s.stack.items ≠ [] := fun hnil => by simp [hnil] at hsome
      have hlen := List.length_pos_iff.mpr hne
      have hsize := h.size
      simp only [BoundedStack.size] at hsize
      exact ⟨(h.stacked e (List.mem_of_getLast? hsome)).1, (h.stacked e (List.mem_of_getLast? hsome)).2,
        by omega⟩

end Quiet

/-- Fuel held back for the runs a command starts: one `b` for each stacked command and
each level of depth left, and one more. -/
def reserve (b d k : Nat) : Nat := (k + (Scene.maxDepth - d) + 1) * b

section Reserve

variable (b d k : Nat)

theorem reserve_succ : reserve b d (k + 1) = reserve b d k + b := by
  unfold reserve
  rw [show k + 1 + (Scene.maxDepth - d) + 1 = k + (Scene.maxDepth - d) + 1 + 1 by omega,
    Nat.succ_mul]

theorem reserve_deeper (h : d < Scene.maxDepth) : reserve b d k = reserve b (d + 1) k + b := by
  unfold reserve
  rw [show k + (Scene.maxDepth - d) + 1 = k + (Scene.maxDepth - (d + 1)) + 1 + 1 by omega,
    Nat.succ_mul]

theorem reserve_mono {k' : Nat} (h : k' ≤ k) : reserve b d k' ≤ reserve b d k :=
  Nat.mul_le_mul_right _ (by omega)

end Reserve

section Primitives

/-! The steps of a run that start no other run keep it quiet; only taking a command off
the stack lowers the bound on the stack. -/

variable {z k cuts : Nat}

theorem readVar_quiet (f : Frame) (v : Variable) : Keeps (Quiet z k cuts) (readVar f v) := by
  cases v <;> simp only [readVar] <;>
  repeat (first
    | with_reducible exact Keeps.pure _
    | with_reducible exact Keeps.scene
    | with_reducible exact Keeps.get
    | with_reducible refine Keeps.bind ?_ fun _ => ?_)

theorem writeVar_quiet (f : Frame) (v : Variable) (value : Int16) :
    Triple (Quiet z k cuts) (writeVar f v value) fun f' s => Quiet z k cuts s ∧ f'.depth = f.depth := by
  cases v with
  | global n =>
    exact Triple.bind (Keeps.modifyScene fun s hs => hs.of_eq rfl rfl rfl) fun _ =>
      Triple.pure fun _ hs => ⟨hs, rfl⟩
  | index => exact Triple.pure fun _ hs => ⟨hs, rfl⟩
  | pattern n =>
    exact Triple.bind (Keeps.modifyScene fun s hs => hs.of_eq rfl rfl rfl) fun _ =>
      Triple.pure fun _ hs => ⟨hs, rfl⟩
  | special _ => exact Triple.pure fun _ hs => ⟨hs, rfl⟩

theorem tickEvery_quiet (f : Frame) (n : Int16) : Keeps (Quiet z k cuts) (tickEvery f n) := by
  simp only [tickEvery]
  repeat (first
    | with_reducible exact Keeps.pure _
    | with_reducible exact Keeps.scene
    | with_reducible refine Keeps.bind ?_ fun _ => ?_
    | exact Keeps.modifyScene fun s hs => hs.of_eq rfl rfl rfl
    | split)

theorem defer_quiet (f : Frame) (body : Command) (delay : UInt32) :
    Keeps (Quiet z k cuts) (defer f body delay) := by
  simp only [defer]
  repeat (first
    | with_reducible exact Keeps.scene
    | with_reducible exact Keeps.ticks
    | with_reducible refine Keeps.bind ?_ fun _ => ?_
    | exact Keeps.modifyScene fun s hs => hs.of_eq rfl rfl rfl
    | split)

theorem deferCopies_quiet (f : Frame) (body : Command) (t : UInt32) (j n : Nat) :
    Keeps (Quiet z k cuts) (deferCopies f body t j n) := by
  induction n generalizing j with
  | zero => exact Keeps.pure _
  | succ n ih => exact Keeps.bind (defer_quiet f body _) fun _ => ih (j + 1)

theorem popStack_quiet :
    Triple (Quiet z k cuts) popStack fun e s =>
      Quiet z (k - 1) cuts s ∧ ∀ x ∈ e, x.command.pushes = false ∧ x.command.cost ≤ z ∧ 1 ≤ k :=
  fun _ hst => hst.pop

theorem read_quiet (f : Frame) (o : Operator) (a : List Int16) :
    Keeps (Quiet z k cuts) (Operators.read f o a) :=
  (read_frame f o a).keeps fun _ _ hf hs => hs.of_frame hf

theorem write_quiet (o : Operator) (a : List Int16) (v : Int16) :
    Keeps (Quiet z k cuts) (Operators.write o a v) :=
  (write_frame o a v).keeps fun _ _ hf hs => hs.of_frame hf

end Primitives

section Ends

/-! What fuel each function of the executor needs to end. Each statement asks for the
fuel of its own arguments and the reserve for the runs they may start, and promises that
the run ends without a cut, keeps it quiet, and hands back a frame of the same depth. -/

variable (z b n : Nat)

/-- `exec` ends with enough fuel for its command. -/
def ExecEnds : Prop :=
  ∀ {k cuts d : Nat} (f : Frame) (c : Command), f.depth = d → c.pushes = false →
    k * (z + 2) + z + 2 ≤ b → c.cost + reserve b d k ≤ n →
    Triple (Quiet z k cuts) (exec n f c) fun r s => Quiet z k cuts s ∧ r.2.depth = d

/-- `execSeq` ends with enough fuel for its commands. -/
def ExecSeqEnds : Prop :=
  ∀ {k cuts d : Nat} (f : Frame) (cs : List Command) (acc : Option Int16), f.depth = d →
    pushesAny cs = false → k * (z + 2) + z + 2 ≤ b → costList cs + reserve b d k ≤ n →
    Triple (Quiet z k cuts) (execSeq n f cs acc) fun r s => Quiet z k cuts s ∧ r.2.depth = d

/-- `evalArgs` ends with enough fuel for its operands. -/
def EvalArgsEnds : Prop :=
  ∀ {k cuts d : Nat} (f : Frame) (cs : List Command), f.depth = d → pushesAny cs = false →
    k * (z + 2) + z + 2 ≤ b → costList cs + reserve b d k ≤ n →
    Triple (Quiet z k cuts) (evalArgs n f cs) fun r s => Quiet z k cuts s ∧ r.2.depth = d

/-- `evalArg` ends with enough fuel for all the operands it may pick from. -/
def EvalArgEnds : Prop :=
  ∀ {k cuts d : Nat} (f : Frame) (args : List Command) (i : Nat), f.depth = d →
    pushesAny args = false → k * (z + 2) + z + 2 ≤ b → costList args + reserve b d k ≤ n →
    Triple (Quiet z k cuts) (evalArg n f args i) fun r s => Quiet z k cuts s ∧ r.2.depth = d

/-- `evalOp` ends with enough fuel for its operands and two steps more. -/
def EvalOpEnds : Prop :=
  ∀ {k cuts d : Nat} (f : Frame) (o : Operator) (args : List Command), f.depth = d →
    pushesAny args = false → k * (z + 2) + z + 2 ≤ b → costList args + reserve b d k + 2 ≤ n →
    Triple (Quiet z k cuts) (evalOp n f o args) fun r s => Quiet z k cuts s ∧ r.2.depth = d

/-- `getOp` ends with the reserve and two steps more. -/
def GetOpEnds : Prop :=
  ∀ {k cuts d : Nat} (f : Frame) (o : Operator) (a : List Int16), f.depth = d →
    k * (z + 2) + z + 2 ≤ b → reserve b d k + 2 ≤ n →
    Triple (Quiet z k cuts) (getOp n f o a) fun r s => Quiet z k cuts s ∧ r.2.depth = d

/-- `setOp` ends with the reserve and two steps more. -/
def SetOpEnds : Prop :=
  ∀ {k cuts d : Nat} (f : Frame) (o : Operator) (a : List Int16) (v : Int16), f.depth = d →
    k * (z + 2) + z + 2 ≤ b → reserve b d k + 2 ≤ n →
    Triple (Quiet z k cuts) (setOp n f o a v) fun f' s => Quiet z k cuts s ∧ f'.depth = d

/-- `stackAll` ends with enough fuel for `count` stacked commands. -/
def StackAllEnds : Prop :=
  ∀ {k cuts : Nat} (d count : Nat), k * (z + 2) + z + 2 ≤ b →
    count * (z + 2) + reserve b d (k - 1) + 1 ≤ n →
    Keeps (Quiet z k cuts) (stackAll n d count)

/-- `runStacked` ends with enough fuel for a stacked command. -/
def RunStackedEnds : Prop :=
  ∀ {k cuts : Nat} (d : Nat) (e : StackEntry), e.command.pushes = false → e.command.cost ≤ z →
    k * (z + 2) + z + 2 ≤ b → z + 1 + reserve b d k ≤ n →
    Keeps (Quiet z k cuts) (runStacked n d e)

/-- `execModifier` ends with enough fuel for its operands, its body and the longest loop. -/
def ExecModifierEnds : Prop :=
  ∀ {k cuts d : Nat} (f : Frame) (m : Modifier) (args : List Command) (body : Command),
    f.depth = d → (Command.modified m args body).pushes = false → k * (z + 2) + z + 2 ≤ b →
    costList args + body.cost + 65538 + reserve b d k ≤ n →
    Triple (Quiet z k cuts) (execModifier n f m args body) fun f' s =>
      Quiet z k cuts s ∧ f'.depth = d

/-- `execLoop` ends with enough fuel for `count` passes over its body. -/
def ExecLoopEnds : Prop :=
  ∀ {k cuts d : Nat} (f : Frame) (body : Command) (i step : Int) (count : Nat), f.depth = d →
    body.pushes = false → k * (z + 2) + z + 2 ≤ b → count + body.cost + reserve b d k ≤ n →
    Triple (Quiet z k cuts) (execLoop n f body i step count) fun f' s =>
      Quiet z k cuts s ∧ f'.depth = d

/-- `execWhile` ends with enough fuel for the passes left before the limit. -/
def ExecWhileEnds : Prop :=
  ∀ {k cuts d : Nat} (f : Frame) (cond body : Command) (count : Nat), f.depth = d →
    cond.pushes = false → body.pushes = false → k * (z + 2) + z + 2 ≤ b →
    (Scene.whileLimit - count) + cond.cost + body.cost + reserve b d k ≤ n →
    Triple (Quiet z k cuts) (execWhile n f cond body count) fun f' s =>
      Quiet z k cuts s ∧ f'.depth = d

/-- `runAt` ends with one step, and below the depth limit with enough fuel for a script. -/
def RunAtEnds : Prop :=
  ∀ {k cuts : Nat} (script d : Nat), k * (z + 2) + z + 2 ≤ b → 1 ≤ n →
    (d < Scene.maxDepth → z + 1 + reserve b d k ≤ n) →
    Keeps (Quiet z k cuts) (runAt n script d)

/-- `runLines` ends with enough fuel for its lines. -/
def RunLinesEnds : Prop :=
  ∀ {k cuts d : Nat} (f : Frame) (cs : List Command) (i : Nat) (acc : Option Int16),
    f.depth = d → pushesAny cs = false → k * (z + 2) + z + 2 ≤ b →
    costList cs + reserve b d k ≤ n →
    Keeps (Quiet z k cuts) (runLines n f cs i acc)

/-- Every function of the executor ends at fuel `n`, given the fuel its arguments need. -/
structure Ends : Prop where
  exec : ExecEnds z b n
  execSeq : ExecSeqEnds z b n
  evalArgs : EvalArgsEnds z b n
  evalArg : EvalArgEnds z b n
  evalOp : EvalOpEnds z b n
  getOp : GetOpEnds z b n
  setOp : SetOpEnds z b n
  stackAll : StackAllEnds z b n
  runStacked : RunStackedEnds z b n
  execModifier : ExecModifierEnds z b n
  execLoop : ExecLoopEnds z b n
  execWhile : ExecWhileEnds z b n
  runAt : RunAtEnds z b n
  runLines : RunLinesEnds z b n

theorem ends_zero : Ends z b 0 where
  exec := fun _ c _ _ _ h => absurd h (by have := cost_pos c; omega)
  execSeq := fun _ cs _ _ _ _ h => absurd h (by have := costList_pos cs; omega)
  evalArgs := fun _ cs _ _ _ h => absurd h (by have := costList_pos cs; omega)
  evalArg := fun _ args _ _ _ _ h => absurd h (by have := costList_pos args; omega)
  evalOp := fun _ _ _ _ _ _ h => absurd h (by omega)
  getOp := fun _ _ _ _ _ h => absurd h (by omega)
  setOp := fun _ _ _ _ _ _ h => absurd h (by omega)
  stackAll := fun _ _ _ h => absurd h (by omega)
  runStacked := fun _ _ _ _ _ h => absurd h (by omega)
  execModifier := fun _ _ _ _ _ _ _ h => absurd h (by omega)
  execLoop := fun _ body _ _ _ _ _ _ h => absurd h (by have := cost_pos body; omega)
  execWhile := fun _ _ body _ _ _ _ _ h => absurd h (by have := cost_pos body; omega)
  runAt := fun _ _ _ h _ => absurd h (by omega)
  runLines := fun _ cs _ _ _ _ _ h => absurd h (by have := costList_pos cs; omega)

end Ends

theorem loop_count_le (a b : Int16) : (b.toInt - a.toInt).natAbs + 1 ≤ 65536 := by
  have := a.le_toInt
  have := a.toInt_lt
  have := b.le_toInt
  have := b.toInt_lt
  omega

/-! One more unit of fuel: each function ends at `n + 1` when every function ends at `n`.
Each proof follows the function's own steps; a call it makes is paid from the fuel the
statement asks for, and a nested run from the reserve. -/

variable {z b n}

theorem runStacked_ends (ih : Ends z b n) : RunStackedEnds z b (n + 1) := by
  intro k cuts d e he hz hb hn
  simp only [runStacked]
  have hf : ({ script := e.script, depth := d, index := e.index } : Frame).depth = d := rfl
  exact Triple.bind ((ih.exec _ e.command hf he hb (by omega)).conseq (fun _ h => h)
    fun _ _ h => h.1) fun _ => Keeps.pure _

theorem stackAll_ends (ih : Ends z b n) : StackAllEnds z b (n + 1) := by
  intro k cuts d count hb hn
  cases count with
  | zero => simp only [stackAll]; exact Keeps.pure _
  | succ count =>
    simp only [stackAll]
    -- One command fewer on the stack frees one share of the reserve for the rest.
    have hb' : (k - 1) * (z + 2) + z + 2 ≤ b := by
      have := Nat.mul_le_mul_right (z + 2) (Nat.sub_le k 1)
      omega
    have hstep : (count + 1) * (z + 2) = count * (z + 2) + (z + 2) := Nat.succ_mul _ _
    have hres : reserve b d (k - 1 - 1) ≤ reserve b d (k - 1) := reserve_mono _ _ _ (by omega)
    refine Triple.bind popStack_quiet fun e => ?_
    cases e with
    | none => exact Triple.pure fun _ hs => hs.1.mono (Nat.sub_le k 1)
    | some x =>
      refine Triple.and_pre fun hx => ?_
      obtain ⟨hx1, hx2, -⟩ := hx x rfl
      refine Triple.bind (ih.runStacked d x hx1 hx2 hb' (by omega)) fun _ => ?_
      exact (ih.stackAll d count hb' (by omega)).conseq (fun _ h => h)
        fun _ _ h => h.mono (Nat.sub_le k 1)

theorem runLines_ends (ih : Ends z b n) : RunLinesEnds z b (n + 1) := by
  intro k cuts d f cs i acc hf hcs hb hn
  cases cs with
  | nil => simp only [runLines]; exact Keeps.pure _
  | cons c cs =>
    simp only [pushesAny, Bool.or_eq_false_iff] at hcs
    simp only [costList] at hn
    simp only [runLines]
    refine Triple.bind_pair (ih.exec _ c hf hcs.1 hb (by omega)) fun v f1 =>
      Triple.and_pre fun h1 => ?_
    exact Triple.ite (Keeps.pure _) (ih.runLines f1 cs _ _ h1 hcs.2 hb (by omega))

theorem runAt_ends (ih : Ends z b n) : RunAtEnds z b (n + 1) := by
  intro k cuts script d hb _ hn
  simp only [runAt]
  split
  · exact Keeps.bind (Keeps.modifyScene fun s hs => hs.of_eq rfl rfl rfl) fun _ => Keeps.pure _
  · next hd =>
    have hn' := hn (by omega)
    refine Triple.scene_bind fun s₀ hs₀ => ?_
    split
    · exact Triple.pure fun _ hs => hs.1
    · next sc hsc =>
      -- The script run is one of the scene's, so its lines stack nothing and fit in `z`.
      have hmem := List.mem_of_getElem? hsc
      have hz : sc.cost ≤ z := hs₀.scripts sc hmem
      have hlines : pushesAny (sc.lines.map (·.command)) = false :=
        pushesAny_eq_false_of_forall fun c hc => by
          obtain ⟨l, hl, rfl⟩ := List.mem_map.mp hc
          exact hs₀.lines sc hmem l hl
      unfold Script.cost at hz
      refine Triple.bind (Triple.ticks fun _ _ hs => hs.1) fun _ => ?_
      refine Triple.bind (Keeps.modifyScene fun s hs => hs.of_eq rfl rfl rfl) fun _ => ?_
      have hf : ({ script, depth := d } : Frame).depth = d := rfl
      exact Triple.bind (ih.runLines _ _ 0 none hf hlines hb (by omega)) fun _ => Keeps.pure _

theorem execLoop_ends (ih : Ends z b n) : ExecLoopEnds z b (n + 1) := by
  intro k cuts d f body i step count hf hbody hb hn
  cases count with
  | zero => simp only [execLoop]; exact Triple.pure fun _ hs => ⟨hs, hf⟩
  | succ count =>
    simp only [execLoop]
    refine Triple.bind_pair (ih.exec _ body hf hbody hb (by omega)) fun v f1 =>
      Triple.and_pre fun h1 => ?_
    exact Triple.ite (Triple.pure fun _ hs => ⟨hs, h1⟩)
      (ih.execLoop f1 body _ _ count h1 hbody hb (by omega))

theorem execWhile_ends (ih : Ends z b n) : ExecWhileEnds z b (n + 1) := by
  intro k cuts d f cond body count hf hcond hbody hb hn
  simp only [execWhile]
  split
  · exact Triple.pure fun _ hs => ⟨hs, hf⟩
  · next hlt =>
    refine Triple.bind_pair (ih.exec f cond hf hcond hb (by omega)) fun c f1 =>
      Triple.and_pre fun h1 => ?_
    refine Triple.ite (Triple.pure fun _ hs => ⟨hs, h1⟩) ?_
    refine Triple.bind_pair (ih.exec f1 body h1 hbody hb (by omega)) fun v f2 =>
      Triple.and_pre fun h2 => ?_
    exact Triple.ite (Triple.pure fun _ hs => ⟨hs, h2⟩)
      (ih.execWhile f2 cond body _ h2 hcond hbody hb (by omega))

theorem execSeq_ends (ih : Ends z b n) : ExecSeqEnds z b (n + 1) := by
  intro k cuts d f cs acc hf hcs hb hn
  cases cs with
  | nil => simp only [execSeq]; exact Triple.pure fun _ hs => ⟨hs, hf⟩
  | cons c cs =>
    simp only [pushesAny, Bool.or_eq_false_iff] at hcs
    simp only [costList] at hn
    simp only [execSeq]
    refine Triple.bind_pair (ih.exec f c hf hcs.1 hb (by omega)) fun v f1 =>
      Triple.and_pre fun h1 => ?_
    exact Triple.ite (Triple.pure fun _ hs => ⟨hs, h1⟩) (ih.execSeq f1 cs _ h1 hcs.2 hb (by omega))

theorem evalArgs_ends (ih : Ends z b n) : EvalArgsEnds z b (n + 1) := by
  intro k cuts d f cs hf hcs hb hn
  cases cs with
  | nil => simp only [evalArgs]; exact Triple.pure fun _ hs => ⟨hs, hf⟩
  | cons c cs =>
    simp only [pushesAny, Bool.or_eq_false_iff] at hcs
    simp only [costList] at hn
    simp only [evalArgs]
    refine Triple.bind_pair (ih.exec f c hf hcs.1 hb (by omega)) fun v f1 =>
      Triple.and_pre fun h1 => ?_
    exact Triple.bind_pair (ih.evalArgs f1 cs h1 hcs.2 hb (by omega)) fun vs f2 =>
      Triple.pure fun _ hs => hs

theorem evalArg_ends (ih : Ends z b n) : EvalArgEnds z b (n + 1) := by
  intro k cuts d f args i hf hargs hb hn
  simp only [evalArg]
  split
  · next c hc =>
    have hlt := cost_getElem?_lt hc
    exact Triple.bind_pair (ih.exec f c hf (pushes_eq_false_of_mem hargs (List.mem_of_getElem? hc)) hb
      (by omega)) fun v f1 => Triple.pure fun _ hs => hs
  · exact Triple.pure fun _ hs => ⟨hs, hf⟩

theorem evalOp_ends (ih : Ends z b n) : EvalOpEnds z b (n + 1) := by
  intro k cuts d f o args hf hargs hb hn
  have htake := costList_take_le args 3
  have hpos := costList_pos args
  simp only [evalOp]
  split
  · refine Triple.bind_pair (ih.evalArg f args 0 hf hargs hb (by omega)) fun c f1 =>
      Triple.and_pre fun h1 => ?_
    exact Triple.ite (ih.evalArg f1 args 1 h1 hargs hb (by omega))
      (ih.evalArg f1 args 2 h1 hargs hb (by omega))
  · exact Triple.bind_pair (ih.evalArgs f _ hf (pushesAny_take hargs 3) hb (by omega)) fun a f1 =>
      Triple.pure fun _ hs => hs
  · exact Triple.bind_pair (ih.evalArgs f _ hf (pushesAny_take hargs 3) hb (by omega)) fun a f1 =>
      Triple.and_pre fun h1 => ih.getOp f1 o a h1 hb (by omega)


theorem getOp_ends (ih : Ends z b n) : GetOpEnds z b (n + 1) := by
  intro k cuts d f o a hf hb hn
  subst hf
  have hb' : (k - 1) * (z + 2) + z + 2 ≤ b := by
    have := Nat.mul_le_mul_right (z + 2) (Nat.sub_le k 1)
    omega
  by_cases hhalt : o = .halt
  · subst hhalt
    simp only [getOp]
    exact Triple.pure fun _ hs => ⟨hs, rfl⟩
  by_cases hall : o = .stackAll
  · -- `S.ALL` runs each command on the stack; one share of the reserve pays for each.
    subst hall
    simp only [getOp]
    refine Triple.scene_bind fun s₀ hs₀ => ?_
    have hsize := hs₀.size
    have hfuel : s₀.stack.size * (z + 2) + reserve b f.depth (k - 1) + 1 ≤ n := by
      cases k with
      | zero =>
        simp only [Nat.le_zero] at hsize
        simp only [hsize, Nat.zero_mul, Nat.zero_sub]
        omega
      | succ k =>
        rw [reserve_succ] at hn
        have := Nat.mul_le_mul_right (z + 2) hsize
        simp only [Nat.add_sub_cancel]
        omega
    exact Triple.bind ((ih.stackAll f.depth _ hb hfuel).conseq (fun _ h => h.1) fun _ _ h => h)
      fun _ => Triple.pure fun _ hs => ⟨hs, rfl⟩
  by_cases hpop : o = .stackPop
  · -- `S.POP` runs the top command at the caller's depth, paid from its share.
    subst hpop
    simp only [getOp]
    refine Triple.bind popStack_quiet fun e => ?_
    cases e with
    | none => exact Triple.pure fun _ hs => ⟨hs.1.mono (Nat.sub_le k 1), rfl⟩
    | some x =>
      refine Triple.and_pre fun hx => ?_
      obtain ⟨hx1, hx2, hk⟩ := hx x rfl
      have hres : reserve b f.depth k = reserve b f.depth (k - 1) + b := by
        rw [← reserve_succ, Nat.sub_add_cancel hk]
      exact Triple.bind ((ih.runStacked f.depth x hx1 hx2 hb' (by omega)).conseq (fun _ h => h)
        fun _ _ h => h.mono (Nat.sub_le k 1)) fun _ => Triple.pure fun _ hs => ⟨hs, rfl⟩
  rw [getOp.eq_5 _ _ _ _ hhalt hall hpop]
  exact Triple.bind (read_quiet f o a) fun _ => Triple.pure fun _ hs => ⟨hs, rfl⟩

theorem setOp_ends (ih : Ends z b n) : SetOpEnds z b (n + 1) := by
  intro k cuts d f o a v hf hb hn
  subst hf
  by_cases hscript : o = .script
  · -- `SCRIPT` runs one level deeper, paid from the share of the level below.
    subst hscript
    simp only [setOp]
    split
    · refine Triple.bind (ih.runAt _ (f.depth + 1) hb (by omega) fun hd => ?_) fun _ =>
        Triple.pure fun _ hs => ⟨hs, rfl⟩
      rw [reserve_deeper b f.depth k (by omega)] at hn
      omega
    · exact Triple.pure fun _ hs => ⟨hs, rfl⟩
  rw [setOp.eq_3 _ _ _ _ _ hscript]
  exact Triple.bind (write_quiet o a v) fun _ => Triple.pure fun _ hs => ⟨hs, rfl⟩

theorem exec_ends (ih : Ends z b n) : ExecEnds z b (n + 1) := by
  intro k cuts d f c hf hc hb hn
  cases c with
  | nop => simp only [exec]; exact Triple.pure fun _ hs => ⟨hs, hf⟩
  | literal v => simp only [exec]; exact Triple.pure fun _ hs => ⟨hs, hf⟩
  | var v =>
    simp only [exec]
    exact Triple.bind (readVar_quiet f v) fun _ => Triple.pure fun _ hs => ⟨hs, hf⟩
  | op o args =>
    simp only [pushes] at hc
    simp only [cost] at hn
    simp only [exec]
    exact Triple.bind_pair (ih.evalOp f o args hf hc hb (by omega)) fun v f1 =>
      Triple.pure fun _ hs => hs
  | set o args value =>
    simp only [pushes, Bool.or_eq_false_iff] at hc
    simp only [cost] at hn
    simp only [exec]
    have htake := costList_take_le args 3
    have hpos := costList_pos args
    refine Triple.bind_pair (ih.evalArgs f _ hf (pushesAny_take hc.1 3) hb (by omega)) fun a f1 =>
      Triple.and_pre fun h1 => ?_
    refine Triple.bind_pair (ih.exec f1 value h1 hc.2 hb (by omega)) fun v f2 =>
      Triple.and_pre fun h2 => ?_
    exact Triple.bind (ih.setOp f2 o a _ h2 hb (by omega)) fun f3 => Triple.pure fun _ hs => hs
  | store var value =>
    simp only [pushes] at hc
    simp only [cost] at hn
    simp only [exec]
    refine Triple.bind_pair (ih.exec f value hf hc hb (by omega)) fun v f1 =>
      Triple.and_pre fun h1 => ?_
    exact Triple.bind (writeVar_quiet f1 var _) fun f2 =>
      Triple.and_pre fun h2 => Triple.pure fun _ hs => ⟨hs, h2.trans h1⟩
  | modified m args body =>
    simp only [cost] at hn
    simp only [exec]
    exact Triple.bind (ih.execModifier f m args body hf hc hb (by omega)) fun f1 =>
      Triple.pure fun _ hs => hs
  | seq parts =>
    simp only [pushes] at hc
    simp only [cost] at hn
    simp only [exec]
    exact ih.execSeq f parts none hf hc hb (by omega)

theorem exec_frame_ends (ih : Ends z b n) {k cuts d : Nat} (f : Frame) (body : Command)
    (hf : f.depth = d) (hbody : body.pushes = false) (hb : k * (z + 2) + z + 2 ≤ b)
    (hn : body.cost + reserve b d k ≤ n) :
    Triple (Quiet z k cuts) (do let r ← exec n f body; pure r.2) fun f' s =>
      Quiet z k cuts s ∧ f'.depth = d :=
  Triple.bind (ih.exec f body hf hbody hb hn) fun _ => Triple.pure fun _ hs => hs

theorem execModifier_ends (ih : Ends z b n) : ExecModifierEnds z b (n + 1) := by
  intro k cuts d f m args body hf hc hb hn
  simp only [pushes, Bool.or_eq_false_iff] at hc
  obtain ⟨⟨hm, hargs⟩, hbody⟩ := hc
  have hhead := cost_headD_le args
  -- Each operand and the body fit in what the line was given; a loop takes the rest.
  have harg : costList args + reserve b d k ≤ n := by omega
  have hrun : body.cost + reserve b d k ≤ n := by omega
  cases m with
  | ifThen =>
    simp only [execModifier]
    refine Triple.bind_pair (ih.evalArg f args 0 hf hargs hb harg) fun c f1 =>
      Triple.and_pre fun h1 => ?_
    exact Triple.ite (exec_frame_ends ih _ body h1 hbody hb hrun) (Triple.pure fun _ hs => ⟨hs, h1⟩)
  | elif =>
    simp only [execModifier]
    refine Triple.ite ?_ (Triple.pure fun _ hs => ⟨hs, hf⟩)
    refine Triple.bind_pair (ih.evalArg f args 0 hf hargs hb harg) fun c f1 =>
      Triple.and_pre fun h1 => ?_
    exact Triple.ite (exec_frame_ends ih _ body h1 hbody hb hrun) (Triple.pure fun _ hs => ⟨hs, h1⟩)
  | orElse =>
    simp only [execModifier]
    exact Triple.ite (exec_frame_ends ih _ body hf hbody hb hrun) (Triple.pure fun _ hs => ⟨hs, hf⟩)
  | loop =>
    simp only [execModifier]
    refine Triple.bind_pair (ih.evalArg f args 0 hf hargs hb harg) fun a f1 =>
      Triple.and_pre fun h1 => ?_
    refine Triple.bind_pair (ih.evalArg f1 args 1 h1 hargs hb harg) fun a' f2 =>
      Triple.and_pre fun h2 => ?_
    exact ih.execLoop f2 body _ _ _ h2 hbody hb (by dsimp only; have := loop_count_le a a'; omega)
  | whileLoop =>
    simp only [execModifier]
    exact ih.execWhile f _ body 0 hf (pushes_headD hargs) hbody hb
      (by simp only [Scene.whileLimit]; omega)
  | every | skip =>
    simp only [execModifier]
    refine Triple.bind_pair (ih.evalArg f args 0 hf hargs hb harg) fun c f1 =>
      Triple.and_pre fun h1 => ?_
    refine Triple.bind (tickEvery_quiet f1 c) fun hit => ?_
    exact Triple.ite (exec_frame_ends ih _ body h1 hbody hb hrun) (Triple.pure fun _ hs => ⟨hs, h1⟩)
  | other =>
    simp only [execModifier]
    exact Triple.ite (exec_frame_ends ih _ body hf hbody hb hrun) (Triple.pure fun _ hs => ⟨hs, hf⟩)
  | prob =>
    simp only [execModifier]
    refine Triple.bind_pair (ih.evalArg f args 0 hf hargs hb harg) fun c f1 =>
      Triple.and_pre fun h1 => ?_
    refine Triple.bind Keeps.scene fun s₀ => ?_
    rcases s₀.rng.int32Between 0 99 with ⟨r, g⟩
    refine Triple.bind (Keeps.modifyScene fun s hs => hs.of_eq rfl rfl rfl) fun _ => ?_
    exact Triple.ite (exec_frame_ends ih _ body h1 hbody hb hrun) (Triple.pure fun _ hs => ⟨hs, h1⟩)
  | delay =>
    simp only [execModifier]
    refine Triple.bind_pair (ih.evalArg f args 0 hf hargs hb harg) fun t f1 =>
      Triple.and_pre fun h1 => ?_
    exact Triple.bind (defer_quiet f1 body _) fun _ => Triple.pure fun _ hs => ⟨hs, h1⟩
  | delayRepeat =>
    simp only [execModifier]
    refine Triple.bind_pair (ih.evalArg f args 0 hf hargs hb harg) fun c f1 =>
      Triple.and_pre fun h1 => ?_
    refine Triple.bind_pair (ih.evalArg f1 args 1 h1 hargs hb harg) fun t f2 =>
      Triple.and_pre fun h2 => ?_
    exact Triple.bind (deferCopies_quiet f2 body _ _ _) fun _ => Triple.pure fun _ hs => ⟨hs, h2⟩
  | delayRun =>
    simp only [execModifier, pure_bind]
    refine Triple.bind_pair (ih.evalArg f args 0 hf hargs hb harg) fun c f1 =>
      Triple.and_pre fun h1 => ?_
    refine Triple.bind_pair (ih.evalArg f1 args 1 h1 hargs hb harg) fun t f2 =>
      Triple.and_pre fun h2 => ?_
    have hrest : ∀ f3 : Frame, f3.depth = d → Triple (Quiet z k cuts)
        (do deferCopies f3 body (ticksOf t) 1 (copiesOf c - 1); pure f3)
        fun f' s => Quiet z k cuts s ∧ f'.depth = d := fun f3 h3 =>
      Triple.bind (deferCopies_quiet f3 body _ _ _) fun _ => Triple.pure fun _ hs => ⟨hs, h3⟩
    refine Triple.ite ?_ (hrest f2 h2)
    exact Triple.bind_pair (ih.exec f2 body h2 hbody hb hrun) fun v f3 =>
      Triple.and_pre fun h3 => hrest f3 h3
  | stack => simp at hm

theorem ends (z b n : Nat) : Ends z b n := by
  induction n with
  | zero => exact ends_zero z b
  | succ n ih =>
    exact ⟨exec_ends ih, execSeq_ends ih, evalArgs_ends ih, evalArg_ends ih, evalOp_ends ih,
      getOp_ends ih, setOp_ends ih, stackAll_ends ih, runStacked_ends ih, execModifier_ends ih,
      execLoop_ends ih, execWhile_ends ih, runAt_ends ih, runLines_ends ih⟩

theorem reserve_le_top (b d k : Nat) : reserve b d k ≤ reserve b 0 k :=
  Nat.mul_le_mul_right _ (by omega)

end Executor

namespace Scene

open Command Executor

/-- The fuel the scripts and the stacked commands of a scene need, all together. -/
def heldCost (s : Scene) : Nat :=
  (s.scripts.map Script.cost).sum + (s.stack.items.map fun e => e.command.cost).sum

/-- No script line and no stacked command of the scene holds an `S` modifier. -/
def Unstacking (s : Scene) : Prop :=
  (∀ sc ∈ s.scripts, ∀ l ∈ sc.lines, l.command.pushes = false) ∧
    ∀ e ∈ s.stack.items, e.command.pushes = false

instance (s : Scene) : Decidable s.Unstacking := inferInstanceAs (Decidable (_ ∧ _))

/-- Fuel enough for a run of cost `c` from the scene and for all the runs it starts: one
share for each stacked command and each level of depth, each share paying for every
command held. -/
def runFuel (s : Scene) (c : Nat) : Nat :=
  c + reserve (s.stack.size * (s.heldCost + 2) + s.heldCost + 2) 0 s.stack.size

theorem Unstacking.quiet {s : Scene} (h : s.Unstacking) :
    Quiet s.heldCost s.stack.size s.stats.exhausted s where
  lines := h.1
  scripts _ hsc :=
    Nat.le_trans (List.le_sum_of_mem (List.mem_map_of_mem hsc)) (Nat.le_add_right _ _)
  stacked e he :=
    ⟨h.2 e he, Nat.le_trans (List.le_sum_of_mem (List.mem_map.mpr ⟨e, he, rfl⟩))
      (Nat.le_add_left _ _)⟩
  size := Nat.le_refl _
  cut := rfl

end Scene

namespace Executor

open Command Act

/-- Without `S` modifiers every run ends. From a scene whose scripts and stacked commands
hold none, a command that holds none, given `runFuel` of its cost, never runs out of fuel,
and neither does a script run given fuel for every command held; so the nesting of each
run, its `SCRIPT` calls, stack pops and loop passes together, stays below that fuel. -/
theorem runs_end_without_stacking (st : Machine) (hs : st.scene.Unstacking) :
    (∀ (fuel : Nat) (f : Frame) (c : Command), c.pushes = false →
      st.scene.runFuel c.cost ≤ fuel →
      ((exec fuel f c).run st).2.scene.stats.exhausted = st.scene.stats.exhausted) ∧
    ∀ (fuel script d : Nat), st.scene.runFuel (st.scene.heldCost + 1) ≤ fuel →
      ((runAt fuel script d).run st).2.scene.stats.exhausted = st.scene.stats.exhausted := by
  have hq := hs.quiet
  have hb := Nat.le_refl (st.scene.stack.size * (st.scene.heldCost + 2) + st.scene.heldCost + 2)
  refine ⟨fun fuel f c hc hfuel => ?_, fun fuel script d hfuel => ?_⟩
  · have hres := reserve_le_top (st.scene.stack.size * (st.scene.heldCost + 2) + st.scene.heldCost + 2)
      f.depth st.scene.stack.size
    unfold Scene.runFuel at hfuel
    exact ((ends _ _ fuel).exec f c rfl hc hb (by omega) st hq).1.cut
  · have hres := reserve_le_top (st.scene.stack.size * (st.scene.heldCost + 2) + st.scene.heldCost + 2)
      d st.scene.stack.size
    unfold Scene.runFuel at hfuel
    exact ((ends _ _ fuel).runAt script d hb (by omega) (fun _ => by omega) st hq).cut

/-- A new scene stacks nothing, and the loop `L 1 4: X ADD X I` run on it as a live line ends
within the fuel of an entry point. -/
theorem counting_loop_ends :
    (Scene.withSeed 0).Unstacking ∧
      ((exec Machine.fuel { script := Scene.liveScript, depth := 0 }
          (Line.ofText "L 1 4: X ADD X I").command).run
        ⟨Scene.withSeed 0, Io.silent⟩).2.scene.stats.exhausted = (Scene.withSeed 0).stats.exhausted :=
  ⟨by decide, (runs_end_without_stacking ⟨Scene.withSeed 0, Io.silent⟩ (by decide)).1 _ _ _
    (by decide +kernel) (by decide +kernel)⟩

end Executor

end TriggerScript
