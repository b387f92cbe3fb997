import TriggerScript.Proofs.LineFrame
import TriggerScript.Proofs.DelayFiring
import TriggerScript.Proofs.Reachable
/-!
Deferred commands.

`DEL`, `DEL.X` and `DEL.R` put their body on the delay queue, owned by the script of the line
that ran them, and `S` puts its body on the command stack. The grammar lets a modifier open a
line only, and keeps `BREAK` out of a body that waits (`Command.LineShaped`); editing a script
cancels every delay it owns (`Scene.scriptChanged`). So in every reachable scene each waiting
command is inert, holding no modifier and no `BREAK`, and each delay a script owns is the body
of a delay line that script holds now (`Scene.DeferredInert`,
`Scene.Reachable.deferred_commands_inert`).

A run is followed with its scripts fixed (`Running`). A command may schedule only a body its
own script owns (`Runnable`); each line of a script runs in a frame of that script, and hands
the next line a frame of the same script (`Executor.exec_lineAfter`), so the bodies a script's
lines schedule are bodies of its own lines.
-/

set_option autoImplicit false
set_option relaxedAutoImplicit false

namespace TriggerScript

/-! ### What may wait -/

/-- The modifiers that put their body on the delay queue: `DEL`, `DEL.X` and `DEL.R`. -/
def Modifier.schedules : Modifier → Bool
  | .delay | .delayRepeat | .delayRun => true
  | _ => false

/-- A command that may wait on the delay queue or the command stack: it holds no modifier and
no operator that cannot wait, `BREAK` being the only such operator. -/
def Command.Inert (c : Command) : Prop := c.hasModifier = false ∧ c.hasImmediate = false

/-- `body` is the body of a `DEL`, `DEL.X` or `DEL.R` line of the script. -/
def Script.Schedules (sc : Script) (body : Command) : Prop :=
  ∃ l ∈ sc.lines, ∃ m args, m.schedules = true ∧ l.command = .modified m args body

/-- A delay of `body` owned by `i` is accounted for by the scripts `scs`: when `i` names a
script, `body` is the body of one of its delay lines. A line outside the scripts may schedule
any inert body. -/
def Owned (scs : List Script) (i : Nat) (body : Command) : Prop :=
  i < Scene.scriptCount → ∃ sc, scs[i]? = some sc ∧ sc.Schedules body

/-- What waits in a scene: every delay and every stacked command is inert, and every delay a
script owns is the body of one of that script's delay lines. -/
structure Scene.DeferredInert (s : Scene) : Prop where
  delays : ∀ e ∈ s.delays.entries, e.command.Inert
  owned : ∀ e ∈ s.delays.entries, Owned s.scripts e.script e.command
  stack : ∀ e ∈ s.stack.items, e.command.Inert

/-! ### The queue and the stack -/

namespace DelayQueue

variable {q q' : DelayQueue} {e : DelayEntry}

theorem mem_schedule {script : Nat} {index : Int16} {command : Command} {fire : UInt32}
    (h : q.schedule script index command fire = .ok q') (he : e ∈ q'.entries) :
    e ∈ q.entries ∨ e.script = script ∧ e.command = command := by
  unfold schedule at h
  split at h
  · cases h
  · next n hidx =>
    cases h
    obtain ⟨hn, hfree, -⟩ := List.findIdx?_eq_some_iff_getElem.mp hidx
    have hslot : q.slots[n]? = some none := by
      rw [List.getElem?_eq_getElem hn, Option.isNone_iff_eq_none.mp hfree]
    rcases List.mem_cons.mp ((filterMap_set_some _ hslot).mem_iff.mp he) with rfl | he
    · exact .inr ⟨rfl, rfl⟩
    · exact .inl he

theorem mem_of_mem_set_none {k : Nat} (he : e ∈ (q.slots.set k none).filterMap id) :
    e ∈ q.entries := by
  obtain ⟨o, ho, hoe⟩ := List.mem_filterMap.mp he
  obtain rfl : o = some e := hoe
  rcases List.mem_or_eq_of_mem_set ho with ho | ho
  · exact List.mem_filterMap.mpr ⟨some e, ho, rfl⟩
  · cases ho

theorem mem_of_mem_popDueBefore {now : UInt32} {before : Nat}
    (he : e ∈ (q.popDueBefore now before).2.entries) : e ∈ q.entries := by
  unfold popDueBefore at he
  split at he
  · exact he
  · exact mem_of_mem_set_none he

theorem mem_of_popDueBefore {now : UInt32} {before : Nat}
    (h : (q.popDueBefore now before).1 = some e) : e ∈ q.entries := by
  unfold popDueBefore at h
  split at h
  · cases h
  · next k x hscan =>
    rw [← Option.some.inj h]
    rcases earliestDue_mem q.slots 0 none k x hscan with hbest | ⟨-, hslot, -⟩
    · cases hbest
    · exact List.mem_filterMap.mpr ⟨some x, List.mem_of_getElem? hslot, rfl⟩

end DelayQueue

namespace BoundedStack

variable {α : Type} {s s' : BoundedStack α} {x y : α}

theorem mem_push (h : s.push x = .ok s') (hy : y ∈ s'.items) : y ∈ s.items ∨ y = x := by
  unfold push at h
  split at h
  · cases h
  · cases h
    simpa using hy

theorem mem_of_mem_pop (hy : y ∈ s.pop.2.items) : y ∈ s.items := by
  unfold pop at hy
  split at hy
  · exact hy
  · exact List.dropLast_subset _ hy

theorem mem_of_pop (h : s.pop.1 = some y) : y ∈ s.items := by
  unfold pop at h
  split at h
  · cases h
  · next x hlast =>
    cases h
    exact List.mem_of_getLast? hlast

end BoundedStack

/-! ### What waits stays sound -/

namespace Scene.DeferredInert

variable {s s' : Scene}

theorem of_frame (h : s.DeferredInert) (hscripts : s'.scripts = s.scripts)
    (hdelays : ∀ e ∈ s'.delays.entries, e ∈ s.delays.entries)
    (hstack : ∀ e ∈ s'.stack.items, e ∈ s.stack.items) : s'.DeferredInert where
  delays e he := h.delays e (hdelays e he)
  owned e he := hscripts ▸ h.owned e (hdelays e he)
  stack e he := h.stack e (hstack e he)

theorem schedule (h : s.DeferredInert) {q : DelayQueue} {script : Nat} {index : Int16}
    {command : Command} {fire : UInt32} (hq : s.delays.schedule script index command fire = .ok q)
    (hc : command.Inert) (ho : Owned s.scripts script command) :
    { s with delays := q }.DeferredInert where
  delays e he := by
    rcases DelayQueue.mem_schedule hq he with he | ⟨-, rfl⟩
    · exact h.delays e he
    · exact hc
  owned e he := by
    rcases DelayQueue.mem_schedule hq he with he | ⟨rfl, rfl⟩
    · exact h.owned e he
    · exact ho
  stack := h.stack

theorem push (h : s.DeferredInert) {st : BoundedStack StackEntry} {x : StackEntry}
    (hst : s.stack.push x = .ok st) (hx : x.command.Inert) : { s with stack := st }.DeferredInert where
  delays := h.delays
  owned := h.owned
  stack e he := by
    rcases BoundedStack.mem_push hst he with he | rfl
    · exact h.stack e he
    · exact hx

end Scene.DeferredInert

/-- A scene in the middle of a run over the scripts `scs`: the scripts are still `scs`, and what
waits in it is sound. -/
structure Running (scs : List Script) (s : Scene) : Prop where
  scripts : s.scripts = scs
  deferred : s.DeferredInert

namespace Running

variable {scs : List Script} {s s' : Scene}

theorem drop (h : Running scs s) (hscripts : s'.scripts = s.scripts)
    (hdelays : s'.delays = s.delays ∨ s'.delays = s.delays.cancelAll)
    (hstack : s'.stack = s.stack ∨ s'.stack = s.stack.clear) : Running scs s' := by
  refine ⟨hscripts.trans h.scripts, h.deferred.of_frame hscripts (fun e he => ?_) fun e he => ?_⟩
  · rcases hdelays with hd | hd <;> rw [hd] at he
    · exact he
    · simp [DelayQueue.entries_cancelAll] at he
  · rcases hstack with hs | hs <;> rw [hs] at he
    · exact he
    · simp [BoundedStack.clear] at he

theorem pop (h : Running scs s) :
    Running scs { s with stack := s.stack.pop.2 } ∧ ∀ x ∈ s.stack.pop.1, x.command.Inert :=
  ⟨⟨h.scripts, h.deferred.of_frame rfl (fun _ he => he) fun _ he => BoundedStack.mem_of_mem_pop he⟩,
    fun _ hx => h.deferred.stack _ (BoundedStack.mem_of_pop hx)⟩

end Running

/-! ### The steps of a run -/

namespace Executor

open Act Command TriggerScript.Frame

/-- A command a run of script `i` may execute over the scripts `scs`: of a line's shape, and
when it schedules its body, a body that `i` owns. -/
structure Runnable (scs : List Script) (i : Nat) (c : Command) : Prop where
  shaped : c.LineShaped
  owned : ∀ m args body, c = .modified m args body → m.schedules = true → Owned scs i body

section Primitives

variable {scs : List Script}

theorem Runnable.of_plain {i : Nat} {c : Command} (h : c.hasModifier = false) :
    Runnable scs i c :=
  ⟨.plain h, fun _ _ _ hc _ => by subst hc; cases h⟩

theorem Runnable.line {i : Nat} {sc : Script} {l : Line} (hsc : scs[i]? = some sc)
    (hl : l ∈ sc.lines) (hshape : l.command.LineShaped) : Runnable scs i l.command :=
  ⟨hshape, fun m args _ hc hm _ => ⟨sc, hsc, l, hl, m, args, hm, hc⟩⟩

theorem readVar_running (f : Frame) (v : Variable) : Keeps (Running scs) (readVar f v) := by
  cases v <;> simp only [readVar] <;>
  repeat (first
    | with_reducible exact Keeps.pure _
    | with_reducible exact Keeps.scene
    | with_reducible exact Keeps.get
    | with_reducible refine Keeps.bind ?_ fun _ => ?_)

theorem writeVar_running (f : Frame) (v : Variable) (x : Int16) :
    Keeps (Running scs) (writeVar f v x) := by
  cases v <;> simp only [writeVar] <;>
  first
    | exact Keeps.pure _
    | exact Keeps.bind (Keeps.modifyScene fun _ hs => hs.drop rfl (.inl rfl) (.inl rfl))
        fun _ => Keeps.pure _

theorem tickEvery_running (f : Frame) (n : Int16) : Keeps (Running scs) (tickEvery f n) := by
  simp only [tickEvery]
  repeat (first
    | with_reducible exact Keeps.pure _
    | with_reducible exact Keeps.scene
    | with_reducible refine Keeps.bind ?_ fun _ => ?_
    | exact Keeps.modifyScene fun _ hs => hs.drop rfl (.inl rfl) (.inl rfl)
    | split)

theorem exhaust_running : Keeps (Running scs) exhaust :=
  Keeps.modifyScene fun _ hs => hs.drop rfl (.inl rfl) (.inl rfl)

theorem defer_running (f : Frame) (body : Command) (t : UInt32) (hbody : body.Inert)
    (hown : Owned scs f.script body) : Keeps (Running scs) (defer f body t) := by
  simp only [defer]
  refine Keeps.bind Keeps.ticks fun _ => ?_
  refine Triple.scene_bind fun s₀ hs₀ => ?_
  split
  · next q hok =>
    refine Triple.modifyScene fun s hs => ?_
    obtain ⟨-, rfl⟩ := hs
    exact ⟨hs₀.scripts, hs₀.deferred.schedule hok hbody (hs₀.scripts ▸ hown)⟩
  · exact Triple.modifyScene fun _ hs => hs.1.drop rfl (.inl rfl) (.inl rfl)

theorem deferCopies_running (f : Frame) (body : Command) (t : UInt32) (hbody : body.Inert)
    (hown : Owned scs f.script body) (j n : Nat) : Keeps (Running scs) (deferCopies f body t j n) := by
  induction n generalizing j with
  | zero => exact Keeps.pure _
  | succ n ih => exact Keeps.bind (defer_running f body _ hbody hown) fun _ => ih (j + 1)

theorem stackBody_running (f : Frame) (body : Command) (hbody : body.Inert) :
    Keeps (Running scs) (stackBody f body) := by
  simp only [stackBody]
  refine Triple.scene_bind fun s₀ hs₀ => ?_
  split
  · next st hok =>
    refine Triple.modifyScene fun s hs => ?_
    obtain ⟨-, rfl⟩ := hs
    exact ⟨hs₀.scripts, hs₀.deferred.push hok hbody⟩
  · exact Triple.modifyScene fun _ hs => hs.1.drop rfl (.inl rfl) (.inl rfl)

theorem Runnable.live {c : Command} (hc : c.LineShaped) : Runnable scs Scene.liveScript c :=
  ⟨hc, fun _ _ _ _ _ hlt => absurd hlt (by decide)⟩

theorem popStack_running :
    Triple (Running scs) popStack fun e s => Running scs s ∧ ∀ x ∈ e, x.command.Inert :=
  fun _ hst => hst.pop

theorem read_running (f : Frame) (o : Operator) (a : List Int16) :
    Keeps (Running scs) (Operators.read f o a) :=
  (read_frame f o a).keeps fun _ _ hf hs => hs.drop hf.scripts hf.delays hf.stack

theorem write_running (o : Operator) (a : List Int16) (v : Int16) :
    Keeps (Running scs) (Operators.write o a v) :=
  (write_frame o a v).keeps fun _ _ hf hs => hs.drop hf.scripts hf.delays hf.stack

end Primitives

section Keeps

/-! What each function of the executor needs of its arguments for a run to stay sound: commands
a run of its frame's script may execute, operands and bodies without modifiers, and stacked
commands without modifiers. -/

variable (scs : List Script) (n : Nat)

def ExecKeeps : Prop :=
  ∀ (f : Frame) (c : Command), Runnable scs f.script c → Keeps (Running scs) (exec n f c)

def ExecSeqKeeps : Prop :=
  ∀ (f : Frame) (cs : List Command) (acc : Option Int16), anyModifier cs = false →
    Keeps (Running scs) (execSeq n f cs acc)

def EvalArgsKeeps : Prop :=
  ∀ (f : Frame) (cs : List Command), anyModifier cs = false →
    Keeps (Running scs) (evalArgs n f cs)

def EvalArgKeeps : Prop :=
  ∀ (f : Frame) (args : List Command) (i : Nat), anyModifier args = false →
    Keeps (Running scs) (evalArg n f args i)

def EvalOpKeeps : Prop :=
  ∀ (f : Frame) (o : Operator) (args : List Command), anyModifier args = false →
    Keeps (Running scs) (evalOp n f o args)

def GetOpKeeps : Prop :=
  ∀ (f : Frame) (o : Operator) (a : List Int16), Keeps (Running scs) (getOp n f o a)

def SetOpKeeps : Prop :=
  ∀ (f : Frame) (o : Operator) (a : List Int16) (v : Int16), Keeps (Running scs) (setOp n f o a v)

def StackAllKeeps : Prop := ∀ d count : Nat, Keeps (Running scs) (stackAll n d count)

def RunStackedKeeps : Prop :=
  ∀ (d : Nat) (e : StackEntry), e.command.hasModifier = false →
    Keeps (Running scs) (runStacked n d e)

/-- A modifier line: operands and body without modifiers, a body that waits holding no
`BREAK`, and a body that goes on the delay queue owned by the frame's script. -/
def ExecModifierKeeps : Prop :=
  ∀ (f : Frame) (m : Modifier) (args : List Command) (body : Command),
    anyModifier args = false → body.hasModifier = false →
    (m.defers = true → body.hasImmediate = false) →
    (m.schedules = true → Owned scs f.script body) →
    Keeps (Running scs) (execModifier n f m args body)

def ExecLoopKeeps : Prop :=
  ∀ (f : Frame) (body : Command) (i step : Int) (count : Nat), body.hasModifier = false →
    Keeps (Running scs) (execLoop n f body i step count)

def ExecWhileKeeps : Prop :=
  ∀ (f : Frame) (cond body : Command) (count : Nat), cond.hasModifier = false →
    body.hasModifier = false → Keeps (Running scs) (execWhile n f cond body count)

def RunAtKeeps : Prop := ∀ script d : Nat, Keeps (Running scs) (runAt n script d)

def RunLinesKeeps : Prop :=
  ∀ (f : Frame) (cs : List Command) (i : Nat) (acc : Option Int16),
    (∀ c ∈ cs, Runnable scs f.script c) → Keeps (Running scs) (runLines n f cs i acc)

/-- Every function of the executor keeps a run over `scs` sound at fuel `n`. -/
structure KeptAt : Prop where
  exec : ExecKeeps scs n
  execSeq : ExecSeqKeeps scs n
  evalArgs : EvalArgsKeeps scs n
  evalArg : EvalArgKeeps scs n
  evalOp : EvalOpKeeps scs n
  getOp : GetOpKeeps scs n
  setOp : SetOpKeeps scs n
  stackAll : StackAllKeeps scs n
  runStacked : RunStackedKeeps scs n
  execModifier : ExecModifierKeeps scs n
  execLoop : ExecLoopKeeps scs n
  execWhile : ExecWhileKeeps scs n
  runAt : RunAtKeeps scs n
  runLines : RunLinesKeeps scs n

theorem keptAt_zero : KeptAt scs 0 := by
  constructor <;>
    simp only [ExecKeeps, ExecSeqKeeps, EvalArgsKeeps, EvalArgKeeps, EvalOpKeeps, GetOpKeeps,
      SetOpKeeps, StackAllKeeps, RunStackedKeeps, ExecModifierKeeps, ExecLoopKeeps,
      ExecWhileKeeps, RunAtKeeps, RunLinesKeeps] <;> intros <;>
    simp only [exec, execSeq, evalArgs, evalArg, evalOp, getOp, setOp, stackAll, runStacked,
      execModifier, execLoop, execWhile, runAt, runLines]
  -- what a function answers after the cut leaves the scene as the cut did
  all_goals exact exhaust_running

end Keeps

section Succ

variable {scs : List Script} {n : Nat}

theorem execSeq_keeps (ih : KeptAt scs n) : ExecSeqKeeps scs (n + 1) := by
  intro f cs acc hcs
  cases cs with
  | nil => simp only [execSeq]; exact Keeps.pure _
  | cons c cs =>
    simp only [anyModifier, Bool.or_eq_false_iff] at hcs
    simp only [execSeq]
    refine Triple.bind_pair (ih.exec f c (.of_plain hcs.1)) fun _ f₁ => ?_
    exact Triple.ite (Keeps.pure _) (ih.execSeq f₁ cs _ hcs.2)

theorem evalArgs_keeps (ih : KeptAt scs n) : EvalArgsKeeps scs (n + 1) := by
  intro f cs hcs
  cases cs with
  | nil => simp only [evalArgs]; exact Keeps.pure _
  | cons c cs =>
    simp only [anyModifier, Bool.or_eq_false_iff] at hcs
    simp only [evalArgs]
    refine Triple.bind_pair (ih.exec f c (.of_plain hcs.1)) fun _ f₁ => ?_
    exact Triple.bind_pair (ih.evalArgs f₁ cs hcs.2) fun _ _ => Keeps.pure _

theorem evalArg_keeps (ih : KeptAt scs n) : EvalArgKeeps scs (n + 1) := by
  intro f args i hargs
  simp only [evalArg]
  split
  · next c hc =>
    exact Triple.bind_pair (ih.exec f c (.of_plain (hasModifier_of_getElem? hargs hc)))
      fun _ _ => Keeps.pure _
  · exact Keeps.pure _

theorem evalOp_keeps (ih : KeptAt scs n) : EvalOpKeeps scs (n + 1) := by
  intro f o args hargs
  simp only [evalOp]
  split
  · refine Triple.bind_pair (ih.evalArg f args 0 hargs) fun _ f₁ => ?_
    exact Triple.ite (ih.evalArg f₁ args 1 hargs) (ih.evalArg f₁ args 2 hargs)
  · exact Triple.bind_pair (ih.evalArgs f _ (anyModifier_take hargs 3)) fun _ _ => Keeps.pure _
  · exact Triple.bind_pair (ih.evalArgs f _ (anyModifier_take hargs 3)) fun _ f₁ =>
      ih.getOp f₁ o _

theorem getOp_keeps (ih : KeptAt scs n) : GetOpKeeps scs (n + 1) := by
  intro f o a
  simp only [getOp.eq_def]
  split
  · exact Keeps.pure _
  · exact Keeps.bind Keeps.scene fun _ => Keeps.bind (ih.stackAll _ _) fun _ => Keeps.pure _
  · -- `S.POP` runs the command it takes off the stack, which holds no modifier
    refine Triple.bind popStack_running fun e => Triple.and_pre fun he => ?_
    cases e with
    | none => exact Keeps.pure _
    | some x => exact Keeps.bind (ih.runStacked _ x (he x rfl).1) fun _ => Keeps.pure _
  · exact Keeps.bind (read_running f o a) fun _ => Keeps.pure _

theorem setOp_keeps (ih : KeptAt scs n) : SetOpKeeps scs (n + 1) := by
  intro f o a v
  simp only [setOp.eq_def]
  split
  · split
    · exact Keeps.bind (ih.runAt _ _) fun _ => Keeps.pure _
    · exact Keeps.pure _
  · exact Keeps.bind (write_running o a v) fun _ => Keeps.pure _

theorem stackAll_keeps (ih : KeptAt scs n) : StackAllKeeps scs (n + 1) := by
  intro d count
  cases count with
  | zero => simp only [stackAll]; exact Keeps.pure _
  | succ count =>
    simp only [stackAll]
    refine Triple.bind popStack_running fun e => Triple.and_pre fun he => ?_
    cases e with
    | none => exact Keeps.pure _
    | some x => exact Keeps.bind (ih.runStacked d x (he x rfl).1) fun _ => ih.stackAll d count

theorem runStacked_keeps (ih : KeptAt scs n) : RunStackedKeeps scs (n + 1) := by
  intro d e he
  simp only [runStacked]
  exact Triple.bind_pair (ih.exec _ e.command (.of_plain he)) fun _ _ => Keeps.pure _

theorem execLoop_keeps (ih : KeptAt scs n) : ExecLoopKeeps scs (n + 1) := by
  intro f body i step count hbody
  cases count with
  | zero => simp only [execLoop]; exact Keeps.pure _
  | succ count =>
    simp only [execLoop]
    refine Triple.bind_pair (ih.exec _ body (.of_plain hbody)) fun _ f₁ => ?_
    exact Triple.ite (Keeps.pure _) (ih.execLoop f₁ body _ _ count hbody)

theorem execWhile_keeps (ih : KeptAt scs n) : ExecWhileKeeps scs (n + 1) := by
  intro f cond body count hcond hbody
  simp only [execWhile]
  split
  · exact Keeps.pure _
  · refine Triple.bind_pair (ih.exec f cond (.of_plain hcond)) fun _ f₁ => ?_
    refine Triple.ite (Keeps.pure _) ?_
    refine Triple.bind_pair (ih.exec f₁ body (.of_plain hbody)) fun _ f₂ => ?_
    exact Triple.ite (Keeps.pure _) (ih.execWhile f₂ cond body _ hcond hbody)

theorem exec_plain_keeps (ih : KeptAt scs n) (f : Frame) (c : Command)
    (hc : c.hasModifier = false) : Keeps (Running scs) (exec (n + 1) f c) := by
  cases c with
  | nop => simp only [exec]; exact Keeps.pure _
  | literal v => simp only [exec]; exact Keeps.pure _
  | var v => simp only [exec]; exact Keeps.bind (readVar_running f v) fun _ => Keeps.pure _
  | op o args =>
    simp only [exec]
    exact Triple.bind_pair (ih.evalOp f o args hc) fun _ _ => Keeps.pure _
  | set o args value =>
    simp only [hasModifier, Bool.or_eq_false_iff] at hc
    simp only [exec]
    refine Triple.bind_pair (ih.evalArgs f _ (anyModifier_take hc.1 3)) fun _ f₁ => ?_
    refine Triple.bind_pair (ih.exec f₁ value (.of_plain hc.2)) fun _ f₂ => ?_
    exact Keeps.bind (ih.setOp f₂ o _ _) fun _ => Keeps.pure _
  | store var value =>
    simp only [exec]
    refine Triple.bind_pair (ih.exec f value (.of_plain hc)) fun _ f₁ => ?_
    exact Keeps.bind (writeVar_running f₁ var _) fun _ => Keeps.pure _
  | modified m args body => cases hc
  | seq parts => simp only [exec]; exact ih.execSeq f parts none hc

theorem exec_keeps (ih : KeptAt scs n) : ExecKeeps scs (n + 1) := by
  intro f c hc
  obtain ⟨hshape, hown⟩ := hc
  cases hshape with
  | plain h => exact exec_plain_keeps ih f c h
  | modified hargs hbody hwait =>
    simp only [exec]
    exact Keeps.bind (ih.execModifier f _ _ _ hargs hbody hwait fun hm => hown _ _ _ rfl hm)
      fun _ => Keeps.pure _

theorem execModifier_keeps (ih : KeptAt scs n) : ExecModifierKeeps scs (n + 1) := by
  intro f m args body hargs hbody hwait hown
  have harg := fun g i => ih.evalArg g args i hargs
  -- an operand hands back a frame of the same script, which owns what the line schedules
  have hframe := fun g i => (carriesOn n).evalArg g args i hargs
  have hrun : ∀ g : Frame, Keeps (Running scs) (do let r ← exec n g body; pure r.2) :=
    fun g => Keeps.bind (ih.exec g body (.of_plain hbody)) fun _ => Keeps.pure _
  cases m with
  | ifThen =>
    simp only [execModifier]
    exact Triple.bind_pair (harg f 0) fun _ _ => Triple.ite (hrun _) (Keeps.pure _)
  | elif =>
    simp only [execModifier]
    refine Triple.ite ?_ (Keeps.pure _)
    exact Triple.bind_pair (harg f 0) fun _ _ => Triple.ite (hrun _) (Keeps.pure _)
  | orElse => simp only [execModifier]; exact Triple.ite (hrun _) (Keeps.pure _)
  | loop =>
    simp only [execModifier]
    exact Triple.bind_pair (harg f 0) fun _ f₁ => Triple.bind_pair (harg f₁ 1) fun _ f₂ =>
      ih.execLoop f₂ body _ _ _ hbody
  | whileLoop =>
    simp only [execModifier]
    exact ih.execWhile f _ body 0 (hasModifier_headD hargs) hbody
  | every =>
    simp only [execModifier]
    exact Triple.bind_pair (harg f 0) fun _ f₁ =>
      Keeps.bind (tickEvery_running f₁ _) fun _ => Triple.ite (hrun _) (Keeps.pure _)
  | skip =>
    simp only [execModifier]
    exact Triple.bind_pair (harg f 0) fun _ f₁ =>
      Keeps.bind (tickEvery_running f₁ _) fun _ => Triple.ite (hrun _) (Keeps.pure _)
  | other => simp only [execModifier]; exact Triple.ite (hrun f) (Keeps.pure _)
  | prob =>
    simp only [execModifier]
    refine Triple.bind_pair (harg f 0) fun _ f₁ => Keeps.bind Keeps.scene fun _ => ?_
    have hdraw : ∀ g, Keeps (Running scs) (modifyScene fun s => { s with rng := g }) :=
      fun _ => Keeps.modifyScene fun _ hs => hs.drop rfl (.inl rfl) (.inl rfl)
    split
    · exact Keeps.bind (hdraw _) fun _ => hrun f₁
    · exact Keeps.bind (hdraw _) fun _ => Keeps.pure _
  | delay =>
    simp only [execModifier]
    refine Keeps.bind_pair_answers (harg f 0) (hframe f 0) fun _ f₁ h₁ => ?_
    have hscript : f₁.script = f.script := h₁.script
    exact Keeps.bind (defer_running f₁ body _ ⟨hbody, hwait rfl⟩ (hscript ▸ hown rfl))
      fun _ => Keeps.pure _
  | delayRepeat =>
    simp only [execModifier]
    refine Keeps.bind_pair_answers (harg f 0) (hframe f 0) fun _ f₁ h₁ => ?_
    refine Keeps.bind_pair_answers (harg f₁ 1) (hframe f₁ 1) fun _ f₂ h₂ => ?_
    have hscript : f₂.script = f.script := h₂.script.trans h₁.script
    exact Keeps.bind (deferCopies_running f₂ body _ ⟨hbody, hwait rfl⟩ (hscript ▸ hown rfl) 1 _)
      fun _ => Keeps.pure _
  | delayRun =>
    simp only [execModifier]
    refine Keeps.bind_pair_answers (harg f 0) (hframe f 0) fun _ f₁ h₁ => ?_
    refine Keeps.bind_pair_answers (harg f₁ 1) (hframe f₁ 1) fun _ f₂ h₂ => ?_
    have hscript : f₂.script = f.script := h₂.script.trans h₁.script
    simp only [pure_bind]
    split
    · refine Keeps.bind_answers (ih.exec f₂ body (.of_plain hbody))
        ((carriesOn n).exec f₂ body hbody) fun _ h₃ => ?_
      exact Keeps.bind (deferCopies_running _ body _ ⟨hbody, hwait rfl⟩
        ((h₃.script.trans hscript) ▸ hown rfl) 1 _) fun _ => Keeps.pure _
    · exact Keeps.bind (deferCopies_running f₂ body _ ⟨hbody, hwait rfl⟩ (hscript ▸ hown rfl) 1 _)
        fun _ => Keeps.pure _
  | stack =>
    simp only [execModifier]
    exact Keeps.bind (stackBody_running f body ⟨hbody, hwait rfl⟩) fun _ => Keeps.pure _

theorem runLines_keeps (ih : KeptAt scs n) : RunLinesKeeps scs (n + 1) := by
  intro f cs i acc hcs
  cases cs with
  | nil => simp only [runLines]; exact Keeps.pure _
  | cons c cs =>
    simp only [runLines]
    have hc := hcs c List.mem_cons_self
    refine Keeps.bind_pair_answers (ih.exec _ c hc) (exec_lineAfter n _ c hc.shaped)
      fun _ f₁ h₁ => ?_
    have hscript : f₁.script = f.script := h₁.script
    refine Triple.ite (Keeps.pure _) (ih.runLines f₁ cs _ _ fun c' hc' => ?_)
    rw [hscript]
    exact hcs c' (List.mem_cons_of_mem c hc')

theorem runAt_keeps (hscs : ∀ sc ∈ scs, ∀ l ∈ sc.lines, l.command.LineShaped)
    (ih : KeptAt scs n) : RunAtKeeps scs (n + 1) := by
  intro script d
  simp only [runAt]
  split
  · exact Keeps.bind (Keeps.modifyScene fun _ hs => hs.drop rfl (.inl rfl) (.inl rfl))
      fun _ => Keeps.pure _
  · refine Triple.scene_bind fun s₀ hs₀ => ?_
    split
    · exact Triple.pure fun _ hs => hs.1
    · next sc hsc =>
      rw [hs₀.scripts] at hsc
      have hlines : ∀ c ∈ sc.lines.map (·.command), Runnable scs script c := by
        intro c hc
        obtain ⟨l, hl, rfl⟩ := List.mem_map.mp hc
        exact .line hsc hl (hscs sc (List.mem_of_getElem? hsc) l hl)
      refine Triple.bind (Triple.ticks fun _ _ hs => hs.1) fun _ => ?_
      refine Triple.bind (Keeps.modifyScene fun _ hs => hs.drop rfl (.inl rfl) (.inl rfl))
        fun _ => ?_
      exact Keeps.bind (ih.runLines _ _ 0 none hlines) fun _ => Keeps.pure _

/-- Every function of the executor keeps a run over scripts of compiled lines sound, at every
fuel. -/
theorem keptAt (hscs : ∀ sc ∈ scs, ∀ l ∈ sc.lines, l.command.LineShaped) (n : Nat) :
    KeptAt scs n := by
  induction n with
  | zero => exact keptAt_zero scs
  | succ n ih =>
    exact ⟨exec_keeps ih, execSeq_keeps ih, evalArgs_keeps ih, evalArg_keeps ih, evalOp_keeps ih,
      getOp_keeps ih, setOp_keeps ih, stackAll_keeps ih, runStacked_keeps ih,
      execModifier_keeps ih, execLoop_keeps ih, execWhile_keeps ih, runAt_keeps hscs ih,
      runLines_keeps ih⟩

end Succ

end Executor

/-! ### Entry points -/

namespace Machine

open Act Executor

section Running

variable {scs : List Script} (hscs : ∀ sc ∈ scs, ∀ l ∈ sc.lines, l.command.LineShaped)
include hscs

theorem run_running (script : Nat) : Keeps (Running scs) (run script) := by
  unfold run
  refine Keeps.bind Keeps.scene fun _ => Keeps.bind ((keptAt hscs _).runAt _ _) fun _ => ?_
  exact Keeps.bind Keeps.scene fun _ => Triple.ite (Keeps.pure _) (Keeps.pure _)

theorem execute_running (text : String) : Keeps (Running scs) (execute text) := by
  unfold execute
  dsimp only
  split
  · exact Keeps.pure _
  · exact Triple.bind_pair ((keptAt hscs _).exec _ _ (.live (Line.lineShaped_ofText text)))
      fun _ _ => Keeps.pure _

theorem init_running : Keeps (Running scs) init := by
  unfold init
  exact Keeps.bind (Keeps.modifyScene fun _ hs => hs.drop rfl (.inl rfl) (.inl rfl)) fun _ =>
    Keeps.bind (run_running hscs _) fun _ =>
      Keeps.bind (Keeps.modifyScene fun _ hs => hs.drop rfl (.inl rfl) (.inl rfl)) fun _ =>
        Keeps.pure _

theorem fireDue_running (now : UInt32) (before count fired : Nat) :
    Keeps (Running scs) (fireDue now before count fired) := by
  induction count generalizing fired with
  | zero => exact Keeps.pure _
  | succ count ih =>
    simp only [fireDue]
    refine Triple.scene_bind fun s₀ hs₀ => ?_
    split
    · exact Triple.pure fun _ hs => hs.1
    · next _ e hpop =>
      have he := DelayQueue.mem_of_popDueBefore hpop
      have hq : ∀ x ∈ (s₀.delays.popDueBefore now before).2.entries, x ∈ s₀.delays.entries :=
        fun _ hx => DelayQueue.mem_of_mem_popDueBefore hx
      refine Triple.bind (Q := fun _ => Running scs) (Triple.modifyScene fun s hs => ?_) fun _ => ?_
      · obtain ⟨-, rfl⟩ := hs
        exact ⟨hs₀.scripts, hs₀.deferred.of_frame rfl hq fun _ hx => hx⟩
      · exact Triple.bind_pair ((keptAt hscs _).exec _ _ (.of_plain (hs₀.deferred.delays e he).1))
          fun _ _ => ih _

theorem dispatch_running (i : Input) : Keeps (Running scs) (dispatch i) := by
  cases i <;>
    simp only [dispatch, trigger, metroTick, pulseEnd, gridPress, advanceDelays, midiIn, midiFlush]
  all_goals
    repeat (first
      | with_reducible exact Keeps.pure _
      | with_reducible exact Keeps.scene
      | with_reducible exact Keeps.emit _
      | with_reducible exact run_running hscs _
      | with_reducible exact fireDue_running hscs _ _ _ _
      | with_reducible refine Keeps.bind ?_ fun _ => ?_
      | with_reducible refine Keeps.forIn_list _ _ _ fun _ _ => ?_
      | with_reducible exact Keeps.modifyScene fun _ hs => hs.drop rfl (.inl rfl) (.inl rfl)
      | split)

theorem drain_running (inputs : List Input) : Keeps (Running scs) (drain inputs) :=
  Keeps.bind (Keeps.forIn_list _ _ _ fun i _ =>
    Keeps.bind (dispatch_running hscs i) fun _ => Keeps.pure _) fun _ => Keeps.pure _

end Running

/-- An action that keeps a scene stored, and keeps sound every run over scripts of compiled
lines, keeps what waits in a stored scene sound. -/
theorem keeps_deferredInert {α : Type} {m : Act α} (hstored : Keeps Scene.Stored m)
    (hrun : ∀ scs : List Script, (∀ sc ∈ scs, ∀ l ∈ sc.lines, l.command.LineShaped) →
      Keeps (Running scs) m) :
    Keeps (fun s => s.Stored ∧ s.DeferredInert) m :=
  fun st hst => ⟨hstored st hst.1, (hrun st.scene.scripts hst.1.lineShaped st ⟨rfl, hst.2⟩).deferred⟩

end Machine

/-! ### Edits and calls -/

namespace Scene

open Record

variable {s s' : Scene}

theorem DeferredInert.same (h : s.DeferredInert) (hscripts : s'.scripts = s.scripts)
    (hdelays : s'.delays = s.delays) (hstack : s'.stack = s.stack) : s'.DeferredInert :=
  h.of_frame hscripts (fun _ he => hdelays ▸ he) fun _ he => hstack ▸ he

theorem deferredInert_of_empty (hdelays : s.delays.entries = []) (hstack : s.stack.items = []) :
    s.DeferredInert where
  delays e he := by simp [hdelays] at he
  owned e he := by simp [hdelays] at he
  stack e he := by simp [hstack] at he

theorem scriptChanged_owns_none (s : Scene) (i : Nat) :
    ∀ e ∈ (s.scriptChanged i).delays.entries, e.script ≠ i := by
  intro e he
  simp only [scriptChanged, DelayQueue.entries_cancelScript, List.mem_filter, bne_iff_ne] at he
  exact he.2

theorem DeferredInert.scriptChanged (h : s.DeferredInert) (i : Nat) (sc : Script) :
    ({ s with scripts := s.scripts.set i sc }.scriptChanged i).DeferredInert where
  delays e he := by
    simp only [Scene.scriptChanged, DelayQueue.entries_cancelScript, List.mem_filter] at he
    exact h.delays e he.1
  owned e he := by
    have hne := scriptChanged_owns_none _ i e he
    simp only [Scene.scriptChanged, DelayQueue.entries_cancelScript, List.mem_filter] at he
    intro hlt
    simp only [Scene.scriptChanged, List.getElem?_set_ne (Ne.symm hne)]
    exact h.owned e he.1 hlt
  stack := h.stack

theorem placeLine_ok {script n : Nat} {text : String} {insert : Bool} {err : Option Error}
    (h : s.placeLine script n text insert = .ok (s', err)) :
    ∃ sc, s' = { s with scripts := s.scripts.set script sc }.scriptChanged script := by
  unfold Scene.placeLine at h
  obtain ⟨target, -, h⟩ := Reader.bind_eq_ok h
  dsimp only at h
  split at h
  · obtain ⟨_, hthrow, -⟩ := Reader.bind_eq_ok h
    cases hthrow
  -- inserting and replacing differ only in the script they build
  split at h <;>
  · obtain ⟨changed, -, h⟩ := Reader.bind_eq_ok h
    cases h
    exact ⟨changed, rfl⟩

theorem deleteLine_ok {script n : Nat} (h : s.deleteLine script n = .ok s') :
    ∃ sc, s' = { s with scripts := s.scripts.set script sc }.scriptChanged script := by
  unfold Scene.deleteLine at h
  obtain ⟨target, -, h⟩ := Reader.bind_eq_ok h
  obtain ⟨changed, -, h⟩ := Reader.bind_eq_ok h
  cases h
  exact ⟨changed, rfl⟩

theorem clearScript_ok {script : Nat} (h : s.clearScript script = .ok s') :
    s' = { s with scripts := s.scripts.set script Script.empty }.scriptChanged script := by
  unfold Scene.clearScript at h
  obtain ⟨_, -, h⟩ := Reader.bind_eq_ok h
  cases h
  rfl

theorem setDescriptionLine_same {n : Nat} {text : String} (h : s.setDescriptionLine n text = .ok s') :
    s'.scripts = s.scripts ∧ s'.delays = s.delays ∧ s'.stack = s.stack := by
  unfold Scene.setDescriptionLine at h
  split at h
  · cases h
  split at h
  · cases h
  split at h
  · cases h
  cases h
  exact ⟨rfl, rfl, rfl⟩

end Scene

namespace Call

open Act Machine

theorem deferredInert (io : Io) {s : Scene} (hs : s.Stored) (hd : s.DeferredInert) :
    ∀ c : Call, (c.apply io s).DeferredInert
  | .execute text => (keeps_deferredInert (execute_keeps text)
      fun _ h => execute_running h text) ⟨s, io⟩ ⟨hs, hd⟩ |>.2
  | .run script => (keeps_deferredInert (run_keeps script)
      fun _ h => run_running h script) ⟨s, io⟩ ⟨hs, hd⟩ |>.2
  | .init => (keeps_deferredInert init_keeps fun _ h => init_running h) ⟨s, io⟩ ⟨hs, hd⟩ |>.2
  | .dispatch input => (keeps_deferredInert (dispatch_keeps input)
      fun _ h => dispatch_running h input) ⟨s, io⟩ ⟨hs, hd⟩ |>.2
  | .drain inputs => (keeps_deferredInert (drain_keeps inputs)
      fun _ h => drain_running h inputs) ⟨s, io⟩ ⟨hs, hd⟩ |>.2
  | .editLine script n text => by
    simp only [apply]
    split
    · next hp =>
      obtain ⟨sc, rfl⟩ := Scene.placeLine_ok hp
      exact hd.scriptChanged script sc
    · exact hd
  | .insertLine script n text => by
    simp only [apply]
    split
    · next hp =>
      obtain ⟨sc, rfl⟩ := Scene.placeLine_ok hp
      exact hd.scriptChanged script sc
    · exact hd
  | .deleteLine script n => holds_getD hd fun _ h => by
      obtain ⟨sc, rfl⟩ := Scene.deleteLine_ok h
      exact hd.scriptChanged script sc
  | .clearScript script => holds_getD hd fun _ h => by
      rw [Scene.clearScript_ok h]
      exact hd.scriptChanged script _
  | .resetTransient =>
    Scene.deferredInert_of_empty (DelayQueue.entries_cancelAll _) rfl
  | .reseed seed => hd.same rfl rfl rfl
  | .setDescriptionLine n text => holds_getD hd fun _ h => by
      obtain ⟨h1, h2, h3⟩ := Scene.setDescriptionLine_same h
      exact hd.same h1 h2 h3
  | .setMute input muted => hd.same rfl rfl rfl
  | .setPolarity input p => hd.same rfl rfl rfl
  | .setCalibration c => hd.same rfl rfl rfl
  | .setFlip flip => hd.same rfl rfl rfl
  | .setSlot slot => hd.same rfl rfl rfl
  | .setVar n v => hd.same rfl rfl rfl
  | .editPattern n e => hd.same rfl rfl rfl
  | .editMidi e => hd.same rfl rfl rfl

end Call

theorem Scene.Reachable.deferredInert {s : Scene} (h : s.Reachable) : s.DeferredInert := by
  induction h with
  | fresh seed => exact Scene.deferredInert_of_empty rfl rfl
  | loaded h =>
    -- a loaded scene starts with the empty queue and stack of a fresh one
    obtain ⟨version, f, -, -, rfl, -⟩ := Record.sceneOfImage_inverts h
    exact Scene.deferredInert_of_empty rfl rfl
  | call io c hr ih => exact Call.deferredInert io hr.stored ih c

/-- **Deferred commands are inert bodies of current lines.** In every reachable scene each
pending delay and each stacked command holds no modifier and no `BREAK`, and each delay a
script owns is the body of a `DEL`, `DEL.X` or `DEL.R` line that script holds now. Editing,
inserting, deleting or clearing a line of a script leaves no delay of that script pending. -/
theorem Scene.Reachable.deferred_commands_inert {s : Scene} (h : s.Reachable) :
    s.DeferredInert ∧
    (∀ (script n : Nat) (text : String) (insert : Bool) (s' : Scene) (err : Option Error),
      s.placeLine script n text insert = .ok (s', err) → ∀ e ∈ s'.delays.entries, e.script ≠ script) ∧
    (∀ (script n : Nat) (s' : Scene), s.deleteLine script n = .ok s' →
      ∀ e ∈ s'.delays.entries, e.script ≠ script) ∧
    (∀ (script : Nat) (s' : Scene), s.clearScript script = .ok s' →
      ∀ e ∈ s'.delays.entries, e.script ≠ script) := by
  refine ⟨h.deferredInert, fun script _ _ _ _ _ hp => ?_, fun script _ _ hd => ?_,
    fun script _ hc => ?_⟩
  · obtain ⟨_, rfl⟩ := Scene.placeLine_ok hp
    exact Scene.scriptChanged_owns_none _ script
  · obtain ⟨_, rfl⟩ := Scene.deleteLine_ok hd
    exact Scene.scriptChanged_owns_none _ script
  · rw [Scene.clearScript_ok hc]
    exact Scene.scriptChanged_owns_none _ script

/-- The session's scene holds a pending delay and a stacked command, and both are inert. -/
theorem session_deferred_commands_inert :
    Scene.session.Reachable ∧ Scene.session.delays.entries.length = 1 ∧
    Scene.session.stack.size = 1 ∧ Scene.session.DeferredInert ∧
    (∀ (script n : Nat) (text : String) (insert : Bool) (s' : Scene) (err : Option Error),
      Scene.session.placeLine script n text insert = .ok (s', err) →
        ∀ e ∈ s'.delays.entries, e.script ≠ script) ∧
    (∀ (script n : Nat) (s' : Scene), Scene.session.deleteLine script n = .ok s' →
      ∀ e ∈ s'.delays.entries, e.script ≠ script) ∧
    (∀ (script : Nat) (s' : Scene), Scene.session.clearScript script = .ok s' →
      ∀ e ∈ s'.delays.entries, e.script ≠ script) :=
  ⟨Scene.reachable_session, by decide +kernel, by decide +kernel,
    Scene.Reachable.deferred_commands_inert Scene.reachable_session⟩

end TriggerScript
