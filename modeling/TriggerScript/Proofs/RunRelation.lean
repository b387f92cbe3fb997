import TriggerScript.Machine.Execute
import TriggerScript.Proofs.ActionSpec
/-!
What a run does to the whole machine.

`Keeps` follows a property of the scene along a run and leaves the hardware free. `Moves R m`
follows a relation between the machine a run starts from and the one it ends in, hardware
included: every run of `m` ends in a machine that `R` relates to its start. A relation that
relates each machine to itself and chains (`Chains`) composes through `bind`; one that every
primitive step of the executor makes (`MoveStable`) relates the start and the end of every run
of every command, script and stacked command, at every fuel (`moveKept`), by the executor's own
recursion, one unit of fuel at a time. Keeping a property of the scene (`kept`) and logging
only lawful requests (`logKept`) are such relations.

What the hardware reports is such a relation: a run logs requests but never changes the clock,
the inputs or the bus reply it reads (`readings_moveStable`), so every part of a run reads the
clock its start read (`exec_readings`).
-/

set_option autoImplicit false
set_option relaxedAutoImplicit false

namespace TriggerScript

namespace Act

variable {α β : Type} {R : Machine → Machine → Prop}

/-- Every run of `m` ends in a machine that `R` relates to the one it started from. -/
def Moves (R : Machine → Machine → Prop) (m : Act α) : Prop := ∀ st, R st (m.run st).2

/-- `R` relates every machine to itself, and related steps chain. -/
structure Chains (R : Machine → Machine → Prop) : Prop where
  refl : ∀ st, R st st
  trans : ∀ {st₁ st₂ st₃ : Machine}, R st₁ st₂ → R st₂ st₃ → R st₁ st₃

namespace Chains

variable (hR : Chains R)
include hR

theorem pure (a : α) : Moves R (Pure.pure a : Act α) := hR.refl

theorem bind {x : Act α} {g : α → Act β} (hx : Moves R x) (hg : ∀ a, Moves R (g a)) :
    Moves R (x >>= g) :=
  fun st => hR.trans (hx st) (hg _ _)

theorem scene : Moves R scene := hR.refl

theorem get : Moves R (MonadState.get : Act Machine) := hR.refl

theorem ticks : Moves R ticks := hR.refl

theorem forIn_list {γ : Type} (xs : List γ) (b : PUnit)
    (body : γ → PUnit → Act (ForInStep PUnit)) (h : ∀ x b, Moves R (body x b)) :
    Moves R (forIn xs b body) := by
  induction xs generalizing b with
  | nil => exact hR.pure _
  | cons x xs ih =>
    rw [List.forIn_cons]
    refine hR.bind (h x b) fun r => ?_
    cases r with
    | done b' => exact hR.pure _
    | yield b' => exact ih b'

end Chains

theorem Moves.modifyScene {g : Scene → Scene}
    (h : ∀ st : Machine, R st { st with scene := g st.scene }) : Moves R (modifyScene g) := h

theorem Moves.emit {e : Event} (h : ∀ st : Machine, R st { st with io := st.io.emit e }) :
    Moves R (emit e) := h

theorem Moves.keeps {I : Scene → Prop} {m : Act α} (hm : Moves R m)
    (hI : ∀ st st', R st st' → I st.scene → I st'.scene) : Keeps I m :=
  fun st hs => hI st _ (hm st) hs

end Act

namespace Executor

open Act

variable {R : Machine → Machine → Prop}

/-- A relation between machines that every primitive step of a run makes between the machine
it starts from and the one it ends in. -/
structure MoveStable (R : Machine → Machine → Prop) : Prop where
  chains : Chains R
  exhaust : Moves R exhaust
  readVar : ∀ f v, Moves R (readVar f v)
  writeVar : ∀ f v x, Moves R (writeVar f v x)
  tickEvery : ∀ f n, Moves R (tickEvery f n)
  defer : ∀ f body t, Moves R (defer f body t)
  stackBody : ∀ f body, Moves R (stackBody f body)
  popStack : Moves R popStack
  read : ∀ f o a, Moves R (Operators.read f o a)
  write : ∀ o a v, Moves R (Operators.write o a v)
  /-- A `SCRIPT` call at the depth limit is counted. -/
  abort : ∀ st : Machine, R st { st with scene := { st.scene with
    stats := { st.scene.stats with depthAborts := st.scene.stats.depthAborts + 1 } } }
  /-- A script run records when it ran. -/
  lastRun : ∀ (st : Machine) script now,
    R st { st with scene := { st.scene with lastRun := st.scene.lastRun.set script now } }
  /-- `PROB` draws from the generator. -/
  rng : ∀ (st : Machine) g, R st { st with scene := { st.scene with rng := g } }

theorem MoveStable.deferCopies (h : MoveStable R) (f : Frame) (body : Command) (t : UInt32)
    (j n : Nat) : Moves R (deferCopies f body t j n) := by
  induction n generalizing j with
  | zero => exact h.chains.pure _
  | succ n ih => exact h.chains.bind (h.defer f body _) fun _ => ih (j + 1)

/-- Every function of the executor makes `R` at fuel `n`. -/
structure MoveKept (R : Machine → Machine → Prop) (n : Nat) : Prop where
  exec : ∀ f c, Moves R (exec n f c)
  execSeq : ∀ f cs acc, Moves R (execSeq n f cs acc)
  evalArgs : ∀ f cs, Moves R (evalArgs n f cs)
  evalArg : ∀ f args i, Moves R (evalArg n f args i)
  evalOp : ∀ f o args, Moves R (evalOp n f o args)
  getOp : ∀ f o a, Moves R (getOp n f o a)
  setOp : ∀ f o a v, Moves R (setOp n f o a v)
  stackAll : ∀ d count, Moves R (stackAll n d count)
  runStacked : ∀ d e, Moves R (runStacked n d e)
  execModifier : ∀ f m args body, Moves R (execModifier n f m args body)
  execLoop : ∀ f body i step count, Moves R (execLoop n f body i step count)
  execWhile : ∀ f cond body count, Moves R (execWhile n f cond body count)
  runAt : ∀ script d, Moves R (runAt n script d)
  runLines : ∀ f cs i acc, Moves R (runLines n f cs i acc)

theorem moveKept_zero (h : MoveStable R) : MoveKept R 0 := by
  constructor <;> intros <;>
    simp only [exec, execSeq, evalArgs, evalArg, evalOp, getOp, setOp, stackAll, runStacked,
      execModifier, execLoop, execWhile, runAt, runLines]
  all_goals exact h.exhaust

/-- One more unit of fuel: each function is unfolded once, and its steps are the primitive
steps and the calls that make `R` at fuel `n`. -/
theorem moveKept_succ {n : Nat} (h : MoveStable R) (ih : MoveKept R n) : MoveKept R (n + 1) := by
  refine ⟨fun f c => ?exec, fun f cs acc => ?execSeq, fun f cs => ?evalArgs,
    fun f args i => ?evalArg, fun f o args => ?evalOp, fun f o a => ?getOp,
    fun f o a v => ?setOp, fun d count => ?stackAll, fun d e => ?runStacked,
    fun f m args body => ?execModifier, fun f body i step count => ?execLoop,
    fun f cond body count => ?execWhile, fun script d => ?runAt, fun f cs i acc => ?runLines⟩
  case' exec => cases c <;> simp only [exec]
  case' execSeq => cases cs <;> simp only [execSeq]
  case' evalArgs => cases cs <;> simp only [evalArgs]
  case' evalArg => simp only [evalArg]
  case' evalOp => simp only [evalOp]
  case' getOp => simp only [getOp.eq_def]
  case' setOp => simp only [setOp.eq_def]
  case' stackAll => cases count <;> simp only [stackAll]
  case' runStacked => simp only [runStacked]
  case' execModifier => cases m <;> simp only [execModifier]
  case' execLoop => cases count <;> simp only [execLoop]
  case' execWhile => simp only [execWhile]
  case' runAt => simp only [runAt]
  case' runLines => cases cs <;> simp only [runLines]
  all_goals
    repeat (first
      | with_reducible exact h.chains.pure _
      | with_reducible exact h.chains.scene
      | with_reducible exact h.chains.ticks
      | with_reducible exact h.readVar _ _
      | with_reducible exact h.writeVar _ _ _
      | with_reducible exact h.tickEvery _ _
      | with_reducible exact h.defer _ _ _
      | with_reducible exact h.deferCopies _ _ _ _ _
      | with_reducible exact h.stackBody _ _
      | with_reducible exact h.popStack
      | with_reducible exact h.read _ _ _
      | with_reducible exact h.write _ _ _
      | with_reducible exact Moves.modifyScene h.abort
      | with_reducible exact Moves.modifyScene fun st => h.lastRun st _ _
      | with_reducible exact Moves.modifyScene fun st => h.rng st _
      | with_reducible exact ih.exec _ _
      | with_reducible exact ih.execSeq _ _ _
      | with_reducible exact ih.evalArgs _ _
      | with_reducible exact ih.evalArg _ _ _
      | with_reducible exact ih.evalOp _ _ _
      | with_reducible exact ih.getOp _ _ _
      | with_reducible exact ih.setOp _ _ _ _
      | with_reducible exact ih.stackAll _ _
      | with_reducible exact ih.runStacked _ _
      | with_reducible exact ih.execModifier _ _ _ _
      | with_reducible exact ih.execLoop _ _ _ _ _
      | with_reducible exact ih.execWhile _ _ _ _
      | with_reducible exact ih.runAt _ _
      | with_reducible exact ih.runLines _ _ _ _
      | with_reducible refine h.chains.bind ?_ fun _ => ?_
      | split
      | dsimp only)

/-- A relation every primitive step makes holds between the start and the end of every run,
at every fuel. -/
theorem moveKept (h : MoveStable R) (n : Nat) : MoveKept R n := by
  induction n with
  | zero => exact moveKept_zero h
  | succ n ih => exact moveKept_succ h ih

/-! ### The hardware's readings -/

/-- The hardware reports the same in both machines. -/
def SameReadings (st st' : Machine) : Prop := st'.io.readings = st.io.readings

theorem sameReadings_chains : Chains SameReadings :=
  ⟨fun _ => rfl, fun h₁ h₂ => Eq.trans h₂ h₁⟩

theorem sameReadings_modifyScene (g : Scene → Scene) : Moves SameReadings (modifyScene g) :=
  Moves.modifyScene fun _ => rfl

theorem sameReadings_emit (e : Event) : Moves SameReadings (emit e) := by
  refine Moves.emit fun st => ?_
  show (st.io.emit e).readings = st.io.readings
  unfold Io.emit
  split <;> rfl

/-! ### What an operator's read or write leaves alone -/

theorem keptOrReset_trans {γ : Type} {r : γ → γ} (hr : ∀ a, r (r a) = r a) {a b c : γ}
    (h₁ : b = a ∨ b = r a) (h₂ : c = b ∨ c = r b) : c = a ∨ c = r a := by
  rcases h₁ with rfl | rfl <;> rcases h₂ with rfl | rfl
  · exact .inl rfl
  · exact .inr rfl
  · exact .inr rfl
  · exact .inr (hr _)

/-- What reading or writing an operator leaves of a machine: the hardware's readings, the
scripts, the statistics and the `EVERY` counters stay, and the delays and the stacked
commands either stay or are all dropped (`KILL`, `DEL.CLR`, `S.CLR`). -/
structure OperatorFrame (st st' : Machine) : Prop where
  readings : st'.io.readings = st.io.readings
  scripts : st'.scene.scripts = st.scene.scripts
  stats : st'.scene.stats = st.scene.stats
  every : st'.scene.every = st.scene.every
  liveEvery : st'.scene.liveEvery = st.scene.liveEvery
  delays : st'.scene.delays = st.scene.delays ∨ st'.scene.delays = st.scene.delays.cancelAll
  stack : st'.scene.stack = st.scene.stack ∨ st'.scene.stack = st.scene.stack.clear

theorem operatorFrame_chains : Chains OperatorFrame where
  refl _ := ⟨rfl, rfl, rfl, rfl, rfl, .inl rfl, .inl rfl⟩
  trans h₁ h₂ := ⟨h₂.readings.trans h₁.readings, h₂.scripts.trans h₁.scripts,
    h₂.stats.trans h₁.stats, h₂.every.trans h₁.every, h₂.liveEvery.trans h₁.liveEvery,
    keptOrReset_trans DelayQueue.cancelAll_cancelAll h₁.delays h₂.delays,
    keptOrReset_trans (r := BoundedStack.clear) (fun _ => rfl) h₁.stack h₂.stack⟩

theorem operatorFrame_emit (e : Event) : Moves OperatorFrame (emit e) :=
  fun st => ⟨sameReadings_emit e st, rfl, rfl, rfl, rfl, .inl rfl, .inl rfl⟩

-- Each step is matched by its head; a scene update is framed by whether it drops the delays
-- or the stacked commands.
theorem read_frame (f : Frame) (o : Operator) (a : List Int16) :
    Moves OperatorFrame (Operators.read f o a) := by
  unfold Operators.read
  refine operatorFrame_chains.bind operatorFrame_chains.scene fun s => ?_
  split <;>
    simp only [Operators.kill, Operators.calibrate, Operators.patternRead, Operators.writeCv,
      drawBetween] <;>
  repeat (first
    | with_reducible exact operatorFrame_chains.pure _
    | with_reducible exact operatorFrame_chains.scene
    | with_reducible exact operatorFrame_chains.get
    | with_reducible exact operatorFrame_chains.ticks
    | with_reducible exact operatorFrame_emit _
    | with_reducible refine operatorFrame_chains.bind ?_ fun _ => ?_
    | with_reducible refine operatorFrame_chains.forIn_list _ _ _ fun _ _ => ?_
    | (with_reducible refine Moves.modifyScene fun _ => ⟨rfl, rfl, rfl, rfl, rfl, ?_, ?_⟩) <;>
        first | exact .inl rfl | exact .inr rfl
    | split)

theorem write_frame (o : Operator) (a : List Int16) (v : Int16) :
    Moves OperatorFrame (Operators.write o a v) := by
  unfold Operators.write
  split <;> simp only [Operators.patternWrite, Operators.writeCv] <;>
  repeat (first
    | with_reducible exact operatorFrame_chains.pure _
    | with_reducible exact operatorFrame_chains.scene
    | with_reducible exact operatorFrame_chains.ticks
    | with_reducible exact operatorFrame_emit _
    | with_reducible refine operatorFrame_chains.bind ?_ fun _ => ?_
    | with_reducible exact Moves.modifyScene fun _ => ⟨rfl, rfl, rfl, rfl, rfl, .inl rfl, .inl rfl⟩
    | split)

theorem readings_moveStable : MoveStable SameReadings := by
  refine ⟨sameReadings_chains, sameReadings_modifyScene _, fun f v => ?readVar,
    fun f v x => ?writeVar, fun f n => ?tickEvery, fun f body t => ?defer,
    fun f body => ?stackBody, ?popStack, fun f o a st => (read_frame f o a st).readings,
    fun o a v st => (write_frame o a v st).readings, fun _ => rfl, fun _ _ _ => rfl,
    fun _ _ => rfl⟩
  case' readVar => cases v <;> simp only [readVar]
  case' writeVar => cases v <;> simp only [writeVar]
  case' tickEvery => simp only [tickEvery]
  case' defer => simp only [defer]
  case' stackBody => simp only [stackBody]
  case' popStack => simp only [popStack]
  all_goals
    repeat (first
      | with_reducible exact sameReadings_chains.pure _
      | with_reducible exact sameReadings_chains.scene
      | with_reducible exact sameReadings_chains.get
      | with_reducible exact sameReadings_chains.ticks
      | with_reducible exact sameReadings_emit _
      | with_reducible exact sameReadings_modifyScene _
      | with_reducible refine sameReadings_chains.bind ?_ fun _ => ?_
      | with_reducible refine sameReadings_chains.forIn_list _ _ _ fun _ _ => ?_
      | split)

theorem exec_readings (n : Nat) (f : Frame) (c : Command) (st : Machine) :
    ((exec n f c).run st).2.io.readings = st.io.readings :=
  (moveKept readings_moveStable n).exec f c st

end Executor

end TriggerScript
