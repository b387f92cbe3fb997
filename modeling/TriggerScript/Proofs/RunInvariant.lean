import TriggerScript.Proofs.RunRelation
/-!
What every run keeps.

A run is built from a few primitive steps: reading and writing variables and operators,
the `EVERY` counters, scheduling and stacking bodies, taking a command off the stack,
counting a call cut short, and the bookkeeping of `SCRIPT` calls and `PROB` draws. A
property of scenes that each of these keeps (`Stable`) holds after every run of every
command, script and stacked command, at every fuel (`kept`): keeping it is a relation between
the start and the end of a step, so this is a case of `moveKept`.

The count of calls cut short is such a property from below: a run never lowers it
(`exhausted_stable`).
-/

set_option autoImplicit false
set_option relaxedAutoImplicit false

namespace TriggerScript.Executor

open Act

/-- A property of scenes that every primitive step of a run keeps. -/
structure Stable (I : Scene → Prop) : Prop where
  exhaust : Keeps I exhaust
  readVar : ∀ f v, Keeps I (readVar f v)
  writeVar : ∀ f v x, Keeps I (writeVar f v x)
  tickEvery : ∀ f n, Keeps I (tickEvery f n)
  defer : ∀ f body t, Keeps I (defer f body t)
  stackBody : ∀ f body, Keeps I (stackBody f body)
  popStack : Keeps I popStack
  read : ∀ f o a, Keeps I (Operators.read f o a)
  write : ∀ o a v, Keeps I (Operators.write o a v)
  /-- A `SCRIPT` call at the depth limit is counted. -/
  abort : ∀ s, I s → I { s with stats := { s.stats with depthAborts := s.stats.depthAborts + 1 } }
  /-- A script run records when it ran. -/
  lastRun : ∀ s script now, I s → I { s with lastRun := s.lastRun.set script now }
  /-- `PROB` draws from the generator. -/
  rng : ∀ s g, I s → I { s with rng := g }

variable {I : Scene → Prop}

theorem Stable.deferCopies (h : Stable I) (f : Frame) (body : Command) (t : UInt32) (j n : Nat) :
    Keeps I (deferCopies f body t j n) := by
  induction n generalizing j with
  | zero => exact Keeps.pure _
  | succ n ih => exact Keeps.bind (h.defer f body _) fun _ => ih (j + 1)

/-- Every function of the executor keeps `I` at fuel `n`. -/
structure Kept (I : Scene → Prop) (n : Nat) : Prop where
  exec : ∀ f c, Keeps I (exec n f c)
  execSeq : ∀ f cs acc, Keeps I (execSeq n f cs acc)
  evalArgs : ∀ f cs, Keeps I (evalArgs n f cs)
  evalArg : ∀ f args i, Keeps I (evalArg n f args i)
  evalOp : ∀ f o args, Keeps I (evalOp n f o args)
  getOp : ∀ f o a, Keeps I (getOp n f o a)
  setOp : ∀ f o a v, Keeps I (setOp n f o a v)
  stackAll : ∀ d count, Keeps I (stackAll n d count)
  runStacked : ∀ d e, Keeps I (runStacked n d e)
  execModifier : ∀ f m args body, Keeps I (execModifier n f m args body)
  execLoop : ∀ f body i step count, Keeps I (execLoop n f body i step count)
  execWhile : ∀ f cond body count, Keeps I (execWhile n f cond body count)
  runAt : ∀ script d, Keeps I (runAt n script d)
  runLines : ∀ f cs i acc, Keeps I (runLines n f cs i acc)

theorem Stable.moveStable (h : Stable I) : MoveStable fun st st' => I st.scene → I st'.scene where
  chains := ⟨fun _ hs => hs, fun h₁ h₂ hs => h₂ (h₁ hs)⟩
  exhaust := h.exhaust
  readVar := h.readVar
  writeVar := h.writeVar
  tickEvery := h.tickEvery
  defer := h.defer
  stackBody := h.stackBody
  popStack := h.popStack
  read := h.read
  write := h.write
  abort st := h.abort st.scene
  lastRun st := h.lastRun st.scene
  rng st := h.rng st.scene

theorem kept (h : Stable I) (n : Nat) : Kept I n :=
  have k := moveKept h.moveStable n
  ⟨k.exec, k.execSeq, k.evalArgs, k.evalArg, k.evalOp, k.getOp, k.setOp, k.stackAll,
    k.runStacked, k.execModifier, k.execLoop, k.execWhile, k.runAt, k.runLines⟩

theorem exhausted_stable (c : Nat) : Stable fun s => c ≤ s.stats.exhausted where
  exhaust := Keeps.modifyScene fun _ hs => Nat.le_succ_of_le hs
  readVar f v := by
    cases v <;> simp only [readVar] <;>
    repeat (first
      | with_reducible exact Keeps.pure _
      | with_reducible exact Keeps.scene
      | with_reducible exact Keeps.get
      | with_reducible refine Keeps.bind ?_ fun _ => ?_)
  writeVar f v x := by
    cases v <;> simp only [writeVar] <;>
    first
      | exact Keeps.pure _
      | exact Keeps.bind (Keeps.modifyScene fun _ hs => hs) fun _ => Keeps.pure _
  tickEvery f n := by
    simp only [tickEvery]
    repeat (first
      | with_reducible exact Keeps.pure _
      | with_reducible exact Keeps.scene
      | with_reducible refine Keeps.bind ?_ fun _ => ?_
      | exact Keeps.modifyScene fun _ hs => hs
      | split)
  defer f body t := by
    simp only [defer]
    repeat (first
      | with_reducible exact Keeps.scene
      | with_reducible exact Keeps.ticks
      | with_reducible refine Keeps.bind ?_ fun _ => ?_
      | exact Keeps.modifyScene fun _ hs => hs
      | split)
  stackBody f body := by
    simp only [stackBody]
    refine Keeps.bind Keeps.scene fun _ => ?_
    split <;> exact Keeps.modifyScene fun _ hs => hs
  popStack := Keeps.bind Keeps.scene fun _ =>
    Keeps.bind (Keeps.modifyScene fun _ hs => hs) fun _ => Keeps.pure _
  read f o a := (read_frame f o a).keeps fun _ _ hf hs => hf.stats ▸ hs
  write o a v := (write_frame o a v).keeps fun _ _ hf hs => hf.stats ▸ hs
  abort _ hs := hs
  lastRun _ _ _ hs := hs
  rng _ _ hs := hs

end TriggerScript.Executor
