import TriggerScript.Proofs.RunInvariant
/-!
Requests to the hardware: what a run adds to the connection's log.

A recording connection logs the requests a scene makes, in the order they are made.
`Logs I L m` says that from a scene satisfying `I`, the action `m` keeps `I` and only
appends requests satisfying `L` to the log, never touching what was logged before. Like
`Keeps`, it is assembled from one rule per primitive, `emit` being the only step that logs;
and like `Stable`, a property of the primitive steps (`LogStable`) carries over to every
function of the executor at every fuel (`logKept`), as a case of `moveKept`.
-/

set_option autoImplicit false
set_option relaxedAutoImplicit false

namespace TriggerScript

namespace Io

theorem events_emit (io : Io) (e : Event) :
    (io.emit e).events.toList = io.events.toList ++ (if io.recording then [e] else []) := by
  unfold emit
  split
  · rw [Array.toList_push]
  · rw [List.append_nil]

end Io

namespace Act

variable {α β : Type} {I : Scene → Prop} {L : Event → Prop}

/-- `st'` has logged what `st` had logged, followed only by requests satisfying `L`. -/
def Appended (L : Event → Prop) (st st' : Machine) : Prop :=
  ∃ new, st'.io.events.toList = st.io.events.toList ++ new ∧ ∀ e ∈ new, L e

theorem Appended.of_io {st st' : Machine} (h : st'.io = st.io) : Appended L st st' :=
  ⟨[], by rw [h, List.append_nil], fun _ he => absurd he List.not_mem_nil⟩

theorem Appended.trans {st₁ st₂ st₃ : Machine} (h₁ : Appended L st₁ st₂)
    (h₂ : Appended L st₂ st₃) : Appended L st₁ st₃ := by
  obtain ⟨new₁, hlog₁, hnew₁⟩ := h₁
  obtain ⟨new₂, hlog₂, hnew₂⟩ := h₂
  refine ⟨new₁ ++ new₂, by rw [hlog₂, hlog₁, List.append_assoc], fun e he => ?_⟩
  rcases List.mem_append.mp he with he | he
  · exact hnew₁ e he
  · exact hnew₂ e he

/-- From a scene satisfying `I`, the action keeps `I` and appends to the log only requests
satisfying `L`. -/
def Logs (I : Scene → Prop) (L : Event → Prop) (m : Act α) : Prop :=
  ∀ st : Machine, I st.scene → I (m.run st).2.scene ∧ Appended L st (m.run st).2

theorem Logs.keeps {m : Act α} (h : Logs I L m) : Keeps I m := fun st hst => (h st hst).1

theorem Logs.pure (a : α) : Logs I L (Pure.pure a : Act α) :=
  fun _ hst => ⟨hst, Appended.of_io rfl⟩

theorem Logs.bind {x : Act α} {g : α → Act β} (hx : Logs I L x) (hg : ∀ a, Logs I L (g a)) :
    Logs I L (x >>= g) := by
  intro st hst
  obtain ⟨hmid, hlog⟩ := hx st hst
  obtain ⟨hend, hlog'⟩ := hg (x.run st).1 (x.run st).2 hmid
  exact ⟨hend, hlog.trans hlog'⟩

theorem Logs.modifyScene {g : Scene → Scene} (h : ∀ s, I s → I (g s)) :
    Logs I L (modifyScene g) :=
  fun st hst => ⟨h st.scene hst, Appended.of_io rfl⟩

theorem Logs.scene : Logs I L scene := fun _ hst => ⟨hst, Appended.of_io rfl⟩

theorem Logs.get : Logs I L (MonadState.get : Act Machine) := fun _ hst => ⟨hst, Appended.of_io rfl⟩

theorem Logs.ticks : Logs I L ticks := fun _ hst => ⟨hst, Appended.of_io rfl⟩

theorem Logs.emit {e : Event} (h : ∀ s, I s → L e) : Logs I L (emit e) := by
  intro st hst
  refine ⟨hst, if st.io.recording then [e] else [], Io.events_emit st.io e, fun e' he' => ?_⟩
  by_cases hrec : st.io.recording = true
  · rw [if_pos hrec, List.mem_singleton] at he'
    exact he' ▸ h st.scene hst
  · rw [if_neg hrec] at he'
    exact absurd he' List.not_mem_nil

theorem Logs.scene_bind {g : Scene → Act α} (h : ∀ s₀, I s₀ → Logs I L (g s₀)) :
    Logs I L (Act.scene >>= g) :=
  fun st hst => h st.scene hst st hst

theorem Logs.forIn_list {γ : Type} (xs : List γ) (b : PUnit)
    (body : γ → PUnit → Act (ForInStep PUnit)) (h : ∀ x ∈ xs, ∀ b, Logs I L (body x b)) :
    Logs I L (forIn xs b body) := by
  induction xs generalizing b with
  | nil => exact Logs.pure _
  | cons x xs ih =>
    rw [List.forIn_cons]
    refine Logs.bind (h x List.mem_cons_self b) fun r => ?_
    cases r with
    | done b' => exact Logs.pure _
    | yield b' => exact ih b' fun y hy => h y (List.mem_cons_of_mem x hy)

theorem Logs.drawBetween (lo hi : Int16) (h : ∀ s g, I s → I { s with rng := g }) :
    Logs I L (drawBetween lo hi) :=
  Logs.bind Logs.scene fun _ =>
    Logs.bind (Logs.modifyScene fun s' hs' => h s' _ hs') fun _ => Logs.pure _

end Act

namespace Executor

open Act

variable {I : Scene → Prop} {L : Event → Prop}

/-- A property of scenes that every primitive step of a run keeps, while logging only
requests that satisfy `L`. -/
structure LogStable (I : Scene → Prop) (L : Event → Prop) : Prop where
  exhaust : Logs I L exhaust
  readVar : ∀ f v, Logs I L (readVar f v)
  writeVar : ∀ f v x, Logs I L (writeVar f v x)
  tickEvery : ∀ f n, Logs I L (tickEvery f n)
  defer : ∀ f body t, Logs I L (defer f body t)
  stackBody : ∀ f body, Logs I L (stackBody f body)
  popStack : Logs I L popStack
  read : ∀ f o a, Logs I L (Operators.read f o a)
  write : ∀ o a v, Logs I L (Operators.write o a v)
  /-- A `SCRIPT` call at the depth limit is counted. -/
  abort : ∀ s, I s → I { s with stats := { s.stats with depthAborts := s.stats.depthAborts + 1 } }
  /-- A script run records when it ran. -/
  lastRun : ∀ s script now, I s → I { s with lastRun := s.lastRun.set script now }
  /-- `PROB` draws from the generator. -/
  rng : ∀ s g, I s → I { s with rng := g }

theorem LogStable.deferCopies (h : LogStable I L) (f : Frame) (body : Command) (t : UInt32)
    (j n : Nat) : Logs I L (deferCopies f body t j n) := by
  induction n generalizing j with
  | zero => exact Logs.pure _
  | succ n ih => exact Logs.bind (h.defer f body _) fun _ => ih (j + 1)

/-- Every function of the executor keeps `I` and logs only requests satisfying `L`, at
fuel `n`. -/
structure LogKept (I : Scene → Prop) (L : Event → Prop) (n : Nat) : Prop where
  exec : ∀ f c, Logs I L (exec n f c)
  execSeq : ∀ f cs acc, Logs I L (execSeq n f cs acc)
  evalArgs : ∀ f cs, Logs I L (evalArgs n f cs)
  evalArg : ∀ f args i, Logs I L (evalArg n f args i)
  evalOp : ∀ f o args, Logs I L (evalOp n f o args)
  getOp : ∀ f o a, Logs I L (getOp n f o a)
  setOp : ∀ f o a v, Logs I L (setOp n f o a v)
  stackAll : ∀ d count, Logs I L (stackAll n d count)
  runStacked : ∀ d e, Logs I L (runStacked n d e)
  execModifier : ∀ f m args body, Logs I L (execModifier n f m args body)
  execLoop : ∀ f body i step count, Logs I L (execLoop n f body i step count)
  execWhile : ∀ f cond body count, Logs I L (execWhile n f cond body count)
  runAt : ∀ script d, Logs I L (runAt n script d)
  runLines : ∀ f cs i acc, Logs I L (runLines n f cs i acc)

theorem LogStable.moveStable (h : LogStable I L) :
    MoveStable fun st st' => I st.scene → I st'.scene ∧ Appended L st st' where
  chains := ⟨fun _ hs => ⟨hs, Appended.of_io rfl⟩, fun h₁ h₂ hs =>
    ⟨(h₂ (h₁ hs).1).1, (h₁ hs).2.trans (h₂ (h₁ hs).1).2⟩⟩
  exhaust := h.exhaust
  readVar := h.readVar
  writeVar := h.writeVar
  tickEvery := h.tickEvery
  defer := h.defer
  stackBody := h.stackBody
  popStack := h.popStack
  read := h.read
  write := h.write
  abort st hs := ⟨h.abort st.scene hs, Appended.of_io rfl⟩
  lastRun st script now hs := ⟨h.lastRun st.scene script now hs, Appended.of_io rfl⟩
  rng st g hs := ⟨h.rng st.scene g hs, Appended.of_io rfl⟩

/-- What every primitive step keeps, with the requests it logs, holds of every run at every
fuel. -/
theorem logKept (h : LogStable I L) (n : Nat) : LogKept I L n :=
  have k := moveKept h.moveStable n
  ⟨k.exec, k.execSeq, k.evalArgs, k.evalArg, k.evalOp, k.getOp, k.setOp, k.stackAll,
    k.runStacked, k.execModifier, k.execLoop, k.execWhile, k.runAt, k.runLines⟩

end Executor

end TriggerScript
