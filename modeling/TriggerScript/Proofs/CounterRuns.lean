import TriggerScript.Proofs.CounterEvents
import TriggerScript.Proofs.LineFrame
import TriggerScript.Proofs.RunRelation
/-!
The events of a run account for its counters.

`Accounts scs st es b st' b'` says that the events `es` tell what a run over the scripts `scs`
did with the counters, from the machine `st` to the machine `st'`, its frame's `EVERY` flag
going from `b` to `b'`: the scripts stay as they were; each counter goes from its count in `st`
to its count in `st'` by its own ticks, each reading the count the ticks before it left; each
tick ran its body as its modifier says, and a tick of a script line's counter was made by that
line, an `EVERY` or `SKIP` line; and the events are whole runs in which each `OTHER` line
followed its run's flag. Accounts compose along a run (`Accounts.trans`), so `Traces`, which
asks them of every run of an action, is assembled like a triple: one rule for `bind`, one per
step that touches the counters, and steps that leave the counters alone (`Tickless`) account for
themselves with no event.

Every function of the executor is traced by its events (`Executor.tracedAt`), when each frame
that runs in a script line's counter runs only that line or commands without modifiers
(`PlacedAt`), as the executor arranges for scripts of compiled lines.
-/

set_option autoImplicit false
set_option relaxedAutoImplicit false

namespace TriggerScript

open CounterEvent

/-- Line `j` of script `i` of `scs` is an `EVERY` line, or a `SKIP` line when `skip` holds. -/
def LineTicks (scs : List Script) (i j : Nat) (skip : Bool) : Prop :=
  ∃ sc l args body, scs[i]? = some sc ∧ sc.lines[j]? = some l ∧
    l.command = .modified (if skip then .skip else .every) args body

/-- An event is sound over the scripts `scs`: a tick ran its body as its modifier says, and a
tick of a script line's counter was made by that line. -/
def CounterEvent.Sound (scs : List Script) : CounterEvent → Prop
  | .tick x t => t.Lawful ∧ ∀ i j, x = some (i, j) → LineTicks scs i j t.skip
  | _ => True

def Scene.counted (s : Scene) : List Script × List (List Nat) × Nat :=
  (s.scripts, s.every, s.liveEvery)

theorem Executor.OperatorFrame.counted {st st' : Machine} (hf : Executor.OperatorFrame st st') :
    st'.scene.counted = st.scene.counted := by
  simp only [Scene.counted, hf.scripts, hf.every, hf.liveEvery]

theorem Scene.count_congr {s s' : Scene} (h : s'.counted = s.counted) (x : Option (Nat × Nat)) :
    s'.count x = s.count x := by
  simp only [Scene.counted, Prod.mk.injEq] at h
  rcases x with _ | ⟨i, j⟩
  · exact h.2.2
  · simp only [Scene.count, h.2.1]

theorem Scene.CountersShaped.congr {s s' : Scene} (hs : s.CountersShaped)
    (h : s'.counted = s.counted) : s'.CountersShaped := by
  simp only [Scene.counted, Prod.mk.injEq] at h
  intro i j hi hj
  rw [h.2.1]
  exact hs i j hi hj

/-! ### Accounts -/

/-- The events `es` account for a run over the scripts `scs` from `st` to `st'`, its frame's
`EVERY` flag going from `b` to `b'`. -/
structure Accounts (scs : List Script) (st : Machine) (es : List CounterEvent) (b : Bool)
    (st' : Machine) (b' : Bool) : Prop where
  scripts : st'.scene.scripts = st.scene.scripts
  shaped : st.scene.CountersShaped → st'.scene.CountersShaped
  chain : st.scene.CountersShaped →
    ∀ x, Tick.Chain (st.scene.count x) (ticksAt x es) (st'.scene.count x)
  sound : ∀ e ∈ es, e.Sound scs
  scan : ∀ stk, scan (b :: stk) es = some (b' :: stk)

namespace Accounts

variable {scs : List Script} {st st₁ st₂ : Machine} {es es' : List CounterEvent}
  {b b₁ b₂ : Bool}

theorem quiet (h : st₁.scene.counted = st.scene.counted) : Accounts scs st [] b st₁ b where
  scripts := congrArg Prod.fst h
  shaped hs := hs.congr h
  chain _ x := Scene.count_congr h x
  sound _ he := absurd he List.not_mem_nil
  scan _ := rfl

theorem trans (h₁ : Accounts scs st es b st₁ b₁) (h₂ : Accounts scs st₁ es' b₁ st₂ b₂) :
    Accounts scs st (es ++ es') b st₂ b₂ where
  scripts := h₂.scripts.trans h₁.scripts
  shaped hs := h₂.shaped (h₁.shaped hs)
  chain hs x := by
    rw [ticksAt_append, Tick.chain_append]
    exact ⟨_, h₁.chain hs x, h₂.chain (h₁.shaped hs) x⟩
  sound e he := (List.mem_append.mp he).elim (h₁.sound e) (h₂.sound e)
  scan stk := by rw [scan_append, h₁.scan stk, Option.bind_some, h₂.scan stk]

theorem fresh (h : Accounts scs st es false st₁ b₁) :
    Accounts scs st (.enter :: (es ++ [.leave])) b st₁ b where
  scripts := h.scripts
  shaped := h.shaped
  chain hs x := by
    have hc := h.chain hs x
    simpa [ticksAt] using hc
  sound e he := by
    rcases List.mem_cons.mp he with rfl | he
    · trivial
    · rcases List.mem_append.mp he with he | he
      · exact h.sound e he
      · rw [List.mem_singleton.mp he]
        trivial
  scan stk := by
    simp only [CounterEvent.scan, scan_append, h.scan (b :: stk), Option.bind_some]

theorem other (h : Accounts scs st es b st₁ b₁) : Accounts scs st (.other (!b) :: es) b st₁ b₁ where
  scripts := h.scripts
  shaped := h.shaped
  chain hs x := h.chain hs x
  sound e he := by
    rcases List.mem_cons.mp he with rfl | he
    · trivial
    · exact h.sound e he
  scan stk := by simp only [CounterEvent.scan, h.scan stk, if_true]

end Accounts

/-- Events that are whole runs and account for a run over `scs` from `st` to `st'`: each run
they begin they end, so they leave the flag of any caller as it was. -/
structure Whole (scs : List Script) (st : Machine) (es : List CounterEvent) (st' : Machine) :
    Prop where
  accounts : Accounts scs st es false st' false
  runs : ∀ stk, scan stk es = some stk

namespace Whole

variable {scs : List Script} {st st₁ st₂ : Machine} {es es' : List CounterEvent}

theorem quiet (h : st₁.scene.counted = st.scene.counted) : Whole scs st [] st₁ :=
  ⟨Accounts.quiet h, fun _ => rfl⟩

theorem trans (h₁ : Whole scs st es st₁) (h₂ : Whole scs st₁ es' st₂) :
    Whole scs st (es ++ es') st₂ where
  accounts := h₁.accounts.trans h₂.accounts
  runs stk := by rw [scan_append, h₁.runs stk, Option.bind_some, h₂.runs stk]

theorem flag (h : Whole scs st es st₁) (b : Bool) : Accounts scs st es b st₁ b :=
  { h.accounts with scan := fun stk => h.runs (b :: stk) }

end Whole

theorem Accounts.whole {scs : List Script} {st st₁ : Machine} {es : List CounterEvent} {b₁ : Bool}
    (h : Accounts scs st es false st₁ b₁) : Whole scs st (.enter :: (es ++ [.leave])) st₁ where
  accounts := h.fresh
  runs stk := by simp only [CounterEvent.scan, scan_append, h.scan stk, Option.bind_some]

/-! ### Traces -/

namespace Act

variable {α β : Type} {scs : List Script}

/-- Every run of `m` over the scripts `scs` is accounted for by its events `T`, its frame's
`EVERY` flag going from `b` to a flag that `post` relates to its answer. -/
def Traces (scs : List Script) (m : Act α) (T : Machine → List CounterEvent) (b : Bool)
    (post : α → Bool → Prop) : Prop :=
  ∀ st : Machine, st.scene.scripts = scs →
    ∃ b', post (m.run st).1 b' ∧ Accounts scs st (T st) b (m.run st).2 b'

/-- An action that leaves the scripts and the counters alone. -/
def Tickless (m : Act α) : Prop := ∀ k, Keeps (fun s => s.counted = k) m

variable {m : Act α} {k : α → Act β} {T T' : Machine → List CounterEvent}
  {U : α → Machine → List CounterEvent} {b : Bool} {p : α → Bool → Prop} {q : β → Bool → Prop}

theorem Traces.bind (hm : Traces scs m T b p) (hk : ∀ a b', p a b' → Traces scs (k a) (U a) b' q) :
    Traces scs (m >>= k) (CounterEvent.bind m T U) b q := by
  intro st hst
  obtain ⟨b₁, hp, h₁⟩ := hm st hst
  obtain ⟨b₂, hq, h₂⟩ := hk _ _ hp (m.run st).2 (h₁.scripts.trans hst)
  exact ⟨b₂, hq, h₁.trans h₂⟩

theorem Traces.bind_pair {γ δ : Type} {m : Act (γ × δ)} {k : γ × δ → Act β}
    {U : γ × δ → Machine → List CounterEvent} {p : γ × δ → Bool → Prop}
    (hm : Traces scs m T b p) (hk : ∀ a c b', p (a, c) b' → Traces scs (k (a, c)) (U (a, c)) b' q) :
    Traces scs (m >>= k) (CounterEvent.bind m T U) b q :=
  Traces.bind hm fun r => hk r.1 r.2

theorem Traces.congr (h : Traces scs m T b p) (hT : ∀ st, T st = T' st) : Traces scs m T' b p := by
  intro st hst
  rw [← hT st]
  exact h st hst

theorem Traces.imp {p' : α → Bool → Prop} (h : Traces scs m T b p) (hp : ∀ a b', p a b' → p' a b') :
    Traces scs m T b p' := by
  intro st hst
  obtain ⟨b', hb', hacc⟩ := h st hst
  exact ⟨b', hp _ _ hb', hacc⟩

theorem Traces.tickless (hm : Tickless m) : Traces scs m (fun _ => []) b fun _ b' => b' = b :=
  fun st _ => ⟨b, rfl, Accounts.quiet (hm st.scene.counted st rfl)⟩

theorem Traces.pure {a : α} (h : p a b) : Traces scs (Pure.pure a : Act α) (fun _ => []) b p :=
  fun _ _ => ⟨b, h, Accounts.quiet rfl⟩

theorem Traces.bind_silent (hm : Traces scs m T b p)
    (hk : ∀ a b', p a b' → Traces scs (k a) (fun _ => []) b' q) : Traces scs (m >>= k) T b q :=
  (Traces.bind hm hk).congr fun _ => List.append_nil _

theorem Traces.bind_pure {g : α → β} (hm : Traces scs m T b p) (hg : ∀ a b', p a b' → q (g a) b') :
    Traces scs (m >>= fun a => Pure.pure (g a)) T b q :=
  hm.bind_silent fun a b' hb' => Traces.pure (hg a b' hb')

theorem Traces.ite {c : Prop} [Decidable c] {x y : Act α} (hx : Traces scs x T b p)
    (hy : Traces scs y T' b p) : Traces scs (if c then x else y) (if c then T else T') b p := by
  by_cases hc : c
  · simpa only [if_pos hc] using hx
  · simpa only [if_neg hc] using hy

theorem Traces.scene_bind {k : Scene → Act β} {U : Scene → Machine → List CounterEvent}
    (h : ∀ s, s.scripts = scs → Traces scs (k s) (U s) b q) :
    Traces scs (scene >>= k) (CounterEvent.bind scene (fun _ => []) U) b q :=
  fun st hst => h st.scene hst st hst

theorem Traces.tickless_bind (hm : Tickless m) (hk : ∀ a, Traces scs (k a) (U a) b q) :
    Traces scs (m >>= k) (CounterEvent.bind m (fun _ => []) U) b q :=
  Traces.bind (Traces.tickless hm) fun a _ hb => hb ▸ hk a

theorem Traces.tickless_then (hm : Tickless m) (hk : ∀ a, Traces scs (k a) (fun _ => []) b q) :
    Traces scs (m >>= k) (fun _ => []) b q :=
  (Traces.tickless hm).bind_silent fun a _ hb => hb ▸ hk a

theorem Traces.tickless_answers {R : α → Prop} (hm : Tickless m) (ha : Answers m R) :
    Traces scs m (fun _ => []) b fun a b' => b' = b ∧ R a :=
  fun st _ => ⟨b, ⟨rfl, ha st⟩, Accounts.quiet (hm st.scene.counted st rfl)⟩

theorem Traces.other {x y : Act α} (hx : b = false → Traces scs x T b p)
    (hy : b = true → Traces scs y (fun _ => []) b p) :
    Traces scs (if (!b) = true then x else y)
      (fun st => .other (!b) :: (if (!b) = true then T st else [])) b p := by
  intro st hst
  cases b with
  | false =>
    obtain ⟨b', hp, hacc⟩ := hx rfl st hst
    exact ⟨b', hp, hacc.other⟩
  | true =>
    obtain ⟨b', hp, hacc⟩ := hy rfl st hst
    exact ⟨b', hp, hacc.other⟩

/-! ### Whole runs -/

/-- Every run of `m` over the scripts `scs` is accounted for by its events `T`, whole runs. -/
def Runs (scs : List Script) (m : Act α) (T : Machine → List CounterEvent) : Prop :=
  ∀ st : Machine, st.scene.scripts = scs → Whole scs st (T st) (m.run st).2

theorem Traces.of_runs (h : Runs scs m T) : Traces scs m T b fun _ b' => b' = b :=
  fun st hst => ⟨b, rfl, (h st hst).flag b⟩

theorem Runs.fresh (h : Traces scs m T false p) : Runs scs m (CounterEvent.fresh T) := by
  intro st hst
  obtain ⟨_, -, hacc⟩ := h st hst
  exact hacc.whole

theorem Runs.tickless (hm : Tickless m) : Runs scs m fun _ => [] :=
  fun st _ => Whole.quiet (hm st.scene.counted st rfl)

theorem Runs.bind (hm : Runs scs m T) (hk : ∀ a, Runs scs (k a) (U a)) :
    Runs scs (m >>= k) (CounterEvent.bind m T U) := by
  intro st hst
  have h₁ := hm st hst
  exact h₁.trans (hk _ _ (h₁.accounts.scripts.trans hst))

theorem Runs.congr (h : Runs scs m T) (hT : ∀ st, T st = T' st) : Runs scs m T' := by
  intro st hst
  rw [← hT st]
  exact h st hst

theorem Runs.bind_silent (hm : Runs scs m T) (hk : ∀ a, Runs scs (k a) fun _ => []) :
    Runs scs (m >>= k) T :=
  (Runs.bind hm hk).congr fun _ => List.append_nil _

theorem Runs.tickless_bind (hm : Tickless m) (hk : ∀ a, Runs scs (k a) (U a)) :
    Runs scs (m >>= k) (CounterEvent.bind m (fun _ => []) U) :=
  Runs.bind (Runs.tickless hm) hk

theorem Runs.ite {c : Prop} [Decidable c] {x y : Act α} (hx : Runs scs x T) (hy : Runs scs y T') :
    Runs scs (if c then x else y) (if c then T else T') := by
  by_cases hc : c
  · simpa only [if_pos hc] using hx
  · simpa only [if_neg hc] using hy

theorem Runs.scene_bind {k : Scene → Act β} {U : Scene → Machine → List CounterEvent}
    (h : ∀ s, s.scripts = scs → Runs scs (k s) (U s)) :
    Runs scs (scene >>= k) (CounterEvent.bind scene (fun _ => []) U) :=
  fun st hst => h st.scene hst st hst

/-! ### Tickless steps -/

theorem Tickless.pure (a : α) : Tickless (Pure.pure a : Act α) := fun _ => Keeps.pure a

theorem Tickless.bind (hm : Tickless m) (hk : ∀ a, Tickless (k a)) : Tickless (m >>= k) :=
  fun c => Keeps.bind (hm c) fun a => hk a c

theorem Tickless.scene : Tickless scene := fun _ => Keeps.scene

theorem Tickless.ticks : Tickless ticks := fun _ => Keeps.ticks

theorem Tickless.modifyScene {g : Scene → Scene} (h : ∀ s, (g s).counted = s.counted) :
    Tickless (modifyScene g) :=
  fun _ => Keeps.modifyScene fun s hs => (h s).trans hs

theorem Tickless.emit (e : Event) : Tickless (emit e) := fun _ => Keeps.emit e

theorem Tickless.ite {c : Prop} [Decidable c] {x y : Act α} (hx : Tickless x) (hy : Tickless y) :
    Tickless (if c then x else y) :=
  fun k => Triple.ite (hx k) (hy k)

theorem Runs.forIn_each {γ : Type} {m : γ → Act α} {E : γ → Machine → List CounterEvent}
    (h : ∀ x, Runs scs (m x) (E x)) (xs : List γ) :
    Runs scs (forIn xs PUnit.unit fun x _ => do let _ ← m x; pure (ForInStep.yield PUnit.unit))
      (CounterEvent.each m E xs) := by
  induction xs with
  | nil => exact Runs.tickless (Tickless.pure _)
  | cons x xs ih =>
    simp only [List.forIn_cons, bind_assoc, pure_bind]
    exact Runs.bind (h x) fun _ => ih

end Act

/-! ### The steps of a run -/

namespace Executor

open Act

theorem tickless_readVar (f : Frame) (v : Variable) : Tickless (readVar f v) := fun _ => by
  cases v <;> simp only [readVar] <;>
  repeat (first
    | with_reducible exact Keeps.pure _
    | with_reducible exact Keeps.scene
    | with_reducible exact Keeps.get
    | with_reducible refine Keeps.bind ?_ fun _ => ?_)

theorem tickless_writeVar (f : Frame) (v : Variable) (x : Int16) : Tickless (writeVar f v x) := fun _ => by
  cases v <;> simp only [writeVar] <;>
  first
    | exact Keeps.pure _
    | exact Keeps.bind (Keeps.modifyScene fun _ hs => hs) fun _ => Keeps.pure _

theorem tickless_exhaust : Tickless exhaust := fun _ => Keeps.modifyScene fun _ hs => hs

theorem tickless_defer (f : Frame) (body : Command) (t : UInt32) : Tickless (defer f body t) := fun _ => by
  simp only [defer]
  repeat (first
    | with_reducible exact Keeps.scene
    | with_reducible exact Keeps.ticks
    | with_reducible refine Keeps.bind ?_ fun _ => ?_
    | exact Keeps.modifyScene fun _ hs => hs
    | split)

theorem tickless_deferCopies (f : Frame) (body : Command) (t : UInt32) (j n : Nat) :
    Tickless (deferCopies f body t j n) := by
  induction n generalizing j with
  | zero => exact Tickless.pure _
  | succ n ih => exact Tickless.bind (tickless_defer f body _) fun _ => ih (j + 1)

theorem tickless_stackBody (f : Frame) (body : Command) : Tickless (stackBody f body) := fun _ => by
  simp only [stackBody]
  refine Keeps.bind Keeps.scene fun _ => ?_
  split <;> exact Keeps.modifyScene fun _ hs => hs

theorem tickless_popStack : Tickless popStack := fun _ =>
  Keeps.bind Keeps.scene fun _ => Keeps.bind (Keeps.modifyScene fun _ hs => hs) fun _ => Keeps.pure _

theorem tickless_read (f : Frame) (o : Operator) (a : List Int16) :
    Tickless (Operators.read f o a) :=
  fun _ => (read_frame f o a).keeps fun _ _ hf hs => hf.counted.trans hs

theorem tickless_write (o : Operator) (a : List Int16) (v : Int16) :
    Tickless (Operators.write o a v) :=
  fun _ => (write_frame o a v).keeps fun _ _ hf hs => hf.counted.trans hs

end Executor

/-! ### Where a command runs -/

/-- The commands a frame with counter `x` may run over the scripts `scs`: any, on the shared
counter; on the counter of line `j` of script `i`, one without modifiers, or that line's own
command, of a line's shape. -/
def PlacedAt (scs : List Script) : Option (Nat × Nat) → Command → Prop
  | none, _ => True
  | some (i, j), c => c.hasModifier = false ∨
      (c.LineShaped ∧ ∃ sc l, scs[i]? = some sc ∧ sc.lines[j]? = some l ∧ l.command = c)

namespace PlacedAt

variable {scs : List Script} {x : Option (Nat × Nat)}

theorem of_plain {c : Command} (h : c.hasModifier = false) : PlacedAt scs x c := by
  rcases x with _ | ⟨i, j⟩
  · trivial
  · exact .inl h

theorem line {i j : Nat} {sc : Script} {l : Line} (hsc : scs[i]? = some sc)
    (hl : sc.lines[j]? = some l) (hshape : l.command.LineShaped) {g : Frame} (hg : g.script = i)
    (hj : g.line = some j) : PlacedAt scs g.counter l.command := by
  unfold Frame.counter
  simp only [hj]
  split
  · subst hg
    exact Or.inr ⟨hshape, sc, l, hsc, hl, rfl⟩
  · trivial

theorem part {c c' : Command} (h : PlacedAt scs x c) (hc : ∀ m args body, c ≠ .modified m args body)
    (hpart : c.hasModifier = false → c'.hasModifier = false) : PlacedAt scs x c' := by
  rcases x with _ | ⟨i, j⟩
  · trivial
  · refine .inl (hpart ?_)
    rcases h with h | ⟨hshape, -⟩
    · exact h
    · cases hshape with
      | plain h => exact h
      | modified => exact absurd rfl (hc _ _ _)

theorem op {o : Operator} {args : List Command} (h : PlacedAt scs x (.op o args)) :
    ∀ a ∈ args, PlacedAt scs x a :=
  fun _ ha => h.part (fun _ _ _ => Command.noConfusion) fun h => Command.hasModifier_of_mem h ha

theorem set {o : Operator} {args : List Command} {value : Command}
    (h : PlacedAt scs x (.set o args value)) :
    (∀ a ∈ args, PlacedAt scs x a) ∧ PlacedAt scs x value := by
  have hparts : ∀ c', (Command.anyModifier args = false → value.hasModifier = false →
      c'.hasModifier = false) → PlacedAt scs x c' := fun c' hc' =>
    h.part (fun _ _ _ => Command.noConfusion) fun h => by
      simp only [Command.hasModifier, Bool.or_eq_false_iff] at h
      exact hc' h.1 h.2
  exact ⟨fun a ha => hparts a fun hargs _ => Command.hasModifier_of_mem hargs ha,
    hparts value fun _ hvalue => hvalue⟩

theorem store {var : Variable} {value : Command} (h : PlacedAt scs x (.store var value)) :
    PlacedAt scs x value :=
  h.part (fun _ _ _ => Command.noConfusion) id

theorem seq {cs : List Command} (h : PlacedAt scs x (.seq cs)) : ∀ c ∈ cs, PlacedAt scs x c :=
  fun _ hc => h.part (fun _ _ _ => Command.noConfusion) fun h => Command.hasModifier_of_mem h hc

theorem modified {m : Modifier} {args : List Command} {body : Command}
    (h : PlacedAt scs x (.modified m args body)) :
    (∀ a ∈ args, PlacedAt scs x a) ∧ PlacedAt scs x body ∧
      ∀ i j, x = some (i, j) → ∃ sc l, scs[i]? = some sc ∧ sc.lines[j]? = some l ∧
        l.command = .modified m args body := by
  rcases x with _ | ⟨i, j⟩
  · exact ⟨fun _ _ => trivial, trivial, fun _ _ h => by cases h⟩
  · rcases h with h | ⟨hshape, hline⟩
    · cases h
    · cases hshape with
      | plain h => cases h
      | modified hargs hbody _ =>
        refine ⟨fun a ha => of_plain (Command.hasModifier_of_mem hargs ha), of_plain hbody, ?_⟩
        intro i' j' hij
        cases hij
        exact hline

theorem take {cs : List Command} (h : ∀ c ∈ cs, PlacedAt scs x c) (n : Nat) :
    ∀ c ∈ cs.take n, PlacedAt scs x c :=
  fun c hc => h c (List.mem_of_mem_take hc)

end PlacedAt

/-- A frame handed back by a step run in frame `f`: the same script and line, and `b` is its
`EVERY` flag. -/
structure Returns (f r : Frame) (b : Bool) : Prop where
  flag : b = r.everyFired
  script : r.script = f.script
  line : r.line = f.line

namespace Returns

variable {scs : List Script} {f r r' : Frame} {b b' : Bool}

theorem refl (f : Frame) : Returns f f f.everyFired := ⟨rfl, rfl, rfl⟩

theorem counter (h : Returns f r b) : r.counter = f.counter := by
  unfold Frame.counter
  rw [h.script, h.line]

theorem trans (h₁ : Returns f r b) (h₂ : Returns r r' b') : Returns f r' b' :=
  ⟨h₂.flag, h₂.script.trans h₁.script, h₂.line.trans h₁.line⟩

theorem withIndex {i : Int16} (h : Returns { f with index := i } r b) : Returns f r b :=
  ⟨h.flag, h.script, h.line⟩

theorem continues {g : Frame} (h : Returns f r b) (hg : r.Continues g) : Returns f g b :=
  ⟨h.flag.trans hg.everyFired.symm, hg.script.trans h.script, hg.line.trans h.line⟩

theorem placed {c : Command} (h : Returns f r b) (hc : PlacedAt scs f.counter c) :
    PlacedAt scs r.counter c :=
  h.counter ▸ hc

theorem placedAll {cs : List Command} (h : Returns f r b) (hcs : ∀ c ∈ cs, PlacedAt scs f.counter c) :
    ∀ c ∈ cs, PlacedAt scs r.counter c :=
  fun c hc => h.placed (hcs c hc)

end Returns

/-! ### Ticks -/

theorem Scene.setCount_scripts (s : Scene) (x : Option (Nat × Nat)) (c : Nat) :
    (s.setCount x c).scripts = s.scripts := by
  rcases x with _ | ⟨i, j⟩ <;> rfl

theorem Tick.lawful_of_modifier {m : Modifier} (hm : m = .every ∨ m = .skip) (c : Nat) (n : Int16) :
    Tick.Lawful ⟨m == .skip, n, c, if m == .every then (everyTick c n).2 else !(everyTick c n).2⟩ := by
  unfold Tick.Lawful Tick.hit
  rcases hm with rfl | rfl <;> cases (everyTick c n).2 <;> rfl

namespace Accounts

variable {scs : List Script}

theorem tick (st : Machine) (f : Frame) (t : Tick) (b : Bool) (ht : t.count = st.scene.count f.counter)
    (hsound : (CounterEvent.tick f.counter t).Sound scs) :
    Accounts scs st [.tick f.counter t] b { st with scene := st.scene.setCount f.counter t.next } t.ran where
  scripts := Scene.setCount_scripts _ _ _
  shaped hs := hs.setCount _ _
  chain hs x := by
    by_cases hx : f.counter = x
    · subst hx
      have hticks : ticksAt f.counter [.tick f.counter t] = [t] := by simp [ticksAt]
      rw [hticks]
      refine ⟨ht, ?_⟩
      show (st.scene.setCount f.counter t.next).count f.counter = t.next
      rcases hc : f.counter with _ | ⟨i, j⟩
      · rfl
      · exact Scene.count_setCount_self hs (Frame.counter_lt hc)
    · simp only [ticksAt, if_neg hx]
      exact Scene.count_setCount_of_ne hx
  sound e he := by
    rw [List.mem_singleton.mp he]
    exact hsound
  scan _ := rfl

end Accounts

namespace Executor

open Act

variable {scs : List Script} {α : Type}

theorem traces_tick {m : Modifier} (hm : m = .every ∨ m = .skip) {f : Frame} {n : Int16}
    (hline : ∀ i j, f.counter = some (i, j) → LineTicks scs i j (m == .skip))
    {k : Bool → Act α} {U : Frame → Machine → List CounterEvent} {q : α → Bool → Prop}
    (hk : ∀ hit, Traces scs (k hit)
      (if (if m == .every then hit else !hit) = true
        then U { f with everyFired := if m == .every then hit else !hit } else fun _ => [])
      (if m == .every then hit else !hit) q) :
    Traces scs (tickEvery f n >>= k) (tickEvents m f n U) f.everyFired q := by
  intro st hst
  let hit := (everyTick (st.scene.count f.counter) n).2
  let t : Tick := ⟨m == .skip, n, st.scene.count f.counter, if m == .every then hit else !hit⟩
  let st' : Machine := { st with scene := st.scene.setCount f.counter t.next }
  have hacc := Accounts.tick st f t f.everyFired rfl ⟨Tick.lawful_of_modifier hm _ _, hline⟩
  obtain ⟨b', hq, hrest⟩ := hk hit st' (hacc.scripts.trans hst)
  have hrun : (tickEvery f n >>= k).run st = (k hit).run st' := by
    rw [StateT.run_bind, tickEvery_run]
    rfl
  have hev : tickEvents m f n U st = [.tick f.counter t] ++
      (if t.ran = true then U { f with everyFired := t.ran } else fun _ => []) st' := by
    simp only [tickEvents, tickEvery_run, ite_apply]
    rfl
  refine ⟨b', ?_, ?_⟩
  · rw [hrun]
    exact hq
  · rw [hrun, hev]
    exact hacc.trans hrest

theorem traces_bind_returns {γ β : Type} {f : Frame} {m : Act γ} {out : γ → Frame} {k : γ → Act β}
    {T : Machine → List CounterEvent} {U : γ → Machine → List CounterEvent} {b : Bool}
    {q : β → Bool → Prop} (hm : Traces scs m T b fun r b' => Returns f (out r) b')
    (hk : ∀ r, Returns f (out r) (out r).everyFired → Traces scs (k r) (U r) (out r).everyFired q) :
    Traces scs (m >>= k) (CounterEvent.bind m T U) b q :=
  Traces.bind hm fun r b' h => by
    obtain rfl := h.flag
    exact hk r h

theorem LineTicks.of_modified {m : Modifier} (hm : m = .every ∨ m = .skip) {i j : Nat}
    {args : List Command} {body : Command}
    (h : ∃ sc l, scs[i]? = some sc ∧ sc.lines[j]? = some l ∧ l.command = .modified m args body) :
    LineTicks scs i j (m == .skip) := by
  obtain ⟨sc, l, hsc, hl, hcmd⟩ := h
  rcases hm with rfl | rfl <;> exact ⟨sc, l, args, body, hsc, hl, hcmd⟩

section Traced

/-! What each function of the executor needs of its arguments for its events to account for its
runs: commands placed where they run. A function running in a frame hands back a frame of the
same line, whose flag is the one its events leave; a run in a fresh frame gives the caller's
flag back. -/

variable (scs : List Script) (n : Nat)

def ExecTraces : Prop :=
  ∀ (f : Frame) (c : Command), PlacedAt scs f.counter c →
    Traces scs (exec n f c) (execEvents n f c) f.everyFired fun r b => Returns f r.2 b

def ExecSeqTraces : Prop :=
  ∀ (f : Frame) (cs : List Command) (acc : Option Int16), (∀ c ∈ cs, PlacedAt scs f.counter c) →
    Traces scs (execSeq n f cs acc) (execSeqEvents n f cs acc) f.everyFired
      fun r b => Returns f r.2 b

def EvalArgsTraces : Prop :=
  ∀ (f : Frame) (cs : List Command), (∀ c ∈ cs, PlacedAt scs f.counter c) →
    Traces scs (evalArgs n f cs) (evalArgsEvents n f cs) f.everyFired fun r b => Returns f r.2 b

def EvalArgTraces : Prop :=
  ∀ (f : Frame) (args : List Command) (i : Nat), (∀ c ∈ args, PlacedAt scs f.counter c) →
    Traces scs (evalArg n f args i) (evalArgEvents n f args i) f.everyFired
      fun r b => Returns f r.2 b

def EvalOpTraces : Prop :=
  ∀ (f : Frame) (o : Operator) (args : List Command), (∀ c ∈ args, PlacedAt scs f.counter c) →
    Traces scs (evalOp n f o args) (evalOpEvents n f o args) f.everyFired
      fun r b => Returns f r.2 b

def GetOpTraces : Prop :=
  ∀ (f : Frame) (o : Operator) (a : List Int16),
    Traces scs (getOp n f o a) (getOpEvents n f o a) f.everyFired fun r b => Returns f r.2 b

def SetOpTraces : Prop :=
  ∀ (f : Frame) (o : Operator) (a : List Int16) (v : Int16),
    Traces scs (setOp n f o a v) (setOpEvents n f o a v) f.everyFired fun r b => Returns f r b

def StackAllTraces : Prop :=
  ∀ d count : Nat, Runs scs (stackAll n d count) (stackAllEvents n d count)

def RunStackedTraces : Prop :=
  ∀ (d : Nat) (e : StackEntry), Runs scs (runStacked n d e) (runStackedEvents n d e)

def ExecModifierTraces : Prop :=
  ∀ (f : Frame) (m : Modifier) (args : List Command) (body : Command),
    PlacedAt scs f.counter (.modified m args body) →
    Traces scs (execModifier n f m args body) (execModifierEvents n f m args body) f.everyFired
      fun r b => Returns f r b

def ExecLoopTraces : Prop :=
  ∀ (f : Frame) (body : Command) (i step : Int) (count : Nat), PlacedAt scs f.counter body →
    Traces scs (execLoop n f body i step count) (execLoopEvents n f body i step count)
      f.everyFired fun r b => Returns f r b

def ExecWhileTraces : Prop :=
  ∀ (f : Frame) (cond body : Command) (count : Nat), PlacedAt scs f.counter cond →
    PlacedAt scs f.counter body →
    Traces scs (execWhile n f cond body count) (execWhileEvents n f cond body count)
      f.everyFired fun r b => Returns f r b

def RunAtTraces : Prop := ∀ script d : Nat, Runs scs (runAt n script d) (runAtEvents n script d)

/-- Lines from line `k` on of the frame's script, each placed on its own line's counter. -/
def RunLinesTraces : Prop :=
  ∀ (f : Frame) (cs : List Command) (k : Nat) (acc : Option Int16),
    (∀ m c, cs[m]? = some c → ∀ g : Frame, g.script = f.script → g.line = some (k + m) →
      PlacedAt scs g.counter c) →
    Traces scs (runLines n f cs k acc) (runLinesEvents n f cs k acc) f.everyFired fun _ _ => True

/-- Every function of the executor at fuel `n` is traced by its events over the scripts `scs`. -/
structure TracedAt : Prop where
  exec : ExecTraces scs n
  execSeq : ExecSeqTraces scs n
  evalArgs : EvalArgsTraces scs n
  evalArg : EvalArgTraces scs n
  evalOp : EvalOpTraces scs n
  getOp : GetOpTraces scs n
  setOp : SetOpTraces scs n
  stackAll : StackAllTraces scs n
  runStacked : RunStackedTraces scs n
  execModifier : ExecModifierTraces scs n
  execLoop : ExecLoopTraces scs n
  execWhile : ExecWhileTraces scs n
  runAt : RunAtTraces scs n
  runLines : RunLinesTraces scs n

theorem tracedAt_zero : TracedAt scs 0 := by
  constructor <;>
    simp only [ExecTraces, ExecSeqTraces, EvalArgsTraces, EvalArgTraces, EvalOpTraces,
      GetOpTraces, SetOpTraces, StackAllTraces, RunStackedTraces, ExecModifierTraces,
      ExecLoopTraces, ExecWhileTraces, RunAtTraces, RunLinesTraces] <;> intros <;>
    simp only [exec, execSeq, evalArgs, evalArg, evalOp, getOp, setOp, stackAll, runStacked,
      execModifier, execLoop, execWhile, runAt, runLines, execEvents, execSeqEvents,
      evalArgsEvents, evalArgEvents, evalOpEvents, getOpEvents, setOpEvents, stackAllEvents,
      runStackedEvents, execModifierEvents, execLoopEvents, execWhileEvents, runAtEvents,
      runLinesEvents]
  all_goals first
    | exact Runs.tickless tickless_exhaust
    | exact Runs.tickless (Tickless.bind tickless_exhaust fun _ => Tickless.pure _)
    | exact Traces.tickless_then tickless_exhaust fun _ => Traces.pure (Returns.refl _)
    | exact Traces.tickless_then tickless_exhaust fun _ => Traces.pure trivial

end Traced

section Succ

variable {n : Nat}

theorem execSeq_traces (ih : TracedAt scs n) : ExecSeqTraces scs (n + 1) := by
  intro f cs acc hcs
  cases cs with
  | nil => simp only [execSeq, execSeqEvents]; exact Traces.pure (Returns.refl f)
  | cons c cs =>
    simp only [execSeq, execSeqEvents]
    refine traces_bind_returns (ih.exec f c (hcs c List.mem_cons_self)) fun r h₁ => ?_
    rcases r with ⟨v, f₁⟩
    have hcs₁ := h₁.placedAll fun c' hc' => hcs c' (List.mem_cons_of_mem c hc')
    exact Traces.ite (Traces.pure h₁) ((ih.execSeq f₁ cs _ hcs₁).imp fun _ _ h => h₁.trans h)

theorem evalArgs_traces (ih : TracedAt scs n) : EvalArgsTraces scs (n + 1) := by
  intro f cs hcs
  cases cs with
  | nil => simp only [evalArgs, evalArgsEvents]; exact Traces.pure (Returns.refl f)
  | cons c cs =>
    simp only [evalArgs, evalArgsEvents]
    refine traces_bind_returns (ih.exec f c (hcs c List.mem_cons_self)) fun r h₁ => ?_
    rcases r with ⟨v, f₁⟩
    have hcs₁ := h₁.placedAll fun c' hc' => hcs c' (List.mem_cons_of_mem c hc')
    exact Traces.bind_pure (ih.evalArgs f₁ cs hcs₁) fun _ _ h => h₁.trans h

theorem evalArg_traces (ih : TracedAt scs n) : EvalArgTraces scs (n + 1) := by
  intro f args i hargs
  simp only [evalArg, evalArgEvents]
  rcases hc : args[i]? with _ | c
  · exact Traces.pure (Returns.refl f)
  · exact Traces.bind_pure (ih.exec f c (hargs c (List.mem_of_getElem? hc))) fun _ _ h => h

theorem evalOp_traces (ih : TracedAt scs n) : EvalOpTraces scs (n + 1) := by
  intro f o args hargs
  simp only [evalOp, evalOpEvents]
  cases o.opClass with
  | control =>
    refine traces_bind_returns (ih.evalArg f args 0 hargs) fun r h₁ => ?_
    rcases r with ⟨c, f₁⟩
    exact Traces.ite ((ih.evalArg f₁ args 1 (h₁.placedAll hargs)).imp fun _ _ h => h₁.trans h)
      ((ih.evalArg f₁ args 2 (h₁.placedAll hargs)).imp fun _ _ h => h₁.trans h)
  | pure => exact Traces.bind_pure (ih.evalArgs f _ (PlacedAt.take hargs 3)) fun _ _ h => h
  | effect =>
    refine traces_bind_returns (ih.evalArgs f _ (PlacedAt.take hargs 3)) fun r h₁ => ?_
    rcases r with ⟨a, f₁⟩
    exact (ih.getOp f₁ o a).imp fun _ _ h => h₁.trans h

theorem getOp_traces (ih : TracedAt scs n) : GetOpTraces scs (n + 1) := by
  intro f o a
  simp only [getOpEvents.eq_def]
  split
  · simp only [getOp]
    exact Traces.tickless_bind Tickless.scene fun _ =>
      (Traces.of_runs (ih.stackAll _ _)).bind_silent fun _ _ hb => Traces.pure (hb ▸ Returns.refl f)
  · -- `S.POP` runs the command it takes off the stack in a fresh frame
    simp only [getOp]
    refine Traces.tickless_bind tickless_popStack fun e => ?_
    cases e with
    | none => exact Traces.pure (Returns.refl f)
    | some e =>
      exact (Traces.of_runs (ih.runStacked _ e)).bind_silent fun _ _ hb =>
        Traces.pure (hb ▸ Returns.refl f)
  · next hall hpop =>
    simp only [getOp.eq_def]
    split
    · exact Traces.pure ⟨rfl, rfl, rfl⟩
    · exact absurd rfl hall
    · exact absurd rfl hpop
    · exact Traces.tickless_then (tickless_read f o a) fun _ => Traces.pure (Returns.refl f)

theorem setOp_traces (ih : TracedAt scs n) : SetOpTraces scs (n + 1) := by
  intro f o a v
  simp only [setOpEvents.eq_def]
  split
  · simp only [setOp]
    rcases Operators.channel v Scene.scriptCount with _ | s
    · exact Traces.pure (Returns.refl f)
    · exact (Traces.of_runs (ih.runAt _ _)).bind_silent fun _ _ hb =>
        Traces.pure (hb ▸ Returns.refl f)
  · simp only [setOp.eq_def]
    exact Traces.tickless_then (tickless_write o a v) fun _ => Traces.pure (Returns.refl f)

theorem stackAll_traces (ih : TracedAt scs n) : StackAllTraces scs (n + 1) := by
  intro d count
  cases count with
  | zero => simp only [stackAll, stackAllEvents]; exact Runs.tickless (Tickless.pure _)
  | succ count =>
    simp only [stackAll, stackAllEvents]
    refine Runs.tickless_bind tickless_popStack fun e => ?_
    cases e with
    | none => exact Runs.tickless (Tickless.pure _)
    | some e => exact Runs.bind (ih.runStacked d e) fun _ => ih.stackAll d count

theorem runStacked_traces (ih : TracedAt scs n) : RunStackedTraces scs (n + 1) := by
  intro d e
  simp only [runStacked, runStackedEvents]
  -- a stacked command runs outside any script line, on the shared counter
  have hrun := ih.exec { script := e.script, depth := d, index := e.index } e.command trivial
  exact (Runs.fresh hrun).bind_silent fun _ => Runs.tickless (Tickless.pure _)

theorem execLoop_traces (ih : TracedAt scs n) : ExecLoopTraces scs (n + 1) := by
  intro f body i step count hbody
  cases count with
  | zero => simp only [execLoop, execLoopEvents]; exact Traces.pure (Returns.refl f)
  | succ count =>
    simp only [execLoop, execLoopEvents]
    refine traces_bind_returns (ih.exec _ body hbody) fun r h₁ => ?_
    rcases r with ⟨v, f₁⟩
    have h₁ := h₁.withIndex
    exact Traces.ite (Traces.pure h₁)
      ((ih.execLoop f₁ body _ _ count (h₁.placed hbody)).imp fun _ _ h => h₁.trans h)

theorem execWhile_traces (ih : TracedAt scs n) : ExecWhileTraces scs (n + 1) := by
  intro f cond body count hcond hbody
  simp only [execWhile, execWhileEvents]
  refine Traces.ite (Traces.pure (Returns.refl f)) ?_
  refine traces_bind_returns (ih.exec f cond hcond) fun r h₁ => ?_
  rcases r with ⟨c, f₁⟩
  refine Traces.ite (Traces.pure h₁) ?_
  refine traces_bind_returns (ih.exec f₁ body (h₁.placed hbody)) fun r h₂ => ?_
  rcases r with ⟨v, f₂⟩
  have h₂ := h₁.trans h₂
  exact Traces.ite (Traces.pure h₂)
    ((ih.execWhile f₂ cond body _ (h₂.placed hcond) (h₂.placed hbody)).imp fun _ _ h => h₂.trans h)

theorem execModifier_traces (ih : TracedAt scs n) : ExecModifierTraces scs (n + 1) := by
  intro f m args body hplace
  obtain ⟨hargs, hbody, hline⟩ := hplace.modified
  have harg := fun (g : Frame) (h : Returns f g g.everyFired) (i : Nat) =>
    (ih.evalArg g args i (h.placedAll hargs)).imp fun _ _ h' => h.trans h'
  have hrun : ∀ g : Frame, Returns f g g.everyFired →
      Traces scs (do let r ← exec n g body; pure r.2) (execEvents n g body) g.everyFired
        fun r b => Returns f r b :=
    fun g hg => Traces.bind_pure (ih.exec g body (hg.placed hbody)) fun _ _ h => hg.trans h
  cases m with
  | ifThen =>
    simp only [execModifier, execModifierEvents]
    refine traces_bind_returns (harg f (Returns.refl f) 0) fun r h₁ => ?_
    exact Traces.ite (hrun _ ⟨rfl, h₁.script, h₁.line⟩) (Traces.pure ⟨h₁.flag, h₁.script, h₁.line⟩)
  | elif =>
    simp only [execModifier, execModifierEvents]
    refine Traces.ite ?_ (Traces.pure (Returns.refl f))
    refine traces_bind_returns (harg f (Returns.refl f) 0) fun r h₁ => ?_
    exact Traces.ite (hrun _ ⟨rfl, h₁.script, h₁.line⟩) (Traces.pure h₁)
  | orElse =>
    simp only [execModifier, execModifierEvents]
    exact Traces.ite (hrun _ ⟨rfl, rfl, rfl⟩) (Traces.pure (Returns.refl f))
  | loop =>
    simp only [execModifier, execModifierEvents]
    refine traces_bind_returns (harg f (Returns.refl f) 0) fun r h₁ => ?_
    refine traces_bind_returns (harg _ h₁ 1) fun r' h₂ => ?_
    exact (ih.execLoop _ body _ _ _ (h₂.placed hbody)).imp fun _ _ h => h₂.trans h
  | whileLoop =>
    simp only [execModifier, execModifierEvents]
    have hcond : PlacedAt scs f.counter (args.headD .nop) := by
      cases args with
      | nil => exact PlacedAt.of_plain rfl
      | cons c _ => exact hargs c List.mem_cons_self
    exact ih.execWhile f _ body 0 hcond hbody
  | every | skip =>
    simp only [execModifier, execModifierEvents]
    refine traces_bind_returns (harg f (Returns.refl f) 0) fun r h₁ => ?_
    rcases r with ⟨k, f₁⟩
    refine traces_tick ?_ (fun i j hij => LineTicks.of_modified ?_ (hline i j (h₁.counter ▸ hij)))
      fun hit => Traces.ite (hrun _ ⟨rfl, h₁.script, h₁.line⟩) (Traces.pure ⟨rfl, h₁.script, h₁.line⟩)
    all_goals decide
  | other =>
    simp only [execModifier, execModifierEvents]
    exact Traces.other (fun _ => hrun f (Returns.refl f)) fun _ => Traces.pure (Returns.refl f)
  | prob =>
    simp only [execModifier, execModifierEvents]
    refine traces_bind_returns (harg f (Returns.refl f) 0) fun r h₁ => ?_
    refine Traces.tickless_bind Tickless.scene fun s => ?_
    rcases s.rng.int32Between 0 99 with ⟨x, g⟩
    refine Traces.tickless_bind (Tickless.modifyScene fun _ => rfl) fun _ => ?_
    exact Traces.ite (hrun _ h₁) (Traces.pure h₁)
  | delay =>
    simp only [execModifier, execModifierEvents]
    refine (harg f (Returns.refl f) 0).bind_silent fun r b₁ h₁ => ?_
    exact Traces.tickless_then (tickless_defer _ _ _) fun _ => Traces.pure h₁
  | delayRepeat =>
    simp only [execModifier, execModifierEvents]
    refine traces_bind_returns (harg f (Returns.refl f) 0) fun r h₁ => ?_
    refine (harg _ h₁ 1).bind_silent fun r' b₂ h₂ => ?_
    exact Traces.tickless_then (tickless_deferCopies _ _ _ _ _) fun _ => Traces.pure h₂
  | delayRun =>
    simp only [execModifier, execModifierEvents, pure_bind]
    refine traces_bind_returns (harg f (Returns.refl f) 0) fun r h₁ => ?_
    refine traces_bind_returns (harg _ h₁ 1) fun r' h₂ => ?_
    refine Traces.ite ?_ ?_
    · exact (ih.exec _ body (h₂.placed hbody)).bind_silent fun _ _ h =>
        Traces.tickless_then (tickless_deferCopies _ _ _ _ _) fun _ => Traces.pure (h₂.trans h)
    · exact Traces.tickless_then (tickless_deferCopies _ _ _ _ _) fun _ => Traces.pure h₂
  | stack =>
    simp only [execModifier, execModifierEvents]
    exact Traces.tickless_then (tickless_stackBody f body) fun _ => Traces.pure (Returns.refl f)

theorem exec_traces (ih : TracedAt scs n) : ExecTraces scs (n + 1) := by
  intro f c hc
  cases c with
  | nop => simp only [exec, execEvents]; exact Traces.pure (Returns.refl f)
  | literal v => simp only [exec, execEvents]; exact Traces.pure (Returns.refl f)
  | var v =>
    simp only [exec, execEvents]
    exact Traces.tickless_then (tickless_readVar f v) fun _ => Traces.pure (Returns.refl f)
  | op o args =>
    simp only [exec, execEvents]
    exact Traces.bind_pure (ih.evalOp f o args hc.op) fun _ _ h => h
  | set o args value =>
    obtain ⟨hargs, hvalue⟩ := hc.set
    simp only [exec, execEvents]
    refine traces_bind_returns (ih.evalArgs f _ (PlacedAt.take hargs 3)) fun r h₁ => ?_
    refine traces_bind_returns (ih.exec _ value (h₁.placed hvalue)) fun r' h₂ => ?_
    exact Traces.bind_pure (ih.setOp _ o _ _) fun _ _ h => h₁.trans (h₂.trans h)
  | store var value =>
    simp only [exec, execEvents]
    refine (ih.exec f value hc.store).bind_silent fun r b₁ h₁ => ?_
    refine (Traces.tickless_answers (tickless_writeVar _ _ _) (writeVar_continues _ _ _)).bind_silent
      fun g b₂ h₂ => Traces.pure ?_
    exact h₂.1 ▸ h₁.continues h₂.2
  | modified m args body =>
    simp only [exec, execEvents]
    exact Traces.bind_pure (ih.execModifier f m args body hc) fun _ _ h => h
  | seq cs => simp only [exec, execEvents]; exact ih.execSeq f cs none hc.seq

theorem runLines_traces (ih : TracedAt scs n) : RunLinesTraces scs (n + 1) := by
  intro f cs k acc hcs
  cases cs with
  | nil => simp only [runLines, runLinesEvents]; exact Traces.pure trivial
  | cons c cs =>
    simp only [runLines, runLinesEvents]
    refine traces_bind_returns (ih.exec _ c (hcs 0 c rfl _ rfl rfl)) fun r h₁ => ?_
    rcases r with ⟨v, f₁⟩
    refine Traces.ite (Traces.pure trivial) (ih.runLines f₁ cs (k + 1) _ fun m c' hc' g hg hl => ?_)
    refine hcs (m + 1) c' hc' g (hg.trans h₁.script) ?_
    rw [hl, Nat.add_assoc, Nat.add_comm 1 m]

/-- A script runs each of its lines on that line's counter, when its lines are of a line's
shape. -/
theorem runAt_traces (hscs : ∀ sc ∈ scs, ∀ l ∈ sc.lines, l.command.LineShaped)
    (ih : TracedAt scs n) : RunAtTraces scs (n + 1) := by
  intro script d
  simp only [runAt, runAtEvents]
  refine Runs.ite (Runs.tickless (Tickless.bind (Tickless.modifyScene fun _ => rfl) fun _ => Tickless.pure _)) ?_
  refine Runs.scene_bind fun s hs => ?_
  rcases hsc : s.scripts[script]? with _ | sc
  · exact Runs.tickless (Tickless.pure _)
  · refine Runs.tickless_bind Tickless.ticks fun _ => ?_
    refine Runs.tickless_bind (Tickless.modifyScene fun _ => rfl) fun _ => ?_
    refine (Runs.fresh (ih.runLines _ _ 0 none ?_)).bind_silent fun _ => Runs.tickless (Tickless.pure _)
    intro m c hc g hg hl
    simp only [List.getElem?_map, Option.map_eq_some_iff] at hc
    obtain ⟨l, hl', rfl⟩ := hc
    rw [hs] at hsc
    have hshape := hscs sc (List.mem_of_getElem? hsc) l (List.mem_of_getElem? hl')
    exact PlacedAt.line hsc hl' hshape hg (by rw [hl, Nat.zero_add])

end Succ

/-- Over scripts of compiled lines, every function of the executor is traced by its events, at
every fuel. -/
theorem tracedAt (hscs : ∀ sc ∈ scs, ∀ l ∈ sc.lines, l.command.LineShaped) (n : Nat) :
    TracedAt scs n := by
  induction n with
  | zero => exact tracedAt_zero scs
  | succ n ih =>
    exact ⟨exec_traces ih, execSeq_traces ih, evalArgs_traces ih, evalArg_traces ih,
      evalOp_traces ih, getOp_traces ih, setOp_traces ih, stackAll_traces ih,
      runStacked_traces ih, execModifier_traces ih, execLoop_traces ih, execWhile_traces ih,
      runAt_traces hscs ih, runLines_traces ih⟩

end Executor

end TriggerScript
