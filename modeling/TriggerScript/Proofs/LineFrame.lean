import TriggerScript.Machine.Execute
import TriggerScript.Proofs.LineShape
import TriggerScript.Proofs.ActionSpec
/-!
What running a command hands back: the frame of its line.

A run keeps the state of a line in its frame: the script and depth, the line number, the loop
index, the `IF` chain flag, the `EVERY` flag and the break flag. A command without modifiers
evaluates operands, reads and writes operators and may start other runs (`SCRIPT`, `S.POP`,
`S.ALL`), but those runs get frames of their own: the frame it hands back differs from the one
it was given at most in the loop index and the break flag (`Frame.Continues`). A line of a
script's shape hands back a frame of the same line; it moves the `IF` chain flag only when it
is an `IF`, `ELIF` or `ELSE` line, and the `EVERY` flag only when it is an `EVERY` or `SKIP`
line (`Frame.LineAfter`, `exec_lineAfter`).

The statements are about answers alone, whatever the machine: `Act.Answers m R`.
-/

set_option autoImplicit false
set_option relaxedAutoImplicit false

namespace TriggerScript

/-! ### Answers -/

namespace Act

variable {α β γ : Type} {R : α → Prop} {S : β → Prop}

/-- From every machine, the action answers with a value satisfying `R`. -/
def Answers (m : Act α) (R : α → Prop) : Prop := ∀ st : Machine, R (m.run st).1

theorem Answers.pure {a : α} (h : R a) : Answers (Pure.pure a : Act α) R := fun _ => h

theorem Answers.bind {x : Act α} {g : α → Act β} (hx : Answers x R)
    (hg : ∀ a, R a → Answers (g a) S) : Answers (x >>= g) S :=
  fun st => hg _ (hx st) _

theorem Answers.seq {x : Act α} {g : α → Act β} (hg : ∀ a, Answers (g a) S) :
    Answers (x >>= g) S :=
  fun _ => hg _ _

theorem Answers.bind_pair {R : α × β → Prop} {S : γ → Prop} {x : Act (α × β)}
    {g : α × β → Act γ} (hx : Answers x R) (hg : ∀ a b, R (a, b) → Answers (g (a, b)) S) :
    Answers (x >>= g) S :=
  Answers.bind hx fun r hr => hg r.1 r.2 hr

theorem Answers.imp {m : Act α} (hm : Answers m R) {R' : α → Prop} (h : ∀ a, R a → R' a) :
    Answers m R' :=
  fun st => h _ (hm st)

theorem Answers.ite {c : Prop} [Decidable c] {x y : Act α} (hx : Answers x R)
    (hy : Answers y R) : Answers (if c then x else y) R := by
  by_cases hc : c
  · simpa only [if_pos hc] using hx
  · simpa only [if_neg hc] using hy

theorem Keeps.bind_answers {I : Scene → Prop} {x : Act α} {g : α → Act β} (hx : Keeps I x)
    (ha : Answers x R) (hg : ∀ a, R a → Keeps I (g a)) : Keeps I (x >>= g) :=
  fun st hst => hg _ (ha st) _ (hx st hst)

theorem Keeps.bind_pair_answers {I : Scene → Prop} {R : α × β → Prop} {x : Act (α × β)}
    {g : α × β → Act γ} (hx : Keeps I x) (ha : Answers x R)
    (hg : ∀ a b, R (a, b) → Keeps I (g (a, b))) : Keeps I (x >>= g) :=
  Keeps.bind_answers hx ha fun r hr => hg r.1 r.2 hr

end Act

/-! ### Frames of one line -/

/-- The part a line plays in an `IF` chain. -/
inductive Link
  /-- An `IF` line, which starts a chain. -/
  | opens
  /-- An `ELIF` line. -/
  | continues
  /-- An `ELSE` line. -/
  | closes
  /-- Any other line. -/
  | outside
  deriving DecidableEq, Repr

namespace Command

/-- The part the command plays in an `IF` chain. -/
def link : Command → Link
  | .modified .ifThen _ _ => .opens
  | .modified .elif _ _ => .continues
  | .modified .orElse _ _ => .closes
  | _ => .outside

/-- Whether the command is an `EVERY` or `SKIP` line: a line that counts its runs. -/
def counted : Command → Bool
  | .modified .every _ _ | .modified .skip _ _ => true
  | _ => false

end Command

namespace Frame

/-- `f'` is a frame of the same line as `f`: the same script, depth and line number. -/
structure SameLine (f f' : Frame) : Prop where
  script : f'.script = f.script
  depth : f'.depth = f.depth
  line : f'.line = f.line

/-- `f'` carries on `f` as a command without modifiers leaves it: the same line, the same
`IF` chain flag and the same `EVERY` flag. Only the loop index and the break flag may differ. -/
structure Continues (f f' : Frame) : Prop extends SameLine f f' where
  ifElse : f'.ifElse = f.ifElse
  everyFired : f'.everyFired = f.everyFired

variable {f f₁ f₂ f₃ : Frame}

theorem SameLine.refl (f : Frame) : f.SameLine f := ⟨rfl, rfl, rfl⟩

theorem SameLine.trans (h₁ : f₁.SameLine f₂) (h₂ : f₂.SameLine f₃) : f₁.SameLine f₃ :=
  ⟨h₂.script.trans h₁.script, h₂.depth.trans h₁.depth, h₂.line.trans h₁.line⟩

theorem Continues.refl (f : Frame) : f.Continues f := ⟨SameLine.refl f, rfl, rfl⟩

theorem Continues.trans (h₁ : f₁.Continues f₂) (h₂ : f₂.Continues f₃) : f₁.Continues f₃ :=
  ⟨h₁.toSameLine.trans h₂.toSameLine, h₂.ifElse.trans h₁.ifElse,
    h₂.everyFired.trans h₁.everyFired⟩

theorem continues_index (f : Frame) (i : Int16) : f.Continues { f with index := i } :=
  ⟨⟨rfl, rfl, rfl⟩, rfl, rfl⟩

theorem continues_breaking (f : Frame) (b : Bool) : f.Continues { f with breaking := b } :=
  ⟨⟨rfl, rfl, rfl⟩, rfl, rfl⟩

/-- The frame a line hands back after running `c` from `f`: a frame of the same line, whose
`IF` chain flag only an `IF`, `ELIF` or `ELSE` line moves, and whose `EVERY` flag only an
`EVERY` or `SKIP` line moves. -/
structure LineAfter (c : Command) (f f' : Frame) : Prop extends SameLine f f' where
  ifElse : c.link = .outside → f'.ifElse = f.ifElse
  everyFired : c.counted = false → f'.everyFired = f.everyFired

theorem Continues.lineAfter {c : Command} (h : f.Continues f₁) : f.LineAfter c f₁ :=
  ⟨h.toSameLine, fun _ => h.ifElse, fun _ => h.everyFired⟩

theorem LineAfter.of_ifElse {c : Command} (hc : c.link ≠ .outside) (h₁ : f.Continues f₁)
    (b : Bool) (h₂ : { f₁ with ifElse := b }.Continues f₂) : f.LineAfter c f₂ :=
  ⟨⟨h₂.script.trans h₁.script, h₂.depth.trans h₁.depth, h₂.line.trans h₁.line⟩,
    fun h => absurd h hc, fun _ => h₂.everyFired.trans h₁.everyFired⟩

theorem LineAfter.of_everyFired {c : Command} (hc : c.counted = true) (h₁ : f.Continues f₁)
    (b : Bool) (h₂ : { f₁ with everyFired := b }.Continues f₂) : f.LineAfter c f₂ :=
  ⟨⟨h₂.script.trans h₁.script, h₂.depth.trans h₁.depth, h₂.line.trans h₁.line⟩,
    fun _ => h₂.ifElse.trans h₁.ifElse, fun h => by rw [hc] at h; cases h⟩

end Frame

/-! ### Commands without modifiers -/

namespace Executor

open Act Command TriggerScript.Frame

theorem writeVar_continues (f : Frame) (v : Variable) (x : Int16) :
    Answers (writeVar f v x) f.Continues := by
  cases v <;> simp only [writeVar]
  · exact Answers.seq fun _ => Answers.pure (Continues.refl f)
  · exact Answers.pure (continues_index f x)
  · exact Answers.seq fun _ => Answers.pure (Continues.refl f)
  · exact Answers.pure (Continues.refl f)

section Carries

variable (n : Nat)

/-- The frame handed back after each expression-level function of the executor at fuel `n`,
on operands without modifiers, carries on the frame it was given. -/
structure CarriesOn : Prop where
  exec : ∀ (f : Frame) (c : Command), c.hasModifier = false →
    Answers (exec n f c) fun r => f.Continues r.2
  execSeq : ∀ (f : Frame) (cs : List Command) (acc : Option Int16), anyModifier cs = false →
    Answers (execSeq n f cs acc) fun r => f.Continues r.2
  evalArgs : ∀ (f : Frame) (cs : List Command), anyModifier cs = false →
    Answers (evalArgs n f cs) fun r => f.Continues r.2
  evalArg : ∀ (f : Frame) (args : List Command) (i : Nat), anyModifier args = false →
    Answers (evalArg n f args i) fun r => f.Continues r.2
  evalOp : ∀ (f : Frame) (o : Operator) (args : List Command), anyModifier args = false →
    Answers (evalOp n f o args) fun r => f.Continues r.2
  getOp : ∀ (f : Frame) (o : Operator) (a : List Int16),
    Answers (getOp n f o a) fun r => f.Continues r.2
  setOp : ∀ (f : Frame) (o : Operator) (a : List Int16) (v : Int16),
    Answers (setOp n f o a v) f.Continues

theorem carriesOn_zero : CarriesOn 0 := by
  constructor <;> intros <;>
    simp only [exec, execSeq, evalArgs, evalArg, evalOp, getOp, setOp] <;>
    exact Answers.seq fun _ => Answers.pure (Continues.refl _)

variable {n}

theorem getOp_carriesOn (f : Frame) (o : Operator) (a : List Int16) :
    Answers (getOp (n + 1) f o a) fun r => f.Continues r.2 := by
  simp only [getOp.eq_def]
  -- `BREAK` sets the break flag; every other operator hands `f` back untouched, whatever
  -- scripts or stacked commands it ran in frames of their own.
  split
  · exact Answers.pure (continues_breaking f true)
  · exact Answers.seq fun _ => Answers.seq fun _ => Answers.pure (Continues.refl f)
  · refine Answers.seq fun e => ?_
    cases e with
    | none => exact Answers.pure (Continues.refl f)
    | some e => exact Answers.seq fun _ => Answers.pure (Continues.refl f)
  · exact Answers.seq fun _ => Answers.pure (Continues.refl f)

theorem setOp_carriesOn (f : Frame) (o : Operator) (a : List Int16) (v : Int16) :
    Answers (setOp (n + 1) f o a v) f.Continues := by
  simp only [setOp.eq_def]
  split
  · split
    · exact Answers.seq fun _ => Answers.pure (Continues.refl f)
    · exact Answers.pure (Continues.refl f)
  · exact Answers.seq fun _ => Answers.pure (Continues.refl f)

theorem evalArg_carriesOn (ih : CarriesOn n) (f : Frame) (args : List Command) (i : Nat)
    (hargs : anyModifier args = false) :
    Answers (evalArg (n + 1) f args i) fun r => f.Continues r.2 := by
  simp only [evalArg]
  split
  · next c hc =>
    exact Answers.bind_pair (ih.exec f c (hasModifier_of_getElem? hargs hc)) fun _ _ h =>
      Answers.pure h
  · exact Answers.pure (Continues.refl f)

theorem evalArgs_carriesOn (ih : CarriesOn n) (f : Frame) (cs : List Command)
    (hcs : anyModifier cs = false) :
    Answers (evalArgs (n + 1) f cs) fun r => f.Continues r.2 := by
  cases cs with
  | nil => simp only [evalArgs]; exact Answers.pure (Continues.refl f)
  | cons c cs =>
    simp only [anyModifier, Bool.or_eq_false_iff] at hcs
    simp only [evalArgs]
    exact Answers.bind_pair (ih.exec f c hcs.1) fun _ f₁ h₁ =>
      Answers.bind_pair (ih.evalArgs f₁ cs hcs.2) fun _ _ h₂ => Answers.pure (h₁.trans h₂)

theorem execSeq_carriesOn (ih : CarriesOn n) (f : Frame) (cs : List Command)
    (acc : Option Int16) (hcs : anyModifier cs = false) :
    Answers (execSeq (n + 1) f cs acc) fun r => f.Continues r.2 := by
  cases cs with
  | nil => simp only [execSeq]; exact Answers.pure (Continues.refl f)
  | cons c cs =>
    simp only [anyModifier, Bool.or_eq_false_iff] at hcs
    simp only [execSeq]
    refine Answers.bind_pair (ih.exec f c hcs.1) fun _ f₁ h₁ => ?_
    exact Answers.ite (Answers.pure h₁) ((ih.execSeq f₁ cs _ hcs.2).imp fun _ h₂ => h₁.trans h₂)

theorem evalOp_carriesOn (ih : CarriesOn n) (f : Frame) (o : Operator) (args : List Command)
    (hargs : anyModifier args = false) :
    Answers (evalOp (n + 1) f o args) fun r => f.Continues r.2 := by
  simp only [evalOp]
  split
  · refine Answers.bind_pair (ih.evalArg f args 0 hargs) fun _ f₁ h₁ => ?_
    exact Answers.ite ((ih.evalArg f₁ args 1 hargs).imp fun _ h₂ => h₁.trans h₂)
      ((ih.evalArg f₁ args 2 hargs).imp fun _ h₂ => h₁.trans h₂)
  · exact Answers.bind_pair (ih.evalArgs f _ (anyModifier_take hargs 3)) fun _ _ h =>
      Answers.pure h
  · exact Answers.bind_pair (ih.evalArgs f _ (anyModifier_take hargs 3)) fun _ f₁ h₁ =>
      (ih.getOp f₁ o _).imp fun _ h₂ => h₁.trans h₂

theorem exec_carriesOn (ih : CarriesOn n) (f : Frame) (c : Command)
    (hc : c.hasModifier = false) : Answers (exec (n + 1) f c) fun r => f.Continues r.2 := by
  cases c with
  | nop => simp only [exec]; exact Answers.pure (Continues.refl f)
  | literal v => simp only [exec]; exact Answers.pure (Continues.refl f)
  | var v => simp only [exec]; exact Answers.seq fun _ => Answers.pure (Continues.refl f)
  | op o args =>
    simp only [exec]
    exact Answers.bind_pair (ih.evalOp f o args hc) fun _ _ h => Answers.pure h
  | set o args value =>
    simp only [hasModifier, Bool.or_eq_false_iff] at hc
    simp only [exec]
    refine Answers.bind_pair (ih.evalArgs f _ (anyModifier_take hc.1 3)) fun _ f₁ h₁ => ?_
    refine Answers.bind_pair (ih.exec f₁ value hc.2) fun _ f₂ h₂ => ?_
    exact Answers.bind (ih.setOp f₂ o _ _) fun _ h₃ => Answers.pure (h₁.trans (h₂.trans h₃))
  | store var value =>
    simp only [exec]
    refine Answers.bind_pair (ih.exec f value hc) fun _ f₁ h₁ => ?_
    exact Answers.bind (writeVar_continues f₁ var _) fun _ h₂ => Answers.pure (h₁.trans h₂)
  | modified m args body => cases hc
  | seq parts => simp only [exec]; exact ih.execSeq f parts none hc

theorem carriesOn (n : Nat) : CarriesOn n := by
  induction n with
  | zero => exact carriesOn_zero
  | succ n ih =>
    exact ⟨exec_carriesOn ih, execSeq_carriesOn ih, evalArgs_carriesOn ih, evalArg_carriesOn ih,
      evalOp_carriesOn ih, getOp_carriesOn, setOp_carriesOn⟩

end Carries

/-! ### Modifier lines -/

theorem execLoop_continues (n : Nat) (f : Frame) (body : Command) (i step : Int) (count : Nat)
    (hbody : body.hasModifier = false) : Answers (execLoop n f body i step count) f.Continues := by
  induction n generalizing f i count with
  | zero => simp only [execLoop]; exact Answers.seq fun _ => Answers.pure (Continues.refl f)
  | succ n ih =>
    cases count with
    | zero => simp only [execLoop]; exact Answers.pure (Continues.refl f)
    | succ count =>
      simp only [execLoop]
      refine Answers.bind_pair ((carriesOn n).exec _ body hbody) fun _ f₁ h₁ => ?_
      have h := (continues_index f _).trans h₁
      exact Answers.ite (Answers.pure h) ((ih f₁ _ count).imp fun _ h₂ => h.trans h₂)

theorem execWhile_continues (n : Nat) (f : Frame) (cond body : Command) (count : Nat)
    (hcond : cond.hasModifier = false) (hbody : body.hasModifier = false) :
    Answers (execWhile n f cond body count) f.Continues := by
  induction n generalizing f count with
  | zero => simp only [execWhile]; exact Answers.seq fun _ => Answers.pure (Continues.refl f)
  | succ n ih =>
    simp only [execWhile]
    split
    · exact Answers.pure (Continues.refl f)
    · refine Answers.bind_pair ((carriesOn n).exec f cond hcond) fun _ f₁ h₁ => ?_
      refine Answers.ite (Answers.pure h₁) ?_
      refine Answers.bind_pair ((carriesOn n).exec f₁ body hbody) fun _ f₂ h₂ => ?_
      exact Answers.ite (Answers.pure (h₁.trans h₂))
        ((ih f₂ _).imp fun _ h₃ => h₁.trans (h₂.trans h₃))

theorem body_continues (n : Nat) (f : Frame) (body : Command) (hbody : body.hasModifier = false) :
    Answers (do let r ← exec n f body; pure r.2) f.Continues :=
  Answers.bind ((carriesOn n).exec f body hbody) fun _ h => Answers.pure h

theorem execModifier_lineAfter (n : Nat) (f : Frame) (m : Modifier) (args : List Command)
    (body : Command) (hargs : anyModifier args = false) (hbody : body.hasModifier = false) :
    Answers (execModifier n f m args body) (f.LineAfter (.modified m args body)) := by
  cases n with
  | zero =>
    simp only [execModifier]
    exact Answers.seq fun _ => Answers.pure (Continues.refl f).lineAfter
  | succ n =>
    have harg := (carriesOn n).evalArg
    have hrun := body_continues n
    cases m with
    | ifThen =>
      simp only [execModifier]
      refine Answers.bind_pair (harg f args 0 hargs) fun _ f₁ h₁ => ?_
      exact Answers.ite
        ((hrun _ body hbody).imp fun _ h₂ => LineAfter.of_ifElse (by rintro ⟨⟩) h₁ _ h₂)
        (Answers.pure (LineAfter.of_ifElse (by rintro ⟨⟩) h₁ _ (Continues.refl _)))
    | elif =>
      simp only [execModifier]
      refine Answers.ite ?_ (Answers.pure (Continues.refl f).lineAfter)
      refine Answers.bind_pair (harg f args 0 hargs) fun _ f₁ h₁ => ?_
      exact Answers.ite
        ((hrun _ body hbody).imp fun _ h₂ => LineAfter.of_ifElse (by rintro ⟨⟩) h₁ _ h₂)
        (Answers.pure h₁.lineAfter)
    | orElse =>
      simp only [execModifier]
      exact Answers.ite
        ((hrun _ body hbody).imp fun _ h =>
          LineAfter.of_ifElse (by rintro ⟨⟩) (Continues.refl f) _ h)
        (Answers.pure (Continues.refl f).lineAfter)
    | loop =>
      simp only [execModifier]
      refine Answers.bind_pair (harg f args 0 hargs) fun _ f₁ h₁ => ?_
      refine Answers.bind_pair (harg f₁ args 1 hargs) fun _ f₂ h₂ => ?_
      exact (execLoop_continues n f₂ body _ _ _ hbody).imp fun _ h₃ =>
        (h₁.trans (h₂.trans h₃)).lineAfter
    | whileLoop =>
      simp only [execModifier]
      exact (execWhile_continues n f _ body 0 (hasModifier_headD hargs) hbody).imp fun _ h =>
        h.lineAfter
    | every =>
      simp only [execModifier]
      refine Answers.bind_pair (harg f args 0 hargs) fun _ f₁ h₁ => ?_
      refine Answers.seq fun _ => ?_
      exact Answers.ite ((hrun _ body hbody).imp fun _ h₂ => LineAfter.of_everyFired rfl h₁ _ h₂)
        (Answers.pure (LineAfter.of_everyFired rfl h₁ _ (Continues.refl _)))
    | skip =>
      simp only [execModifier]
      refine Answers.bind_pair (harg f args 0 hargs) fun _ f₁ h₁ => ?_
      refine Answers.seq fun _ => ?_
      exact Answers.ite ((hrun _ body hbody).imp fun _ h₂ => LineAfter.of_everyFired rfl h₁ _ h₂)
        (Answers.pure (LineAfter.of_everyFired rfl h₁ _ (Continues.refl _)))
    | other =>
      simp only [execModifier]
      exact Answers.ite ((hrun f body hbody).imp fun _ h => h.lineAfter)
        (Answers.pure (Continues.refl f).lineAfter)
    | prob =>
      simp only [execModifier]
      refine Answers.bind_pair (harg f args 0 hargs) fun _ f₁ h₁ => ?_
      refine Answers.seq fun _ => ?_
      split
      · exact Answers.seq fun _ => (hrun f₁ body hbody).imp fun _ h₂ => (h₁.trans h₂).lineAfter
      · exact Answers.seq fun _ => Answers.pure h₁.lineAfter
    | delay =>
      simp only [execModifier]
      refine Answers.bind_pair (harg f args 0 hargs) fun _ f₁ h₁ => ?_
      exact Answers.seq fun _ => Answers.pure h₁.lineAfter
    | delayRepeat =>
      simp only [execModifier]
      refine Answers.bind_pair (harg f args 0 hargs) fun _ f₁ h₁ => ?_
      refine Answers.bind_pair (harg f₁ args 1 hargs) fun _ f₂ h₂ => ?_
      exact Answers.seq fun _ => Answers.pure (h₁.trans h₂).lineAfter
    | delayRun =>
      simp only [execModifier]
      refine Answers.bind_pair (harg f args 0 hargs) fun _ f₁ h₁ => ?_
      refine Answers.bind_pair (harg f₁ args 1 hargs) fun _ f₂ h₂ => ?_
      simp only [pure_bind]
      split
      · exact Answers.bind ((carriesOn n).exec f₂ body hbody) fun _ h₃ =>
          Answers.seq fun _ => Answers.pure (h₁.trans (h₂.trans h₃)).lineAfter
      · exact Answers.seq fun _ => Answers.pure (h₁.trans h₂).lineAfter
    | stack =>
      simp only [execModifier]
      exact Answers.seq fun _ => Answers.pure (Continues.refl f).lineAfter

/-- A command of a line's shape hands back a frame of its own line, whose `IF` chain flag only
a chain line moves and whose `EVERY` flag only a counted line moves. -/
theorem exec_lineAfter (n : Nat) (f : Frame) (c : Command) (hc : c.LineShaped) :
    Answers (exec n f c) fun r => f.LineAfter c r.2 := by
  cases hc with
  | plain h => exact ((carriesOn n).exec f c h).imp fun _ h => h.lineAfter
  | modified hargs hbody _ =>
    cases n with
    | zero =>
      simp only [exec]
      exact Answers.seq fun _ => Answers.pure (Continues.refl f).lineAfter
    | succ n =>
      simp only [exec]
      exact Answers.bind (execModifier_lineAfter n f _ _ _ hargs hbody) fun _ h => Answers.pure h

end Executor

end TriggerScript
