import TriggerScript.Machine.Operators
/-!
Specifications of actions: Hoare triples over the scene of a machine.

`Triple P m Q` says that from every machine whose scene satisfies `P`, the action `m`
ends with an answer and a scene that satisfy `Q`. The hardware connection is left free,
so a triple holds for every clock reading, input and reply. Triples compose through
`bind`, so the specification of a program is assembled from one lemma per primitive;
`Keeps I m` is the triple that only asks for the property `I` to stay true.
-/

set_option autoImplicit false
set_option relaxedAutoImplicit false

namespace TriggerScript.Act

variable {α β : Type}

/-- From a scene satisfying `P`, the action ends with an answer and a scene satisfying
`Q`, whatever the hardware reports. -/
def Triple (P : Scene → Prop) (m : Act α) (Q : α → Scene → Prop) : Prop :=
  ∀ st : Machine, P st.scene → Q (m.run st).1 (m.run st).2.scene

/-- The action keeps the property `I` of scenes. -/
def Keeps (I : Scene → Prop) (m : Act α) : Prop := Triple I m fun _ => I

section Rules

variable {P P' : Scene → Prop} {Q Q' : α → Scene → Prop}

theorem Triple.pure {a : α} (h : ∀ s, P s → Q a s) : Triple P (Pure.pure a) Q :=
  fun st hst => h st.scene hst

theorem Triple.bind {R : β → Scene → Prop} {x : Act α} {g : α → Act β} (hx : Triple P x Q)
    (hg : ∀ a, Triple (Q a) (g a) R) : Triple P (x >>= g) R :=
  fun st hst => hg _ _ (hx st hst)

/-- `bind` on an action that answers a pair, with the continuation taking the two parts:
the shape of `let (v, f) ← x` in a `do` block. -/
theorem Triple.bind_pair {γ : Type} {Q : α × β → Scene → Prop} {R : γ → Scene → Prop}
    {x : Act (α × β)} {g : α × β → Act γ} (hx : Triple P x Q)
    (hg : ∀ a b, Triple (Q (a, b)) (g (a, b)) R) : Triple P (x >>= g) R :=
  Triple.bind hx fun r => hg r.1 r.2

theorem Triple.conseq {m : Act α} (hm : Triple P m Q) (hP : ∀ s, P' s → P s)
    (hQ : ∀ a s, Q a s → Q' a s) : Triple P' m Q' :=
  fun st hst => hQ _ _ (hm st (hP _ hst))

theorem Triple.ite {c : Prop} [Decidable c] {x y : Act α} (hx : Triple P x Q)
    (hy : Triple P y Q) : Triple P (if c then x else y) Q := by
  by_cases hc : c
  · simpa only [if_pos hc] using hx
  · simpa only [if_neg hc] using hy

theorem Triple.and_pre {c : Prop} {m : Act α} (h : c → Triple P m Q) :
    Triple (fun s => P s ∧ c) m Q :=
  fun st hst => h hst.2 st hst.1

theorem Triple.or_pre {P₁ P₂ : Scene → Prop} {m : Act α} (h₁ : Triple P₁ m Q) (h₂ : Triple P₂ m Q) :
    Triple (fun s => P₁ s ∨ P₂ s) m Q :=
  fun st hst => hst.elim (h₁ st) (h₂ st)

theorem Triple.scene_bind {g : Scene → Act α}
    (h : ∀ s₀, P s₀ → Triple (fun s => P s ∧ s = s₀) (g s₀) Q) : Triple P (scene >>= g) Q :=
  fun st hst => h st.scene hst st ⟨hst, rfl⟩

theorem Triple.modifyScene {g : Scene → Scene} {Q : Unit → Scene → Prop}
    (h : ∀ s, P s → Q () (g s)) : Triple P (modifyScene g) Q :=
  fun st hst => h st.scene hst

theorem Triple.scene {Q : Scene → Scene → Prop} (h : ∀ s, P s → Q s s) : Triple P scene Q :=
  fun st hst => h st.scene hst

theorem Triple.get {Q : Machine → Scene → Prop} (h : ∀ st : Machine, P st.scene → Q st st.scene) :
    Triple P (MonadState.get : Act Machine) Q :=
  fun st hst => h st hst

theorem Triple.emit {e : Event} {Q : Unit → Scene → Prop} (h : ∀ s, P s → Q () s) :
    Triple P (emit e) Q :=
  fun st hst => h st.scene hst

theorem Triple.ticks {Q : UInt32 → Scene → Prop} (h : ∀ (t : UInt32) s, P s → Q t s) :
    Triple P ticks Q :=
  fun st hst => h _ st.scene hst

end Rules

section Invariants

variable {I : Scene → Prop}

theorem Keeps.pure (a : α) : Keeps I (Pure.pure a : Act α) := Triple.pure fun _ h => h

theorem Keeps.bind {x : Act α} {g : α → Act β} (hx : Keeps I x) (hg : ∀ a, Keeps I (g a)) :
    Keeps I (x >>= g) := Triple.bind hx hg

theorem Keeps.modifyScene {g : Scene → Scene} (h : ∀ s, I s → I (g s)) :
    Keeps I (modifyScene g) := Triple.modifyScene h

theorem Keeps.scene : Keeps I scene := Triple.scene fun _ h => h

theorem Keeps.get : Keeps I (MonadState.get : Act Machine) := Triple.get fun _ h => h

theorem Keeps.emit (e : Event) : Keeps I (emit e) := Triple.emit fun _ h => h

theorem Keeps.ticks : Keeps I ticks := Triple.ticks fun _ _ h => h

theorem Keeps.forIn_list {γ : Type} (xs : List γ) (b : PUnit)
    (body : γ → PUnit → Act (ForInStep PUnit)) (h : ∀ x b, Keeps I (body x b)) :
    Keeps I (forIn xs b body) := by
  induction xs generalizing b with
  | nil => exact Keeps.pure _
  | cons x xs ih =>
    simp only [List.forIn_cons]
    refine Keeps.bind (h x b) fun r => ?_
    cases r with
    | done b' => exact Keeps.pure _
    | yield b' => exact ih b'

theorem Keeps.drawBetween (lo hi : Int16) (h : ∀ s g, I s → I { s with rng := g }) :
    Keeps I (drawBetween lo hi) :=
  Keeps.bind Keeps.scene fun _ =>
    Keeps.bind (Keeps.modifyScene fun s' hs' => h s' _ hs') fun _ => Keeps.pure _

end Invariants

end TriggerScript.Act
