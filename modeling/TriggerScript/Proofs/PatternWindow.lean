import TriggerScript.Proofs.Reachable
/-!
The window of a pattern, and how its cursor steps.

A pattern keeps its window `start..finish` inside its sixty-four values, its data length at
most sixty-four, and its cursor inside the window, or at the start when the window is empty
(`Pattern.InWindow`). Every method keeps this (`PatternEdit.valid`), so it holds after any
sequence of calls from the empty pattern or from parts that fit together
(`Pattern.Initial.inWindow_edit`). Moving a bound of the window is refused, leaving the pattern as it
was, exactly when the new bound would be negative, cross the other bound or pass the last
slot (`Pattern.setStart_refused_iff`, `Pattern.setFinish_refused_iff`).

A step on a wrapping window moves the cursor's offset from the start modulo the window's
width; without wrapping it stops at the ends (`Pattern.move_index`). Offsets modulo the width
add up, so two wrapped steps land where one step by their sum does, as long as the sum is a
value (`Pattern.move_move_index`).
-/

set_option autoImplicit false
set_option relaxedAutoImplicit false

namespace TriggerScript

namespace Pattern

/-- The window laws: the window lies inside the values, the data length fits them, and the
cursor is inside the window, or at its start when the window is empty. -/
def InWindow (p : Pattern) : Prop :=
  p.start ≤ p.finish ∧ p.finish ≤ size ∧ p.len ≤ size ∧
    if p.start < p.finish then p.start ≤ p.index ∧ p.index < p.finish else p.index = p.start

variable {p : Pattern}

theorem Valid.inWindow (h : p.Valid) : p.InWindow := by
  have := h.start_le_index
  have := h.index_in
  refine ⟨h.start_le_finish, h.finish_le, h.len_le, ?_⟩
  split <;> omega

/-! ### Sequences of calls -/

/-- The pattern after a sequence of calls, made in order. -/
def edit (p : Pattern) (es : List PatternEdit) : Pattern :=
  es.foldl (fun q e => e.apply q) p

@[simp] theorem edit_nil (p : Pattern) : p.edit [] = p := rfl

@[simp] theorem edit_cons (p : Pattern) (e : PatternEdit) (es : List PatternEdit) :
    p.edit (e :: es) = (e.apply p).edit es := rfl

theorem Valid.edit (h : p.Valid) (es : List PatternEdit) : (p.edit es).Valid := by
  induction es generalizing p with
  | nil => exact h
  | cons e es ih => exact ih (PatternEdit.valid h e)

/-- A pattern the caller starts from: the empty one, or one rebuilt from sixty-four values and
fields that fit together. -/
def Initial (p : Pattern) : Prop :=
  p = empty ∨ ∃ (values : Vector Int16 size) (len start finish index : Nat) (wrap : Bool),
    ofParts? values.toList len start finish index wrap = some p

theorem Initial.valid (h : p.Initial) : p.Valid := by
  rcases h with rfl | ⟨values, len, start, finish, index, wrap, hp⟩
  · exact valid_empty
  · exact valid_of_ofParts values.length_toList hp

theorem Initial.inWindow_edit (h : p.Initial) (es : List PatternEdit) : (p.edit es).InWindow :=
  (h.valid.edit es).inWindow

/-! ### Moving the bounds -/

theorem toInt_zero : (0 : Int16).toInt = 0 := rfl

theorem setStart_refused_iff (h : p.InWindow) (v : Int16) :
    ((p.setStart v).1 = false ∧ (p.setStart v).2 = p) ↔
      v.toInt < 0 ∨ (p.finish : Int) < v.toInt ∨ (size : Int) < v.toInt := by
  obtain ⟨-, hf, -, -⟩ := h
  unfold setStart
  split
  · rename_i hbad
    rw [Int16.lt_iff_toInt_lt, toInt_zero] at hbad
    simp only [and_self, true_iff]
    omega
  · rename_i hok
    rw [Int16.lt_iff_toInt_lt, toInt_zero] at hok
    simp only [Bool.true_eq_false, false_and, false_iff]
    omega

theorem setFinish_refused_iff (v : Int16) :
    ((p.setFinish v).1 = false ∧ (p.setFinish v).2 = p) ↔
      v.toInt < 0 ∨ v.toInt < (p.start : Int) ∨ (size : Int) < v.toInt := by
  unfold setFinish
  split
  · rename_i hbad
    rw [Int16.lt_iff_toInt_lt, toInt_zero] at hbad
    simp only [and_self, true_iff]
    omega
  · rename_i hok
    rw [Int16.lt_iff_toInt_lt, toInt_zero] at hok
    simp only [Bool.true_eq_false, false_and, false_iff]
    omega

/-! ### Stepping -/

@[simp] theorem move_start (p : Pattern) (n : Int16) : (p.move n).start = p.start := by
  unfold move; split <;> rfl

@[simp] theorem move_finish (p : Pattern) (n : Int16) : (p.move n).finish = p.finish := by
  unfold move; split <;> rfl

@[simp] theorem move_wrap (p : Pattern) (n : Int16) : (p.move n).wrap = p.wrap := by
  unfold move; split <;> rfl

theorem move_of_empty (h : p.finish ≤ p.start) (n : Int16) : p.move n = p := by
  unfold move
  rw [if_neg (by omega)]

/-- On a window that is not empty, a wrapping step moves the cursor's offset from the start
by `n` modulo the width, and a step without wrapping moves the cursor by `n` and holds it
between the first and the last slot of the window. -/
theorem move_index (h : p.start < p.finish) (n : Int16) :
    ((p.move n).index : Int) =
      if p.wrap then p.start + (p.index - p.start + n.toInt) % (p.finish - p.start)
      else max p.start (min (p.index + n.toInt) (p.finish - 1)) := by
  have hw : (p.finish : Int) - p.start ≠ 0 := by omega
  unfold move
  rw [if_pos h]
  split
  · have := Int.emod_nonneg ((p.index : Int) + n.toInt - p.start) hw
    simp only
    rw [Int.toNat_of_nonneg (by omega)]
    rw [show (p.index : Int) + n.toInt - p.start = p.index - p.start + n.toInt by omega]
    omega
  · simp only
    omega

theorem toInt_add_of_fits {a b : Int16} (hlo : -32768 ≤ a.toInt + b.toInt)
    (hhi : a.toInt + b.toInt ≤ 32767) : (a + b).toInt = a.toInt + b.toInt := by
  rw [Int16.toInt_add]
  exact Int.bmod_eq_of_le (by omega) (by omega)

theorem move_move_index (hw : p.wrap = true) {a b : Int16}
    (hab : (a + b).toInt = a.toInt + b.toInt) :
    ((p.move a).move b).index = (p.move (a + b)).index := by
  by_cases h : p.start < p.finish
  · have h₁ : (p.move a).start < (p.move a).finish := by simpa using h
    have hfirst := move_index h a
    have hsecond := move_index h₁ b
    have hsum := move_index h (a + b)
    simp only [move_start, move_finish, move_wrap, hw, if_true] at hfirst hsecond hsum
    -- both land at the start plus the offset moved by `a + b`, taken modulo the width
    have hlands : ((((p.move a).move b).index : Nat) : Int) = (p.move (a + b)).index := by
      rw [hsecond, hfirst, hsum, hab]
      have hoffset : (p.start : Int) + (p.index - p.start + a.toInt) % (p.finish - p.start) -
          p.start + b.toInt = (p.index - p.start + a.toInt) % (p.finish - p.start) + b.toInt := by
        omega
      rw [hoffset, Int.emod_add_emod, Int.add_assoc]
    exact_mod_cast hlands
  · have hle : p.finish ≤ p.start := by omega
    rw [move_of_empty hle a, move_of_empty hle b, move_of_empty hle (a + b)]

/-! ### Rewinding -/

theorem rewind_eq (p : Pattern) : p.rewind = { p with index := p.start } := by
  unfold rewind clampIndex
  split
  · rfl
  · rename_i hne
    simp only [Pattern.mk.injEq, and_true, true_and]
    omega

theorem rewind_eq_self_iff (p : Pattern) : p.rewind = p ↔ p.index = p.start := by
  rw [rewind_eq]
  cases p
  simp only [Pattern.mk.injEq, and_true, true_and]
  exact eq_comm

end Pattern

/-- **The window and the cursor of a pattern.** After any sequence of calls from the empty
pattern or from parts that fit together, the window lies inside the sixty-four values, the data
length is at most sixty-four, and the cursor is inside the window, or at its start when the
window is empty. On such a pattern, moving the start or the end of the window is refused and
changes nothing exactly when the new bound is negative, crosses the other bound or passes
sixty-four. A step on a window that is not empty moves the cursor's offset from the start by
`n` modulo the width when it wraps, and otherwise moves the cursor by `n` held to the window; so
two wrapped steps land where one step by their sum does, whenever the sum is a value. -/
theorem Pattern.window_invariant_and_stepping :
    (∀ p : Pattern, p.Initial → ∀ es : List PatternEdit, (p.edit es).InWindow) ∧
    (∀ p : Pattern, p.InWindow → ∀ v : Int16,
      (((p.setStart v).1 = false ∧ (p.setStart v).2 = p) ↔
        v.toInt < 0 ∨ (p.finish : Int) < v.toInt ∨ (Pattern.size : Int) < v.toInt) ∧
      (((p.setFinish v).1 = false ∧ (p.setFinish v).2 = p) ↔
        v.toInt < 0 ∨ v.toInt < (p.start : Int) ∨ (Pattern.size : Int) < v.toInt)) ∧
    (∀ (p : Pattern) (n : Int16), p.start < p.finish →
      ((p.step n).2.index : Int) =
        if p.wrap then p.start + (p.index - p.start + n.toInt) % (p.finish - p.start)
        else max p.start (min (p.index + n.toInt) (p.finish - 1))) ∧
    (∀ (p : Pattern) (a b : Int16), p.wrap = true → -32768 ≤ a.toInt + b.toInt →
      a.toInt + b.toInt ≤ 32767 → ((p.step a).2.step b).2.index = (p.step (a + b)).2.index) :=
  ⟨fun _ hp es => hp.inWindow_edit es,
    fun _ hp v => ⟨Pattern.setStart_refused_iff hp v, Pattern.setFinish_refused_iff v⟩,
    fun _ n h => Pattern.move_index h n,
    fun _ _ _ hw hlo hhi => Pattern.move_move_index hw (Pattern.toInt_add_of_fits hlo hhi)⟩

/-- The laws on the empty pattern: a window cut to four slots with the cursor moved to the
last and stepped past it, a start past the last slot, a step back, and two steps whose sum is
one step back. -/
theorem Pattern.window_laws_of_empty :
    (Pattern.empty.Initial ∧
      (Pattern.empty.edit [.setFinish 4, .setIndex 3, .step 1]).InWindow) ∧
    (Pattern.empty.InWindow ∧
      ((((Pattern.empty.setStart 65).1 = false ∧
          (Pattern.empty.setStart 65).2 = Pattern.empty) ↔
        (65 : Int16).toInt < 0 ∨ (Pattern.empty.finish : Int) < (65 : Int16).toInt ∨
          (Pattern.size : Int) < (65 : Int16).toInt) ∧
      (((Pattern.empty.setFinish 65).1 = false ∧
          (Pattern.empty.setFinish 65).2 = Pattern.empty) ↔
        (65 : Int16).toInt < 0 ∨ (65 : Int16).toInt < (Pattern.empty.start : Int) ∨
          (Pattern.size : Int) < (65 : Int16).toInt))) ∧
    (Pattern.empty.start < Pattern.empty.finish ∧
      ((Pattern.empty.step (-1)).2.index : Int) =
        if Pattern.empty.wrap then
          Pattern.empty.start + (Pattern.empty.index - Pattern.empty.start + (-1 : Int16).toInt) %
            (Pattern.empty.finish - Pattern.empty.start)
        else max Pattern.empty.start
          (min (Pattern.empty.index + (-1 : Int16).toInt) (Pattern.empty.finish - 1))) ∧
    (Pattern.empty.wrap = true ∧
      ((Pattern.empty.step 30000).2.step (-30001)).2.index =
        (Pattern.empty.step (30000 + -30001)).2.index) := by
  obtain ⟨hedit, hbounds, hstep, hadd⟩ := Pattern.window_invariant_and_stepping
  have hinit : Pattern.empty.Initial := Or.inl rfl
  have hwindow : Pattern.empty.InWindow := Pattern.valid_empty.inWindow
  have hne : Pattern.empty.start < Pattern.empty.finish := by decide
  exact ⟨⟨hinit, hedit _ hinit _⟩, ⟨hwindow, hbounds _ hwindow 65⟩, ⟨hne, hstep _ (-1) hne⟩,
    ⟨rfl, hadd _ 30000 (-30001) rfl (by decide) (by decide)⟩⟩

end TriggerScript
