import TriggerScript.Checked
/-!
The arithmetic of pure operators never stops the program.

Every operand is a sixteen-bit value, so every intermediate result the pure operators compute
in 32 bits lies far inside that word: a sum or difference of two values is below 2¹⁷, the
products of `N` and `VV` are below 2²², and each quotient is no larger than its dividend.
The divisions are by constants or by a divisor just checked for zero, the remainders by a
positive span or step, and a right shift moves by one to fifteen places.
-/

set_option autoImplicit false
set_option relaxedAutoImplicit false

namespace TriggerScript

open Checked

theorem Int16.toInt_bounds (a : Int16) : -32768 ≤ a.toInt ∧ a.toInt ≤ 32767 := by
  have := Int16.le_toInt a
  have := Int16.toInt_lt a
  omega

theorem Int16.toInt_ne_zero {a : Int16} (h : a ≠ 0) : a.toInt ≠ 0 :=
  fun h0 => h (Int16.toInt_inj.mp (h0.trans Int16.toInt_zero.symm))

namespace Checked

theorem quot32_of_natAbs_le {a b : Int} (hb : b ≠ 0) (ha : a.natAbs ≤ 2147483647) :
    quot32 a b = .ok (a.tdiv b) := by
  have := Int.natAbs_tdiv_le_natAbs a b
  exact quot32_of hb (by omega) (by omega)

theorem quot32_of_nonneg {a b : Int} (hb : 0 < b) (ha₁ : 0 ≤ a) (ha₂ : a ≤ 2147483647) :
    quot32 a b = .ok (a / b) := by
  have hq := Int.tdiv_eq_ediv_of_nonneg (b := b) ha₁
  have h₁ := Int.ediv_nonneg ha₁ (Int.le_of_lt hb)
  have h₂ := Int.ediv_le_self b ha₁
  rw [← hq] at h₁ h₂ ⊢
  exact quot32_of (Int.ne_of_gt hb) (by omega) (by omega)

end Checked

namespace Value

theorem quotientChecks_ok (b : Int16) : quotientChecks b = .ok () := by
  unfold quotientChecks
  split
  · rfl
  · rename_i hb
    exact divisor_of (Int16.toInt_ne_zero hb)

theorem averageChecks_ok (a b : Int16) : averageChecks a b = .ok () := by
  obtain ⟨ha₁, ha₂⟩ := Int16.toInt_bounds a
  obtain ⟨hb₁, hb₂⟩ := Int16.toInt_bounds b
  simp (disch := omega) only [averageChecks, i32_of, ok_bind, quot32_of_natAbs_le]
  rfl

theorem wrapOrderedChecks_ok {n a b : Int} (hn₁ : -32768 ≤ n) (hn₂ : n ≤ 32767)
    (ha : -32768 ≤ a) (hb : b ≤ 32767) (hab : a ≤ b) : wrapOrderedChecks n a b = .ok () := by
  have hr₁ := Int.emod_nonneg (n - a) (show b - a + 1 ≠ 0 by omega)
  have hr₂ := Int.emod_lt_of_pos (n - a) (show 0 < b - a + 1 by omega)
  simp (disch := omega) only [wrapOrderedChecks, i32_of, ok_bind, remEuclid32_of]
  rfl

theorem wrapChecks_ok (n lo hi : Int16) : wrapChecks n lo hi = .ok () := by
  obtain ⟨hn₁, hn₂⟩ := Int16.toInt_bounds n
  obtain ⟨hl₁, hl₂⟩ := Int16.toInt_bounds lo
  obtain ⟨hh₁, hh₂⟩ := Int16.toInt_bounds hi
  unfold wrapChecks
  split
  · rename_i h
    exact wrapOrderedChecks_ok hn₁ hn₂ hl₁ hh₂ (Int16.le_iff_toInt_le.mp h)
  · rename_i h
    rw [Int16.le_iff_toInt_le] at h
    exact wrapOrderedChecks_ok hn₁ hn₂ hh₁ hl₂ (by omega)

theorem shiftChecks_ok (by_ : Int16) : shiftChecks by_ = .ok () := by
  obtain ⟨h₁, h₂⟩ := Int16.toInt_bounds by_
  have h16 : (16 : Int16).toInt = 16 := by decide
  have hm16 : (-16 : Int16).toInt = -16 := by decide
  unfold shiftChecks
  split
  · rfl
  split
  · rfl
  -- a count from `-15` to `-1`: its negation shifts by fewer than sixteen places
  rename_i hfar hneg
  simp only [not_or, Int16.le_iff_toInt_le, ge_iff_le, h16, hm16, Int16.toInt_zero] at hfar hneg
  simp (disch := omega) only [i16_of, ok_bind, shiftBy_of]

theorem quantizeByChecks_ok {n s : Int} (hn₁ : -32768 ≤ n) (hn₂ : n ≤ 32767) (hs₁ : 0 < s)
    (hs₂ : s ≤ 32768) : quantizeByChecks n s = .ok () := by
  have hr₁ := Int.emod_nonneg n (Int.ne_of_gt hs₁)
  have hr₂ := Int.emod_lt_of_pos n hs₁
  simp (disch := omega) only [quantizeByChecks, i32_of, ok_bind, remEuclid32_of]
  split <;> rfl

theorem quantizeChecks_ok (n step : Int16) : quantizeChecks n step = .ok () := by
  obtain ⟨hn₁, hn₂⟩ := Int16.toInt_bounds n
  obtain ⟨hs₁, hs₂⟩ := Int16.toInt_bounds step
  unfold quantizeChecks
  split
  · rfl
  · rename_i h0
    have hne := Int16.toInt_ne_zero h0
    rw [i32_of (by omega) (by omega), ok_bind]
    exact quantizeByChecks_ok hn₁ hn₂ (by omega) (by omega)

theorem noteScaleChecks_ok (k : Int) {a : Int} (h₁ : 0 ≤ a) (h₂ : a ≤ 127) :
    noteScaleChecks k a = .ok () := by
  simp (disch := omega) only [noteScaleChecks, i32_of, ok_bind, quot32_of_nonneg]
  split <;> rfl

theorem noteChecks_ok (n : Int16) : noteChecks n = .ok () := by
  obtain ⟨h₁, h₂⟩ := Int16.toInt_bounds n
  simp only [noteChecks]
  rw [i32_of (by omega) (by omega), ok_bind]
  exact noteScaleChecks_ok _ (by omega) (by omega)

theorem millivoltsScaleChecks_ok (k : Int) {a : Int} (h₁ : 0 ≤ a) (h₂ : a ≤ 1000) :
    millivoltsScaleChecks k a = .ok () := by
  simp (disch := omega) only [millivoltsScaleChecks, i32_of, ok_bind, quot32_of_nonneg]
  split <;> rfl

theorem millivoltsChecks_ok (n : Int16) : millivoltsChecks n = .ok () := by
  obtain ⟨h₁, h₂⟩ := Int16.toInt_bounds n
  simp only [millivoltsChecks]
  rw [i32_of (by omega) (by omega), ok_bind]
  exact millivoltsScaleChecks_ok _ (by omega) (by omega)

theorem voltTable_bounds (k : Nat) :
    0 ≤ (voltTable.getD k 0).toInt ∧ (voltTable.getD k 0).toInt ≤ 16383 := by
  -- entry by entry: deciding the whole table at once recurses too deeply
  have hall : ∀ v ∈ voltTable, 0 ≤ v.toInt ∧ v.toInt ≤ 16383 := by
    intro v hv
    simp only [voltTable, List.mem_cons, List.not_mem_nil, or_false] at hv
    rcases hv with rfl | rfl | rfl | rfl | rfl | rfl | rfl | rfl | rfl | rfl | rfl <;> decide
  rw [List.getD_eq_getElem?_getD]
  cases h : voltTable[k]? with
  | none => decide
  | some v => exact hall v (List.mem_of_getElem? h)

theorem voltsChecks_ok (n : Int16) : voltsChecks n = .ok () := by
  obtain ⟨h₁, h₂⟩ := voltTable_bounds (min n.toInt.natAbs 10)
  have hlen : voltTable.length = 11 := rfl
  simp only [voltsChecks]
  rw [index_of (by omega), ok_bind]
  split
  · rw [i16_of (by omega) (by omega)]
    rfl
  · rfl

theorem bpmChecks_ok (n : Int16) : bpmChecks n = .ok () := by
  simp (disch := omega) only [bpmChecks, quot32_of_nonneg]
  rfl

end Value

theorem Operator.pureChecks_ok (o : Operator) (args : List Int16) : o.pureChecks args = .ok () := by
  unfold Operator.pureChecks
  split
  · exact Value.quotientChecks_ok _
  · exact Value.quotientChecks_ok _
  · exact Value.wrapChecks_ok _ _ _
  · exact Value.averageChecks_ok _ _
  · exact Value.shiftChecks_ok _
  · exact Value.shiftChecks_ok _
  · exact Value.quantizeChecks_ok _ _
  · exact Value.noteChecks_ok _
  · exact Value.voltsChecks_ok _
  · exact Value.millivoltsChecks_ok _
  · exact Value.bpmChecks_ok _
  · rfl

end TriggerScript
