import TriggerScript.Proofs.StoredState
/-!
The data of a pattern as a bounded list.

Pushing, popping, inserting and removing treat the first `len` of a pattern's sixty-four values
as a list (`Pattern.data`). Each method is one list operation on that view: a push appends below
the limit, a pop takes the last element, an insert puts the value at the slot the position names
and drops what passes the limit, a remove takes the element at that slot out
(`Pattern.data_push`, `Pattern.data_pop`, `Pattern.data_insert`, `Pattern.data_remove`). What the
buffer holds past the data does not show: an insert shifts the whole buffer, a remove only the
data, and a pop leaves its value in place.

The least and the greatest value are found by one scan that moves only to a strictly better
value, so it stops on the first position of the best one (`Pattern.leastKeyAt_scan`,
`Pattern.FirstBest`). A non-negative position names the same slot before and after an insert, so
removing there gives the inserted value back and restores the data
(`Pattern.remove_insert_data`). Together these are `Pattern.data_refines_bounded_list`.
-/

set_option autoImplicit false
set_option relaxedAutoImplicit false

namespace TriggerScript

namespace Pattern

/-- The data of a pattern: its first `len` values. -/
def data (p : Pattern) : List Int16 := p.values.take p.len

variable {p : Pattern}

theorem insertIdx_eq_take_drop {α : Type} : ∀ (l : List α) {n : Nat}, n ≤ l.length → ∀ a : α,
    l.insertIdx n a = l.take n ++ a :: l.drop n
  | l, 0, _, a => by rw [List.insertIdx_zero, List.take_zero, List.drop_zero, List.nil_append]
  | [], n + 1, h, a => absurd h (by simp)
  | b :: l, n + 1, h, a => by
    rw [List.insertIdx_succ_cons, insertIdx_eq_take_drop l (by simpa using h) a]
    rfl

/-! ### The list view of each method -/

section Methods

variable (hv : p.values.length = size) (hl : p.len ≤ size)
include hv hl

theorem length_data : p.data.length = p.len := by
  simp [data, hv, hl]

theorem data_eq_nil_iff : p.data = [] ↔ p.len = 0 := by
  rw [← List.length_eq_zero_iff, length_data hv hl]

theorem getElem?_data {n : Nat} (hn : n < p.len) : p.data[n]? = some (p.valueAt n) := by
  rw [data, List.getElem?_take_of_lt hn, valueAt, List.getD_eq_getElem?_getD,
    List.getElem?_eq_getElem (by omega)]
  rfl

omit hl in
theorem data_push (v : Int16) :
    (p.push v).data = if p.len < size then p.data ++ [v] else p.data := by
  unfold push
  split
  · simp only [data]
    rw [List.take_add_one, List.getElem?_set_self (by omega), List.take_set_of_le (Nat.le_refl _)]
    rfl
  · rfl

theorem data_pop (hne : p.data ≠ []) :
    p.data.getLast? = some p.pop.1 ∧ p.pop.2.data = p.data.dropLast := by
  have hlen := length_data hv hl
  have hpos : p.len ≠ 0 := fun h0 => hne ((data_eq_nil_iff hv hl).mpr h0)
  unfold pop
  rw [if_neg hpos]
  constructor
  · rw [List.getLast?_eq_getElem?, hlen]
    exact getElem?_data hv hl (by omega)
  · simp only [data, List.dropLast_eq_take, List.take_take, List.length_take, hv]
    congr 1
    omega

theorem pop_of_nil (h : p.data = []) : p.pop = (0, p) := by
  simp [pop, (data_eq_nil_iff hv hl).mp h]

theorem data_insert (i v : Int16) :
    (p.insert i v).data = (p.data.insertIdx (min (p.position i) p.data.length) v).take size := by
  have hpos := position_lt p i
  rw [length_data hv hl]
  unfold insert
  dsimp only
  rw [if_neg (by omega), insertIdx_eq_take_drop _ (by rw [length_data hv hl]; omega)]
  generalize hq : min (p.position i) p.len = q
  have hql : q ≤ p.len := by omega
  have hqs : q < size := by omega
  simp only [data, List.take_take, List.drop_take, List.take_append, List.length_take, hv,
    List.append_assoc, List.singleton_append]
  congr 1
  · congr 1
    omega
  · rw [List.take_cons (by omega), List.take_cons (by omega), List.take_take, List.take_take]
    congr 2
    omega

theorem data_remove (hne : p.data ≠ []) (i : Int16) :
    p.data[min (p.position i) (p.data.length - 1)]? = some (p.remove i).1 ∧
      (p.remove i).2.data = p.data.eraseIdx (min (p.position i) (p.data.length - 1)) := by
  have hne' : p.len ≠ 0 := fun h0 => hne ((data_eq_nil_iff hv hl).mpr h0)
  rw [length_data hv hl]
  unfold remove
  rw [if_neg hne']
  dsimp only
  generalize hq : min (p.position i) (p.len - 1) = q
  have hql : q < p.len := by omega
  refine ⟨getElem?_data hv hl hql, ?_⟩
  rw [List.eraseIdx_eq_take_drop_succ]
  simp only [data, List.take_take, List.drop_take, List.take_append, List.length_take, hv,
    List.length_drop, List.append_assoc]
  have hrest : p.len - 1 - min q size - min (p.len - 1 - q) (size - (q + 1)) = 0 := by omega
  rw [hrest, List.take_zero, Nat.zero_sub, List.take_zero, List.nil_append, List.append_nil]
  congr 2 <;> omega

theorem remove_of_nil (h : p.data = []) (i : Int16) : p.remove i = (0, p) := by
  simp [remove, (data_eq_nil_iff hv hl).mp h]

omit hv in
theorem len_insert_le (i v : Int16) : (p.insert i v).len ≤ size := by
  unfold insert
  dsimp only
  split
  · exact hl
  · exact Nat.min_le_right _ _

omit hl in
theorem length_values_insert (i v : Int16) : (p.insert i v).values.length = size := by
  have hpos := position_lt p i
  unfold insert
  dsimp only
  split
  · exact hv
  · simp only [List.length_append, List.length_take, List.length_drop, List.length_singleton, hv]
    omega

end Methods

/-! ### Positions -/

theorem position_eq (hv : p.values.length = size) (hl : p.len ≤ size) (i : Int16) :
    (p.position i : Int) =
      max 0 (min 63 (if i < 0 then (p.data.length : Int) + i.toInt else i.toInt)) := by
  rw [length_data hv hl]
  unfold position
  simp only [size]
  omega

theorem position_of_nonneg {q : Pattern} {i : Int16} (hi : 0 ≤ i) : p.position i = q.position i := by
  have hlt : ¬ i < 0 := Int16.not_lt.mpr hi
  simp only [position, if_neg hlt]

/-! ### The least and the greatest value -/

/-- `k` is the first of the positions `0..n` whose key is least. -/
structure LeastKeyAt (key : Nat → Int) (n k : Nat) : Prop where
  le : k ≤ n
  least : ∀ j ≤ n, key k ≤ key j
  first : ∀ j < k, key k < key j

/-- Scanning the positions in order and moving only to a strictly smaller key ends on the first
position of the least key. -/
theorem leastKeyAt_scan (key : Nat → Int) (n : Nat) :
    LeastKeyAt key n
      ((List.range (n + 1)).foldl (fun best m => if key m < key best then m else best) 0) := by
  induction n with
  | zero => exact ⟨by simp, fun j hj => by simp [Nat.le_zero.mp hj], fun j hj => by simp at hj⟩
  | succ n ih =>
    rw [List.range_succ, List.foldl_append, List.foldl_cons, List.foldl_nil]
    generalize (List.range (n + 1)).foldl _ 0 = k at ih ⊢
    obtain ⟨hle, hleast, hfirst⟩ := ih
    split
    · -- the new position beats the best so far, and so every earlier one
      rename_i hlt
      refine ⟨Nat.le_refl _, fun j hj => ?_, fun j hj => ?_⟩
      · rcases Nat.lt_or_eq_of_le hj with hj | rfl
        · have := hleast j (by omega)
          omega
        · exact Int.le_refl _
      · have := hleast j (by omega)
        omega
    · rename_i hge
      refine ⟨by omega, fun j hj => ?_, hfirst⟩
      rcases Nat.lt_or_eq_of_le hj with hj | rfl
      · exact hleast j (by omega)
      · omega

/-- `k` is the first position of the list whose value nothing beats: no value comes `before` it,
and it comes `before` the value at every earlier position. -/
structure FirstBest (before : Int16 → Int16 → Prop) (l : List Int16) (k : Nat) : Prop where
  index_lt : k < l.length
  unbeaten : ∀ z ∈ l, ¬ before z (l.getD k 0)
  leftmost : ∀ z ∈ l.take k, before (l.getD k 0) z

theorem firstBest_of_leastKeyAt {before : Int16 → Int16 → Prop} {f : Int16 → Int}
    (hf : ∀ a b, before a b ↔ f a < f b) {l : List Int16} {n k : Nat} (hn : l.length = n + 1)
    (h : LeastKeyAt (fun m => f (l.getD m 0)) n k) : FirstBest before l k := by
  refine ⟨by have := h.le; omega, fun z hz => ?_, fun z hz => ?_⟩
  · obtain ⟨j, hj, rfl⟩ := List.mem_iff_getElem.mp hz
    have hkj := h.least j (by omega)
    rw [hf]
    simp only [List.getD_eq_getElem?_getD, List.getElem?_eq_getElem hj, Option.getD_some] at hkj ⊢
    omega
  · obtain ⟨j, hj, rfl⟩ := List.mem_iff_getElem.mp hz
    rw [List.length_take] at hj
    have hkj := h.first j (by omega)
    rw [hf, List.getElem_take]
    simp only [List.getD_eq_getElem?_getD, List.getElem?_eq_getElem (show j < l.length by omega),
      Option.getD_some] at hkj ⊢
    exact hkj

theorem minIndex_eq (p : Pattern) : p.minIndex =
    (List.range p.data.length).foldl
      (fun best n => if p.data.getD n 0 < p.data.getD best 0 then n else best) 0 := rfl

theorem maxIndex_eq (p : Pattern) : p.maxIndex =
    (List.range p.data.length).foldl
      (fun best n => if p.data.getD n 0 > p.data.getD best 0 then n else best) 0 := rfl

theorem exists_length_data (hne : p.data ≠ []) : ∃ n, p.data.length = n + 1 :=
  Nat.exists_eq_add_one_of_ne_zero fun h => hne (List.eq_nil_of_length_eq_zero h)

theorem minIndex_firstBest (hne : p.data ≠ []) : FirstBest (· < ·) p.data p.minIndex := by
  obtain ⟨n, hn⟩ := exists_length_data hne
  have hscan := leastKeyAt_scan (fun m => (p.data.getD m 0).toInt) n
  refine firstBest_of_leastKeyAt (f := fun a => a.toInt) (fun a b => Int16.lt_iff_toInt_lt) hn ?_
  rw [minIndex_eq, hn]
  simp only [Int16.lt_iff_toInt_lt]
  exact hscan

/-- `maxIndex` is the first position of a greatest element of the data: the same scan, by the
negated value. -/
theorem maxIndex_firstBest (hne : p.data ≠ []) : FirstBest (· > ·) p.data p.maxIndex := by
  obtain ⟨n, hn⟩ := exists_length_data hne
  have hscan := leastKeyAt_scan (fun m => -(p.data.getD m 0).toInt) n
  refine firstBest_of_leastKeyAt (f := fun a => -a.toInt) (fun a b => ?_) hn ?_
  · rw [gt_iff_lt, Int16.lt_iff_toInt_lt]
    omega
  rw [maxIndex_eq, hn]
  simp only [Int.neg_lt_neg_iff] at hscan
  simp only [gt_iff_lt, Int16.lt_iff_toInt_lt]
  exact hscan

theorem minIndex_maxIndex_of_nil (h : p.data = []) : p.minIndex = 0 ∧ p.maxIndex = 0 := by
  rw [minIndex_eq, maxIndex_eq, h]
  exact ⟨rfl, rfl⟩

/-! ### Removing what was inserted -/

theorem remove_insert_data (hv : p.values.length = size) (hl : p.len ≤ size) {i : Int16}
    (hi : 0 ≤ i) (v : Int16) (hroom : p.data.length < size) :
    ((p.insert i v).remove i).1 = v ∧ ((p.insert i v).remove i).2.data = p.data := by
  have hv' := length_values_insert hv i v
  have hl' := len_insert_le hl i v
  generalize hq : min (p.position i) p.data.length = q
  have hqle : q ≤ p.data.length := by omega
  have hins : (p.insert i v).data = p.data.insertIdx q v := by
    rw [data_insert hv hl, hq]
    exact List.take_of_length_le (by rw [List.length_insertIdx_of_le_length hqle]; omega)
  have hlen : (p.insert i v).data.length = p.data.length + 1 := by
    rw [hins, List.length_insertIdx_of_le_length hqle]
  have hslot : min ((p.insert i v).position i) ((p.insert i v).data.length - 1) = q := by
    rw [position_of_nonneg hi, hlen, Nat.add_sub_cancel, hq]
  have hne : (p.insert i v).data ≠ [] := fun h => by simp [h] at hlen
  obtain ⟨hval, hdata⟩ := data_remove hv' hl' hne i
  rw [hslot, hins, List.getElem?_insertIdx_self, if_pos hqle] at hval
  rw [hslot, hins, List.eraseIdx_insertIdx_self] at hdata
  exact ⟨(Option.some.inj hval).symm, hdata⟩

/-! ### The bounded list -/

/-- The list laws of a pattern's data at position `i` and value `v`. -/
structure ListLaws (p : Pattern) (i v : Int16) : Prop where
  position : (p.position i : Int) =
    max 0 (min 63 (if i < 0 then (p.data.length : Int) + i.toInt else i.toInt))
  push : (p.push v).data = if p.data.length < size then p.data ++ [v] else p.data
  pop_nil : p.data = [] → p.pop = (0, p)
  pop : p.data ≠ [] → p.data.getLast? = some p.pop.1 ∧ p.pop.2.data = p.data.dropLast
  insert : (p.insert i v).data = (p.data.insertIdx (min (p.position i) p.data.length) v).take size
  remove_nil : p.data = [] → p.remove i = (0, p)
  remove : p.data ≠ [] →
    p.data[min (p.position i) (p.data.length - 1)]? = some (p.remove i).1 ∧
      (p.remove i).2.data = p.data.eraseIdx (min (p.position i) (p.data.length - 1))
  extremes_nil : p.data = [] → p.minIndex = 0 ∧ p.maxIndex = 0
  extremes : p.data ≠ [] →
    FirstBest (· < ·) p.data p.minIndex ∧ FirstBest (· > ·) p.data p.maxIndex
  remove_insert : 0 ≤ i → p.data.length < size →
    ((p.insert i v).remove i).1 = v ∧ ((p.insert i v).remove i).2.data = p.data

end Pattern

/-- **The data of a pattern refines a bounded list.** For every pattern of sixty-four values
whose data length is at most sixty-four, viewing it as the list `L` of its first `len` values:
position `i` names the slot `p(i)`, `i` counted back from `|L|` when negative and held between
0 and 63; a push appends below sixty-four elements and changes nothing at the limit; a pop
answers the last element and drops it, or answers zero and changes nothing when `L` is empty; an
insert puts the value at `min(p(i), |L|)` and keeps the first sixty-four elements; a remove
answers the element at `min(p(i), |L| - 1)` and takes it out, or answers zero and changes
nothing when `L` is empty; `minIndex` and `maxIndex` are the first positions of a least and a
greatest element, zero when `L` is empty; and below the limit, removing at a non-negative
position right after inserting there answers the inserted value and restores `L`. -/
theorem Pattern.data_refines_bounded_list (p : Pattern) (hv : p.values.length = Pattern.size)
    (hl : p.len ≤ Pattern.size) (i v : Int16) : p.ListLaws i v := by
  have hlen := Pattern.length_data hv hl
  refine ⟨Pattern.position_eq hv hl i, ?_, Pattern.pop_of_nil hv hl, Pattern.data_pop hv hl,
    Pattern.data_insert hv hl i v, fun h => Pattern.remove_of_nil hv hl h i,
    fun h => Pattern.data_remove hv hl h i, Pattern.minIndex_maxIndex_of_nil,
    fun h => ⟨Pattern.minIndex_firstBest h, Pattern.maxIndex_firstBest h⟩,
    fun hi hroom => Pattern.remove_insert_data hv hl hi v hroom⟩
  rw [hlen]
  exact Pattern.data_push hv v

/-- The laws on a pattern holding `3, -2` after two pushes, at the position counted back one
from the end. -/
theorem Pattern.pushed_pattern_list_laws :
    ((Pattern.empty.push 3).push (-2)).values.length = Pattern.size ∧
      ((Pattern.empty.push 3).push (-2)).len ≤ Pattern.size ∧
      ((Pattern.empty.push 3).push (-2)).ListLaws (-1) 7 :=
  ⟨by decide, by decide, Pattern.data_refines_bounded_list _ (by decide) (by decide) (-1) 7⟩

end TriggerScript
