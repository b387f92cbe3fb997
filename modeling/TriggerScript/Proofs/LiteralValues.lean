import TriggerScript.Language.Token
import Mathlib
/-!
The values of literals.

A literal is read when its line is parsed. A decimal literal, an optional `-` and digits,
denotes an integer, and is accepted exactly when that integer lies in the signed sixteen-bit
range. A hexadecimal literal (`X` and digits) or a binary one (`B` and digits) denotes a
natural number, and is accepted exactly when that number fits an unsigned sixteen-bit word,
which is then read as signed, so that `X8000` is `-32768`. Any other literal is an overflow
that names the literal's text. Digit strings may be of any length and have leading zeros.

What a digit string denotes is stated positionally (`Literal.numeral`, through
`Nat.ofDigits`); reading the digits most significant first, multiplying by the base at each
step, computes it (`digitsValue_eq_numeral`). The main statement, `Literal.value_eq_ite`, gives
the value of every literal of the three shapes as one equation.
-/

set_option autoImplicit false
set_option relaxedAutoImplicit false

namespace TriggerScript.Literal

/-- The number that digits, written most significant first, denote in a base. -/
def numeral (base : Nat) (ds : List Char) : Nat := Nat.ofDigits base (ds.map digitValue).reverse

theorem foldl_digits (base : Nat) (ds : List Char) (acc : Nat) :
    ds.foldl (fun acc d => acc * base + digitValue d) acc =
      acc * base ^ ds.length + numeral base ds := by
  induction ds generalizing acc with
  | nil => simp [numeral]
  | cons d ds ih =>
    rw [List.foldl_cons, ih, numeral, numeral, List.map_cons, Nat.ofDigits_reverse_cons,
      List.length_map, List.length_cons, Nat.pow_succ]
    ring

theorem digitsValue_eq_numeral (base : Nat) (ds : List Char) :
    digitsValue base ds = numeral base ds := by
  rw [digitsValue, foldl_digits, Nat.zero_mul, Nat.zero_add]

theorem decimalValue_signed (neg : Bool) (ds : List Char) (hds : ∀ c ∈ ds, c.isDigit) :
    decimalValue (String.ofList ((if neg then ['-'] else []) ++ ds)) =
      if neg then -(numeral 10 ds : Int) else (numeral 10 ds : Int) := by
  rw [decimalValue, String.toList_ofList]
  cases neg with
  | true => simp only [if_true, List.singleton_append, digitsValue_eq_numeral]
  | false =>
    simp only [Bool.false_eq_true, if_false, List.nil_append]
    split
    · -- a digit string never starts with a minus sign
      rename_i rest
      exact absurd (hds '-' List.mem_cons_self) (by decide)
    · rw [digitsValue_eq_numeral]

theorem ofUnsigned_eq {n : Nat} (h : n < 65536) : ofUnsigned n = (UInt16.ofNat n).toInt16 := by
  rw [UInt16.toInt16_ofNat']
  apply Int16.toInt_inj.mp
  rw [ofUnsigned, Int16.toInt_ofInt, Int16.toInt_ofNat']
  simp only [Int16.size, Int.bmod]
  split <;> split <;> omega

/-- Literals are exactly the sixteen-bit ones. A decimal literal, a minus sign or none and one
or more digits, is accepted exactly when the integer it denotes lies in `-32768..=32767`, and
then has that value; a hexadecimal or binary literal is accepted exactly when the number its
digits denote is below 2¹⁶, and then is that word read as signed. Any other literal of these
shapes is an overflow naming its text. -/
theorem value_eq_ite :
    (∀ (neg : Bool) (ds : List Char), ds ≠ [] → (∀ c ∈ ds, c.isDigit) →
      (decimal (String.ofList ((if neg then ['-'] else []) ++ ds))).value =
        if -32768 ≤ (if neg then -(numeral 10 ds : Int) else (numeral 10 ds : Int)) ∧
            (if neg then -(numeral 10 ds : Int) else (numeral 10 ds : Int)) ≤ 32767 then
          .ok (Int16.ofInt (if neg then -(numeral 10 ds : Int) else (numeral 10 ds : Int)))
        else .error (.detailed .overflow (String.ofList ((if neg then ['-'] else []) ++ ds)))) ∧
    (∀ ds : List Char, ds ≠ [] →
      (∀ c ∈ ds, c.isHexDigit) →
      (hex (String.ofList ('X' :: ds))).value =
        if numeral 16 ds < 65536 then .ok (UInt16.ofNat (numeral 16 ds)).toInt16
        else .error (.detailed .overflow (String.ofList ('X' :: ds)))) ∧
    (∀ ds : List Char, ds ≠ [] → (∀ c ∈ ds, c = '0' ∨ c = '1') →
      (binary (String.ofList ('B' :: ds))).value =
        if numeral 2 ds < 65536 then .ok (UInt16.ofNat (numeral 2 ds)).toInt16
        else .error (.detailed .overflow (String.ofList ('B' :: ds)))) := by
  refine ⟨fun neg ds _ hds => ?_, fun ds _ _ => ?_, fun ds _ _ => ?_⟩
  · simp only [value, decimalValue_signed neg ds hds, text]
  all_goals
    simp only [value, String.toList_ofList, List.drop_succ_cons, List.drop_zero,
      digitsValue_eq_numeral, text]
    split
    · next h => rw [ofUnsigned_eq h]
    · rfl

/-- The least value, written with leading zeros, is accepted. -/
theorem value_padded_least :
    ['0', '0', '3', '2', '7', '6', '8'] ≠ [] ∧
      (∀ c ∈ ['0', '0', '3', '2', '7', '6', '8'], c.isDigit) ∧
      (decimal "-0032768").value = .ok (-32768) := by
  have hds : ∀ c ∈ ['0', '0', '3', '2', '7', '6', '8'], c.isDigit := List.all_eq_true.mp rfl
  refine ⟨List.cons_ne_nil _ _, hds, ?_⟩
  have h := value_eq_ite.1 true _ (List.cons_ne_nil _ _) hds
  rw [show String.ofList ((if true then ['-'] else []) ++ ['0', '0', '3', '2', '7', '6', '8']) =
    "-0032768" from rfl] at h
  rw [h]
  decide

example : (hex "X8000").value = .ok (-32768) := by decide

end TriggerScript.Literal
