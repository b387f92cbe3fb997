import TriggerScript.Value.Arithmetic
/-!
Checked operations: where a program on machine words can stop.

The engine computes on machine words, tables of fixed size and random ranges, with its
overflow checks and debug assertions on. An operation on a word stops the program when its
exact result falls outside the word, a division when its divisor is zero, an index or a slice
when it falls outside its table, a draw when its range is empty, and an assertion when it
fails. A `Checked` value is the outcome of such operations: the exact result, or the `Trap`
that stopped them.

The plain definitions of the library compute as if nothing stopped. Beside them, the checks
of an operation make the operations its source makes, in the same order, on the same
intermediate results, and answer `.ok ()` when none of them stops. Operations that cannot
stop whatever their operands are not repeated: wrapping arithmetic, casts, a clamp between
constant bounds, a draw from a constant range, and an index into a table that the same line
has just held below the table's size.

Here are the checked operations and the checks of the pure operators.
-/

set_option autoImplicit false
set_option relaxedAutoImplicit false

namespace TriggerScript

/-- The ways an operation stops the program. -/
inductive Trap
  /-- A result outside its machine word. -/
  | overflow
  /-- A division or remainder by zero. -/
  | divisionByZero
  /-- An index or a slice outside its table. -/
  | outOfBounds
  /-- A draw from an empty range. -/
  | emptyRange
  /-- A failed assertion. -/
  | assertion
  deriving DecidableEq, Repr

/-- The outcome of checked operations: a result, or the trap that stopped them. -/
abbrev Checked := Except Trap

namespace Checked

variable {α β : Type}

@[simp] theorem ok_bind (a : α) (f : α → Checked β) : (Except.ok a >>= f : Checked β) = f a :=
  rfl

/-- `n` as a word from `lo` to `hi`. -/
def within (lo hi n : Int) : Checked Int := if lo ≤ n ∧ n ≤ hi then .ok n else .error .overflow

def i16 (n : Int) : Checked Int := within (-32768) 32767 n

/-- A signed 32-bit result. -/
def i32 (n : Int) : Checked Int := within (-2147483648) 2147483647 n

def u8 (n : Int) : Checked Int := within 0 255 n

/-- An unsigned 32-bit result. -/
def u32 (n : Int) : Checked Int := within 0 4294967295 n

/-- An unsigned 64-bit result. -/
def u64 (n : Int) : Checked Int := within 0 18446744073709551615 n

/-- The difference of two sizes, which may not go below zero. -/
def sizeSub (a b : Nat) : Checked Nat := if b ≤ a then .ok (a - b) else .error .overflow

/-- A divisor, which may not be zero. -/
def divisor (b : Int) : Checked Unit := if b = 0 then .error .divisionByZero else .ok ()

/-- A signed 32-bit quotient, truncated toward zero. -/
def quot32 (a b : Int) : Checked Int := do
  divisor b
  i32 (a.tdiv b)

/-- A signed 32-bit remainder that is never negative; the least word over `-1` overflows. -/
def remEuclid32 (a b : Int) : Checked Int := do
  divisor b
  if a = -2147483648 ∧ b = -1 then .error .overflow else .ok (a % b)

/-- A shift of a word of `bits` bits by `k` places, which must be fewer than `bits`. -/
def shiftBy (k bits : Int) : Checked Unit :=
  if 0 ≤ k ∧ k < bits then .ok () else .error .overflow

/-- Entry `i` of a table of `size` entries. -/
def index (i size : Nat) : Checked Unit := if i < size then .ok () else .error .outOfBounds

/-- The entries from `lo` up to `hi` of a table of `size` entries. -/
def slice (lo hi size : Nat) : Checked Unit :=
  if lo ≤ hi ∧ hi ≤ size then .ok () else .error .outOfBounds

/-- Copying the entries from `lo` up to `hi` to position `dest` of the same table. -/
def copyWithin (lo hi dest size : Nat) : Checked Unit :=
  if lo ≤ hi ∧ hi ≤ size ∧ dest + (hi - lo) ≤ size then .ok () else .error .outOfBounds

/-- A draw from `lo` up to `hi`, `hi` left out. -/
def range (lo hi : Int) : Checked Unit := if lo < hi then .ok () else .error .emptyRange

/-- A draw from `lo` to `hi`, both in. -/
def rangeTo (lo hi : Int) : Checked Unit := if lo ≤ hi then .ok () else .error .emptyRange

def assert (p : Prop) [Decidable p] : Checked Unit := if p then .ok () else .error .assertion

/-- The byte offsets at which the characters of `s` start, and its end. -/
def charStarts (s : String) : List Nat := (s.toList.map Char.utf8Size).scanl (· + ·) 0

/-- The text of `s` from byte `k` on: `k` must be where a character starts, or the end. -/
def fromByte (s : String) (k : Nat) : Checked Unit :=
  if k ∈ charStarts s then .ok () else .error .outOfBounds

/-! Each checked operation succeeds, with the exact result, when its condition holds. -/

theorem within_of {lo hi n : Int} (h₁ : lo ≤ n) (h₂ : n ≤ hi) : within lo hi n = .ok n :=
  if_pos ⟨h₁, h₂⟩

theorem i16_of {n : Int} (h₁ : -32768 ≤ n) (h₂ : n ≤ 32767) : i16 n = .ok n := within_of h₁ h₂

theorem i32_of {n : Int} (h₁ : -2147483648 ≤ n) (h₂ : n ≤ 2147483647) : i32 n = .ok n :=
  within_of h₁ h₂

theorem u8_of {n : Int} (h₁ : 0 ≤ n) (h₂ : n ≤ 255) : u8 n = .ok n := within_of h₁ h₂

theorem u32_of {n : Int} (h₁ : 0 ≤ n) (h₂ : n ≤ 4294967295) : u32 n = .ok n := within_of h₁ h₂

theorem u64_of {n : Int} (h₁ : 0 ≤ n) (h₂ : n ≤ 18446744073709551615) : u64 n = .ok n :=
  within_of h₁ h₂

theorem sizeSub_of {a b : Nat} (h : b ≤ a) : sizeSub a b = .ok (a - b) := if_pos h

theorem divisor_of {b : Int} (h : b ≠ 0) : divisor b = .ok () := if_neg h

theorem quot32_of {a b : Int} (h : b ≠ 0) (h₁ : -2147483648 ≤ a.tdiv b)
    (h₂ : a.tdiv b ≤ 2147483647) : quot32 a b = .ok (a.tdiv b) := by
  simp only [quot32, divisor_of h, ok_bind, i32_of h₁ h₂]

theorem remEuclid32_of {a b : Int} (h : 0 < b) : remEuclid32 a b = .ok (a % b) := by
  simp only [remEuclid32, divisor_of (Int.ne_of_gt h), ok_bind]
  exact if_neg fun hab => by omega

theorem shiftBy_of {k bits : Int} (h₁ : 0 ≤ k) (h₂ : k < bits) : shiftBy k bits = .ok () :=
  if_pos ⟨h₁, h₂⟩

theorem index_of {i size : Nat} (h : i < size) : index i size = .ok () := if_pos h

theorem slice_of {lo hi size : Nat} (h₁ : lo ≤ hi) (h₂ : hi ≤ size) : slice lo hi size = .ok () :=
  if_pos ⟨h₁, h₂⟩

theorem copyWithin_of {lo hi dest size : Nat} (h₁ : lo ≤ hi) (h₂ : hi ≤ size)
    (h₃ : dest + (hi - lo) ≤ size) : copyWithin lo hi dest size = .ok () :=
  if_pos ⟨h₁, h₂, h₃⟩

theorem range_of {lo hi : Int} (h : lo < hi) : range lo hi = .ok () := if_pos h

theorem rangeTo_of {lo hi : Int} (h : lo ≤ hi) : rangeTo lo hi = .ok () := if_pos h

theorem assert_of {p : Prop} [Decidable p] (h : p) : assert p = .ok () := if_pos h

theorem fromByte_of {s : String} {k : Nat} (h : k ∈ charStarts s) : fromByte s k = .ok () :=
  if_pos h

end Checked

namespace Value

/-! ### The checks of the arithmetic of pure operators -/

/-- `divide a b` and `modulo a b` divide only by a divisor that is not zero. -/
def quotientChecks (b : Int16) : Checked Unit :=
  if b = 0 then pure () else Checked.divisor b.toInt

/-- `average a b`: the sum in 32 bits, then its half. -/
def averageChecks (a b : Int16) : Checked Unit := do
  let sum ← Checked.i32 (a.toInt + b.toInt)
  discard <| Checked.quot32 sum 2

/-- `wrap` between bounds in order, `a ≤ b`: the span and the offset of `n` in 32 bits, the
remainder of the offset by the span, and the lower bound added back. -/
def wrapOrderedChecks (n a b : Int) : Checked Unit := do
  let d ← Checked.i32 (b - a)
  let span ← Checked.i32 (d + 1)
  let offset ← Checked.i32 (n - a)
  let r ← Checked.remEuclid32 offset span
  discard <| Checked.i32 (a + r)

/-- `wrap n lo hi`: the bounds are put in order first. -/
def wrapChecks (n lo hi : Int16) : Checked Unit :=
  if lo ≤ hi then wrapOrderedChecks n.toInt lo.toInt hi.toInt
  else wrapOrderedChecks n.toInt hi.toInt lo.toInt

/-- `shift n by_`: a right shift negates the count and shifts by fewer than sixteen places. -/
def shiftChecks (by_ : Int16) : Checked Unit :=
  if by_ ≥ 16 ∨ by_ ≤ -16 then pure ()
  else if by_ ≥ 0 then pure ()
  else do
    let k ← Checked.i16 (-by_.toInt)
    Checked.shiftBy k 16

/-- `quantize` by a step of magnitude `s`, positive: the remainder of `n`, the multiple
below, twice the remainder, and the multiple above when it is nearer, all in 32 bits. -/
def quantizeByChecks (n s : Int) : Checked Unit := do
  let r ← Checked.remEuclid32 n s
  let base ← Checked.i32 (n - r)
  let twice ← Checked.i32 (2 * r)
  if twice ≥ s then discard <| Checked.i32 (base + s)

/-- `quantize n step`: the magnitude of a step that is not zero, in 32 bits, then the
rounding. -/
def quantizeChecks (n step : Int16) : Checked Unit :=
  if step = 0 then pure ()
  else do
    let s ← Checked.i32 step.toInt.natAbs
    quantizeByChecks n.toInt s

/-- `note` from the magnitude `a` of the clamped semitones `k`: scaled in 32 bits, then
negated for negative `k`. -/
def noteScaleChecks (k a : Int) : Checked Unit := do
  let p ← Checked.i32 (a * 16384)
  let p ← Checked.i32 (p * 2)
  let p ← Checked.i32 (p + 120)
  let q ← Checked.quot32 p 240
  if k < 0 then discard <| Checked.i32 (-min q 16383)

/-- `note n`: the semitones held between `-127` and `127`, and their magnitude in 32 bits. -/
def noteChecks (n : Int16) : Checked Unit := do
  let k := max (-127) (min 127 n.toInt)
  let a ← Checked.i32 k.natAbs
  noteScaleChecks k a

/-- `volts n`: the entry of the table of volts, and its negation for a negative `n`. -/
def voltsChecks (n : Int16) : Checked Unit := do
  let k := min n.toInt.natAbs 10
  Checked.index k voltTable.length
  if n < 0 then discard <| Checked.i16 (-(voltTable.getD k 0).toInt)

/-- `millivolts` from the magnitude `a` of the clamped hundredths `k`: scaled in 32 bits,
then negated for negative `k`. -/
def millivoltsScaleChecks (k a : Int) : Checked Unit := do
  let p ← Checked.i32 (a * 16384)
  let p ← Checked.i32 (p + 500)
  let q ← Checked.quot32 p 1000
  if k < 0 then discard <| Checked.i32 (-min q 16383)

/-- `millivolts n`: the hundredths held between `-1000` and `1000`, and their magnitude in
32 bits. -/
def millivoltsChecks (n : Int16) : Checked Unit := do
  let k := max (-1000) (min 1000 n.toInt)
  let a ← Checked.i32 k.natAbs
  millivoltsScaleChecks k a

/-- `bpm n`: sixty thousand divided by the clamped tempo. -/
def bpmChecks (n : Int16) : Checked Unit :=
  discard <| Checked.quot32 60000 (max 2 (min 1000 n.toInt))

end Value

/-- The checks a pure operator makes over its evaluated operands, as `evalPure` reads them. -/
def Operator.pureChecks (o : Operator) (args : List Int16) : Checked Unit :=
  let x (k : Nat) : Int16 := args.getD k 0
  match o with
  | .div | .modulo => Value.quotientChecks (x 1)
  | .wrap => Value.wrapChecks (x 0) (x 1) (x 2)
  | .avg => Value.averageChecks (x 0) (x 1)
  | .lsh => Value.shiftChecks (x 1)
  | .rsh => Value.shiftChecks (-x 1)
  | .qt => Value.quantizeChecks (x 0) (x 1)
  | .note => Value.noteChecks (x 0)
  | .volts => Value.voltsChecks (x 0)
  | .millivolts => Value.millivoltsChecks (x 0)
  | .bpm => Value.bpmChecks (x 0)
  | _ => pure ()

end TriggerScript
