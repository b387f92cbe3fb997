import TriggerScript.Language.Operator
/-!
Arithmetic of script values, which are signed sixteen-bit words.

Sums, differences and products wrap; division truncates toward zero, wraps its one
overflowing case, and gives zero for a zero divisor, as does the remainder. Quantizing,
pitch and voltage scaling saturate instead. `Operator.evalPure` gives the value of every
pure operator over already evaluated operands.
-/

set_option autoImplicit false
set_option relaxedAutoImplicit false

namespace TriggerScript.Value

def cvMax : Int16 := 16383

/-- One for true, zero for false. -/
def flag (b : Bool) : Int16 := if b then 1 else 0

/-- The nearest value to an integer: the integer itself when it fits. -/
def saturate (n : Int) : Int16 :=
  Int16.ofInt (max (-32768) (min 32767 n))

/-- Quotient truncated toward zero; zero for a zero divisor. -/
def divide (a b : Int16) : Int16 := if b = 0 then 0 else a / b

/-- Remainder with the sign of the dividend; zero for a zero divisor. -/
def modulo (a b : Int16) : Int16 := if b = 0 then 0 else a % b

def least (a b : Int16) : Int16 := if b < a then b else a

def greatest (a b : Int16) : Int16 := if b < a then a else b

/-- `n` held between `lo` and `hi`, with `lo` checked first. -/
def limit (n lo hi : Int16) : Int16 :=
  if n < lo then lo else if n > hi then hi else n

/-- `n` wrapped into the range between `lo` and `hi`, whichever is given first. -/
def wrap (n lo hi : Int16) : Int16 :=
  let (a, b) := if lo ≤ hi then (lo.toInt, hi.toInt) else (hi.toInt, lo.toInt)
  Int16.ofInt (a + (n.toInt - a) % (b - a + 1))

/-- The mean of two values, truncated toward zero. -/
def average (a b : Int16) : Int16 :=
  Int16.ofInt (Int.tdiv (a.toInt + b.toInt) 2)

/-- The absolute value; the least value is its own. -/
def magnitude (a : Int16) : Int16 := Int16.ofInt a.toInt.natAbs

/-- The sign: `-1`, `0` or `1`. -/
def sign (a : Int16) : Int16 := if a < 0 then -1 else if a = 0 then 0 else 1

/-- Positive counts shift left and drop the bits shifted out, negative counts shift right
and keep the sign; sixteen places or more leave only the sign. -/
def shift (n by_ : Int16) : Int16 :=
  if by_ ≥ 16 ∨ by_ ≤ -16 then
    if by_ > 0 ∨ n ≥ 0 then 0 else -1
  else if by_ ≥ 0 then Int16.ofInt (n.toInt * (Nat.pow 2 by_.toInt.toNat : Nat))
  -- the divisor is positive, so this division rounds toward negative infinity
  else Int16.ofInt (n.toInt / (Nat.pow 2 (-by_.toInt).toNat : Nat))

/-- `n` rounded to the nearest multiple of `step`, halves upward; a zero step keeps `n`. -/
def quantize (n step : Int16) : Int16 :=
  if step = 0 then n
  else
    let s := (step.toInt.natAbs : Int)
    let r := n.toInt % s
    let base := n.toInt - r
    saturate (if 2 * r ≥ s then base + s else base)

/-- Equal-tempered semitones to CV units: ten octaves span full scale. -/
def note (n : Int16) : Int16 :=
  let k := max (-127) (min 127 n.toInt)
  let scaled := min ((k.natAbs * 16384 * 2 + 120) / 240 : Nat) 16383
  saturate (if k < 0 then -(scaled : Int) else scaled)

/-- CV units of whole volts from zero to ten. -/
def voltTable : List Int16 :=
  [0, 1638, 3277, 4915, 6554, 8192, 9830, 11469, 13107, 14746, 16383]

/-- Whole volts to CV units, at most ten volts either way. -/
def volts (n : Int16) : Int16 :=
  let v := voltTable.getD (min n.toInt.natAbs 10) 0
  if n < 0 then -v else v

/-- Hundredths of a volt to CV units, at most ten volts either way. -/
def millivolts (n : Int16) : Int16 :=
  let k := max (-1000) (min 1000 n.toInt)
  let scaled := min ((k.natAbs * 16384 + 500) / 1000 : Nat) 16383
  saturate (if k < 0 then -(scaled : Int) else scaled)

/-- Milliseconds per beat, for a tempo held between 2 and 1000 beats per minute. -/
def bpm (n : Int16) : Int16 :=
  Int16.ofInt (60000 / max 2 (min 1000 n.toInt))

end TriggerScript.Value

namespace TriggerScript

/-- The value of a pure operator over its evaluated operands. A missing operand reads as
zero and extra ones are ignored; an operator that is not pure gives zero. -/
def Operator.evalPure (o : Operator) (args : List Int16) : Int16 :=
  let x (k : Nat) : Int16 := args.getD k 0
  match o with
  | .add => x 0 + x 1
  | .sub => x 0 - x 1
  | .mul => x 0 * x 1
  | .div => Value.divide (x 0) (x 1)
  | .modulo => Value.modulo (x 0) (x 1)
  | .min => Value.least (x 0) (x 1)
  | .max => Value.greatest (x 0) (x 1)
  | .lim => Value.limit (x 0) (x 1) (x 2)
  | .wrap => Value.wrap (x 0) (x 1) (x 2)
  | .avg => Value.average (x 0) (x 1)
  | .abs => Value.magnitude (x 0)
  | .sgn => Value.sign (x 0)
  | .eq => Value.flag (x 0 == x 1)
  | .ne => Value.flag (x 0 != x 1)
  | .lt => Value.flag (decide (x 0 < x 1))
  | .gt => Value.flag (decide (x 0 > x 1))
  | .lte => Value.flag (decide (x 0 ≤ x 1))
  | .gte => Value.flag (decide (x 0 ≥ x 1))
  | .inr => Value.flag (decide (x 0 < x 1) && decide (x 1 < x 2))
  | .outr => Value.flag (decide (x 1 < x 0) || decide (x 1 > x 2))
  | .ez => Value.flag (x 0 == 0)
  | .nz => Value.flag (x 0 != 0)
  | .logicAnd => Value.flag (x 0 != 0 && x 1 != 0)
  | .logicOr => Value.flag (x 0 != 0 || x 1 != 0)
  | .logicXor => Value.flag ((x 0 != 0) != (x 1 != 0))
  | .bitAnd => x 0 &&& x 1
  | .bitOr => x 0 ||| x 1
  | .bitXor => x 0 ^^^ x 1
  | .bitNot => ~~~ x 0
  | .lsh => Value.shift (x 0) (x 1)
  | .rsh => Value.shift (x 0) (-x 1)
  | .qt => Value.quantize (x 0) (x 1)
  | .note => Value.note (x 0)
  | .volts => Value.volts (x 0)
  | .millivolts => Value.millivolts (x 0)
  | .bpm => Value.bpm (x 0)
  | _ => 0

end TriggerScript
