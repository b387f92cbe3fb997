/-!
Reading unsigned decimal numbers from text.

A number is an optional `+` followed by one or more decimal digits, and its value must
stay below a bound. The text is read from the left and the first fault met decides the
answer: a character that is not a digit, or a digit that carries the value past the bound.
Text with nothing to read, or a lone sign, is refused too.
-/

set_option autoImplicit false
set_option relaxedAutoImplicit false

namespace TriggerScript

namespace Text

/-- Why a text is not a number. -/
inductive NumberFault
  | empty
  | invalidDigit
  | tooLarge
  deriving DecidableEq, Repr

def NumberFault.message : NumberFault → String
  | .empty => "cannot parse integer from empty string"
  | .invalidDigit => "invalid digit found in string"
  | .tooLarge => "number too large to fit in target type"

/-- The digits of a number read onto `acc`, each refused past `bound`. -/
def readDigits (bound : Nat) (acc : Nat) : List Char → Except NumberFault Nat
  | [] => .ok acc
  | c :: rest =>
    if c.isDigit then
      let next := acc * 10 + (c.toNat - '0'.toNat)
      if next < bound then readDigits bound next rest else .error .tooLarge
    else .error .invalidDigit

/-- Reads an unsigned decimal number below `bound`. -/
def readUnsigned (bound : Nat) (s : String) : Except NumberFault Nat :=
  match s.toList with
  | [] => .error .empty
  | ['+'] => .error .invalidDigit
  | '+' :: digits => readDigits bound 0 digits
  | digits => readDigits bound 0 digits

/-- The number of 64-bit words, 2⁶⁴: numbers of the console are read below it. -/
def wordBound : Nat := 18446744073709551616

end Text

end TriggerScript
