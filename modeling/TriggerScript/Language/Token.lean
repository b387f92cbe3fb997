import TriggerScript.Error
import TriggerScript.Language.Operator
import TriggerScript.Language.Modifier
/-!
Tokens of the script language: literals, variables, operator and modifier names, the two
separators, and words that are none of these.

A literal keeps its text; its value is read when the line is parsed, so that a literal too
large for sixteen bits is an error of that line. Decimal literals must lie in the signed
range; hexadecimal (`X…`) and binary (`B…`) literals are read as unsigned sixteen-bit words
and then taken as signed, so `XFFFF` is `-1`.
-/

set_option autoImplicit false
set_option relaxedAutoImplicit false

namespace TriggerScript

inductive Literal
  /-- An optional `-` and decimal digits. -/
  | decimal (text : String)
  /-- `X` and hexadecimal digits. -/
  | hex (text : String)
  /-- `B` and binary digits. -/
  | binary (text : String)
  deriving DecidableEq, Repr, Inhabited

/-- The read-only inputs a script can name. -/
inductive Special
  | input | param
  deriving DecidableEq, Repr, Inhabited

inductive Variable
  /-- `A` through `Z`, also written `$A` through `$Z`. -/
  | global (n : Fin 26)
  /-- The loop index `I`. -/
  | index
  /-- The current value of a pattern, `#0` through `#3`. -/
  | pattern (n : Fin 4)
  /-- `IN` or `PARAM`. -/
  | special (s : Special)
  deriving DecidableEq, Repr, Inhabited

/-- A classified word or separator of a line. -/
inductive Token
  | unknown (word : String)
  | literal (l : Literal)
  | op (o : Operator)
  | modifier (m : Modifier)
  | var (v : Variable)
  /-- The pre-separator `:` between a modifier and its body. -/
  | preSep
  /-- The sub-separator `;` between commands. -/
  | subSep
  deriving DecidableEq, Repr, Inhabited

structure Lexeme where
  span : Span
  token : Token
  deriving DecidableEq, Repr, Inhabited

namespace Literal

def text : Literal → String
  | .decimal s | .hex s | .binary s => s

def digitValue (c : Char) : Nat :=
  if '0' ≤ c ∧ c ≤ '9' then c.toNat - '0'.toNat
  else if 'A' ≤ c ∧ c ≤ 'F' then c.toNat - 'A'.toNat + 10
  else if 'a' ≤ c ∧ c ≤ 'f' then c.toNat - 'a'.toNat + 10
  else 0

def digitsValue (base : Nat) (ds : List Char) : Nat :=
  ds.foldl (fun acc d => acc * base + digitValue d) 0

def ofUnsigned (n : Nat) : Int16 :=
  Int16.ofInt (if n < 32768 then (n : Int) else (n : Int) - 65536)

/-- The value of a decimal text: an optional minus sign and digits. -/
def decimalValue (s : String) : Int :=
  match s.toList with
  | '-' :: ds => -((digitsValue 10 ds : Nat) : Int)
  | ds => (digitsValue 10 ds : Int)

/-- The value of the literal; one outside sixteen bits is an overflow naming the text. -/
def value (l : Literal) : Except Error Int16 :=
  let overflow := Except.error (Error.detailed .overflow l.text)
  match l with
  | .decimal s =>
    let n := decimalValue s
    if -32768 ≤ n ∧ n ≤ 32767 then .ok (Int16.ofInt n) else overflow
  | .hex s =>
    let n := digitsValue 16 (s.toList.drop 1)
    if n < 65536 then .ok (ofUnsigned n) else overflow
  | .binary s =>
    let n := digitsValue 2 (s.toList.drop 1)
    if n < 65536 then .ok (ofUnsigned n) else overflow

/-- Reads a word as a literal: decimal digits after an optional `-`, hexadecimal digits
after `X`, or binary digits after `B`, at least one digit each time. -/
def ofWord? (word : String) : Option Literal :=
  let cs := word.toList
  let digits := match cs with
    | '-' :: ds => ds
    | ds => ds
  if !digits.isEmpty && digits.all Char.isDigit then some (.decimal word)
  else match cs with
    | 'X' :: ds =>
      if !ds.isEmpty && ds.all (fun c => c.isDigit || ('A' ≤ c && c ≤ 'F') || ('a' ≤ c && c ≤ 'f'))
      then some (.hex word) else none
    | 'B' :: ds =>
      if !ds.isEmpty && ds.all (fun c => c == '0' || c == '1') then some (.binary word) else none
    | _ => none

end Literal

namespace Token

/-- The operator or modifier that a name spells, aliases included. -/
def ofName? (s : String) : Option Token :=
  match Operator.all.find? (fun o => o.names.contains s) with
  | some o => some (.op o)
  | none => (Modifier.all.find? (fun m => m.names.contains s)).map .modifier

end Token

namespace Variable

/-- Reads a variable name: a capital letter or `$` and one, `#0` to `#3`, `IN` or `PARAM`.
The bare letter `I` is the loop index; `$I` is the global. -/
def ofName? (s : String) : Option Variable :=
  let letter (c : Char) : Option (Fin 26) :=
    if 'A' ≤ c ∧ c ≤ 'Z' then some (Fin.ofNat 26 (c.toNat - 'A'.toNat)) else none
  match s.toList with
  | [c] => if c = 'I' then some .index else (letter c).map .global
  | ['$', c] => (letter c).map .global
  | ['#', c] =>
    if '0' ≤ c ∧ c ≤ '3' then some (.pattern (Fin.ofNat 4 (c.toNat - '0'.toNat))) else none
  | _ =>
    if s = "IN" then some (.special .input)
    else if s = "PARAM" then some (.special .param)
    else none

/-- Only `IN` and `PARAM` cannot be written. -/
def readOnly : Variable → Bool
  | .special _ => true
  | _ => false

/-- The name of a variable as printed. A global letter that is also an operator or
modifier name, and `I`, are written with `$` so that the text reads back as the global. -/
def name : Variable → String
  | .global n =>
    let letter := String.singleton (Char.ofNat ('A'.toNat + n.val))
    if letter = "I" || (Token.ofName? letter).isSome then "$" ++ letter else letter
  | .index => "I"
  | .pattern n => "#" ++ toString n.val
  | .special .input => "IN"
  | .special .param => "PARAM"

end Variable

/-- The text of a token: names are canonical, other words as written. -/
def Token.text : Token → String
  | .unknown s => s
  | .literal l => l.text
  | .op o => o.name
  | .modifier m => m.name
  | .var v => v.name
  | .preSep => ":"
  | .subSep => ";"

end TriggerScript
