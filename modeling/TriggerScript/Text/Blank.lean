/-!
Blank characters: the Unicode White_Space property, and trimming a text of them at both
ends.

Script lines are trimmed of every blank before they are compiled, so a line typed with a
no-break space or an ideographic space around it reads as the same line. Core's
`Char.isWhitespace` knows four ASCII characters only; `isBlank` contains it.
-/

set_option autoImplicit false
set_option relaxedAutoImplicit false

namespace TriggerScript.Text

/-- Characters with the Unicode White_Space property. -/
def isBlank (c : Char) : Bool :=
  let n := c.toNat
  (0x09 ≤ n && n ≤ 0x0D) || n == 0x20 || n == 0x85 || n == 0xA0 || n == 0x1680 ||
    (0x2000 ≤ n && n ≤ 0x200A) || n == 0x2028 || n == 0x2029 || n == 0x202F ||
    n == 0x205F || n == 0x3000

/-- Drops blanks at both ends of a character list. -/
def trimBlanks (cs : List Char) : List Char :=
  ((cs.dropWhile isBlank).reverse.dropWhile isBlank).reverse

/-- Drops blanks at both ends of a text. -/
def trim (s : String) : String :=
  String.ofList (trimBlanks s.toList)

/-- Upper-cases the ASCII letters of a text and keeps every other character. -/
def upperAscii (s : String) : String :=
  String.ofList (s.toList.map Char.toUpper)

/-- Lower-cases the ASCII letters of a text and keeps every other character. -/
def lowerAscii (s : String) : String :=
  String.ofList (s.toList.map Char.toLower)

end TriggerScript.Text
