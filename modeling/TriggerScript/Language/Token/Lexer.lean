import TriggerScript.Language.Token
/-!
The lexer: one line of text to classified tokens with their character spans.

Only the space and the tab separate words; `:` and `;` are tokens of one character
wherever they stand. A word is upper-cased (ASCII letters only) and classified as an
operator or modifier name, a variable, a literal, or else an unknown word. A word that
holds `//` ends the line: the part before the `//`, if any, is its last token. Lexing
never fails.
-/

set_option autoImplicit false
set_option relaxedAutoImplicit false

namespace TriggerScript.Lexer

/-- The characters between words. -/
def isSpacing (c : Char) : Bool := c == ' ' || c == '\t'

def isSeparator (c : Char) : Bool := c == ':' || c == ';'

def inWord (c : Char) : Bool := !isSpacing c && !isSeparator c

/-- The part of a word before its first `//`, if it has one. -/
def beforeRemark : List Char → Option (List Char)
  | '/' :: '/' :: _ => some []
  | c :: r => (beforeRemark r).map (c :: ·)
  | [] => none

/-- The token a word stands for: a name, a variable, a literal, or an unknown word. -/
def classify (word : String) : Token :=
  match Token.ofName? word with
  | some t => t
  | none =>
    match Variable.ofName? word with
    | some v => .var v
    | none =>
      match Literal.ofWord? word with
      | some l => .literal l
      | none => .unknown word

private theorem length_dropWhile_le (p : Char → Bool) (cs : List Char) :
    (cs.dropWhile p).length ≤ cs.length :=
  (List.dropWhile_suffix p).length_le

set_option linter.unusedVariables false in
/-- Lexes the characters `cs`, whose first one stands at position `col`. -/
def lexFrom (col : Nat) (cs : List Char) : List Lexeme :=
  match h : cs.dropWhile isSpacing with
  | [] => []
  | c :: rest =>
    let start := col + (cs.takeWhile isSpacing).length
    if c == ':' then ⟨⟨start, start + 1⟩, .preSep⟩ :: lexFrom (start + 1) rest
    else if c == ';' then ⟨⟨start, start + 1⟩, .subSep⟩ :: lexFrom (start + 1) rest
    else
      let word := (c :: rest.takeWhile inWord).map Char.toUpper
      match beforeRemark word with
      | some kept =>
        if kept.isEmpty then [] else [⟨⟨start, start + kept.length⟩, classify (String.ofList kept)⟩]
      | none =>
        ⟨⟨start, start + word.length⟩, classify (String.ofList word)⟩ ::
          lexFrom (start + word.length) (rest.dropWhile inWord)
termination_by cs.length
decreasing_by
  all_goals
    have hl := length_dropWhile_le isSpacing cs
    rw [h] at hl
    simp only [List.length_cons] at hl
  · omega
  · omega
  · have := length_dropWhile_le inWord rest
    omega

end TriggerScript.Lexer

namespace TriggerScript

/-- The tokens of a line, with spans counted in characters from zero. -/
def lex (s : String) : List Lexeme :=
  Lexer.lexFrom 0 s.toList

end TriggerScript
