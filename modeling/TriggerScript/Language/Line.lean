import TriggerScript.Language.Command.Parser
import TriggerScript.Text.Blank
/-!
Lines: the text of one script line together with its compiled command.

A line's text is its source trimmed of blanks and upper-cased. It is checked first: every
character must be printable ASCII and the text at most 64 characters long. A line that
fails the check or does not parse keeps its text, compiles to `nop` and holds the error,
so a script can hold lines that do nothing until they are mended.
-/

set_option autoImplicit false
set_option relaxedAutoImplicit false

namespace TriggerScript

/-- One script line: its canonical text, its command, and the error that kept it from
compiling, if any. -/
structure Line where
  text : String
  command : Command
  error : Option Error
  deriving DecidableEq, Repr, Inhabited

namespace Line

def maxLength : Nat := 64

/-- Whether a character may stand in a stored line: printable ASCII. -/
def isPrintable (c : Char) : Bool := ' ' ≤ c && c ≤ '~'

/-- The check a line's text must pass before it is parsed: the first character that is
not printable ASCII is refused, then a text longer than `maxLength` bytes. -/
def check (text : String) : Except Error Unit :=
  match text.toList.findIdx? (fun c => !isPrintable c) with
  | some pos => .error (.spanned .invalidCharacter (Span.at pos))
  | none =>
    if text.utf8ByteSize > maxLength then
      .error (.spanned .lineTooLong ⟨maxLength, text.utf8ByteSize⟩)
    else .ok ()

def ofText (s : String) : Line :=
  let text := Text.upperAscii (Text.trim s)
  match check text >>= fun _ => Command.parse text with
  | .ok command => { text, command, error := none }
  | .error e => { text, command := .nop, error := some e }

def empty : Line := ofText ""

/-- Whether the line has no text. -/
def isEmpty (l : Line) : Bool := l.text.isEmpty

/-- Whether the line can be written to a scene record: its text passes the check. -/
def isStorable (l : Line) : Bool :=
  match check l.text with
  | .ok _ => true
  | .error _ => false

end Line

end TriggerScript
