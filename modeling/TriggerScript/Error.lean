/-!
Errors of the script language and of everything that runs it.

An error is a cause (`ErrorCode`), the span of characters it concerns and a short detail
text. `Error.render` is the one place that turns an error into the words a user reads:
the code's text, then the span and the detail, joined by the word `IN` when either is
present.
-/

set_option autoImplicit false
set_option relaxedAutoImplicit false

namespace TriggerScript

/-- A half-open range of character positions within one line. -/
structure Span where
  start : Nat
  stop : Nat
  deriving DecidableEq, Repr, Inhabited

/-- The span that marks "no position"; it is not printed. -/
def Span.none : Span := ⟨0, 0⟩

/-- The span of the single character at position `pos`. -/
def Span.at (pos : Nat) : Span := ⟨pos, pos + 1⟩

/-- Causes of failure. The first group are syntax errors of one line, the rest arise
while editing, running, storing or loading a scene. -/
inductive ErrorCode
  | unknownOperator | needParams | extraParams | noModHere | manyPreSep | needPreSep
  | placePreSep | readOnly | notDeferrable | overflow | lineTooLong | invalidCharacter
  | scriptFull | noSuchLine | noSuchScript | recursionLimit | delayQueueFull | stackFull
  | unknownVersion | corrupt | invalidSlot | emptySlot | storageFailure
  deriving DecidableEq, Repr, Inhabited

def ErrorCode.text : ErrorCode → String
  | .unknownOperator => "UNKNOWN OPERATOR"
  | .needParams => "NEED MORE PARAMETERS"
  | .extraParams => "EXTRA PARAMETERS"
  | .noModHere => "MOD NOT ALLOWED HERE"
  | .manyPreSep => "ONLY ONE PRE SEPARATOR"
  | .needPreSep => "MOD REQUIRES PRE SEPARATOR"
  | .placePreSep => "PRE SEPARATOR WITHOUT MOD"
  | .readOnly => "READ ONLY"
  | .notDeferrable => "NOT DEFERRABLE"
  | .overflow => "OVERFLOW"
  | .lineTooLong => "LINE TOO LONG"
  | .invalidCharacter => "INVALID CHARACTER"
  | .scriptFull => "SCRIPT FULL"
  | .noSuchLine => "NO SUCH LINE"
  | .noSuchScript => "NO SUCH SCRIPT"
  | .recursionLimit => "RECURSION LIMIT"
  | .delayQueueFull => "DELAY QUEUE FULL"
  | .stackFull => "STACK FULL"
  | .unknownVersion => "UNKNOWN VERSION"
  | .corrupt => "CORRUPT SCENE"
  | .invalidSlot => "INVALID SLOT"
  | .emptySlot => "EMPTY SLOT"
  | .storageFailure => "STORAGE FAILURE"

/-- An error: its cause, the characters it concerns and a detail text. -/
structure Error where
  code : ErrorCode
  span : Span := Span.none
  detail : String := ""
  deriving DecidableEq, Repr, Inhabited

/-- An error with a cause only. -/
def Error.bare (code : ErrorCode) : Error := { code }

def Error.spanned (code : ErrorCode) (span : Span) : Error := { code, span }

def Error.detailed (code : ErrorCode) (detail : String) : Error := { code, detail }

/-- The text after the code's words: the span unless it is `0..0`, then the detail
unless it is empty. -/
def Error.suffix (e : Error) : String :=
  let place := if e.span = Span.none then "" else s!" ({e.span.start}..{e.span.stop})"
  let what := if e.detail.isEmpty then "" else "; " ++ e.detail
  place ++ what

/-- The text of an error: `CODE`, or `CODE IN` followed by its span and detail. -/
def Error.render (e : Error) : String :=
  if e.suffix.isEmpty then e.code.text else e.code.text ++ " IN" ++ e.suffix

/-- The debugging form of an error, which wraps its text. -/
def Error.debugText (e : Error) : String :=
  "Error \x7b " ++ e.render ++ " \x7d"

theorem Error.render_bare (code : ErrorCode) : (Error.bare code).render = code.text := by
  simp [Error.render, Error.suffix, Error.bare, Span.none]

end TriggerScript
