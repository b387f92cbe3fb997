import TriggerScript.Language.Line
/-!
Scripts: up to six lines each, and the counters behind `EVERY`, `SKIP` and `OTHER`.

Editing a line replaces it, or appends when the position is one past the last line;
inserting moves later lines down and is refused when the script is full. A counter fires
on every `n`th tick, with `n` held at one or more.
-/

set_option autoImplicit false
set_option relaxedAutoImplicit false

namespace TriggerScript

/-- The lines of one script, in order. -/
structure Script where
  lines : List Line
  deriving DecidableEq, Repr, Inhabited

namespace Script

/-- The most lines a script holds. -/
def maxLines : Nat := 6

/-- The script with no lines. -/
def empty : Script := ⟨[]⟩

def size (s : Script) : Nat := s.lines.length

/-- Whether the script has no lines. -/
def isEmpty (s : Script) : Bool := s.lines.isEmpty

/-- Inserts a line at position `n`, at most one past the last line. -/
def insertLine (s : Script) (n : Nat) (l : Line) : Except Error Script :=
  if n > s.lines.length then .error (.bare .noSuchLine)
  else if s.lines.length ≥ maxLines then .error (.bare .scriptFull)
  else .ok ⟨s.lines.insertIdx n l⟩

/-- Replaces line `n`, or appends when `n` is one past the last line. -/
def setLine (s : Script) (n : Nat) (l : Line) : Except Error Script :=
  if n < s.lines.length then .ok ⟨s.lines.set n l⟩
  else if n = s.lines.length then s.insertLine n l
  else .error (.bare .noSuchLine)

/-- Removes line `n`. -/
def deleteLine (s : Script) (n : Nat) : Except Error Script :=
  if n < s.lines.length then .ok ⟨s.lines.eraseIdx n⟩ else .error (.bare .noSuchLine)

end Script

/-- Advances an `EVERY` counter for period `n`: the new count, and whether it fired. -/
def everyTick (count : Nat) (n : Int16) : Nat × Bool :=
  let period := max 1 n.toInt
  let next := count + 1
  if (next : Int) ≥ period then (0, true) else (next, false)

end TriggerScript
