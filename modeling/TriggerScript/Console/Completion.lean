import TriggerScript.Machine.Scene
import TriggerScript.Text.Unsigned
/-!
Typing a console line, with the tab key completing script lines.

A line is typed character by character onto the end of a buffer. A tab asks for a
completion of the word before the cursor, which starts after the last word-break
character. The only completion offered is for a buffer of exactly three blank-separated
words, `:edit S N`, naming a line that exists: the word is replaced by `N` and the line's
current text, so the line can be edited in place. Otherwise the tab does nothing.

Scripts are named `1` to `8`, `M` and `I`, lines `1` to `6`, as the console's commands
name them.
-/

set_option autoImplicit false
set_option relaxedAutoImplicit false

namespace TriggerScript

namespace Console

/-- The script a command names: `1` to `8`, `M` or `I` in either case. -/
def scriptNumber (s : String) : Except Error Nat :=
  match Text.upperAscii s with
  | "M" => .ok Scene.metroScript
  | "I" => .ok Scene.initScript
  | n =>
    match Text.readUnsigned Text.wordBound n with
    | .ok k => if 1 ≤ k ∧ k ≤ Scene.triggerCount then .ok (k - 1) else .error (.bare .noSuchScript)
    | .error _ => .error (.bare .noSuchScript)

/-- The line a command names, `1` to `6`. -/
def lineNumber (s : String) : Except Error Nat :=
  match Text.readUnsigned Text.wordBound s with
  | .ok k => if 1 ≤ k ∧ k ≤ Script.maxLines then .ok (k - 1) else .error (.bare .noSuchLine)
  | .error _ => .error (.bare .noSuchLine)

def wordBreaks : List Char :=
  [' ', '\t', '\n', '\x22', '\\', '\x27', '\x60', '@', '$', '>', '<', '=', ';', '|', '&',
    '\x7b', '(']

def wordStart (buffer : List Char) : Nat :=
  match buffer.reverse.findIdx? (wordBreaks.contains ·) with
  | some k => buffer.length - k
  | none => 0

def blankWords (buffer : List Char) : List String :=
  (buffer.splitBy fun a b => Text.isBlank a == Text.isBlank b).filterMap fun w =>
    if w.all Text.isBlank then none else some (String.ofList w)

/-- The completion of `:edit S N`: `N` followed by the current text of that line. -/
def completion (s : Scene) (buffer : List Char) : Option String :=
  match blankWords buffer with
  | [cmd, script, line] =>
    if Text.upperAscii cmd != ":EDIT" then none
    else
      match scriptNumber script, lineNumber line with
      | .ok sc, .ok n => do
        let target ← s.scripts[sc]?
        let l ← target.lines[n]?
        some (line ++ " " ++ l.text)
      | _, _ => none
  | _ => none

/-- The buffer after the tab key: the word before the cursor replaced by the completion,
or unchanged. -/
def complete (s : Scene) (buffer : List Char) : List Char :=
  match completion s buffer with
  | some c => buffer.take (wordStart buffer) ++ c.toList
  | none => buffer

/-- The buffer after typing `keys` onto it. -/
def typeOnto (s : Scene) : List Char → List Char → List Char
  | buffer, [] => buffer
  | buffer, '\t' :: rest => typeOnto s (complete s buffer) rest
  | buffer, c :: rest => typeOnto s (buffer ++ [c]) rest

/-- The line that typing `keys` enters. -/
def typeLine (s : Scene) (keys : String) : String := String.ofList (typeOnto s [] keys.toList)

theorem typeOnto_of_no_tab (s : Scene) :
    ∀ (keys buffer : List Char), '\t' ∉ keys → typeOnto s buffer keys = buffer ++ keys
  | [], buffer, _ => by simp [typeOnto]
  | c :: rest, buffer, h => by
    have hc : c ≠ '\t' := fun e => h (e ▸ List.mem_cons_self)
    have hr : '\t' ∉ rest := fun m => h (List.mem_cons_of_mem c m)
    rw [typeOnto.eq_3 s buffer c rest hc, typeOnto_of_no_tab s rest (buffer ++ [c]) hr]
    simp

end Console

end TriggerScript
