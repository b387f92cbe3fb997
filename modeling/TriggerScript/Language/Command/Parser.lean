import TriggerScript.Language.Command
import TriggerScript.Language.Token.Lexer
/-!
The parser: a lexed line to a command.

A line is empty, or a sequence of commands separated by `;`, or a modifier with its
operands, the pre-separator `:` and such a sequence as its body. A command is a setter
(a settable operator, its operands and one value more), a store (a writable variable and
a value), or an expression. An expression is a literal, a variable, or an operator
followed by as many expressions as its arity.

Errors name the lexeme at fault. Reading a lexeme moves the parser's position to it, and
looking ahead does not, so an error found at the end of the line names the last lexeme
read. Every read consumes at least one lexeme, which is what makes the recursion end.
-/

set_option autoImplicit false
set_option relaxedAutoImplicit false

namespace TriggerScript.Grammar

/-- Whether the next lexeme ends an operand list: the end of the line or a separator. -/
def atEnd : List Lexeme → Bool
  | [] => true
  | l :: _ => l.token == .subSep || l.token == .preSep

/-- A read that consumed at least one lexeme: the value, the span of the last lexeme read,
and the lexemes left. -/
abbrev Read (ts : List Lexeme) (α : Type) :=
  Except Error (α × Span × {r : List Lexeme // r.length < ts.length})

abbrev ReadAny (ts : List Lexeme) (α : Type) :=
  Except Error (α × Span × {r : List Lexeme // r.length ≤ ts.length})

/-- The error for an operator or modifier that lacks operands: it names the word at the
span where it stands. -/
def shortfall (span : Span) (word : String) : Error :=
  { code := .needParams, span, detail := word }

mutual

/-- One expression: a literal, a variable, or an operator and its operands. -/
def expression (last : Span) : (ts : List Lexeme) → Read ts Command
  | [] => .error (.spanned .needParams last)
  | l :: r =>
    match l.token with
    | .literal lit =>
      match lit.value with
      | .ok n => .ok (.literal n, l.span, ⟨r, by simp⟩)
      | .error e => .error { e with span := l.span }
    | .var v => .ok (.var v, l.span, ⟨r, by simp⟩)
    | .op o =>
      match operands (shortfall l.span o.name) o.arity l.span r with
      | .error e => .error e
      | .ok (args, last', ⟨r', h⟩) => .ok (.op o args, last', ⟨r', by simp; omega⟩)
    | .unknown s => .error { code := .unknownOperator, span := l.span, detail := s }
    | .modifier _ => .error (.spanned .noModHere l.span)
    | .preSep => .error (.spanned .placePreSep l.span)
    | .subSep => .error (.spanned .needParams l.span)
termination_by ts => 2 * ts.length
decreasing_by
  all_goals simp only [List.length_cons]
  all_goals omega

/-- `n` expressions in a row; at the end of the line or at a separator this fails with
`missing`. -/
def operands (missing : Error) (n : Nat) (last : Span) (ts : List Lexeme) :
    ReadAny ts (List Command) :=
  match n with
  | 0 => .ok ([], last, ⟨ts, Nat.le_refl _⟩)
  | k + 1 =>
    if atEnd ts then .error missing
    else
      match expression last ts with
      | .error e => .error e
      | .ok (c, last', ⟨r, h⟩) =>
        match operands missing k last' r with
        | .error e => .error e
        | .ok (cs, last'', ⟨r', h'⟩) => .ok (c :: cs, last'', ⟨r', by omega⟩)
termination_by 2 * ts.length + 1
decreasing_by
  all_goals omega

end

/-- A command before what must follow it: a setter, a store, or an expression. -/
def commandBody (last : Span) : (ts : List Lexeme) → Read ts Command
  | [] => expression last []
  | l :: r =>
    match l.token with
    | .op o =>
      if o.settable then
        match operands (shortfall l.span o.name) o.arity l.span r with
        | .error e => .error e
        | .ok (args, last', ⟨r', h⟩) =>
          if atEnd r' then .ok (.op o args, last', ⟨r', by simp; omega⟩)
          else
            match expression last' r' with
            | .error e => .error e
            | .ok (value, last'', ⟨r'', h'⟩) =>
              .ok (.set o args value, last'', ⟨r'', by simp; omega⟩)
      else expression last (l :: r)
    | .var v =>
      if atEnd r then .ok (.var v, l.span, ⟨r, by simp⟩)
      else if v.readOnly then .error { code := .readOnly, span := l.span, detail := v.name }
      else
        match expression l.span r with
        | .error e => .error e
        | .ok (value, last', ⟨r', h⟩) => .ok (.store v value, last', ⟨r', by simp; omega⟩)
    | _ => expression last (l :: r)

/-- A command, and the `;` or end of line after it, which is read too. -/
def command (last : Span) (ts : List Lexeme) : Read ts Command :=
  match commandBody last ts with
  | .error e => .error e
  | .ok (c, last', ⟨r, h⟩) =>
    match r with
    | [] => .ok (c, last', ⟨[], h⟩)
    | l :: r2 =>
      match l.token with
      | .subSep => .ok (c, l.span, ⟨r2, by simp at h; omega⟩)
      | .preSep => .error (.spanned .placePreSep l.span)
      | .modifier _ => .error (.spanned .noModHere l.span)
      | _ => .error (.spanned .extraParams l.span)

/-- Commands up to the end of the line; empty commands between separators are skipped. -/
def commandList (last : Span) (ts : List Lexeme) : Except Error (List Command) :=
  match ts with
  | [] => .ok []
  | l :: r =>
    if l.token == .subSep then commandList l.span r
    else
      match command last (l :: r) with
      | .error e => .error e
      | .ok (c, last', ⟨r', _⟩) => (commandList last' r').map (c :: ·)
termination_by ts.length
decreasing_by
  all_goals simp only [List.length_cons]
  all_goals omega

/-- The commands of a line as one command: none is `nop`, one is itself, more are a
sequence. -/
def sequence : List Command → Command
  | [] => .nop
  | [c] => c
  | cs => .seq cs

/-- A modifier line after the modifier itself: its operands, the `:`, and its body. A
deferring modifier's body may not hold `BREAK`. -/
def modifierLine (m : Modifier) (span : Span) (r : List Lexeme) : Except Error Command :=
  match operands (shortfall span m.name) m.arity span r with
  | .error e => .error e
  | .ok (args, last, ⟨r', _⟩) =>
    match r' with
    | [] => .error (.spanned .extraParams last)
    | l :: body =>
      match l.token with
      | .preSep =>
        match commandList l.span body with
        | .error e => .error e
        | .ok cs =>
          if m.defers && (sequence cs).hasImmediate then
            .error { code := .notDeferrable, span, detail := m.name }
          else .ok (.modified m args (sequence cs))
      | .modifier _ => .error (.spanned .noModHere l.span)
      | _ => .error (.spanned .extraParams l.span)

end TriggerScript.Grammar

namespace TriggerScript

open Grammar in
/-- The command of a lexed line. A second `:` is refused before anything else is read; a
line that starts with a modifier needs a `:`, and one that starts with `:` has no
modifier. -/
def Command.ofLexemes (ts : List Lexeme) : Except Error Command :=
  match ts.filter (·.token == .preSep) with
  | _ :: second :: _ => .error (.spanned .manyPreSep second.span)
  | seps =>
    match ts with
    | [] => .ok .nop
    | l :: r =>
      match l.token with
      | .modifier m =>
        if seps.isEmpty then .error { code := .needPreSep, span := l.span, detail := m.name }
        else modifierLine m l.span r
      | .preSep => .error (.spanned .placePreSep l.span)
      | _ => (commandList Span.none ts).map sequence

def Command.parse (s : String) : Except Error Command :=
  Command.ofLexemes (lex s)

end TriggerScript
