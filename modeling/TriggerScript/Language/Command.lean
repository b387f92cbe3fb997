import TriggerScript.Language.Token
/-!
Commands: the compiled form of a line, and its printed text.

An operator node holds exactly as many operands as the operator's arity; a setter holds
one value more. A modifier node holds the modifier's operands and its body. The printed
text uses canonical names, joins operands with single spaces, writes a modifier as
`MOD args: body`, joins the parts of a sequence with `; `, and prints `nop` as nothing.
-/

set_option autoImplicit false
set_option relaxedAutoImplicit false

namespace TriggerScript

inductive Command
  /-- An empty line. -/
  | nop
  | literal (n : Int16)
  | var (v : Variable)
  /-- An operator in its getter form. -/
  | op (o : Operator) (args : List Command)
  /-- An operator in its setter form, with the value written. -/
  | set (o : Operator) (args : List Command) (value : Command)
  /-- A value written to a variable. -/
  | store (v : Variable) (value : Command)
  /-- A modifier, its operands and the body it governs. -/
  | modified (m : Modifier) (args : List Command) (body : Command)
  /-- Commands separated by `;`, at least two. -/
  | seq (parts : List Command)
  deriving Repr, Inhabited

namespace Command

mutual

/-- Equality of commands is decided constructor by constructor, and through operand lists
by `decEqList`. -/
def decEq : (a b : Command) → Decidable (a = b)
  | .nop, .nop => .isTrue rfl
  | .literal n, .literal m =>
    if h : n = m then .isTrue (by rw [h]) else .isFalse (by simp [h])
  | .var v, .var w =>
    if h : v = w then .isTrue (by rw [h]) else .isFalse (by simp [h])
  | .op o xs, .op p ys =>
    if h : o = p then
      match decEqList xs ys with
      | .isTrue hs => .isTrue (by rw [h, hs])
      | .isFalse hs => .isFalse (by simp [hs])
    else .isFalse (by simp [h])
  | .set o xs x, .set p ys y =>
    if h : o = p then
      match decEqList xs ys, decEq x y with
      | .isTrue hs, .isTrue hv => .isTrue (by rw [h, hs, hv])
      | .isFalse hs, _ => .isFalse (by simp [hs])
      | _, .isFalse hv => .isFalse (by simp [hv])
    else .isFalse (by simp [h])
  | .store v x, .store w y =>
    if h : v = w then
      match decEq x y with
      | .isTrue hv => .isTrue (by rw [h, hv])
      | .isFalse hv => .isFalse (by simp [hv])
    else .isFalse (by simp [h])
  | .modified m xs x, .modified n ys y =>
    if h : m = n then
      match decEqList xs ys, decEq x y with
      | .isTrue hs, .isTrue hv => .isTrue (by rw [h, hs, hv])
      | .isFalse hs, _ => .isFalse (by simp [hs])
      | _, .isFalse hv => .isFalse (by simp [hv])
    else .isFalse (by simp [h])
  | .seq xs, .seq ys =>
    match decEqList xs ys with
    | .isTrue hs => .isTrue (by rw [hs])
    | .isFalse hs => .isFalse (by simp [hs])
  | .nop, .literal _ | .nop, .var _ | .nop, .op _ _ | .nop, .set _ _ _ | .nop, .store _ _
  | .nop, .modified _ _ _ | .nop, .seq _ | .literal _, .nop | .literal _, .var _
  | .literal _, .op _ _ | .literal _, .set _ _ _ | .literal _, .store _ _
  | .literal _, .modified _ _ _ | .literal _, .seq _ | .var _, .nop | .var _, .literal _
  | .var _, .op _ _ | .var _, .set _ _ _ | .var _, .store _ _ | .var _, .modified _ _ _
  | .var _, .seq _ | .op _ _, .nop | .op _ _, .literal _ | .op _ _, .var _ | .op _ _, .set _ _ _
  | .op _ _, .store _ _ | .op _ _, .modified _ _ _ | .op _ _, .seq _ | .set _ _ _, .nop
  | .set _ _ _, .literal _ | .set _ _ _, .var _ | .set _ _ _, .op _ _ | .set _ _ _, .store _ _
  | .set _ _ _, .modified _ _ _ | .set _ _ _, .seq _ | .store _ _, .nop | .store _ _, .literal _
  | .store _ _, .var _ | .store _ _, .op _ _ | .store _ _, .set _ _ _
  | .store _ _, .modified _ _ _ | .store _ _, .seq _ | .modified _ _ _, .nop
  | .modified _ _ _, .literal _ | .modified _ _ _, .var _ | .modified _ _ _, .op _ _
  | .modified _ _ _, .set _ _ _ | .modified _ _ _, .store _ _ | .modified _ _ _, .seq _
  | .seq _, .nop | .seq _, .literal _ | .seq _, .var _ | .seq _, .op _ _ | .seq _, .set _ _ _
  | .seq _, .store _ _ | .seq _, .modified _ _ _ =>
    .isFalse (by intro h; cases h)

def decEqList : (xs ys : List Command) → Decidable (xs = ys)
  | [], [] => .isTrue rfl
  | [], _ :: _ => .isFalse (by simp)
  | _ :: _, [] => .isFalse (by simp)
  | x :: xs, y :: ys =>
    match decEq x y, decEqList xs ys with
    | .isTrue h, .isTrue hs => .isTrue (by rw [h, hs])
    | .isFalse h, _ => .isFalse (by simp [h])
    | _, .isFalse hs => .isFalse (by simp [hs])

end

instance : DecidableEq Command := decEq

mutual

def render : Command → String
  | .nop => ""
  | .literal n => toString n
  | .var v => v.name
  | .op o args => o.name ++ renderOperands args
  | .set o args value => o.name ++ renderOperands args ++ " " ++ render value
  | .store v value => v.name ++ " " ++ render value
  | .modified m args body => m.name ++ renderOperands args ++ ": " ++ render body
  | .seq parts => renderParts parts

def renderOperands : List Command → String
  | [] => ""
  | c :: cs => " " ++ render c ++ renderOperands cs

/-- The parts of a sequence, joined by `; `. -/
def renderParts : List Command → String
  | [] => ""
  | [c] => render c
  | c :: cs => render c ++ "; " ++ renderParts cs

end

mutual

/-- Whether the command holds an operator that may not be deferred, as a getter or as a
setter, anywhere inside it. -/
def hasImmediate : Command → Bool
  | .nop | .literal _ | .var _ => false
  | .op o args => !o.deferrable || anyImmediate args
  | .set o args value => !o.deferrable || anyImmediate args || hasImmediate value
  | .store _ value => hasImmediate value
  | .modified _ args body => anyImmediate args || hasImmediate body
  | .seq parts => anyImmediate parts

/-- Whether any command of a list holds an operator that may not be deferred. -/
def anyImmediate : List Command → Bool
  | [] => false
  | c :: cs => hasImmediate c || anyImmediate cs

end

def isNop : Command → Bool
  | .nop => true
  | _ => false

end Command

end TriggerScript
