import TriggerScript.Proofs.Grammar
import TriggerScript.Proofs.StoredState
/-!
The shape of a compiled line.

A modifier may only open a line: the grammar reads one at the head of a modifier line and
nowhere else, and the body of a deferring modifier holds no operator that cannot wait. So
every command a line compiles to is either free of modifiers, or a single modifier whose
operands and body are free of them, with no `BREAK` in the body when the modifier keeps it
for later (`Command.LineShaped`). Every line a scene stores has that shape
(`Line.Stored.lineShaped`).

The executor relies on this: the bodies it hands to the delay queue and the command stack,
and the operands and bodies it runs in place, never hold a modifier of their own.
-/

set_option autoImplicit false
set_option relaxedAutoImplicit false

namespace TriggerScript

namespace Command

mutual

def hasModifier : Command → Bool
  | .nop | .literal _ | .var _ => false
  | .op _ args => anyModifier args
  | .set _ args value => anyModifier args || hasModifier value
  | .store _ value => hasModifier value
  | .modified _ _ _ => true
  | .seq parts => anyModifier parts

def anyModifier : List Command → Bool
  | [] => false
  | c :: cs => hasModifier c || anyModifier cs

end

theorem anyModifier_eq_false_iff {cs : List Command} :
    anyModifier cs = false ↔ ∀ c ∈ cs, c.hasModifier = false := by
  induction cs with
  | nil => simp [anyModifier]
  | cons c cs ih => simp [anyModifier, ih]

theorem hasModifier_of_mem {c : Command} {cs : List Command} (hcs : anyModifier cs = false)
    (h : c ∈ cs) : c.hasModifier = false :=
  anyModifier_eq_false_iff.mp hcs c h

theorem anyModifier_take {cs : List Command} (hcs : anyModifier cs = false) (n : Nat) :
    anyModifier (cs.take n) = false :=
  anyModifier_eq_false_iff.mpr fun _ h => hasModifier_of_mem hcs (List.mem_of_mem_take h)

theorem hasModifier_headD {cs : List Command} (hcs : anyModifier cs = false) :
    (cs.headD .nop).hasModifier = false := by
  cases cs with
  | nil => rfl
  | cons c cs => exact hasModifier_of_mem hcs List.mem_cons_self

theorem hasModifier_of_getElem? {cs : List Command} {n : Nat} {c : Command}
    (hcs : anyModifier cs = false) (h : cs[n]? = some c) : c.hasModifier = false :=
  hasModifier_of_mem hcs (List.mem_of_getElem? h)

/-- The shape of a compiled line: no modifier at all, or one modifier at its head whose
operands and body hold none, the body of a deferring modifier holding no `BREAK`. -/
inductive LineShaped : Command → Prop
  | plain {c : Command} (h : c.hasModifier = false) : LineShaped c
  | modified {m : Modifier} {args : List Command} {body : Command}
      (hargs : anyModifier args = false) (hbody : body.hasModifier = false)
      (hwait : m.defers = true → body.hasImmediate = false) :
      LineShaped (.modified m args body)

theorem lineShaped_nop : LineShaped .nop := .plain rfl

end Command

namespace Grammar

open Command

mutual

theorem Expression.hasModifier {ts rest : List Token} {c : Command} :
    Expression ts c rest → c.hasModifier = false
  | .literal _ => rfl
  | .var _ _ => rfl
  | .op h _ => h.anyModifier

theorem Operands.anyModifier {ts rest : List Token} {cs : List Command} :
    Operands ts cs rest → Command.anyModifier cs = false
  | .nil _ => rfl
  | .cons h hs => by simp only [Command.anyModifier, h.hasModifier, hs.anyModifier, Bool.or_self]

end

theorem Statement.hasModifier {ts rest : List Token} {c : Command} (h : Statement ts c rest) :
    c.hasModifier = false := by
  cases h with
  | set _ ha _ hv => simp only [Command.hasModifier, ha.anyModifier, hv.hasModifier, Bool.or_self]
  | store _ hv => exact hv.hasModifier
  | expr h => exact h.hasModifier

theorem Statements.anyModifier {ts rest : List Token} {cs : List Command}
    (h : Statements ts cs rest) : Command.anyModifier cs = false := by
  induction h with
  | one h => simp only [Command.anyModifier, h.hasModifier, Bool.or_self]
  | more h _ _ ih => simp only [Command.anyModifier, h.hasModifier, ih, Bool.or_self]

theorem CommandList.anyModifier {ts : List Token} {cs : List Command} (h : CommandList ts cs) :
    Command.anyModifier cs = false := by
  cases h with
  | none => rfl
  | some _ hs => exact hs.anyModifier

theorem hasModifier_sequence (cs : List Command) :
    (sequence cs).hasModifier = Command.anyModifier cs := by
  rcases cs with _ | ⟨c, _ | ⟨c', cs⟩⟩
  · rfl
  · simp [sequence, Command.anyModifier]
  · simp [sequence, Command.hasModifier]

theorem Derives.lineShaped {ts : List Token} {c : Command} (h : Derives ts c) : c.LineShaped := by
  cases h with
  | plain h => exact .plain (by rw [hasModifier_sequence]; exact h.anyModifier)
  | modified ha _ hb hd =>
    refine .modified ha.anyModifier (by rw [hasModifier_sequence]; exact hb.anyModifier) ?_
    exact fun hm => hb.deferrable_iff.mp (hd hm)

end Grammar

open Grammar in
theorem Command.lineShaped_of_parse {s : String} {c : Command} (h : Command.parse s = .ok c) :
    c.LineShaped :=
  (ofLexemes_sound h).lineShaped

namespace Line

theorem lineShaped_ofText (s : String) : (ofText s).command.LineShaped := by
  unfold ofText
  dsimp only
  split
  · rename_i c hc
    cases hcheck : check (Text.upperAscii (Text.trim s)) with
    | error e => rw [hcheck] at hc; cases hc
    | ok u => rw [hcheck] at hc; exact Command.lineShaped_of_parse hc
  · exact Command.lineShaped_nop

theorem Stored.lineShaped {l : Line} (h : l.Stored) : l.command.LineShaped := by
  rw [← h.1]
  exact lineShaped_ofText l.text

end Line

theorem Scene.Stored.lineShaped {s : Scene} (h : s.Stored) :
    ∀ sc ∈ s.scripts, ∀ l ∈ sc.lines, l.command.LineShaped :=
  fun sc hsc l hl => ((h.scripts sc hsc).lines l hl).lineShaped

end TriggerScript
