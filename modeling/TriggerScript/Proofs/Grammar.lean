import TriggerScript.Language.Command.Parser
/-!
The grammar of a line, and what the parser accepts.

A line is a list of commands separated by `;`, or a modifier with its operands, the
pre-separator `:` and such a list as its body:

    line  ::= cmds | Mod e^arity ':' cmds
    cmds  ::= ';'* [cmd (';'+ cmd)*] ';'*
    cmd   ::= SettableOp e^arity e | WritableVar e | e
    e     ::= Literal | Var | Op e^arity

A literal's value must fit, and the body of a deferring modifier may hold no operator that
cannot wait (`BREAK`). The grammar is written here as relations between a list of tokens, the
tree it derives and the tokens that follow (`Expression ts c rest`), so that one part of a line
follows another without splitting lists.

The parser accepts exactly the lines the grammar derives, and returns the tree derived
(`parses_iff_derives`): what it reads it reads by the grammar (`expression_sound`,
`commandList_sound`, …), and what the grammar derives it reads in full (`expression_complete`,
`commandList_complete`, …). A line has one derivation tree at most.
-/

set_option autoImplicit false
set_option relaxedAutoImplicit false

namespace TriggerScript

/-- Whether the token may begin an expression: a literal, a variable or an operator. -/
def Token.beginsExpression : Token → Bool
  | .literal _ | .var _ | .op _ => true
  | _ => false

/-- Whether the token may stand in a body that is kept for later: any token but an operator
that cannot wait. -/
def Token.deferrable : Token → Bool
  | .op o => o.deferrable
  | _ => true

namespace Grammar

/-- The tokens of lexemes, spans left out. -/
def tokens (ls : List Lexeme) : List Token := ls.map Lexeme.token

@[simp] theorem tokens_nil : tokens [] = [] := rfl

@[simp] theorem tokens_cons (l : Lexeme) (ls : List Lexeme) :
    tokens (l :: ls) = l.token :: tokens ls := rfl

theorem tokens_eq_nil {ts : List Lexeme} (h : tokens ts = []) : ts = [] :=
  List.map_eq_nil_iff.mp h

theorem tokens_eq_cons {ts : List Lexeme} {t : Token} {x : List Token} (h : tokens ts = t :: x) :
    ∃ l r, ts = l :: r ∧ l.token = t ∧ tokens r = x := by
  cases ts with
  | nil => cases h
  | cons l r =>
    simp only [tokens_cons, List.cons.injEq] at h
    exact ⟨l, r, rfl, h.1, h.2⟩

/-- Whether a command ends before these tokens: at the end of the line or at a separator. -/
def closes : List Token → Bool
  | [] => true
  | t :: _ => t == .subSep || t == .preSep

theorem atEnd_eq_closes (ts : List Lexeme) : atEnd ts = closes (tokens ts) := by
  cases ts <;> rfl

theorem closes_cons_of_beginsExpression {t : Token} (x : List Token) (h : t.beginsExpression) :
    closes (t :: x) = false := by
  cases t <;> simp_all [Token.beginsExpression, closes]

mutual

/-- `Expression ts c rest`: the tokens `ts` begin with the expression `c`, and `rest` follows
it. An expression is a literal whose value fits, a variable, or an operator and as many
expressions as its arity. -/
inductive Expression : List Token → Command → List Token → Prop
  | literal {l : Literal} {n : Int16} {rest : List Token} (h : l.value = .ok n) :
      Expression (.literal l :: rest) (.literal n) rest
  | var (v : Variable) (rest : List Token) : Expression (.var v :: rest) (.var v) rest
  | op {o : Operator} {ts rest : List Token} {args : List Command}
      (h : Operands ts args rest) (hn : args.length = o.arity) :
      Expression (.op o :: ts) (.op o args) rest

/-- `Operands ts cs rest`: the tokens `ts` begin with the expressions `cs`, one after
another, and `rest` follows them. -/
inductive Operands : List Token → List Command → List Token → Prop
  | nil (rest : List Token) : Operands rest [] rest
  | cons {ts mid rest : List Token} {c : Command} {cs : List Command}
      (h : Expression ts c mid) (hs : Operands mid cs rest) : Operands ts (c :: cs) rest

end

/-- `Statement ts c rest`: the tokens `ts` begin with the command `c`, and `rest` follows it.
A settable operator with its operands and one value more is a setter, and a variable that
may be written with a value is a store. Any other command is an expression, which is also
how a settable operator without its value, and a variable alone, are read. -/
inductive Statement : List Token → Command → List Token → Prop
  | set {o : Operator} {ts mid rest : List Token} {args : List Command} {value : Command}
      (hs : o.settable = true) (ha : Operands ts args mid) (hn : args.length = o.arity)
      (hv : Expression mid value rest) : Statement (.op o :: ts) (.set o args value) rest
  | store {v : Variable} {ts rest : List Token} {value : Command} (hw : v.readOnly = false)
      (hv : Expression ts value rest) : Statement (.var v :: ts) (.store v value) rest
  | expr {ts rest : List Token} {c : Command} (h : Expression ts c rest) : Statement ts c rest

/-- `Separators ts rest`: the tokens `ts` begin with separators `;`, none or more, and `rest`
follows them. -/
inductive Separators : List Token → List Token → Prop
  | nil (rest : List Token) : Separators rest rest
  | cons {ts rest : List Token} (h : Separators ts rest) : Separators (.subSep :: ts) rest

/-- `Statements ts cs rest`: the tokens `ts` begin with the commands `cs`, at least one, each
two apart by one separator or more, and `rest` follows them: `cmd (';'+ cmd)*`. -/
inductive Statements : List Token → List Command → List Token → Prop
  | one {ts rest : List Token} {c : Command} (h : Statement ts c rest) : Statements ts [c] rest
  | more {ts mid mid' rest : List Token} {c : Command} {cs : List Command}
      (h : Statement ts c (.subSep :: mid)) (hs : Separators mid mid')
      (ht : Statements mid' cs rest) : Statements ts (c :: cs) rest

/-- `CommandList ts cs`: the tokens `ts`, to the end of the line, are the commands `cs` with
separators between them and, as many as there are, before and after them:
`';'* [cmd (';'+ cmd)*] ';'*`. -/
inductive CommandList : List Token → List Command → Prop
  | none {ts : List Token} (h : Separators ts []) : CommandList ts []
  | some {ts mid mid' : List Token} {cs : List Command} (h : Separators ts mid)
      (hs : Statements mid cs mid') (ht : Separators mid' []) : CommandList ts cs

/-- `Derives ts c`: the tokens `ts` are a line whose tree is `c`. A plain line is its list of
commands as one command; a modifier line is the modifier, its operands, `:` and its body, and
the body of a deferring modifier holds no operator that cannot wait. -/
inductive Derives : List Token → Command → Prop
  | plain {ts : List Token} {cs : List Command} (h : CommandList ts cs) : Derives ts (sequence cs)
  | modified {m : Modifier} {ts mid : List Token} {args cs : List Command}
      (ha : Operands ts args (.preSep :: mid)) (hn : args.length = m.arity)
      (hb : CommandList mid cs) (hd : m.defers = true → ∀ o, .op o ∈ mid → o.deferrable = true) :
      Derives (.modifier m :: ts) (.modified m args (sequence cs))

/-! ## What a derivation consumes -/

theorem Expression.head {ts rest : List Token} {c : Command} (h : Expression ts c rest) :
    ∃ t x, ts = t :: x ∧ t.beginsExpression := by
  cases h <;> exact ⟨_, _, rfl, rfl⟩

theorem Statement.head {ts rest : List Token} {c : Command} (h : Statement ts c rest) :
    ∃ t x, ts = t :: x ∧ t.beginsExpression := by
  cases h with
  | set => exact ⟨_, _, rfl, rfl⟩
  | store => exact ⟨_, _, rfl, rfl⟩
  | expr h => exact h.head

theorem Statements.head {ts rest : List Token} {cs : List Command} (h : Statements ts cs rest) :
    ∃ t x, ts = t :: x ∧ t.beginsExpression := by
  cases h with
  | one h => exact h.head
  | more h => exact h.head

mutual

theorem Expression.count_preSep {ts rest : List Token} {c : Command} :
    Expression ts c rest → ts.count .preSep = rest.count .preSep
  | .literal _ => by simp
  | .var _ _ => by simp
  | .op h _ => by simpa using h.count_preSep

theorem Operands.count_preSep {ts rest : List Token} {cs : List Command} :
    Operands ts cs rest → ts.count .preSep = rest.count .preSep
  | .nil _ => rfl
  | .cons h hs => h.count_preSep.trans hs.count_preSep

end

theorem Statement.count_preSep {ts rest : List Token} {c : Command} (h : Statement ts c rest) :
    ts.count .preSep = rest.count .preSep := by
  cases h with
  | set _ ha _ hv => simpa using ha.count_preSep.trans hv.count_preSep
  | store _ hv => simpa using hv.count_preSep
  | expr h => exact h.count_preSep

theorem Separators.count_preSep {ts rest : List Token} (h : Separators ts rest) :
    ts.count .preSep = rest.count .preSep := by
  induction h with
  | nil => rfl
  | cons _ ih => simpa using ih

theorem Statements.count_preSep {ts rest : List Token} {cs : List Command}
    (h : Statements ts cs rest) : ts.count .preSep = rest.count .preSep := by
  induction h with
  | one h => exact h.count_preSep
  | more h hs _ ih => simpa [h.count_preSep, hs.count_preSep] using ih

theorem CommandList.count_preSep {ts : List Token} {cs : List Command} (h : CommandList ts cs) :
    ts.count .preSep = 0 := by
  cases h with
  | none h => simpa using h.count_preSep
  | some h hs ht => simp [h.count_preSep, hs.count_preSep, ht.count_preSep]

theorem CommandList.head {ts : List Token} {cs : List Command} (h : CommandList ts cs)
    {t : Token} {x : List Token} (hx : ts = t :: x) : t = .subSep ∨ t.beginsExpression := by
  cases h with
  | none h =>
    cases h with
    | nil => cases hx
    | cons => cases hx; exact .inl rfl
  | some h hs =>
    cases h with
    | nil =>
      obtain ⟨t', x', rfl, ht'⟩ := hs.head
      cases hx
      exact .inr ht'
    | cons => cases hx; exact .inl rfl

theorem Derives.count_preSep {ts : List Token} {c : Command} (h : Derives ts c) :
    ts.count .preSep = match ts with
      | .modifier _ :: _ => 1
      | _ => 0 := by
  cases h with
  | plain h =>
    rw [h.count_preSep]
    cases ts with
    | nil => rfl
    | cons t x =>
      rcases h.head rfl with rfl | ht
      · rfl
      · cases t <;> simp_all [Token.beginsExpression]
  | modified ha _ hb => simp [ha.count_preSep, hb.count_preSep]

theorem hasImmediate_sequence (cs : List Command) :
    (sequence cs).hasImmediate = Command.anyImmediate cs := by
  match cs with
  | [] => rfl
  | [c] => simp [sequence, Command.anyImmediate]
  | _ :: _ :: _ => simp [sequence, Command.hasImmediate]

/-! A command holds an operator that cannot wait exactly when one of the tokens it was read
from is such an operator. -/

mutual

theorem Expression.all_deferrable {ts rest : List Token} {c : Command} :
    Expression ts c rest → ts.all Token.deferrable = (!c.hasImmediate && rest.all Token.deferrable)
  | .literal _ => by simp [Command.hasImmediate, Token.deferrable]
  | .var _ _ => by simp [Command.hasImmediate, Token.deferrable]
  | .op h _ => by
    simp only [List.all_cons, Token.deferrable, h.all_deferrable, Command.hasImmediate]
    cases Operator.deferrable _ <;> simp

theorem Operands.all_deferrable {ts rest : List Token} {cs : List Command} :
    Operands ts cs rest →
      ts.all Token.deferrable = (!Command.anyImmediate cs && rest.all Token.deferrable)
  | .nil _ => by simp [Command.anyImmediate]
  | .cons h hs => by
    rw [h.all_deferrable, hs.all_deferrable, Command.anyImmediate, Bool.not_or, Bool.and_assoc]

end

theorem Statement.all_deferrable {ts rest : List Token} {c : Command} (h : Statement ts c rest) :
    ts.all Token.deferrable = (!c.hasImmediate && rest.all Token.deferrable) := by
  cases h with
  | set _ ha _ hv =>
    simp only [List.all_cons, Token.deferrable, ha.all_deferrable, hv.all_deferrable,
      Command.hasImmediate, Bool.not_or, Bool.not_not, Bool.and_assoc]
  | store _ hv => simp [Token.deferrable, hv.all_deferrable, Command.hasImmediate]
  | expr h => exact h.all_deferrable

theorem Separators.all_deferrable {ts rest : List Token} (h : Separators ts rest) :
    ts.all Token.deferrable = rest.all Token.deferrable := by
  induction h with
  | nil => rfl
  | cons _ ih => simpa [Token.deferrable] using ih

theorem Statements.all_deferrable {ts rest : List Token} {cs : List Command}
    (h : Statements ts cs rest) :
    ts.all Token.deferrable = (!Command.anyImmediate cs && rest.all Token.deferrable) := by
  induction h with
  | one h => simpa [Command.anyImmediate] using h.all_deferrable
  | more h hs _ ih =>
    rw [h.all_deferrable, List.all_cons, hs.all_deferrable, ih, Command.anyImmediate]
    simp [Token.deferrable, Bool.and_assoc]

theorem CommandList.all_deferrable {ts : List Token} {cs : List Command} (h : CommandList ts cs) :
    ts.all Token.deferrable = !(sequence cs).hasImmediate := by
  rw [hasImmediate_sequence]
  cases h with
  | none h => simp [h.all_deferrable, Command.anyImmediate]
  | some h hs ht => simp [h.all_deferrable, hs.all_deferrable, ht.all_deferrable]

theorem CommandList.deferrable_iff {ts : List Token} {cs : List Command} (h : CommandList ts cs) :
    (∀ o, .op o ∈ ts → o.deferrable = true) ↔ (sequence cs).hasImmediate = false := by
  rw [← Bool.not_eq_true', ← h.all_deferrable, List.all_eq_true]
  constructor
  · intro ho t ht
    cases t with
    | op o => exact ho o ht
    | _ => rfl
  · intro ht o ho
    exact ht _ ho

/-! ## What the parser reads, the grammar derives -/

theorem expression_operands_sound :
    (∀ last ts, ∀ c last' (r : {r : List Lexeme // r.length < ts.length}),
      expression last ts = .ok (c, last', r) → Expression (tokens ts) c (tokens r.1)) ∧
    (∀ missing n last ts, ∀ cs last' (r : {r : List Lexeme // r.length ≤ ts.length}),
      operands missing n last ts = .ok (cs, last', r) →
        Operands (tokens ts) cs (tokens r.1) ∧ cs.length = n) := by
  -- The two readers call each other, so both are proved at once, along their own recursion.
  refine expression.mutual_induct
    (fun last ts => ∀ c last' (r : {r : List Lexeme // r.length < ts.length}),
      expression last ts = .ok (c, last', r) → Expression (tokens ts) c (tokens r.1))
    (fun missing n last ts => ∀ cs last' (r : {r : List Lexeme // r.length ≤ ts.length}),
      operands missing n last ts = .ok (cs, last', r) →
        Operands (tokens ts) cs (tokens r.1) ∧ cs.length = n)
    (fun last => ?empty) (fun last l tail lit hl n hn => ?literal)
    (fun last l tail lit hl e he => ?overflow) (fun last l tail v hv => ?var)
    (fun last l tail o ho e he _ => ?opFails)
    (fun last l tail o ho args last' r' h hargs ih => ?op)
    (fun last l tail s hs => ?unknown) (fun last l tail m hm => ?modifier)
    (fun last l tail hl => ?preSep) (fun last l tail hl => ?subSep)
    (fun missing last ts => ?none) (fun missing last ts k hend => ?atEnd)
    (fun missing last ts k hend e he _ => ?headFails)
    (fun missing last ts k hend c last' r h he e hrest _ _ => ?restFails)
    (fun missing last ts k hend c last' r h he args last'' r' h' hrest ihc ihs => ?more)
  all_goals intro c' l'' r'' hres
  case empty => simp [expression] at hres
  case literal =>
    simp only [expression, hl, hn, Except.ok.injEq, Prod.mk.injEq] at hres
    obtain ⟨rfl, -, rfl⟩ := hres
    rw [tokens_cons, hl]
    exact .literal hn
  case overflow => simp [expression, hl, he] at hres
  case var =>
    simp only [expression, hv, Except.ok.injEq, Prod.mk.injEq] at hres
    obtain ⟨rfl, -, rfl⟩ := hres
    rw [tokens_cons, hv]
    exact .var v _
  case opFails => simp [expression, ho, he] at hres
  case op =>
    simp only [expression, ho, hargs, Except.ok.injEq, Prod.mk.injEq] at hres
    obtain ⟨rfl, -, rfl⟩ := hres
    obtain ⟨hs, hn⟩ := ih _ _ _ hargs
    rw [tokens_cons, ho]
    exact .op hs hn
  case unknown => simp [expression, hs] at hres
  case modifier => simp [expression, hm] at hres
  case preSep => simp [expression, hl] at hres
  case subSep => simp [expression, hl] at hres
  case none =>
    simp only [operands, Except.ok.injEq, Prod.mk.injEq] at hres
    obtain ⟨rfl, -, rfl⟩ := hres
    exact ⟨.nil _, rfl⟩
  case atEnd => simp [operands, hend] at hres
  case headFails => simp [operands, hend, he] at hres
  case restFails => simp [operands, hend, he, hrest] at hres
  case more =>
    simp only [operands, hend, he, hrest] at hres
    obtain ⟨rfl, -, rfl⟩ := hres
    obtain ⟨hs, hn⟩ := ihs _ _ _ hrest
    exact ⟨.cons (ihc _ _ _ he) hs, by simp [hn]⟩

theorem expression_sound {last last' : Span} {ts : List Lexeme} {c : Command}
    {r : {r : List Lexeme // r.length < ts.length}} (h : expression last ts = .ok (c, last', r)) :
    Expression (tokens ts) c (tokens r.1) :=
  expression_operands_sound.1 last ts c last' r h

theorem operands_sound {missing : Error} {n : Nat} {last last' : Span} {ts : List Lexeme}
    {cs : List Command} {r : {r : List Lexeme // r.length ≤ ts.length}}
    (h : operands missing n last ts = .ok (cs, last', r)) :
    Operands (tokens ts) cs (tokens r.1) ∧ cs.length = n :=
  expression_operands_sound.2 missing n last ts cs last' r h

theorem commandBody_sound {last last' : Span} {ts : List Lexeme} {c : Command}
    {r : {r : List Lexeme // r.length < ts.length}} (h : commandBody last ts = .ok (c, last', r)) :
    Statement (tokens ts) c (tokens r.1) := by
  cases ts with
  | nil => exact .expr (expression_sound h)
  | cons l tail =>
    cases hl : l.token with
    | op o =>
      cases hs : o.settable with
      | false =>
        simp only [commandBody, hl, hs] at h
        exact .expr (expression_sound h)
      | true =>
        simp only [commandBody, hl, hs, if_true] at h
        cases hops : operands (shortfall l.span o.name) o.arity l.span tail with
        | error e => simp [hops] at h
        | ok res =>
          obtain ⟨args, last₁, r₁, h₁⟩ := res
          obtain ⟨ha, hn⟩ := operands_sound hops
          simp only [hops] at h
          rw [tokens_cons, hl]
          cases hend : atEnd r₁ with
          | true =>
            simp only [hend, if_true, Except.ok.injEq, Prod.mk.injEq] at h
            obtain ⟨rfl, -, rfl⟩ := h
            exact .expr (.op ha hn)
          | false =>
            simp only [hend, Bool.false_eq_true, if_false] at h
            cases hval : expression last₁ r₁ with
            | error e => simp [hval] at h
            | ok res' =>
              obtain ⟨value, last₂, r₂, h₂⟩ := res'
              simp only [hval, Except.ok.injEq, Prod.mk.injEq] at h
              obtain ⟨rfl, -, rfl⟩ := h
              exact .set hs ha hn (expression_sound hval)
    | var v =>
      simp only [commandBody, hl] at h
      rw [tokens_cons, hl]
      cases hend : atEnd tail with
      | true =>
        simp only [hend, if_true, Except.ok.injEq, Prod.mk.injEq] at h
        obtain ⟨rfl, -, rfl⟩ := h
        exact .expr (.var v _)
      | false =>
        cases hw : v.readOnly with
        | true => simp [hend, hw] at h
        | false =>
          simp only [hend, hw, Bool.false_eq_true, if_false] at h
          cases hval : expression l.span tail with
          | error e => simp [hval] at h
          | ok res =>
            obtain ⟨value, last₁, r₁, h₁⟩ := res
            simp only [hval, Except.ok.injEq, Prod.mk.injEq] at h
            obtain ⟨rfl, -, rfl⟩ := h
            exact .store hw (expression_sound hval)
    | literal | unknown | modifier | preSep | subSep =>
      simp only [commandBody, hl] at h
      exact .expr (expression_sound h)

theorem command_sound {last last' : Span} {ts : List Lexeme} {c : Command}
    {r : {r : List Lexeme // r.length < ts.length}} (h : command last ts = .ok (c, last', r)) :
    ∃ mid, Statement (tokens ts) c mid ∧ (mid = [] ∧ r.1 = [] ∨ mid = .subSep :: tokens r.1) := by
  unfold command at h
  cases hb : commandBody last ts with
  | error e => simp [hb] at h
  | ok res =>
    obtain ⟨c₁, last₁, r₁, h₁⟩ := res
    have hs := commandBody_sound hb
    simp only [hb] at h
    cases r₁ with
    | nil =>
      simp only [Except.ok.injEq, Prod.mk.injEq] at h
      obtain ⟨rfl, -, rfl⟩ := h
      exact ⟨[], hs, .inl ⟨rfl, rfl⟩⟩
    | cons l r₂ =>
      cases hl : l.token <;> simp only [hl, reduceCtorEq] at h
      simp only [Except.ok.injEq, Prod.mk.injEq] at h
      obtain ⟨rfl, -, rfl⟩ := h
      exact ⟨_, hs, .inr (by simp [hl])⟩

theorem CommandList.sep {ts : List Token} {cs : List Command} (h : CommandList ts cs) :
    CommandList (.subSep :: ts) cs := by
  cases h with
  | none h => exact .none h.cons
  | some h hs ht => exact .some h.cons hs ht

theorem CommandList.single {ts : List Token} {c : Command} (h : Statement ts c []) :
    CommandList ts [c] :=
  .some (.nil _) (.one h) (.nil _)

theorem CommandList.cons {ts mid : List Token} {c : Command} {cs : List Command}
    (h : Statement ts c (.subSep :: mid)) (hs : CommandList mid cs) : CommandList ts (c :: cs) := by
  cases hs with
  | none hs => exact .some (.nil _) (.one h) hs.cons
  | some hs ht hu => exact .some (.nil _) (.more h hs ht) hu

theorem commandList_sound {last : Span} {ts : List Lexeme} {cs : List Command}
    (h : commandList last ts = .ok cs) : CommandList (tokens ts) cs := by
  induction last, ts using commandList.induct generalizing cs with
  | case1 last =>
    simp only [commandList, Except.ok.injEq] at h
    subst h
    exact .none (.nil _)
  | case2 last l tail hl ih =>
    rw [commandList, if_pos hl] at h
    rw [tokens_cons, eq_of_beq hl]
    exact (ih h).sep
  | case3 last l tail hl e he => rw [commandList, if_neg hl, he] at h; cases h
  | case4 last l tail hl c last' r' hr hc ih =>
    rw [commandList, if_neg hl, hc] at h
    cases hrest : commandList last' r' with
    | error e => simp [hrest, Except.map] at h
    | ok cs' =>
      simp only [hrest, Except.map, Except.ok.injEq] at h
      subst h
      obtain ⟨mid, hst, ⟨rfl, hr'⟩ | rfl⟩ := command_sound hc
      · have hr'' : r' = [] := hr'
        subst hr''
        simp only [commandList, Except.ok.injEq] at hrest
        subst hrest
        exact .single hst
      · exact .cons hst (ih hrest)

theorem modifierLine_sound {m : Modifier} {span : Span} {r : List Lexeme} {c : Command}
    (h : modifierLine m span r = .ok c) : Derives (.modifier m :: tokens r) c := by
  unfold modifierLine at h
  cases hops : operands (shortfall span m.name) m.arity span r with
  | error e => simp [hops] at h
  | ok res =>
    obtain ⟨args, last, r', hr'⟩ := res
    obtain ⟨ha, hn⟩ := operands_sound hops
    simp only [hops] at h
    cases r' with
    | nil => simp at h
    | cons l body =>
      cases hl : l.token <;> simp only [hl, reduceCtorEq] at h
      rw [tokens_cons, hl] at ha
      cases hb : commandList l.span body with
      | error e => simp [hb] at h
      | ok cs =>
        simp only [hb] at h
        split at h
        · cases h
        · next hd =>
          simp only [Except.ok.injEq] at h
          subst h
          have hlist := commandList_sound hb
          refine .modified ha hn hlist fun hm => hlist.deferrable_iff.mpr ?_
          simpa [hm] using hd

theorem ofLexemes_sound {ts : List Lexeme} {c : Command} (h : Command.ofLexemes ts = .ok c) :
    Derives (tokens ts) c := by
  unfold Command.ofLexemes at h
  split at h
  · cases h
  · cases ts with
    | nil =>
      simp only [Except.ok.injEq] at h
      subst h
      exact Derives.plain (CommandList.none (.nil []))
    | cons l r =>
      cases hl : l.token
      case modifier m =>
        simp only [hl] at h
        split at h
        · cases h
        · rw [tokens_cons, hl]
          exact modifierLine_sound h
      case preSep => simp [hl] at h
      all_goals
        simp only [hl] at h
        cases hcs : commandList Span.none (l :: r) with
        | error e => simp [hcs, Except.map] at h
        | ok cs =>
          simp only [hcs, Except.map, Except.ok.injEq] at h
          subst h
          exact .plain (commandList_sound hcs)

/-! ## What the grammar derives, the parser reads in full -/

theorem atEnd_eq_false {ts : List Lexeme} {x rest : List Token} {c : Command}
    (hts : tokens ts = x) (h : Expression x c rest) : atEnd ts = false := by
  obtain ⟨t, y, rfl, ht⟩ := h.head
  rw [atEnd_eq_closes, hts, closes_cons_of_beginsExpression y ht]

mutual

theorem expression_complete {x rest : List Token} {c : Command} :
    Expression x c rest → ∀ (ts : List Lexeme), tokens ts = x → ∀ last,
      ∃ r l' h, expression last ts = .ok (c, l', ⟨r, h⟩) ∧ tokens r = rest
  | .literal hn, ts, hts, last => by
    obtain ⟨l, r, rfl, hl, rfl⟩ := tokens_eq_cons hts
    exact ⟨r, l.span, by simp, by simp [expression, hl, hn], rfl⟩
  | .var v _, ts, hts, last => by
    obtain ⟨l, r, rfl, hl, rfl⟩ := tokens_eq_cons hts
    exact ⟨r, l.span, by simp, by simp [expression, hl], rfl⟩
  | .op (o := o) hs hn, ts, hts, last => by
    obtain ⟨l, r, rfl, hl, hr⟩ := tokens_eq_cons hts
    obtain ⟨r', l', h', hops, hr'⟩ := operands_complete hs r hr (shortfall l.span o.name) l.span
    rw [hn] at hops
    exact ⟨r', l', by simp; omega, by simp [expression, hl, hops], hr'⟩

theorem operands_complete {x rest : List Token} {cs : List Command} :
    Operands x cs rest → ∀ (ts : List Lexeme), tokens ts = x → ∀ missing last,
      ∃ r l' h, operands missing cs.length last ts = .ok (cs, l', ⟨r, h⟩) ∧ tokens r = rest
  | .nil _, ts, hts, missing, last => ⟨ts, last, Nat.le_refl _, by simp [operands], hts⟩
  | .cons he hs, ts, hts, missing, last => by
    obtain ⟨r, l', h, hexp, hr⟩ := expression_complete he ts hts last
    obtain ⟨r', l'', h', hops, hr'⟩ := operands_complete hs r hr missing l'
    have hend := atEnd_eq_false hts he
    exact ⟨r', l'', by omega, by simp [operands, hend, hexp, hops], hr'⟩

end

theorem commandBody_complete {x rest : List Token} {c : Command} (h : Statement x c rest)
    (hrest : closes rest = true) {ts : List Lexeme} (hts : tokens ts = x) (last : Span) :
    ∃ r l' h, commandBody last ts = .ok (c, l', ⟨r, h⟩) ∧ tokens r = rest := by
  cases h with
  | @set o _ _ _ _ _ hs ha hn hv =>
    obtain ⟨l, r, rfl, hl, hr⟩ := tokens_eq_cons hts
    obtain ⟨r₁, l₁, h₁, hops, hr₁⟩ := operands_complete ha r hr (shortfall l.span o.name) l.span
    obtain ⟨r₂, l₂, h₂, hval, hr₂⟩ := expression_complete hv r₁ hr₁ l₁
    rw [hn] at hops
    have hend := atEnd_eq_false hr₁ hv
    exact ⟨r₂, l₂, by simp; omega, by simp [commandBody, hl, hs, hops, hend, hval], hr₂⟩
  | store hw hv =>
    obtain ⟨l, r, rfl, hl, hr⟩ := tokens_eq_cons hts
    obtain ⟨r₁, l₁, h₁, hval, hr₁⟩ := expression_complete hv r hr l.span
    have hend := atEnd_eq_false hr hv
    exact ⟨r₁, l₁, by simp; omega, by simp [commandBody, hl, hend, hw, hval], hr₁⟩
  | expr h =>
    -- A variable alone, and a settable operator without its value, are read as a store or a
    -- setter would be, up to the point where the line or the command ends.
    cases h with
    | literal hn =>
      obtain ⟨l, r, rfl, hl, rfl⟩ := tokens_eq_cons hts
      exact ⟨r, l.span, by simp, by simp [commandBody, expression, hl, hn], rfl⟩
    | var v _ =>
      obtain ⟨l, r, rfl, hl, rfl⟩ := tokens_eq_cons hts
      have hend : atEnd r = true := by rw [atEnd_eq_closes]; exact hrest
      exact ⟨r, l.span, by simp, by simp [commandBody, hl, hend], rfl⟩
    | @op o _ _ _ hs hn =>
      obtain ⟨l, r, rfl, hl, hr⟩ := tokens_eq_cons hts
      obtain ⟨r₁, l₁, h₁, hops, hr₁⟩ := operands_complete hs r hr (shortfall l.span o.name) l.span
      rw [hn] at hops
      cases hset : o.settable with
      | true =>
        have hend : atEnd r₁ = true := by rw [atEnd_eq_closes, hr₁]; exact hrest
        exact ⟨r₁, l₁, by simp; omega, by simp [commandBody, hl, hset, hops, hend], hr₁⟩
      | false =>
        exact ⟨r₁, l₁, by simp; omega, by simp [commandBody, hl, hset, expression, hops], hr₁⟩

theorem separators_skip {x rest : List Token} (h : Separators x rest) {ts : List Lexeme}
    (hts : tokens ts = x) (last : Span) :
    ∃ r last', tokens r = rest ∧ commandList last ts = commandList last' r := by
  induction h generalizing ts last with
  | nil rest => exact ⟨ts, last, hts, rfl⟩
  | cons _ ih =>
    obtain ⟨l, r, rfl, hl, hr⟩ := tokens_eq_cons hts
    obtain ⟨r', last', hr', he⟩ := ih hr l.span
    exact ⟨r', last', hr', by rw [commandList, if_pos (by simp [hl])]; exact he⟩

theorem commandList_nil (last : Span) : commandList last [] = .ok [] := by
  simp [commandList]

theorem commandList_of_separators {x : List Token} (h : Separators x []) {ts : List Lexeme}
    (hts : tokens ts = x) (last : Span) : commandList last ts = .ok [] := by
  obtain ⟨r, last', hr, he⟩ := separators_skip h hts last
  rw [he, tokens_eq_nil hr, commandList_nil]

theorem commandList_command {last last' : Span} {l : Lexeme} {tail : List Lexeme} {c : Command}
    {r : {r : List Lexeme // r.length < (l :: tail).length}} (hl : l.token.beginsExpression)
    (hc : command last (l :: tail) = .ok (c, last', r)) :
    commandList last (l :: tail) = (commandList last' r.1).map (c :: ·) := by
  have hsep : (l.token == .subSep) = false := by
    cases h : l.token <;> simp_all [Token.beginsExpression]
  rw [commandList, if_neg (by simp [hsep]), hc]

theorem statements_complete {x rest : List Token} {cs : List Command} (h : Statements x cs rest)
    (hend : Separators rest []) {ts : List Lexeme} (hts : tokens ts = x) (last : Span) :
    commandList last ts = .ok cs := by
  induction h generalizing ts last with
  | @one x rest c h =>
    obtain ⟨t, y, rfl, ht⟩ := h.head
    obtain ⟨l, tail, rfl, hl, -⟩ := tokens_eq_cons hts
    cases hend with
    | nil =>
      obtain ⟨r, l', h', hbody, hr⟩ := commandBody_complete h rfl hts last
      obtain rfl := tokens_eq_nil hr
      have hc : command last (l :: tail) = .ok (c, l', ⟨[], h'⟩) := by
        simp [command, hbody]
      rw [commandList_command (hl ▸ ht) hc, commandList_nil]
      rfl
    | cons hsep =>
      obtain ⟨r, l', h', hbody, hr⟩ := commandBody_complete h (by simp [closes]) hts last
      obtain ⟨s, r₂, rfl, hs, hr₂⟩ := tokens_eq_cons hr
      have hc : command last (l :: tail) = .ok (c, s.span, ⟨r₂, by simp at h' ⊢; omega⟩) := by
        simp [command, hbody, hs]
      rw [commandList_command (hl ▸ ht) hc, commandList_of_separators hsep hr₂]
      rfl
  | @more x mid mid' rest c cs h hs _ ih =>
    obtain ⟨t, y, rfl, ht⟩ := h.head
    obtain ⟨l, tail, rfl, hl, -⟩ := tokens_eq_cons hts
    obtain ⟨r, l', h', hbody, hr⟩ := commandBody_complete h (by simp [closes]) hts last
    obtain ⟨s, r₂, rfl, hsub, hr₂⟩ := tokens_eq_cons hr
    have hc : command last (l :: tail) = .ok (c, s.span, ⟨r₂, by simp at h' ⊢; omega⟩) := by
      simp [command, hbody, hsub]
    obtain ⟨r₃, last₃, hr₃, hskip⟩ := separators_skip hs hr₂ s.span
    rw [commandList_command (hl ▸ ht) hc]
    simp only
    rw [hskip, ih hend hr₃ last₃]
    rfl

theorem commandList_complete {x : List Token} {cs : List Command} (h : CommandList x cs)
    {ts : List Lexeme} (hts : tokens ts = x) (last : Span) : commandList last ts = .ok cs := by
  cases h with
  | none h => exact commandList_of_separators h hts last
  | some h hs ht =>
    obtain ⟨r, last', hr, hskip⟩ := separators_skip h hts last
    rw [hskip]
    exact statements_complete hs ht hr last'

theorem modifierLine_complete {m : Modifier} {x mid : List Token} {args cs : List Command}
    (ha : Operands x args (.preSep :: mid)) (hn : args.length = m.arity) (hb : CommandList mid cs)
    (hd : m.defers = true → ∀ o, .op o ∈ mid → o.deferrable = true) {r : List Lexeme}
    (hr : tokens r = x) (span : Span) :
    modifierLine m span r = .ok (.modified m args (sequence cs)) := by
  obtain ⟨r₁, l₁, h₁, hops, hr₁⟩ := operands_complete ha r hr (shortfall span m.name) span
  obtain ⟨l, body, rfl, hl, hbody⟩ := tokens_eq_cons hr₁
  rw [hn] at hops
  have hlist := commandList_complete hb hbody l.span
  have hcheck : (m.defers && (sequence cs).hasImmediate) = false := by
    cases hm : m.defers
    · rfl
    · simp [hb.deferrable_iff.mp (hd hm)]
  simp [modifierLine, hops, hl, hlist, hcheck]

theorem length_filter_preSep (ts : List Lexeme) :
    (ts.filter (·.token == .preSep)).length = (tokens ts).count .preSep := by
  induction ts with
  | nil => rfl
  | cons l ts ih =>
    by_cases h : l.token = .preSep
    · simp [h, ih]
    · simp [h, ih]

theorem ofLexemes_complete {x : List Token} {c : Command} (h : Derives x c) {ts : List Lexeme}
    (hts : tokens ts = x) : Command.ofLexemes ts = .ok c := by
  cases h with
  | plain h =>
    have hnone : ts.filter (·.token == .preSep) = [] := by
      rw [← List.length_eq_zero_iff, length_filter_preSep, hts, h.count_preSep]
    have hlist := commandList_complete h hts Span.none
    cases ts with
    | nil =>
      rw [commandList_nil, Except.ok.injEq] at hlist
      subst hlist
      simp [Command.ofLexemes, sequence]
    | cons l r =>
      have hhead := h.head hts.symm
      cases hl : l.token
      case modifier m => simp [hl, Token.beginsExpression] at hhead
      case preSep => simp [hl, Token.beginsExpression] at hhead
      all_goals simp [Command.ofLexemes, hnone, hl, hlist, Except.map]
  | modified ha hn hb hd =>
    obtain ⟨l, r, rfl, hl, hr⟩ := tokens_eq_cons hts
    have hcount : ((l :: r).filter (·.token == .preSep)).length = 1 := by
      rw [length_filter_preSep, hts, List.count_cons, ha.count_preSep, List.count_cons,
        hb.count_preSep]
      simp
    obtain ⟨a, hone⟩ := List.length_eq_one_iff.mp hcount
    simp [Command.ofLexemes, hone, hl, modifierLine_complete ha hn hb hd hr]

theorem Derives.unique {x : List Token} {c c' : Command} (h : Derives x c) (h' : Derives x c') :
    c = c' := by
  have hts : tokens (x.map fun t => (⟨Span.none, t⟩ : Lexeme)) = x := by
    simp [tokens, Function.comp_def]
  have h₁ := ofLexemes_complete h hts
  rw [ofLexemes_complete h' hts, Except.ok.injEq] at h₁
  exact h₁.symm

/-- The parser accepts exactly the lines the grammar derives, and returns the one tree the
grammar derives; on any other line it fails. -/
theorem parses_iff_derives (ts : List Lexeme) :
    (∀ c, Command.ofLexemes ts = .ok c ↔ Derives (tokens ts) c) ∧
      (∀ c c', Derives (tokens ts) c → Derives (tokens ts) c' → c = c') ∧
      ((∀ c, ¬ Derives (tokens ts) c) → ∃ e, Command.ofLexemes ts = .error e) := by
  refine ⟨fun c => ⟨ofLexemes_sound, fun h => ofLexemes_complete h rfl⟩,
    fun _ _ h h' => h.unique h', fun hnone => ?_⟩
  cases hp : Command.ofLexemes ts with
  | error e => exact ⟨e, rfl⟩
  | ok c => exact absurd (ofLexemes_sound hp) (hnone c)

end Grammar

end TriggerScript
