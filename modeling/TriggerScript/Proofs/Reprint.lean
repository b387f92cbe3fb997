import TriggerScript.Proofs.Grammar
/-!
Printed commands read back as themselves.

A command prints with canonical names, decimal literals, `$` before a global letter that is
also a name or is `I`, `MOD args: body`, and `; ` between the parts of a sequence
(`Command.render`). Each word the printer writes is one the lexer reads whole and classifies
as what was printed, and the printer puts a blank or a separator between any two words, so
lexing the printed text gives back the command's tokens one by one (`tokens_lex_render`). A
tree the parser returns is derived by the grammar from these very tokens, its literals
written in decimal (`Derives.printed`). So every command that parses prints to a text that
parses to the same command (`parse_render_of_parse`).
-/

set_option autoImplicit false
set_option relaxedAutoImplicit false

namespace TriggerScript

namespace Command

mutual

/-- The tokens that the printed text of a command reads as. -/
def printedTokens : Command → List Token
  | .nop => []
  | .literal n => [.literal (.decimal (toString n))]
  | .var v => [.var v]
  | .op o args => .op o :: printedOperands args
  | .set o args value => .op o :: (printedOperands args ++ printedTokens value)
  | .store v value => .var v :: printedTokens value
  | .modified m args body => .modifier m :: (printedOperands args ++ .preSep :: printedTokens body)
  | .seq parts => printedParts parts

/-- The tokens of printed operands, one command after another. -/
def printedOperands : List Command → List Token
  | [] => []
  | c :: cs => printedTokens c ++ printedOperands cs

/-- The tokens of the printed parts of a sequence, one separator between two parts. -/
def printedParts : List Command → List Token
  | [] => []
  | [c] => printedTokens c
  | c :: cs => printedTokens c ++ .subSep :: printedParts cs

end

end Command

namespace Lexer

/-- A word the lexer reads whole and as written: not empty, of word characters only, already
upper-case, and without `//`. -/
def IsWord (w : List Char) : Prop :=
  w ≠ [] ∧ (∀ c ∈ w, inWord c = true) ∧ w.map Char.toUpper = w ∧ beforeRemark w = none

-- Spelled out so that the character check is the list's own, not an enumeration of `Char`.
instance : DecidablePred IsWord := fun w =>
  @instDecidableAnd _ _ (@instDecidableNot _ (List.instDecidableEqNil w)) <|
    @instDecidableAnd _ _ (List.decidableBAll _ w) <|
      @instDecidableAnd _ _ (instDecidableEqList _ _) (Option.decidableEqNone _)

/-- The characters end a word before them: they are none, or begin with a blank or a
separator. -/
def EndsWord (cs : List Char) : Prop := ∀ c ∈ cs.head?, inWord c = false

theorem endsWord_nil : EndsWord [] := by simp [EndsWord]

theorem endsWord_space (cs : List Char) : EndsWord (' ' :: cs) := by
  simp [EndsWord, inWord, isSpacing, isSeparator]

theorem endsWord_colon (cs : List Char) : EndsWord (':' :: cs) := by
  simp [EndsWord, inWord, isSpacing, isSeparator]

theorem endsWord_semicolon (cs : List Char) : EndsWord (';' :: cs) := by
  simp [EndsWord, inWord, isSpacing, isSeparator]

theorem takeWhile_append_of_all {p : Char → Bool} {w cs : List Char} (hw : ∀ c ∈ w, p c = true)
    (hcs : ∀ c ∈ cs.head?, p c = false) : (w ++ cs).takeWhile p = w := by
  induction w with
  | nil =>
    cases cs with
    | nil => rfl
    | cons c cs => simp [hcs c rfl]
  | cons c w ih => simp [hw c List.mem_cons_self, ih fun d hd => hw d (List.mem_cons_of_mem c hd)]

theorem dropWhile_append_of_all {p : Char → Bool} {w cs : List Char} (hw : ∀ c ∈ w, p c = true)
    (hcs : ∀ c ∈ cs.head?, p c = false) : (w ++ cs).dropWhile p = cs := by
  induction w with
  | nil =>
    cases cs with
    | nil => rfl
    | cons c cs => simp [hcs c rfl]
  | cons c w ih => simp [hw c List.mem_cons_self, ih fun d hd => hw d (List.mem_cons_of_mem c hd)]

theorem lexFrom_nil (col : Nat) : lexFrom col [] = [] := by
  rw [lexFrom]
  rfl

theorem lexFrom_word (col : Nat) {w cs : List Char} (hw : IsWord w) (hcs : EndsWord cs) :
    lexFrom col (w ++ cs) =
      ⟨⟨col, col + w.length⟩, classify (String.ofList w)⟩ :: lexFrom (col + w.length) cs := by
  obtain ⟨hne, hin, hup, hrem⟩ := hw
  obtain ⟨c, w', rfl⟩ := List.exists_cons_of_ne_nil hne
  have hc := hin c List.mem_cons_self
  have hsp : isSpacing c = false := by simp_all [inWord]
  have hsep : isSeparator c = false := by simp_all [inWord]
  simp only [isSeparator, Bool.or_eq_false_iff] at hsep
  have hin' : ∀ d ∈ w', inWord d = true := fun d hd => hin d (List.mem_cons_of_mem c hd)
  rw [lexFrom]
  split
  · next h => simp [hsp] at h
  · next c' rest h =>
    simp only [List.cons_append, List.dropWhile_cons, hsp, Bool.false_eq_true, if_false,
      List.cons.injEq] at h
    obtain ⟨rfl, rfl⟩ := h
    simp only [List.cons_append, List.takeWhile_cons, hsp, hsep.1, hsep.2, Bool.false_eq_true,
      if_false, takeWhile_append_of_all hin' hcs, dropWhile_append_of_all hin' hcs, hup, hrem,
      List.length_nil, Nat.add_zero]

theorem lexFrom_space (col : Nat) (cs : List Char) : lexFrom col (' ' :: cs) = lexFrom (col + 1) cs := by
  have hd : (' ' :: cs).dropWhile isSpacing = cs.dropWhile isSpacing := by
    simp [isSpacing]
  have ht : ((' ' :: cs).takeWhile isSpacing).length = (cs.takeWhile isSpacing).length + 1 := by
    simp [isSpacing]
  rw [lexFrom, lexFrom]
  -- Both sides match on the same characters; only the column they start from differs.
  generalize hD : (' ' :: cs).dropWhile isSpacing = D
  rw [hd] at hD
  subst hD
  simp only [ht, Nat.add_assoc, Nat.add_comm 1]

theorem lexFrom_colon (col : Nat) (cs : List Char) :
    lexFrom col (':' :: cs) = ⟨⟨col, col + 1⟩, .preSep⟩ :: lexFrom (col + 1) cs := by
  rw [lexFrom]
  generalize hD : (':' :: cs).dropWhile isSpacing = D
  rw [List.dropWhile_cons_of_neg (by decide)] at hD
  subst hD
  simp [isSpacing]

theorem lexFrom_semicolon (col : Nat) (cs : List Char) :
    lexFrom col (';' :: cs) = ⟨⟨col, col + 1⟩, .subSep⟩ :: lexFrom (col + 1) cs := by
  rw [lexFrom]
  generalize hD : (';' :: cs).dropWhile isSpacing = D
  rw [List.dropWhile_cons_of_neg (by decide)] at hD
  subst hD
  simp [isSpacing]

/-- Whether a word is written as a number: a digit first, or `-` and then a digit. -/
def numeric : List Char → Bool
  | '-' :: d :: _ => d.isDigit
  | d :: _ => d.isDigit
  | [] => false

theorem beforeRemark_eq_none {w : List Char} (h : '/' ∉ w) : beforeRemark w = none := by
  induction w with
  | nil => rfl
  | cons c w ih =>
    have hc : c ≠ '/' := fun hc => h (hc ▸ List.mem_cons_self)
    have hw : '/' ∉ w := fun hw => h (List.mem_cons_of_mem c hw)
    cases w with
    | nil => simp [beforeRemark]
    | cons d w => simp [beforeRemark, hc, ih hw]

end Lexer

open Lexer

/-! ## Names -/

theorem PatternOp.mem_all (p : PatternOp) : p ∈ PatternOp.all := by
  cases p <;> decide

theorem Operator.mem_all (o : Operator) : o ∈ Operator.all := by
  cases o
  case pattern p =>
    exact List.mem_append_left _ (List.mem_append_right _ (List.mem_map_of_mem (PatternOp.mem_all p)))
  case patternAt p => exact List.mem_append_right _ (List.mem_map_of_mem (PatternOp.mem_all p))
  all_goals exact List.mem_append_left _ (List.mem_append_left _ (by decide))

theorem Modifier.mem_all (m : Modifier) : m ∈ Modifier.all := by
  cases m <;> decide

/-- The operator table, checked entry by entry: each canonical name is a word that reads back
as its operator, and no name is written as a number. -/
theorem Operator.table_reads : ∀ o ∈ Operator.all, IsWord o.name.toList ∧
    classify o.name = .op o ∧ ∀ s ∈ o.names, numeric s.toList = false := by
  decide +kernel

theorem Modifier.table_reads : ∀ m ∈ Modifier.all, IsWord m.name.toList ∧
    classify m.name = .modifier m ∧ ∀ s ∈ m.names, numeric s.toList = false := by
  decide +kernel

theorem Operator.name_reads (o : Operator) : IsWord o.name.toList ∧ classify o.name = .op o :=
  ⟨(table_reads o (mem_all o)).1, (table_reads o (mem_all o)).2.1⟩

theorem Modifier.name_reads (m : Modifier) :
    IsWord m.name.toList ∧ classify m.name = .modifier m :=
  ⟨(table_reads m (mem_all m)).1, (table_reads m (mem_all m)).2.1⟩

/-- A global letter that is also a name is printed with `$`, and `I` too, so every variable
name reads back as its variable. -/
theorem Variable.name_reads (v : Variable) : IsWord v.name.toList ∧ classify v.name = .var v := by
  cases v with
  | global n => revert n; decide +kernel
  | index => decide +kernel
  | pattern n => revert n; decide +kernel
  | special s => cases s <;> decide +kernel

theorem Token.ofName?_of_numeric {s : String} (h : numeric s.toList = true) :
    Token.ofName? s = none := by
  have hop : Operator.all.find? (fun o => o.names.contains s) = none := by
    refine List.find?_eq_none.mpr fun o ho hs => ?_
    have := (Operator.table_reads o ho).2.2 s (by simpa using hs)
    rw [h] at this
    cases this
  have hmod : Modifier.all.find? (fun m => m.names.contains s) = none := by
    refine List.find?_eq_none.mpr fun m hm hs => ?_
    have := (Modifier.table_reads m hm).2.2 s (by simpa using hs)
    rw [h] at this
    cases this
  unfold Token.ofName?
  rw [hop, hmod]
  rfl

theorem isDigit_cases {c : Char} (h : c.isDigit = true) : ∃ k, k < 10 ∧ c = Char.ofNat (48 + k) := by
  have hc := Char.isDigit_iff_toNat.mp h
  simp only [Char.reduceToNat] at hc
  refine ⟨c.toNat - 48, by omega, ?_⟩
  rw [show 48 + (c.toNat - 48) = c.toNat by omega, Char.ofNat_toNat]

theorem numberChar_word {c : Char} (h : c = '-' ∨ c.isDigit = true) :
    inWord c = true ∧ c.toUpper = c ∧ c ≠ '/' := by
  rcases h with rfl | h
  · decide
  · obtain ⟨k, hk, rfl⟩ := isDigit_cases h
    revert k
    decide

theorem numeric_cons_of_isDigit {d : Char} (hd : d.isDigit = true) (ds : List Char) :
    numeric (d :: ds) = true := by
  unfold numeric
  split
  · next h => cases h; cases hd
  · next _ d' tail _ heq =>
    injection heq with h1
    exact h1 ▸ hd
  · contradiction

theorem digit_not_letter {c : Char} (h : c.isDigit = true) : c ≠ 'I' ∧ ¬('A' ≤ c ∧ c ≤ 'Z') := by
  obtain ⟨k, hk, rfl⟩ := isDigit_cases h
  revert k
  decide

theorem Variable.ofName?_of_numeric {s : String} (h : numeric s.toList = true) :
    Variable.ofName? s = none := by
  unfold Variable.ofName?
  split
  · next c hc =>
    rw [hc] at h
    have hI := digit_not_letter (by simpa [numeric] using h)
    simp [hI.1, hI.2]
  · next c hc => rw [hc] at h; simp [numeric] at h
  · next c hc => rw [hc] at h; simp [numeric] at h
  · have hIN : s ≠ "IN" := by rintro rfl; simp [numeric] at h
    have hPARAM : s ≠ "PARAM" := by rintro rfl; simp [numeric] at h
    simp [hIN, hPARAM]

/-! ## Literals in decimal -/

theorem digitValue_of_isDigit {c : Char} (h : c.isDigit = true) :
    Literal.digitValue c = c.toNat - '0'.toNat := by
  obtain ⟨k, hk, rfl⟩ := isDigit_cases h
  revert k
  decide

theorem foldl_digitValue {ds : List Char} (h : ∀ d ∈ ds, d.isDigit = true) (init : Nat) :
    ds.foldl (fun acc d => acc * 10 + Literal.digitValue d) init = Nat.ofDigitChars 10 ds init := by
  induction ds generalizing init with
  | nil => rfl
  | cons d ds ih =>
    rw [List.foldl_cons, Nat.ofDigitChars_cons, digitValue_of_isDigit (h d List.mem_cons_self),
      Nat.mul_comm, ih fun e he => h e (List.mem_cons_of_mem d he)]

theorem isDigit_of_mem_toDigits {m : Nat} {d : Char} (h : d ∈ Nat.toDigits 10 m) : d.isDigit = true :=
  Nat.isDigit_of_mem_toDigits (by decide) (by decide) h

theorem digitsValue_toDigits (m : Nat) : Literal.digitsValue 10 (Nat.toDigits 10 m) = m := by
  rw [Literal.digitsValue, foldl_digitValue fun _ hd => isDigit_of_mem_toDigits hd,
    Nat.ofDigitChars_ten_toDigits]

theorem toList_toString (n : Int16) :
    (toString n).toList = (if n.toInt < 0 then ['-'] else []) ++ Nat.toDigits 10 n.toInt.natAbs := by
  change (Int.repr n.toInt).toList = _
  generalize n.toInt = i
  cases i with
  | ofNat m => simp [Int.repr, Nat.toList_repr]
  | negSucc m =>
    simp only [Int.repr, String.toList_append, Nat.toList_repr]
    simp [Int.natAbs_negSucc, Int.negSucc_lt_zero]

theorem toDigits_eq_cons (m : Nat) : ∃ d ds, Nat.toDigits 10 m = d :: ds ∧ d.isDigit = true := by
  cases h : Nat.toDigits 10 m with
  | nil => exact absurd h Nat.toDigits_ne_nil
  | cons d ds => exact ⟨d, ds, rfl, isDigit_of_mem_toDigits (h ▸ List.mem_cons_self)⟩

theorem numeric_toString (n : Int16) : numeric (toString n).toList = true := by
  rw [toList_toString]
  obtain ⟨d, ds, h, hd⟩ := toDigits_eq_cons n.toInt.natAbs
  split
  · simpa [numeric, h] using hd
  · simpa [h] using numeric_cons_of_isDigit hd ds

theorem isWord_toString (n : Int16) : IsWord (toString n).toList := by
  have hchar : ∀ c ∈ (toString n).toList, inWord c = true ∧ c.toUpper = c ∧ c ≠ '/' := by
    intro c hc
    rw [toList_toString, List.mem_append] at hc
    refine numberChar_word ?_
    rcases hc with hc | hc
    · split at hc <;> simp_all
    · exact .inr (isDigit_of_mem_toDigits hc)
  refine ⟨?_, fun c hc => (hchar c hc).1, ?_, beforeRemark_eq_none fun hs => (hchar '/' hs).2.2 rfl⟩
  · rw [toList_toString]
    simp [Nat.toDigits_ne_nil]
  · exact (List.map_congr_left fun c hc => (hchar c hc).2.1).trans (List.map_id' _)

theorem decimalValue_toString (n : Int16) : Literal.decimalValue (toString n) = n.toInt := by
  unfold Literal.decimalValue
  rw [toList_toString]
  obtain ⟨d, ds, h, hd⟩ := toDigits_eq_cons n.toInt.natAbs
  by_cases hneg : n.toInt < 0
  · simp only [hneg, if_true, List.cons_append, List.nil_append]
    rw [digitsValue_toDigits]
    omega
  · simp only [hneg, if_false, List.nil_append, h]
    split
    · next h' => cases h'; cases hd
    · rw [← h, digitsValue_toDigits]
      omega

theorem value_toString (n : Int16) : (Literal.decimal (toString n)).value = .ok n := by
  have hlo := Int16.le_toInt n
  have hhi := Int16.toInt_lt n
  simp only [Literal.value, decimalValue_toString]
  rw [if_pos (by constructor <;> omega), Int16.ofInt_toInt]

theorem classify_toString (n : Int16) :
    classify (toString n) = .literal (.decimal (toString n)) := by
  have hnum := numeric_toString n
  have hlit : Literal.ofWord? (toString n) = some (.decimal (toString n)) := by
    unfold Literal.ofWord?
    obtain ⟨d, ds, h, hd⟩ := toDigits_eq_cons n.toInt.natAbs
    have hall := fun c hc => isDigit_of_mem_toDigits (m := n.toInt.natAbs) (d := c) hc
    have hcond : (!(d :: ds).isEmpty && (d :: ds).all Char.isDigit) = true := by
      simp only [List.isEmpty_cons, Bool.not_false, Bool.true_and, List.all_eq_true]
      exact fun c hc => hall c (h ▸ hc)
    rw [toList_toString]
    by_cases hneg : n.toInt < 0
    · simp only [hneg, if_true, List.cons_append, List.nil_append]
      rw [h, if_pos hcond]
    · simp only [hneg, if_false, List.nil_append, h]
      split
      · next heq => injection heq with h1; subst h1; cases hd
      · rw [if_pos hcond]
  simp [classify, Token.ofName?_of_numeric hnum, Variable.ofName?_of_numeric hnum, hlit]

/-! ## Lexing printed text -/

open Grammar

theorem toList_space : (" " : String).toList = [' '] := rfl

theorem toList_colonSpace : (": " : String).toList = [':', ' '] := rfl

theorem toList_semicolonSpace : ("; " : String).toList = [';', ' '] := rfl

theorem endsWord_renderOperands (cs : List Command) {rest : List Char} (h : EndsWord rest) :
    EndsWord ((Command.renderOperands cs).toList ++ rest) := by
  cases cs with
  | nil => simpa [Command.renderOperands] using h
  | cons c cs =>
    simp only [Command.renderOperands, String.toList_append, toList_space, List.append_assoc,
      List.cons_append]
    exact endsWord_space _

mutual

theorem tokens_lexFrom_render (c : Command) (col : Nat) {rest : List Char} (hrest : EndsWord rest) :
    ∃ col', tokens (lexFrom col ((Command.render c).toList ++ rest)) =
      c.printedTokens ++ tokens (lexFrom col' rest) := by
  match c with
  | .nop => exact ⟨col, by simp [Command.render, Command.printedTokens]⟩
  | .literal n =>
    refine ⟨col + (toString n).toList.length, ?_⟩
    rw [Command.render, lexFrom_word col (isWord_toString n) hrest]
    simp [Command.printedTokens, classify_toString]
  | .var v =>
    refine ⟨col + v.name.toList.length, ?_⟩
    rw [Command.render, lexFrom_word col (Variable.name_reads v).1 hrest]
    simp [Command.printedTokens, (Variable.name_reads v).2]
  | .op o args =>
    obtain ⟨col₁, h₁⟩ := tokens_lexFrom_renderOperands args (col + o.name.toList.length) hrest
    refine ⟨col₁, ?_⟩
    rw [Command.render, String.toList_append, List.append_assoc,
      lexFrom_word col (Operator.name_reads o).1 (endsWord_renderOperands args hrest)]
    simp [Command.printedTokens, (Operator.name_reads o).2, h₁]
  | .set o args value =>
    obtain ⟨col₁, h₁⟩ := tokens_lexFrom_renderOperands args (col + o.name.toList.length)
      (endsWord_space ((Command.render value).toList ++ rest))
    obtain ⟨col₂, h₂⟩ := tokens_lexFrom_render value (col₁ + 1) hrest
    refine ⟨col₂, ?_⟩
    simp only [Command.render, String.toList_append, toList_space, List.append_assoc,
      List.cons_append]
    rw [lexFrom_word col (Operator.name_reads o).1 (endsWord_renderOperands args (endsWord_space _))]
    simp [Command.printedTokens, (Operator.name_reads o).2, h₁, lexFrom_space, h₂]
  | .store v value =>
    obtain ⟨col₁, h₁⟩ := tokens_lexFrom_render value (col + v.name.toList.length + 1) hrest
    refine ⟨col₁, ?_⟩
    simp only [Command.render, String.toList_append, toList_space, List.append_assoc,
      List.cons_append]
    rw [lexFrom_word col (Variable.name_reads v).1 (endsWord_space _)]
    simp [Command.printedTokens, (Variable.name_reads v).2, lexFrom_space, h₁]
  | .modified m args body =>
    obtain ⟨col₁, h₁⟩ := tokens_lexFrom_renderOperands args (col + m.name.toList.length)
      (endsWord_colon (' ' :: ((Command.render body).toList ++ rest)))
    obtain ⟨col₂, h₂⟩ := tokens_lexFrom_render body (col₁ + 1 + 1) hrest
    refine ⟨col₂, ?_⟩
    simp only [Command.render, String.toList_append, toList_colonSpace, List.append_assoc,
      List.cons_append, List.nil_append]
    rw [lexFrom_word col (Modifier.name_reads m).1
      (endsWord_renderOperands args (endsWord_colon _))]
    simp [Command.printedTokens, (Modifier.name_reads m).2, h₁, lexFrom_colon, lexFrom_space, h₂]
  | .seq parts =>
    obtain ⟨col₁, h₁⟩ := tokens_lexFrom_renderParts parts col hrest
    exact ⟨col₁, by simpa [Command.render, Command.printedTokens] using h₁⟩

theorem tokens_lexFrom_renderOperands (cs : List Command) (col : Nat) {rest : List Char}
    (hrest : EndsWord rest) :
    ∃ col', tokens (lexFrom col ((Command.renderOperands cs).toList ++ rest)) =
      Command.printedOperands cs ++ tokens (lexFrom col' rest) := by
  match cs with
  | [] => exact ⟨col, by simp [Command.renderOperands, Command.printedOperands]⟩
  | c :: cs =>
    obtain ⟨col₁, h₁⟩ := tokens_lexFrom_render c (col + 1) (endsWord_renderOperands cs hrest)
    obtain ⟨col₂, h₂⟩ := tokens_lexFrom_renderOperands cs col₁ hrest
    refine ⟨col₂, ?_⟩
    simp only [Command.renderOperands, String.toList_append, toList_space, List.append_assoc,
      List.cons_append]
    simp [lexFrom_space, h₁, h₂, Command.printedOperands]

theorem tokens_lexFrom_renderParts (cs : List Command) (col : Nat) {rest : List Char}
    (hrest : EndsWord rest) :
    ∃ col', tokens (lexFrom col ((Command.renderParts cs).toList ++ rest)) =
      Command.printedParts cs ++ tokens (lexFrom col' rest) := by
  match cs with
  | [] => exact ⟨col, by simp [Command.renderParts, Command.printedParts]⟩
  | [c] =>
    obtain ⟨col₁, h₁⟩ := tokens_lexFrom_render c col hrest
    exact ⟨col₁, by simpa [Command.renderParts, Command.printedParts] using h₁⟩
  | c :: d :: ds =>
    obtain ⟨col₁, h₁⟩ := tokens_lexFrom_render c col
      (endsWord_semicolon (' ' :: ((Command.renderParts (d :: ds)).toList ++ rest)))
    obtain ⟨col₂, h₂⟩ := tokens_lexFrom_renderParts (d :: ds) (col₁ + 1 + 1) hrest
    refine ⟨col₂, ?_⟩
    simp only [Command.renderParts, String.toList_append, toList_semicolonSpace, List.append_assoc,
      List.cons_append, List.nil_append]
    simp [h₁, lexFrom_semicolon, lexFrom_space, h₂, Command.printedParts]

end

theorem tokens_lex_render (c : Command) : tokens (lex c.render) = c.printedTokens := by
  obtain ⟨col, h⟩ := tokens_lexFrom_render c 0 endsWord_nil
  simpa [lex, lexFrom_nil] using h

/-! ## Printed tokens derive the same tree -/

namespace Grammar

theorem Statements.ne_nil {ts rest : List Token} {cs : List Command} (h : Statements ts cs rest) :
    cs ≠ [] := by
  cases h <;> simp

theorem printedTokens_sequence (cs : List Command) :
    (sequence cs).printedTokens = Command.printedParts cs := by
  match cs with
  | [] => rfl
  | [c] => simp [sequence, Command.printedParts]
  | _ :: _ :: _ => simp [sequence, Command.printedTokens]

mutual

theorem Expression.printed {ts rest : List Token} {c : Command} :
    Expression ts c rest → ∀ rest', Expression (c.printedTokens ++ rest') c rest'
  | .literal _, rest' => .literal (value_toString _)
  | .var v _, rest' => .var v rest'
  | .op h hn, rest' => by simpa [Command.printedTokens] using Expression.op (h.printed rest') hn

theorem Operands.printed {ts rest : List Token} {cs : List Command} :
    Operands ts cs rest → ∀ rest', Operands (Command.printedOperands cs ++ rest') cs rest'
  | .nil _, rest' => .nil rest'
  | .cons h hs, rest' => by
    simpa [Command.printedOperands] using Operands.cons (h.printed _) (hs.printed rest')

end

theorem Statement.printed {ts rest : List Token} {c : Command} (h : Statement ts c rest)
    (rest' : List Token) : Statement (c.printedTokens ++ rest') c rest' := by
  cases h with
  | set hs ha hn hv =>
    simpa [Command.printedTokens] using Statement.set hs (ha.printed _) hn (hv.printed rest')
  | store hw hv => simpa [Command.printedTokens] using Statement.store hw (hv.printed rest')
  | expr h => exact .expr (h.printed rest')

theorem Statements.printed {ts rest : List Token} {cs : List Command} (h : Statements ts cs rest)
    (rest' : List Token) : Statements (Command.printedParts cs ++ rest') cs rest' := by
  induction h generalizing rest' with
  | one h => simpa [Command.printedParts] using Statements.one (h.printed rest')
  | @more _ _ _ _ c cs h _ ht ih =>
    obtain ⟨d, ds, rfl⟩ := List.exists_cons_of_ne_nil ht.ne_nil
    simpa [Command.printedParts] using
      Statements.more (h.printed _) (.nil _) (ih rest')

theorem CommandList.printed {ts : List Token} {cs : List Command} (h : CommandList ts cs) :
    CommandList (Command.printedParts cs) cs := by
  cases h with
  | none => exact .none (.nil _)
  | some _ hs _ => exact .some (.nil _) (by simpa using hs.printed []) (.nil _)

theorem Derives.printed {ts : List Token} {c : Command} (h : Derives ts c) :
    Derives c.printedTokens c := by
  cases h with
  | plain h =>
    rw [printedTokens_sequence]
    exact .plain h.printed
  | modified ha hn hb hd =>
    have hd' : _ → ∀ o, Token.op o ∈ Command.printedParts _ → o.deferrable = true :=
      fun hm => hb.printed.deferrable_iff.mpr (hb.deferrable_iff.mp (hd hm))
    simpa [Command.printedTokens, printedTokens_sequence] using
      Derives.modified (ha.printed _) hn hb.printed hd'

end Grammar

open Grammar in
/-- Every command that parses prints to a text that parses back to the same command. -/
theorem Command.parse_render_of_parse {s : String} {c : Command} (h : Command.parse s = .ok c) :
    Command.parse c.render = .ok c :=
  ofLexemes_complete (ofLexemes_sound h).printed (tokens_lex_render c)

open Grammar in
/-- `+ 1 XF` reads as `ADD 1 15`, an alias and a hexadecimal literal that print in canonical
form and read back the same. -/
theorem Command.alias_and_hex_reprint :
    Command.parse "+ 1 XF" = .ok (.op .add [.literal 1, .literal 15]) ∧
      Command.parse (Command.op .add [.literal 1, .literal 15]).render =
        .ok (.op .add [.literal 1, .literal 15]) := by
  have hchars : ("+ 1 XF" : String).toList = ['+'] ++ ' ' :: (['1'] ++ ' ' :: (['X', 'F'] ++ [])) := by
    decide
  have htokens : tokens (lex "+ 1 XF") =
      [.op .add, .literal (.decimal "1"), .literal (.hex "XF")] := by
    rw [lex, hchars, lexFrom_word 0 (by decide) (endsWord_space _), lexFrom_space,
      lexFrom_word _ (by decide) (endsWord_space _), lexFrom_space,
      lexFrom_word _ (by decide) endsWord_nil, lexFrom_nil]
    decide
  have hline : Derives [.op .add, .literal (.decimal "1"), .literal (.hex "XF")]
      (sequence [.op .add [.literal 1, .literal 15]]) :=
    .plain (.single (.expr (.op (.cons (.literal rfl) (.cons (.literal rfl)
      (.nil []))) rfl)))
  have hparse : Command.parse "+ 1 XF" = .ok (.op .add [.literal 1, .literal 15]) :=
    ofLexemes_complete hline htokens
  exact ⟨hparse, Command.parse_render_of_parse hparse⟩

end TriggerScript