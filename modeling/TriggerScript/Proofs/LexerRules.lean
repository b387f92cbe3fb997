import TriggerScript.Proofs.Reprint
/-!
The rules of the lexer.

A line is read left to right by a few rules (`Lexer.Lexes`): a space or a tab stands for
nothing; `:` and `;` are tokens of one character; a maximal run of other characters is one
token, its text upper-cased in ASCII and classified (`Lexer.Classifies`) as the operator or
modifier it names, else the variable it names, else a literal of one of the three shapes
(`Lexer.LiteralShape`), else an unknown word. The first run that holds `//` ends the line: the
part of the run before the `//` is the last token, if it is not empty. Every token carries
the span of the characters it was read from, counted in characters.

The main statement, `lex_eq_iff_lexes`, says that the lexer returns exactly the lexemes these
rules give: what it returns satisfies them (`lexes_lexFrom`), and the rules give one answer
only (`Lexes.lexFrom_eq`). Both directions follow the lexer through one equation per kind of
first character: spacing (`lexFrom_spacing`), the separators (`lexFrom_colon`,
`lexFrom_semicolon`), and a run of word characters, read whole (`lexFrom_run`) or cut at a
remark (`lexFrom_remark`); `beforeRemark` is pinned down by where the first `//` stands
(`beforeRemark_eq_none_iff`, `beforeRemark_eq_some_iff`).
-/

set_option autoImplicit false
set_option relaxedAutoImplicit false

namespace TriggerScript.Lexer

/-! ### Classifying a word -/

/-- `LiteralShape word l`: the word is written as the literal `l`: a minus sign or none and
digits, `X` and hexadecimal digits, or `B` and binary digits, at least one digit each time. -/
inductive LiteralShape (word : String) : Literal → Prop
  | decimal {ds : List Char} (hne : ds ≠ []) (hds : ∀ c ∈ ds, c.isDigit)
      (h : word.toList = ds ∨ word.toList = '-' :: ds) : LiteralShape word (.decimal word)
  | hex {ds : List Char} (hne : ds ≠ []) (hds : ∀ c ∈ ds, c.isHexDigit)
      (h : word.toList = 'X' :: ds) : LiteralShape word (.hex word)
  | binary {ds : List Char} (hne : ds ≠ []) (hds : ∀ c ∈ ds, c = '0' ∨ c = '1')
      (h : word.toList = 'B' :: ds) : LiteralShape word (.binary word)

/-- `Classifies word t`: by the rules of the language the word is the token `t`: a name of
an operator or modifier first, then a variable, then a literal, and else an unknown word. -/
inductive Classifies (word : String) : Token → Prop
  | name {t : Token} (h : Token.ofName? word = some t) : Classifies word t
  | var {v : Variable} (hn : Token.ofName? word = none) (hv : Variable.ofName? word = some v) :
      Classifies word (.var v)
  | literal {l : Literal} (hn : Token.ofName? word = none) (hv : Variable.ofName? word = none)
      (hl : LiteralShape word l) : Classifies word (.literal l)
  | unknown (hn : Token.ofName? word = none) (hv : Variable.ofName? word = none)
      (hl : ∀ l, ¬ LiteralShape word l) : Classifies word (.unknown word)

theorem isHexDigit_iff (c : Char) :
    (c.isDigit || ('A' ≤ c && c ≤ 'F') || ('a' ≤ c && c ≤ 'f')) = c.isHexDigit := by
  simp only [Char.isHexDigit, Char.le_def, ge_iff_le]
  cases c.isDigit <;> simp only [Bool.false_or, Bool.true_or, Bool.or_comm]

theorem digitsCheck_iff (p : Char → Bool) (ds : List Char) :
    (!ds.isEmpty && ds.all p) = true ↔ ds ≠ [] ∧ ∀ c ∈ ds, p c = true := by
  simp only [Bool.and_eq_true, Bool.not_eq_true', List.isEmpty_eq_false_iff, List.all_eq_true]

theorem binaryDigit_iff (c : Char) : (c == '0' || c == '1') = true ↔ c = '0' ∨ c = '1' := by
  simp only [Bool.or_eq_true, beq_iff_eq]

theorem LiteralShape.of_ofWord? {word : String} {l : Literal}
    (h : Literal.ofWord? word = some l) : LiteralShape word l := by
  unfold Literal.ofWord? at h
  dsimp only at h
  -- the decimal check comes first, on the digits after a minus sign if there is one
  split at h
  · next x ds hcs =>
    split at h
    · next hd =>
      cases h
      obtain ⟨hne, hds⟩ := (digitsCheck_iff _ _).mp hd
      exact .decimal hne hds (.inr hcs)
    · rw [hcs] at h
      cases h
  · next x hnot =>
    split at h
    · next hd =>
      cases h
      obtain ⟨hne, hds⟩ := (digitsCheck_iff _ _).mp hd
      exact .decimal hne hds (.inl rfl)
    · split at h
      · next ds hcs =>
        split at h
        · next hd =>
          cases h
          obtain ⟨hne, hds⟩ := (digitsCheck_iff _ _).mp hd
          exact .hex hne (fun c hc => isHexDigit_iff c ▸ hds c hc) hcs
        · cases h
      · next ds hcs =>
        split at h
        · next hd =>
          cases h
          obtain ⟨hne, hds⟩ := (digitsCheck_iff _ _).mp hd
          exact .binary hne (fun c hc => (binaryDigit_iff c).mp (hds c hc)) hcs
        · cases h
      · cases h

theorem LiteralShape.ofWord? {word : String} {l : Literal} (h : LiteralShape word l) :
    Literal.ofWord? word = some l := by
  unfold Literal.ofWord?
  dsimp only
  cases h with
  | @decimal ds hne hds h =>
    rw [if_pos]
    rcases h with h | h
    · cases ds with
      | nil => exact absurd rfl hne
      | cons a ds =>
        have ha : a ≠ '-' := fun ha => absurd (hds a List.mem_cons_self) (by rw [ha]; decide)
        simpa [h, ha] using hds
    · simpa [h, hne] using hds
  | @hex ds hne hds h =>
    have hx : ¬ ('X').isDigit := by decide
    rw [if_neg (by simp [h, hx]), h]
    split
    · next ds' heq =>
      cases heq
      rw [if_pos ((digitsCheck_iff _ _).mpr ⟨hne, fun c hc => (isHexDigit_iff c).symm ▸ hds c hc⟩)]
    · next ds' heq => simp at heq
    · next hnx _ => exact absurd rfl (hnx ds)
  | @binary ds hne hds h =>
    have hb : ¬ ('B').isDigit := by decide
    rw [if_neg (by simp [h, hb]), h]
    split
    · next ds' heq => simp at heq
    · next ds' heq =>
      cases heq
      rw [if_pos ((digitsCheck_iff _ _).mpr ⟨hne, fun c hc => (binaryDigit_iff c).mpr (hds c hc)⟩)]
    · next _ hnb => exact absurd rfl (hnb ds)

theorem classifies_classify (word : String) : Classifies word (classify word) := by
  cases hn : Token.ofName? word with
  | some t =>
    simp only [classify, hn]
    exact .name hn
  | none =>
    cases hv : Variable.ofName? word with
    | some v =>
      simp only [classify, hn, hv]
      exact .var hn hv
    | none =>
      cases hl : Literal.ofWord? word with
      | some l =>
        simp only [classify, hn, hv, hl]
        exact .literal hn hv (.of_ofWord? hl)
      | none =>
        simp only [classify, hn, hv, hl]
        exact .unknown hn hv fun l hs => by rw [hs.ofWord?] at hl; cases hl

theorem Classifies.classify_eq {word : String} {t : Token} (h : Classifies word t) :
    classify word = t := by
  cases h with
  | name h => simp only [classify, h]
  | var hn hv => simp only [classify, hn, hv]
  | literal hn hv hl => simp only [classify, hn, hv, hl.ofWord?]
  | unknown hn hv hl =>
    have hnone : Literal.ofWord? word = none := by
      cases h' : Literal.ofWord? word with
      | none => rfl
      | some l => exact absurd (.of_ofWord? h') (hl l)
    simp only [classify, hn, hv, hnone]

/-! ### Where the first `//` stands -/

theorem toUpper_eq_slash_iff (c : Char) : c.toUpper = '/' ↔ c = '/' := by
  unfold Char.toUpper
  split
  · next h =>
    refine ⟨fun he => ?_, fun he => ?_⟩
    · -- an upper-cased lower-case letter lies in `A`..`Z`
      have hv := congrArg (fun x : Char => x.val.toNat) he
      simp only [UInt32.toNat_add] at hv
      rw [UInt32.le_iff_toNat_le, UInt32.le_iff_toNat_le] at h
      simp at hv h
      omega
    · subst he
      simp at h
  · exact Iff.rfl

theorem slashes_prefix_cons_iff (a : Char) (l : List Char) :
    ['/', '/'] <+: a :: l ↔ a = '/' ∧ l.head? = some '/' := by
  cases l with
  | nil => simp
  | cons b l => simp [List.cons_prefix_cons, eq_comm]

theorem head?_append_slash (l post : List Char) :
    (l ++ '/' :: post).head? = (l ++ ['/']).head? := by
  cases l <;> rfl

theorem not_slashes_infix_slash : ¬ ['/', '/'] <:+: ['/'] :=
  fun h => absurd h.length_le (by decide)

theorem beforeRemark_eq_none_iff (w : List Char) :
    beforeRemark w = none ↔ ¬ ['/', '/'] <:+: w := by
  fun_induction beforeRemark w with
  | case1 tail =>
    simp only [reduceCtorEq, false_iff, Classical.not_not]
    exact (List.prefix_append ['/', '/'] tail).isInfix
  | case2 c r hnot ih =>
    have hstart : ¬ ['/', '/'] <+: c :: r := by
      rw [slashes_prefix_cons_iff]
      rintro ⟨hc, hr⟩
      obtain ⟨tail, rfl⟩ : ∃ tail, r = '/' :: tail := by
        cases r with
        | nil => cases hr
        | cons d tail => cases hr; exact ⟨tail, rfl⟩
      exact hnot tail hc rfl
    rw [Option.map_eq_none_iff, ih, List.infix_cons_iff, or_iff_right hstart]
  | case3 =>
    simp only [true_iff]
    exact fun h => absurd h.length_le (by decide)

theorem beforeRemark_eq_some_iff (w pre : List Char) :
    beforeRemark w = some pre ↔
      ∃ post, w = pre ++ '/' :: '/' :: post ∧ ¬ ['/', '/'] <:+: pre ++ ['/'] := by
  fun_induction beforeRemark w generalizing pre with
  | case1 tail =>
    constructor
    · rintro ⟨⟩
      exact ⟨tail, rfl, not_slashes_infix_slash⟩
    · rintro ⟨post, hw, hfirst⟩
      cases pre with
      | nil => rfl
      | cons a pre =>
        simp only [List.cons_append, List.cons.injEq] at hw
        obtain ⟨rfl, hw⟩ := hw
        refine absurd ((slashes_prefix_cons_iff _ _).mpr ⟨rfl, ?_⟩).isInfix hfirst
        show (pre ++ ['/']).head? = some '/'
        rw [← head?_append_slash pre ('/' :: post), ← hw]
        rfl
  | case2 c r hnot ih =>
    constructor
    · intro h
      obtain ⟨pre', hr, rfl⟩ := Option.map_eq_some_iff.mp h
      obtain ⟨post, rfl, hfirst⟩ := (ih pre').mp hr
      refine ⟨post, rfl, ?_⟩
      rw [List.cons_append, List.infix_cons_iff, not_or]
      refine ⟨?_, hfirst⟩
      rw [slashes_prefix_cons_iff]
      -- a `//` at `c` would have been found by the first equation
      rintro ⟨rfl, hhead⟩
      rw [← head?_append_slash pre' ('/' :: post)] at hhead
      obtain ⟨tail, htail⟩ : ∃ tail, pre' ++ '/' :: '/' :: post = '/' :: tail := by
        cases h' : pre' ++ '/' :: '/' :: post with
        | nil => rw [h'] at hhead; cases hhead
        | cons d tail => rw [h'] at hhead; cases hhead; exact ⟨tail, rfl⟩
      exact hnot tail rfl htail
    · rintro ⟨post, hw, hfirst⟩
      cases pre with
      | nil =>
        simp only [List.nil_append, List.cons.injEq] at hw
        exact absurd hw.2 (hnot post hw.1)
      | cons a pre' =>
        simp only [List.cons_append, List.cons.injEq] at hw
        obtain ⟨rfl, rfl⟩ := hw
        have hfirst' : ¬ ['/', '/'] <:+: pre' ++ ['/'] :=
          fun h => hfirst (h.trans (List.infix_cons (List.infix_refl _)))
        rw [(ih pre').mpr ⟨post, rfl, hfirst'⟩]
        rfl
  | case3 =>
    simp only [reduceCtorEq, false_iff, not_exists, not_and]
    intro post h
    cases pre <;> cases h

theorem beforeRemark_map_toUpper (w : List Char) :
    beforeRemark (w.map Char.toUpper) = (beforeRemark w).map (List.map Char.toUpper) := by
  fun_induction beforeRemark w with
  | case1 tail => rfl
  | case2 c r hnot ih =>
    rw [List.map_cons, beforeRemark.eq_2, ih, Option.map_map, Option.map_map]
    · rfl
    · -- an upper-cased `//` was a `//`
      intro tail hc hr
      cases r with
      | nil => cases hr
      | cons d r =>
        simp only [List.map_cons, List.cons.injEq] at hr
        exact hnot r ((toUpper_eq_slash_iff c).mp hc)
          (by rw [(toUpper_eq_slash_iff d).mp hr.1])
  | case3 => rfl

/-! ### The lexer, one first character at a time -/

/-- The lexer depends on the characters it is given only through where the first character
after the spacing stands and what follows it. -/
theorem lexFrom_congr {col col' : Nat} {cs cs' : List Char}
    (hd : cs.dropWhile isSpacing = cs'.dropWhile isSpacing)
    (ht : col + (cs.takeWhile isSpacing).length = col' + (cs'.takeWhile isSpacing).length) :
    lexFrom col cs = lexFrom col' cs' := by
  rw [lexFrom.eq_1 col cs, lexFrom.eq_1 col' cs']
  split
  · rename_i h₁
    symm
    split
    · rfl
    · rename_i h₂
      rw [← hd, h₁] at h₂
      cases h₂
  · rename_i c rest h₁
    symm
    split
    · rename_i h₂
      rw [← hd, h₁] at h₂
      cases h₂
    · rename_i c' rest' h₂
      rw [← hd, h₁] at h₂
      cases h₂
      simp only [ht]

theorem lexFrom_spacing {c : Char} (hc : isSpacing c = true) (col : Nat) (cs : List Char) :
    lexFrom col (c :: cs) = lexFrom (col + 1) cs :=
  lexFrom_congr (List.dropWhile_cons_of_pos hc)
    (by rw [List.takeWhile_cons_of_pos hc, List.length_cons]; omega)

section Word

variable {c : Char} (hc : inWord c = true) (col : Nat) (cs : List Char)
include hc

theorem not_spacing_of_inWord : ¬ isSpacing c = true := by
  simp_all [inWord]

theorem colon_of_inWord : (c == ':') = false := by
  simp_all [inWord, isSeparator]

theorem semicolon_of_inWord : (c == ';') = false := by
  simp_all [inWord, isSeparator]

theorem lexFrom_run (h : beforeRemark ((c :: cs.takeWhile inWord).map Char.toUpper) = none) :
    lexFrom col (c :: cs) =
      ⟨⟨col, col + (c :: cs.takeWhile inWord).length⟩,
        classify (String.ofList ((c :: cs.takeWhile inWord).map Char.toUpper))⟩ ::
      lexFrom (col + (c :: cs.takeWhile inWord).length) (cs.dropWhile inWord) := by
  have hs := not_spacing_of_inWord hc
  rw [lexFrom.eq_1]
  split
  · rename_i h'
    rw [List.dropWhile_cons_of_neg hs] at h'
    cases h'
  · rename_i d rest h'
    rw [List.dropWhile_cons_of_neg hs] at h'
    cases h'
    simp only [List.takeWhile_cons_of_neg hs, List.length_nil, Nat.add_zero,
      colon_of_inWord hc, semicolon_of_inWord hc, Bool.false_eq_true, if_false, h,
      List.length_map]

theorem lexFrom_remark {kept : List Char}
    (h : beforeRemark ((c :: cs.takeWhile inWord).map Char.toUpper) = some kept) :
    lexFrom col (c :: cs) =
      if kept.isEmpty then [] else [⟨⟨col, col + kept.length⟩, classify (String.ofList kept)⟩] := by
  have hs := not_spacing_of_inWord hc
  rw [lexFrom.eq_1]
  split
  · rename_i h'
    rw [List.dropWhile_cons_of_neg hs] at h'
    cases h'
  · rename_i d rest h'
    rw [List.dropWhile_cons_of_neg hs] at h'
    cases h'
    simp only [List.takeWhile_cons_of_neg hs, List.length_nil, Nat.add_zero,
      colon_of_inWord hc, semicolon_of_inWord hc, Bool.false_eq_true, if_false, h]

end Word

/-! ### The rules -/

/-- `Lexes col cs ls`: by the rules of the language, the characters `cs`, the first of them
at column `col`, are read as the lexemes `ls`. -/
inductive Lexes : Nat → List Char → List Lexeme → Prop
  /-- Nothing is left to read. -/
  | nil (col : Nat) : Lexes col [] []
  /-- A space or a tab stands for nothing. -/
  | spacing {col : Nat} {c : Char} {cs : List Char} {ls : List Lexeme} (hc : isSpacing c = true)
      (h : Lexes (col + 1) cs ls) : Lexes col (c :: cs) ls
  /-- `:` is the pre-separator. -/
  | preSep {col : Nat} {cs : List Char} {ls : List Lexeme} (h : Lexes (col + 1) cs ls) :
      Lexes col (':' :: cs) (⟨⟨col, col + 1⟩, .preSep⟩ :: ls)
  /-- `;` is the sub-separator. -/
  | subSep {col : Nat} {cs : List Char} {ls : List Lexeme} (h : Lexes (col + 1) cs ls) :
      Lexes col (';' :: cs) (⟨⟨col, col + 1⟩, .subSep⟩ :: ls)
  /-- A maximal run of word characters without `//` is one token: its text upper-cased,
  classified. -/
  | word {col : Nat} {w rest : List Char} {t : Token} {ls : List Lexeme} (hw : w ≠ [])
      (hin : ∀ c ∈ w, inWord c = true) (hmax : EndsWord rest)
      (hplain : ¬ ['/', '/'] <:+: w) (ht : Classifies (String.ofList (w.map Char.toUpper)) t)
      (h : Lexes (col + w.length) rest ls) :
      Lexes col (w ++ rest) (⟨⟨col, col + w.length⟩, t⟩ :: ls)
  /-- A run that starts with `//` ends the line with nothing more. -/
  | remark {col : Nat} {rest : List Char} : Lexes col ('/' :: '/' :: rest) []
  /-- A run that holds `//` further on ends the line there: the part before the first `//`
  is the last token. -/
  | remarkAfter {col : Nat} {pre rest : List Char} {t : Token} (hpre : pre ≠ [])
      (hin : ∀ c ∈ pre, inWord c = true) (hfirst : ¬ ['/', '/'] <:+: pre ++ ['/'])
      (ht : Classifies (String.ofList (pre.map Char.toUpper)) t) :
      Lexes col (pre ++ '/' :: '/' :: rest) [⟨⟨col, col + pre.length⟩, t⟩]

theorem Lexes.lexFrom_eq {col : Nat} {cs : List Char} {ls : List Lexeme} (h : Lexes col cs ls) :
    lexFrom col cs = ls := by
  induction h with
  | nil col => exact lexFrom_nil col
  | spacing hc _ ih => rw [lexFrom_spacing hc, ih]
  | preSep _ ih => rw [lexFrom_colon, ih]
  | subSep _ ih => rw [lexFrom_semicolon, ih]
  | @word col w rest t ls hw hin hmax hplain ht _ ih =>
    obtain ⟨c, w', rfl⟩ := List.exists_cons_of_ne_nil hw
    have hc : inWord c = true := hin c List.mem_cons_self
    have hin' : ∀ d ∈ w', inWord d = true := fun d hd => hin d (List.mem_cons_of_mem c hd)
    have htake := takeWhile_append_of_all hin' hmax
    have hdrop := dropWhile_append_of_all hin' hmax
    have hnone : beforeRemark ((c :: (w' ++ rest).takeWhile inWord).map Char.toUpper) = none := by
      rw [htake, beforeRemark_map_toUpper, (beforeRemark_eq_none_iff _).mpr hplain]
      rfl
    rw [List.cons_append, lexFrom_run hc col _ hnone, htake, hdrop, ih, ht.classify_eq]
  | @remark col rest =>
    have hslash : inWord '/' = true := by decide
    have hkept : beforeRemark (('/' :: ('/' :: rest).takeWhile inWord).map Char.toUpper) =
        some [] := by
      rw [List.takeWhile_cons_of_pos hslash]
      rfl
    rw [lexFrom_remark hslash col _ hkept]
    rfl
  | @remarkAfter col pre rest t hpre hin hfirst ht =>
    obtain ⟨c, pre', rfl⟩ := List.exists_cons_of_ne_nil hpre
    have hc : inWord c = true := hin c List.mem_cons_self
    have htake : (pre' ++ '/' :: '/' :: rest).takeWhile inWord =
        pre' ++ '/' :: '/' :: rest.takeWhile inWord := by
      rw [List.takeWhile_append_of_pos (fun d hd => hin d (List.mem_cons_of_mem c hd))]
      rfl
    have hkept : beforeRemark ((c :: (pre' ++ '/' :: '/' :: rest).takeWhile inWord).map
        Char.toUpper) = some ((c :: pre').map Char.toUpper) := by
      rw [htake, beforeRemark_map_toUpper, ← List.cons_append,
        (beforeRemark_eq_some_iff _ _).mpr ⟨_, rfl, hfirst⟩]
      rfl
    rw [List.cons_append, lexFrom_remark hc col _ hkept, List.length_map, ht.classify_eq]
    rfl

theorem inWord_of_ne {c : Char} (hs : ¬ isSpacing c = true) (hcolon : c ≠ ':') (hsemi : c ≠ ';') :
    inWord c = true := by
  simp only [inWord, isSeparator, Bool.and_eq_true, Bool.not_eq_true', Bool.or_eq_false_iff,
    beq_eq_false_iff_ne]
  exact ⟨Bool.of_not_eq_true hs, hcolon, hsemi⟩

theorem lexes_run {c : Char} (hc : inWord c = true) (col : Nat) (cs : List Char)
    (hrest : Lexes (col + (c :: cs.takeWhile inWord).length) (cs.dropWhile inWord)
      (lexFrom (col + (c :: cs.takeWhile inWord).length) (cs.dropWhile inWord))) :
    Lexes col (c :: cs) (lexFrom col (c :: cs)) := by
  have hrun : c :: cs = (c :: cs.takeWhile inWord) ++ cs.dropWhile inWord := by
    rw [List.cons_append, List.takeWhile_append_dropWhile]
  have hin : ∀ d ∈ c :: cs.takeWhile inWord, inWord d = true := by
    intro d hd
    rcases List.mem_cons.mp hd with rfl | hd
    · exact hc
    · exact List.all_eq_true.mp List.all_takeWhile d hd
  cases hb : beforeRemark ((c :: cs.takeWhile inWord).map Char.toUpper) with
  | none =>
    rw [lexFrom_run hc col cs hb, hrun]
    refine .word (List.cons_ne_nil _ _) hin (fun d hd => ?_) ?_ (classifies_classify _) hrest
    · have hhead := List.head?_dropWhile_not inWord cs
      rw [Option.mem_def.mp hd] at hhead
      exact hhead
    · rw [beforeRemark_map_toUpper, Option.map_eq_none_iff] at hb
      exact (beforeRemark_eq_none_iff _).mp hb
  | some kept =>
    rw [lexFrom_remark hc col cs hb]
    rw [beforeRemark_map_toUpper, Option.map_eq_some_iff] at hb
    obtain ⟨pre, hpre, rfl⟩ := hb
    obtain ⟨post, hw, hfirst⟩ := (beforeRemark_eq_some_iff _ _).mp hpre
    rw [hrun, hw, List.append_assoc, List.cons_append, List.cons_append]
    cases pre with
    | nil => exact .remark
    | cons a pre' =>
      have hpre_in : ∀ d ∈ a :: pre', inWord d = true :=
        fun d hd => hin d (hw ▸ List.mem_append_left _ hd)
      simp only [List.map_cons, List.isEmpty_cons, Bool.false_eq_true, if_false,
        List.length_cons, List.length_map]
      exact .remarkAfter (List.cons_ne_nil _ _) hpre_in hfirst (classifies_classify _)

/-- What the lexer returns is what the rules give. The induction is on a bound of the length:
each rule reads at least one character before the lexer goes on. -/
theorem lexes_lexFrom (n : Nat) : ∀ (col : Nat) (cs : List Char), cs.length ≤ n →
    Lexes col cs (lexFrom col cs) := by
  induction n with
  | zero =>
    intro col cs hlen
    rw [List.length_eq_zero_iff.mp (Nat.le_zero.mp hlen), lexFrom_nil]
    exact .nil col
  | succ n ih =>
    intro col cs hlen
    cases cs with
    | nil =>
      rw [lexFrom_nil]
      exact .nil col
    | cons c cs =>
      have hlen' : cs.length ≤ n := by
        simp only [List.length_cons] at hlen
        omega
      -- the first character is spacing, a separator, or starts a run of word characters
      by_cases hs : isSpacing c = true
      · rw [lexFrom_spacing hs]
        exact .spacing hs (ih _ cs hlen')
      by_cases hcolon : c = ':'
      · subst hcolon
        rw [lexFrom_colon]
        exact .preSep (ih _ cs hlen')
      by_cases hsemi : c = ';'
      · subst hsemi
        rw [lexFrom_semicolon]
        exact .subSep (ih _ cs hlen')
      exact lexes_run (inWord_of_ne hs hcolon hsemi) col cs
        (ih _ _ (Nat.le_trans (List.dropWhile_suffix inWord).length_le hlen'))

end TriggerScript.Lexer

namespace TriggerScript

/-- The lexer reads a line by its rules, and the rules read it one way only: `lex s` is the
list of lexemes the rules give for the characters of `s`, counted from column zero. Each
`:` and `;` is a separator token, each maximal run of other characters besides spaces and
tabs one classified word, up to the first run holding `//`, of which only the part before the
`//` is read, if it is not empty; every span counts characters. -/
theorem lex_eq_iff_lexes (s : String) (ls : List Lexeme) : lex s = ls ↔ Lexer.Lexes 0 s.toList ls :=
  ⟨fun h => h ▸ Lexer.lexes_lexFrom _ 0 s.toList (Nat.le_refl _), fun h => h.lexFrom_eq⟩

end TriggerScript
