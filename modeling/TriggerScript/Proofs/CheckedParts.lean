import TriggerScript.Checked.Parts
import TriggerScript.Proofs.CheckedArithmetic
import TriggerScript.Proofs.StoredState
import TriggerScript.Proofs.RuntimeBounds
import TriggerScript.Proofs.MidiClock
import TriggerScript.Proofs.DelayOrder
import TriggerScript.Proofs.LexerRules
/-!
The parts of a scene in their ranges stop nothing.

A valid pattern has at most sixty-four values of data and its window inside the table, so
every shift, copy and read of its methods stays inside the table, and its cursor arithmetic is
far from the ends of a 32-bit word (`Pattern.Valid.untrapped`). A turtle on the grid reads its
direction from the table of eight and moves by at most a sixteen-bit step
(`Turtle.OnGrid.untrapped`). A calibration whose bounds are sixteen-bit readings scales in 32
bits, an `EVERY` counter at most `everyMax` counts on in sixteen, a MIDI batch of at most
twenty and a clock count below the largest divider count on, and the delay queue takes
entries out of its sixteen slots and numbers them in 64 bits while the number has room.

Reading a line stops nothing: the lexer gives a hexadecimal or binary literal only for a word
that starts with `X` or `B`, one byte each, and a literal's overflow is placed nowhere
before the parser places it (`Line.ofTextChecks_ok`).
-/

set_option autoImplicit false
set_option relaxedAutoImplicit false

namespace TriggerScript

open Checked

/-! ### Patterns -/

theorem Generator.offset64_lt {range : Nat} (hr : 0 < range) (zone : Nat) :
    ∀ (fuel : Nat) (g : Generator), (offset64 range zone fuel g).1 < range
  | 0, _ => hr
  | fuel + 1, g => by
    unfold offset64
    split
    rename_i v g' _
    dsimp only
    split
    · -- the high half of `v * range`, for a word `v`, is below `range`
      have hv : v.toNat < wordCount64 := UInt64.toNat_lt v
      exact Nat.div_lt_of_lt_mul (Nat.mul_lt_mul_of_pos_right hv hr)
    · exact offset64_lt hr zone fuel g'

theorem Generator.indexBelow_fst (g : Generator) (lo hi : Nat) :
    (g.indexBelow lo hi).1 = lo + (offset64 (hi - lo)
      ((hi - lo) <<< leadingZeros 64 (hi - lo) % wordCount64 - 1) attempts g).1 := rfl

theorem Generator.indexBelow_lt (g : Generator) {lo hi : Nat} (h : lo < hi) :
    (g.indexBelow lo hi).1 < hi := by
  have hk := offset64_lt (show 0 < hi - lo by omega)
    ((hi - lo) <<< leadingZeros 64 (hi - lo) % wordCount64 - 1) attempts g
  rw [indexBelow_fst]
  omega

namespace Pattern

variable {p : Pattern}

theorem positionChecks_ok (hl : p.len ≤ size) (i : Int16) : p.positionChecks i = .ok () := by
  obtain ⟨h₁, h₂⟩ := Int16.toInt_bounds i
  have hsize : size = 64 := rfl
  unfold positionChecks
  split
  · rw [i32_of (by omega) (by omega)]
    rfl
  · rfl

/-- Holding the cursor in a window never stops: a window that is not empty ends after its
start. -/
theorem clampIndexChecks_ok (p : Pattern) : p.clampIndexChecks = .ok () := by
  unfold clampIndexChecks
  split
  · rfl
  · rw [sizeSub_of (by omega), ok_bind, assert_of (by omega)]

theorem moveChecks_ok (hi : p.index ≤ size) (hf : p.finish ≤ size) (n : Int16) :
    p.moveChecks n = .ok () := by
  obtain ⟨h₁, h₂⟩ := Int16.toInt_bounds n
  have hsize : size = 64 := rfl
  unfold moveChecks
  split
  · rename_i hw
    rw [i32_of (by omega) (by omega), ok_bind]
    split
    · -- the offset's remainder by the width lies in the window's width
      have hr₁ := Int.emod_nonneg ((p.index : Int) + n.toInt - p.start)
        (show (p.finish : Int) - p.start ≠ 0 by omega)
      have hr₂ := Int.emod_lt_of_pos ((p.index : Int) + n.toInt - p.start)
        (show 0 < (p.finish : Int) - p.start by omega)
      simp (disch := omega) only [i32_of, ok_bind, remEuclid32_of]
      rfl
    · simp (disch := omega) only [i32_of, ok_bind, assert_of]
  · rfl

theorem insertChecks_ok (hl : p.len ≤ size) (i : Int16) : p.insertChecks i = .ok () := by
  have hpos := position_lt p i
  have hsize : size = 64 := rfl
  unfold insertChecks
  rw [positionChecks_ok hl, ok_bind]
  dsimp only
  split
  · rfl
  · rw [copyWithin_of (by omega) (by omega) (by omega), ok_bind, index_of (by omega)]

theorem removeChecks_ok (hl : p.len ≤ size) (i : Int16) : p.removeChecks i = .ok () := by
  have hsize : size = 64 := rfl
  unfold removeChecks
  split
  · rfl
  · rename_i h0
    rw [positionChecks_ok hl, ok_bind, sizeSub_of (by omega), ok_bind]
    simp (disch := omega) only [index_of, copyWithin_of, ok_bind]

theorem popChecks_ok (hl : p.len ≤ size) : p.popChecks = .ok () := by
  unfold popChecks
  split
  · rfl
  · rw [sizeSub_of (by omega), ok_bind, index_of (by omega)]

theorem randomChecks_ok (hf : p.finish ≤ size) (g : Generator) : p.randomChecks g = .ok () := by
  unfold randomChecks
  split
  · rfl
  · rename_i hw
    have hk := g.indexBelow_lt (Nat.lt_of_not_le hw)
    rw [range_of (by omega), ok_bind, index_of (by omega)]

/-- No method of the pattern stops the program, whatever its operands and generator. -/
structure Untrapped (p : Pattern) : Prop where
  position : ∀ i, p.positionChecks i = .ok ()
  move : ∀ n, p.moveChecks n = .ok ()
  setIndex : ∀ i, p.setIndexChecks i = .ok ()
  setStart : ∀ s, p.setStartChecks s = .ok ()
  setFinish : ∀ e, p.setFinishChecks e = .ok ()
  insert : ∀ i, p.insertChecks i = .ok ()
  remove : ∀ i, p.removeChecks i = .ok ()
  pop : p.popChecks = .ok ()
  data : p.dataChecks = .ok ()
  random : ∀ g, p.randomChecks g = .ok ()
  rewind : p.rewindChecks = .ok ()

theorem Valid.untrapped (h : p.Valid) : p.Untrapped where
  position := positionChecks_ok h.len_le
  move := moveChecks_ok
    (by have := h.index_in; have := h.start_le_finish; have := h.finish_le; omega) h.finish_le
  setIndex i := by rw [setIndexChecks, positionChecks_ok h.len_le, ok_bind, clampIndexChecks_ok]
  setStart s := by
    unfold setStartChecks
    split
    · rfl
    · exact clampIndexChecks_ok _
  setFinish e := by
    unfold setFinishChecks
    split
    · rfl
    · exact clampIndexChecks_ok _
  insert := insertChecks_ok h.len_le
  remove := removeChecks_ok h.len_le
  pop := popChecks_ok h.len_le
  data := slice_of (Nat.zero_le _) h.len_le
  random := randomChecks_ok h.finish_le
  rewind := clampIndexChecks_ok _

end Pattern

/-! ### The turtle -/

namespace Turtle

variable {t : Turtle}

theorem directions_bounds (k : Nat) :
    -1 ≤ (directions.getD k (0, 0)).1 ∧ (directions.getD k (0, 0)).1 ≤ 1 ∧
      -1 ≤ (directions.getD k (0, 0)).2 ∧ (directions.getD k (0, 0)).2 ≤ 1 := by
  have hall : ∀ d ∈ directions, -1 ≤ d.1 ∧ d.1 ≤ 1 ∧ -1 ≤ d.2 ∧ d.2 ≤ 1 := by decide
  rw [List.getD_eq_getElem?_getD]
  cases h : directions[k]? with
  | none => decide
  | some d => exact hall d (List.mem_of_getElem? h)

/-- A step of at most one cell, taken a sixteen-bit number of times, fits in sixteen bits
and one more. -/
theorem unit_mul_bounds {d n : Int} (hd₁ : -1 ≤ d) (hd₂ : d ≤ 1) (hn₁ : -32768 ≤ n)
    (hn₂ : n ≤ 32767) : -32768 ≤ d * n ∧ d * n ≤ 32768 := by
  rcases (show d = -1 ∨ d = 0 ∨ d = 1 by omega) with rfl | rfl | rfl <;> omega

theorem delta_eq (t : Turtle) (n : Int16) :
    t.delta n = ((directions.getD t.heading (0, 0)).1 * n.toInt,
      (directions.getD t.heading (0, 0)).2 * n.toInt) := rfl

theorem delta_bounds (t : Turtle) (n : Int16) :
    -32768 ≤ (t.delta n).1 ∧ (t.delta n).1 ≤ 32768 ∧
      -32768 ≤ (t.delta n).2 ∧ (t.delta n).2 ≤ 32768 := by
  rw [delta_eq]
  obtain ⟨hn₁, hn₂⟩ := Int16.toInt_bounds n
  obtain ⟨h₁, h₂, h₃, h₄⟩ := directions_bounds t.heading
  have hx := unit_mul_bounds h₁ h₂ hn₁ hn₂
  have hy := unit_mul_bounds h₃ h₄ hn₁ hn₂
  exact ⟨hx.1, hx.2, hy.1, hy.2⟩

theorem deltaChecks_ok (h : t.heading < 8) (n : Int16) : t.deltaChecks n = .ok () := by
  obtain ⟨h₁, h₂, h₃, h₄⟩ := delta_bounds t n
  rw [delta_eq] at h₁ h₂ h₃ h₄
  have hlen : directions.length = 8 := rfl
  unfold deltaChecks
  rw [index_of (by omega), ok_bind]
  simp (disch := omega) only [i32_of, ok_bind]
  rfl

theorem wrapCoordChecks_ok {c : Nat} {d : Int} (hc : c < gridSize) (hd₁ : -32768 ≤ d)
    (hd₂ : d ≤ 32768) : wrapCoordChecks c d = .ok () := by
  have hg : gridSize = 16 := rfl
  simp (disch := omega) only [wrapCoordChecks, i32_of, ok_bind, remEuclid32_of]
  rfl

theorem clampCoordChecks_ok {c : Nat} {d : Int} (hc : c < gridSize) (hd₁ : -32768 ≤ d)
    (hd₂ : d ≤ 32768) : clampCoordChecks c d = .ok () := by
  have hg : gridSize = 16 := rfl
  rw [clampCoordChecks, i32_of (by omega) (by omega)]
  rfl

theorem setCoordChecks_ok (v : Int16) : setCoordChecks v = .ok () := by
  obtain ⟨h₁, h₂⟩ := Int16.toInt_bounds v
  exact clampCoordChecks_ok (by decide) (by omega) (by omega)

theorem setHeadingChecks_ok (v : Int16) : setHeadingChecks v = .ok () := by
  rw [setHeadingChecks, remEuclid32_of (by decide)]
  rfl

/-- No move of the turtle stops the program, whatever its operands. -/
structure Untrapped (t : Turtle) : Prop where
  forward : ∀ n, t.forwardChecks n = .ok ()
  bump : ∀ n, t.bumpChecks n = .ok ()
  moveBy : ∀ dx dy, t.moveByChecks dx dy = .ok ()
  turn : ∀ n, t.turnChecks n = .ok ()
  quarterTurn : ∀ n, t.quarterTurnChecks n = .ok ()
  cell : t.cellChecks = .ok ()

theorem OnGrid.untrapped (h : t.OnGrid) : t.Untrapped where
  forward n := by
    obtain ⟨h₁, h₂, h₃, h₄⟩ := delta_bounds t n
    rw [forwardChecks, deltaChecks_ok h.heading_lt, ok_bind, wrapCoordChecks_ok h.x_lt h₁ h₂,
      ok_bind, wrapCoordChecks_ok h.y_lt h₃ h₄]
  bump n := by
    obtain ⟨h₁, h₂, h₃, h₄⟩ := delta_bounds t n
    rw [bumpChecks, deltaChecks_ok h.heading_lt, ok_bind, clampCoordChecks_ok h.x_lt h₁ h₂,
      ok_bind, clampCoordChecks_ok h.y_lt h₃ h₄]
  moveBy dx dy := by
    obtain ⟨hx₁, hx₂⟩ := Int16.toInt_bounds dx
    obtain ⟨hy₁, hy₂⟩ := Int16.toInt_bounds dy
    rw [moveByChecks, clampCoordChecks_ok h.x_lt (by omega) (by omega), ok_bind,
      clampCoordChecks_ok h.y_lt (by omega) (by omega)]
  turn n := by
    obtain ⟨h₁, h₂⟩ := Int16.toInt_bounds n
    have := h.heading_lt
    simp (disch := omega) only [turnChecks, i32_of, ok_bind, remEuclid32_of]
    rfl
  quarterTurn n := by
    obtain ⟨h₁, h₂⟩ := Int16.toInt_bounds n
    have := h.heading_lt
    simp (disch := omega) only [quarterTurnChecks, i32_of, ok_bind, remEuclid32_of]
    rfl
  cell := by
    have hg : gridSize = 16 := rfl
    rw [cellChecks, index_of h.y_lt, ok_bind, index_of h.x_lt]

end Turtle

/-! ### Calibration, counters and MIDI -/

namespace Calibration

/-- Scaling below a sixteen-bit upper bound stops nothing: the offset is below 2¹⁶, so its
product with full scale is below 2³⁰. -/
theorem scaleChecks_ok (raw : Nat) {lo hi : Nat} (hhi : hi < 65536) :
    scaleChecks raw lo hi = .ok () := by
  unfold scaleChecks
  split
  · rfl
  · rename_i hlt
    have hr₁ : lo ≤ max lo (min hi raw) := Nat.le_max_left _ _
    have hr₂ : max lo (min hi raw) ≤ hi := by omega
    have hfull : fullScale = 16383 := rfl
    rw [hfull]
    simp (disch := omega) only [assert_of, i32_of, ok_bind, quot32_of_nonneg]
    rfl

theorem readChecks_ok (c : Calibration) (which : Special) (raw : Nat) :
    c.readChecks which raw = .ok () := by
  cases which
  · exact scaleChecks_ok raw c.inMax.toNat_lt
  · exact scaleChecks_ok raw c.paramMax.toNat_lt

end Calibration

theorem everyTickChecks_ok {count : Nat} (h : count ≤ Scene.everyMax) :
    everyTickChecks count = .ok () := by
  have hmax : Scene.everyMax = 32766 := rfl
  rw [everyTickChecks, i16_of (by omega) (by omega)]
  rfl

/-- Receiving a message stops nothing while the batches hold at most twenty entries and the
clock count is below the largest divider. -/
theorem Midi.receiveChecks_controlChange (m : Midi) (ch num val : UInt8) :
    m.receiveChecks (.controlChange ch num val) =
      if (m.binding .controlChange).isSome then slice 0 m.controls.length batchLimit
      else pure () := rfl

theorem Midi.receiveChecks_clock (m : Midi) :
    m.receiveChecks .clock = discard (u8 (m.clockCount + 1)) := rfl

theorem Midi.receiveChecks_ok {m : Midi} (hb : m.Batched) (hc : m.ClockRange)
    (msg : MidiMessage) : m.receiveChecks msg = .ok () := by
  cases msg
  case controlChange =>
    rw [receiveChecks_controlChange]
    split
    · exact slice_of (Nat.zero_le _) hb.controls
    · rfl
  case clock =>
    have hlt := hc.count_lt
    have hmax : clockDivMax = 24 := rfl
    rw [receiveChecks_clock, u8_of (by omega) (by omega)]
    rfl
  all_goals rfl

namespace DelayQueue

theorem scheduleChecks_ok {q : DelayQueue} (h : q.nextSeq < seqLimit) : q.scheduleChecks = .ok () := by
  have hlim : seqLimit = 18446744073709551615 := rfl
  unfold scheduleChecks
  split
  · rfl
  · rw [u64_of (by omega) (by omega)]
    rfl

theorem Valid.popDueBeforeChecks_ok {q : DelayQueue} (h : q.Valid) (now : UInt32) (before : Nat) :
    q.popDueBeforeChecks now before = .ok () := by
  unfold popDueBeforeChecks
  split
  · rfl
  · rename_i e he
    rcases earliestDue_mem q.slots 0 none e.1 e.2 he with hnone | ⟨-, hslot, -⟩
    · cases hnone
    · have hk := (List.getElem?_eq_some_iff.mp hslot).1
      rw [Nat.sub_zero, h.length_slots] at hk
      exact index_of hk

end DelayQueue

/-! ### Reading a line -/

theorem Literal.value_error_span {l : Literal} {e : Error} (h : l.value = .error e) :
    e.span = Span.none := by
  unfold Literal.value at h
  split at h <;> dsimp only at h <;> split at h <;> cases h <;> rfl

/-- A literal the lexer gives is read without stopping: a hexadecimal or binary one starts
with a one-byte letter. -/
theorem Lexer.LiteralShape.literalChecks_ok {w : String} {l : Literal} (h : LiteralShape w l) :
    Grammar.literalChecks l = .ok () := by
  -- the letter is one byte, so the digits start at the second offset of the text
  have hstart : ∀ (c : Char) (ds : List Char), c.utf8Size = 1 →
      1 ∈ (((c :: ds).map Char.utf8Size).scanl (· + ·) 0) := by
    intro c ds hc
    cases ds <;> simp [List.scanl_cons, hc]
  have hvalue : l.valueChecks = .ok () := by
    cases h with
    | decimal => rfl
    | hex _ _ hw => exact fromByte_of (by rw [charStarts, hw]; exact hstart _ _ rfl)
    | binary _ _ hw => exact fromByte_of (by rw [charStarts, hw]; exact hstart _ _ rfl)
  rw [Grammar.literalChecks, hvalue, ok_bind]
  split
  · rfl
  · rename_i e he
    exact assert_of (Literal.value_error_span he)

theorem Lexer.Classifies.literalChecks_ok {w : String} {t : Token} (h : Classifies w t) :
    t.literalChecks = .ok () := by
  cases h with
  | name h =>
    unfold Token.ofName? at h
    split at h
    · cases h
      rfl
    · obtain ⟨m, -, rfl⟩ := Option.map_eq_some_iff.mp h
      rfl
  | var => rfl
  | literal _ _ hl => exact hl.literalChecks_ok
  | unknown => rfl

theorem Lexer.Lexes.ofLexemesChecks_ok {col : Nat} {cs : List Char} {ls : List Lexeme}
    (h : Lexes col cs ls) : Command.ofLexemesChecks ls = .ok () := by
  induction h with
  | nil => rfl
  | spacing _ _ ih => exact ih
  | preSep _ ih => exact ih
  | subSep _ ih => exact ih
  | word _ _ _ _ ht _ ih =>
    simp only [Command.ofLexemesChecks, List.forM_cons, ht.literalChecks_ok, ok_bind]
    exact ih
  | remark => rfl
  | remarkAfter _ _ _ ht =>
    simp only [Command.ofLexemesChecks, List.forM_cons, ht.literalChecks_ok, ok_bind]
    rfl

theorem Command.ofLexemesChecks_lex (s : String) : Command.ofLexemesChecks (lex s) = .ok () :=
  ((lex_eq_iff_lexes s _).mp rfl).ofLexemesChecks_ok

theorem Line.ofTextChecks_ok (s : String) : Line.ofTextChecks s = .ok () :=
  Command.ofLexemesChecks_lex _

end TriggerScript
