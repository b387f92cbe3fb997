import TriggerScript.Machine.Scene
import TriggerScript.Proofs.RecordCodec
import Mathlib.Data.List.DropRight
/-!
What a stored scene is made of.

A scene record can only hold what its fields can hold, and reading a record checks each
field again. This module states those field by field: a line is kept as its own canonical
text, which compiles back to the same line and fits its field (`Line.Stored`); a pattern
keeps its cursor in its window and its data length in range (`Pattern.Valid`); and a scene
has the fixed number of scripts, variables, patterns, inputs, description lines and MIDI
bindings, each of them in range (`Scene.Stored`).

Canonical text is what `Line.ofText` makes of any source: trimmed of blanks and
upper-cased. Compiling it again changes nothing (`Line.ofText_ofText_text`).
-/

set_option autoImplicit false
set_option relaxedAutoImplicit false

namespace TriggerScript

open Record

/-! ### Canonical text -/

namespace Text

theorem toNat_toUpper (c : Char) :
    c.toUpper.toNat = if 97 ≤ c.toNat ∧ c.toNat ≤ 122 then c.toNat - 32 else c.toNat := by
  unfold Char.toUpper
  split <;> rename_i h <;> simp [UInt32.le_iff_toNat_le] at h
  · simp [UInt32.toNat_add]
    rw [if_pos ⟨by omega, by omega⟩]
    omega
  · rw [if_neg (by omega)]

theorem toUpper_toUpper (c : Char) : c.toUpper.toUpper = c.toUpper := by
  apply Char.toNat_inj.mp
  rw [toNat_toUpper, toNat_toUpper c]
  by_cases h : 97 ≤ c.toNat ∧ c.toNat ≤ 122
  · simp only [if_pos h]
    rw [if_neg (by omega)]
  · simp only [if_neg h]

theorem isBlank_toUpper (c : Char) : isBlank c.toUpper = isBlank c := by
  have h := toNat_toUpper c
  have hletter : ∀ d : Char, 65 ≤ d.toNat → d.toNat ≤ 122 → isBlank d = false := by
    intro d h₁ h₂
    simp [isBlank]
    omega
  by_cases hl : 97 ≤ c.toNat ∧ c.toNat ≤ 122
  · rw [if_pos hl] at h
    rw [hletter c.toUpper (by omega) (by omega), hletter c (by omega) (by omega)]
  · rw [if_neg hl] at h
    unfold isBlank
    rw [h]

theorem trimBlanks_map_toUpper (cs : List Char) :
    trimBlanks (cs.map Char.toUpper) = (trimBlanks cs).map Char.toUpper := by
  have hp : (isBlank ∘ Char.toUpper) = isBlank := funext isBlank_toUpper
  simp only [trimBlanks, List.dropWhile_map, hp, ← List.map_reverse]

/-- Trimming a trimmed list changes nothing: it starts and ends with a character that is
not blank. -/
theorem trimBlanks_trimBlanks (cs : List Char) : trimBlanks (trimBlanks cs) = trimBlanks cs := by
  have hrd : ∀ l : List Char, trimBlanks l = (l.dropWhile isBlank).rdropWhile isBlank := fun _ => rfl
  set d := cs.dropWhile isBlank with hd
  have hhead : ∀ h : 0 < d.length, ¬ isBlank (d.get ⟨0, h⟩) :=
    List.dropWhile_eq_self_iff.mp (List.dropWhile_idempotent isBlank cs)
  have hpre : d.rdropWhile isBlank <+: d := List.rdropWhile_prefix isBlank d
  have hkeep : (d.rdropWhile isBlank).dropWhile isBlank = d.rdropWhile isBlank := by
    refine List.dropWhile_eq_self_iff.mpr fun h => ?_
    have hlen : 0 < d.length := Nat.lt_of_lt_of_le h hpre.length_le
    have := hhead hlen
    rwa [List.get_eq_getElem, ← hpre.getElem h] at this
  rw [hrd, hrd, ← hd, hkeep, List.rdropWhile_idempotent]

theorem upperAscii_trim_upperAscii_trim (s : String) :
    upperAscii (trim (upperAscii (trim s))) = upperAscii (trim s) := by
  simp only [upperAscii, trim, String.toList_ofList, trimBlanks_map_toUpper, trimBlanks_trimBlanks,
    List.map_map]
  congr 2
  exact funext toUpper_toUpper

theorem fits_upperAscii_trim {width : Nat} {s : String} (h : Fits width s) :
    Fits width (upperAscii (trim s)) := by
  have hsub : (trimBlanks s.toList).Sublist s.toList := by
    have h₁ := (List.dropWhile_sublist isBlank (l := (s.toList.dropWhile isBlank).reverse)).reverse
    rw [List.reverse_reverse] at h₁
    exact h₁.trans (List.dropWhile_sublist _)
  have hchars : (upperAscii (trim s)).toList = (trimBlanks s.toList).map Char.toUpper := by
    simp only [upperAscii, trim, String.toList_ofList]
  have hprint : ∀ c ∈ (upperAscii (trim s)).toList, Line.isPrintable c = true := by
    rw [hchars]
    intro c hc
    obtain ⟨d, hd, rfl⟩ := List.mem_map.mp hc
    have hp := isPrintable_iff.mp (h.1 d (hsub.subset hd))
    have hu := toNat_toUpper d
    refine isPrintable_iff.mpr ?_
    split at hu <;> omega
  refine ⟨hprint, ?_⟩
  rw [utf8ByteSize_of_ascii fun c hc => by have := isPrintable_iff.mp (hprint c hc); omega, hchars,
    List.length_map]
  have := h.length_le
  have := hsub.length_le
  omega

end Text

/-! ### Stored lines -/

namespace Line

theorem ofText_text (s : String) : (ofText s).text = Text.upperAscii (Text.trim s) := by
  unfold ofText
  dsimp only
  split <;> rfl

theorem ofText_ofText_text (s : String) : ofText (ofText s).text = ofText s := by
  rw [ofText_text]
  unfold ofText
  rw [Text.upperAscii_trim_upperAscii_trim]

theorem check_eq_ok_iff {t : String} : check t = .ok () ↔ Fits maxLength t := by
  unfold check Fits
  cases hfind : t.toList.findIdx? (fun c => !isPrintable c) with
  | some pos =>
    have hnot : ¬ ∀ c ∈ t.toList, isPrintable c = true := fun hall => by
      rw [List.findIdx?_eq_none_iff.mpr fun c hc => by simp [hall c hc]] at hfind
      cases hfind
    simp only [reduceCtorEq, false_iff]
    exact fun h => hnot h.1
  | none =>
    have hall : ∀ c ∈ t.toList, isPrintable c = true := fun c hc => by
      simpa using List.findIdx?_eq_none_iff.mp hfind c hc
    by_cases hlong : t.utf8ByteSize > maxLength
    · simp only [if_pos hlong, reduceCtorEq, false_iff]
      exact fun h => absurd h.2 (by omega)
    · simp only [if_neg hlong, true_iff]
      exact ⟨hall, by omega⟩

theorem isStorable_iff {l : Line} : l.isStorable = true ↔ Fits maxLength l.text := by
  rw [← check_eq_ok_iff]
  unfold isStorable
  split <;> simp_all

/-- A line as a scene keeps it: compiled from its own text, which fits its field. -/
def Stored (l : Line) : Prop := ofText l.text = l ∧ Fits maxLength l.text

theorem stored_ofText {s : String} (h : (ofText s).isStorable = true) : (ofText s).Stored :=
  ⟨ofText_ofText_text s, isStorable_iff.mp h⟩

theorem stored_ofText_of_fits {s : String} (h : Fits maxLength s) : (ofText s).Stored :=
  ⟨ofText_ofText_text s, by rw [ofText_text]; exact Text.fits_upperAscii_trim h⟩

end Line

/-! ### Stored scripts -/

namespace Script

/-- A script as a scene keeps it: at most six lines, each stored. -/
structure Stored (sc : Script) : Prop where
  length_le : sc.lines.length ≤ maxLines
  lines : ∀ l ∈ sc.lines, l.Stored

theorem stored_empty : empty.Stored := ⟨by decide, by simp [empty]⟩

variable {sc sc' : Script} {n : Nat} {l : Line}

theorem Stored.lines_ofText (hs : sc.Stored) : sc.lines.map (fun l => Line.ofText l.text) = sc.lines :=
  (List.map_congr_left fun l hl => (hs.lines l hl).1).trans (List.map_id' _)

theorem Stored.insertLine (hs : sc.Stored) (hl : l.Stored) (h : sc.insertLine n l = .ok sc') :
    sc'.Stored := by
  unfold Script.insertLine at h
  split at h
  · cases h
  · split at h
    · cases h
    · cases h
      rename_i hn hfull
      refine ⟨by simp [List.length_insertIdx_of_le_length (Nat.le_of_not_lt hn)]; omega, ?_⟩
      intro l' hl'
      rcases (List.mem_insertIdx (Nat.le_of_not_lt hn)).mp hl' with rfl | hl'
      · exact hl
      · exact hs.lines l' hl'

theorem Stored.setLine (hs : sc.Stored) (hl : l.Stored) (h : sc.setLine n l = .ok sc') :
    sc'.Stored := by
  unfold Script.setLine at h
  split at h
  · cases h
    refine ⟨by simpa using hs.length_le, fun l' hl' => ?_⟩
    rcases List.mem_or_eq_of_mem_set hl' with hl' | rfl
    · exact hs.lines l' hl'
    · exact hl
  · split at h
    · exact hs.insertLine hl h
    · cases h

theorem Stored.deleteLine (hs : sc.Stored) (h : sc.deleteLine n = .ok sc') : sc'.Stored := by
  unfold Script.deleteLine at h
  split at h
  · cases h
    exact ⟨(List.length_eraseIdx_le _ _).trans hs.length_le,
      fun l' hl' => hs.lines l' (List.mem_of_mem_eraseIdx hl')⟩
  · cases h

end Script

/-! ### Valid patterns -/

namespace Pattern

/-- A pattern as every operation leaves it: sixty-four values, the data length and the window
inside them, and the cursor inside the window, or at its start when it is empty. -/
structure Valid (p : Pattern) : Prop where
  values_length : p.values.length = size
  len_le : p.len ≤ size
  start_le_finish : p.start ≤ p.finish
  finish_le : p.finish ≤ size
  start_le_index : p.start ≤ p.index
  index_in : p.index < p.finish ∨ p.index = p.start

theorem valid_empty : empty.Valid := ⟨by simp [empty], by decide, by decide, by decide, by decide,
  by decide⟩

theorem Valid.ofParts {p : Pattern} (h : p.Valid) :
    ofParts? p.values p.len p.start p.finish p.index p.wrap = some p := by
  have := h.len_le
  have := h.start_le_finish
  have := h.finish_le
  have := h.start_le_index
  have := h.index_in
  unfold ofParts?
  rw [if_neg]
  split <;> omega

theorem valid_of_ofParts {values : List Int16} {len start finish index : Nat} {wrap : Bool}
    {p : Pattern} (hv : values.length = size)
    (h : ofParts? values len start finish index wrap = some p) : p.Valid := by
  unfold ofParts? at h
  dsimp only at h
  by_cases hbad : len > size ∨ start > finish ∨ finish > size ∨
      ¬(if start < finish then start ≤ index ∧ index < finish else index = start)
  · rw [if_pos hbad] at h
    cases h
  · rw [if_neg hbad] at h
    cases h
    simp only [not_or, not_lt, not_not] at hbad
    obtain ⟨hl, hs, hf, hw⟩ := hbad
    refine ⟨hv, hl, hs, hf, ?_, ?_⟩ <;> dsimp only <;> split at hw <;> omega

variable {p : Pattern}

theorem valid_clampIndex (hv : p.values.length = size) (hl : p.len ≤ size)
    (hs : p.start ≤ p.finish) (hf : p.finish ≤ size) : p.clampIndex.Valid := by
  unfold clampIndex
  split <;> exact ⟨hv, hl, hs, hf, by dsimp only; omega, by dsimp only; omega⟩

theorem Valid.withValues (h : p.Valid) {values : List Int16} (hv : values.length = size) :
    { p with values }.Valid :=
  ⟨hv, h.len_le, h.start_le_finish, h.finish_le, h.start_le_index, h.index_in⟩

theorem Valid.withLen (h : p.Valid) {len : Nat} (hl : len ≤ size) : { p with len }.Valid :=
  ⟨h.values_length, hl, h.start_le_finish, h.finish_le, h.start_le_index, h.index_in⟩

theorem Valid.set (h : p.Valid) (v : Int16) : (p.set v).Valid :=
  h.withValues (by simp [h.values_length])

theorem Valid.setAt (h : p.Valid) (i v : Int16) : (p.setAt i v).Valid :=
  h.withValues (by simp [h.values_length])

theorem Valid.setWrap (h : p.Valid) (w : Bool) : (p.setWrap w).Valid :=
  ⟨h.values_length, h.len_le, h.start_le_finish, h.finish_le, h.start_le_index, h.index_in⟩

theorem Valid.setLen (h : p.Valid) (l : Int16) : (p.setLen l).Valid :=
  h.withLen (by simp only [size]; omega)

theorem Valid.setIndex (h : p.Valid) (i : Int16) : (p.setIndex i).Valid :=
  valid_clampIndex h.values_length h.len_le h.start_le_finish h.finish_le

theorem Valid.rewind (h : p.Valid) : p.rewind.Valid :=
  valid_clampIndex h.values_length h.len_le h.start_le_finish h.finish_le

theorem Valid.setStart (h : p.Valid) (v : Int16) : (p.setStart v).2.Valid := by
  unfold Pattern.setStart
  split
  · exact h
  · rename_i hok
    simp only [not_or, gt_iff_lt, not_lt] at hok
    exact valid_clampIndex h.values_length h.len_le hok.2 h.finish_le

theorem Valid.setFinish (h : p.Valid) (v : Int16) : (p.setFinish v).2.Valid := by
  unfold Pattern.setFinish
  split
  · exact h
  · rename_i hok
    simp only [not_or, gt_iff_lt, not_lt] at hok
    exact valid_clampIndex h.values_length h.len_le hok.2.1 hok.2.2

theorem Valid.push (h : p.Valid) (v : Int16) : (p.push v).Valid := by
  unfold Pattern.push
  split
  · exact ⟨by simp [h.values_length], by simp; omega, h.start_le_finish, h.finish_le,
      h.start_le_index, h.index_in⟩
  · exact h

theorem Valid.pop (h : p.Valid) : p.pop.2.Valid := by
  unfold Pattern.pop
  split
  · exact h
  · exact h.withLen (by have := h.len_le; omega)

theorem position_lt (p : Pattern) (i : Int16) : p.position i < size := by
  unfold position
  simp only [size]
  omega

theorem Valid.insert (h : p.Valid) (i v : Int16) : (p.insert i v).Valid := by
  have hv := h.values_length
  unfold Pattern.insert
  dsimp only
  split
  · exact h
  · rename_i hpos
    refine ⟨?_, by dsimp only; omega, h.start_le_finish, h.finish_le, h.start_le_index, h.index_in⟩
    simp only [List.length_append, List.length_take, List.length_drop, List.length_singleton, hv]
    simp only [size] at hpos ⊢
    omega

theorem Valid.remove (h : p.Valid) (i : Int16) : (p.remove i).2.Valid := by
  have hv := h.values_length
  have hl := h.len_le
  have hpos := position_lt p i
  unfold Pattern.remove
  dsimp only
  split
  · exact h
  · rename_i hlen
    refine ⟨?_, by dsimp only; omega, h.start_le_finish, h.finish_le, h.start_le_index, h.index_in⟩
    simp only [List.length_append, List.length_take, List.length_drop, List.length_singleton, hv]
    simp only [size] at hv hl hpos ⊢
    omega

theorem Valid.move (h : p.Valid) (n : Int16) : (p.move n).Valid := by
  unfold Pattern.move
  split
  · rename_i hw
    refine ⟨h.values_length, h.len_le, h.start_le_finish, h.finish_le, ?_, ?_⟩ <;>
      simp only <;> split
    · have := Int.emod_nonneg (↑p.index + n.toInt - ↑p.start) (by omega : (p.finish : Int) - p.start ≠ 0)
      omega
    · omega
    · have := Int.emod_lt_of_pos (↑p.index + n.toInt - ↑p.start) (by omega : (0 : Int) < p.finish - p.start)
      omega
    · omega
  · exact h

theorem Valid.step (h : p.Valid) (n : Int16) : (p.step n).2.Valid := h.move n

end Pattern

/-! ### Stored scenes -/

structure Persisted where
  scripts : List Script
  globals : List Int16
  patterns : List Pattern
  calibration : Calibration
  mutes : List Bool
  polarity : List Nat
  description : List String
  bindings : List Int
  clockDiv : Nat
  deriving DecidableEq

namespace Scene

abbrev persisted (s : Scene) : Persisted :=
  ⟨s.scripts, s.globals, s.patterns, s.calibration, s.mutes, s.polarity, s.description,
    s.midi.bindings, s.midi.clockDiv⟩

theorem samePersisted_iff {a b : Scene} : a.samePersisted b = true ↔ a.persisted = b.persisted := by
  simp [samePersisted, persisted, and_assoc]

/-- A scene whose stored part its record can hold: the fixed number of scripts, variables,
patterns, inputs, description lines and bindings, each in range. The calibration is left
out: a caller may set any bounds. -/
structure Stored (s : Scene) : Prop where
  scripts_length : s.scripts.length = scriptCount
  scripts : ∀ sc ∈ s.scripts, sc.Stored
  globals_length : s.globals.length = varCount
  patterns_length : s.patterns.length = patternCount
  patterns : ∀ p ∈ s.patterns, p.Valid
  mutes_length : s.mutes.length = triggerCount
  polarity_length : s.polarity.length = triggerCount
  polarity : ∀ p ∈ s.polarity, p ≤ 3
  description_length : s.description.length = descriptionLines
  description : ∀ t ∈ s.description, Fits descriptionLength t
  bindings_length : s.midi.bindings.length = Midi.kinds
  bindings : ∀ b ∈ s.midi.bindings, -1 ≤ b ∧ b < Midi.scriptCount
  clockDiv_pos : 1 ≤ s.midi.clockDiv
  clockDiv_le : s.midi.clockDiv ≤ Midi.clockDivMax

variable {s s' : Scene}

theorem Stored.congr (h : s.Stored) (e : { s'.persisted with calibration := s.calibration } =
    s.persisted) : s'.Stored := by
  simp only [persisted, Persisted.mk.injEq] at e
  obtain ⟨hsc, hg, hp, -, hm, hpol, hd, hb, hc⟩ := e
  exact ⟨hsc ▸ h.scripts_length, hsc ▸ h.scripts, hg ▸ h.globals_length, hp ▸ h.patterns_length,
    hp ▸ h.patterns, hm ▸ h.mutes_length, hpol ▸ h.polarity_length, hpol ▸ h.polarity,
    hd ▸ h.description_length, hd ▸ h.description, hb ▸ h.bindings_length, hb ▸ h.bindings,
    hc ▸ h.clockDiv_pos, hc ▸ h.clockDiv_le⟩

theorem fits_empty (width : Nat) : Fits width "" := ⟨by simp, by simp⟩

theorem stored_withSeed (seed : UInt64) : (withSeed seed).Stored where
  scripts_length := by simp [withSeed]
  scripts := by simp [withSeed, Script.stored_empty]
  globals_length := by simp [withSeed]
  patterns_length := by simp [withSeed]
  patterns := by simp [withSeed, Pattern.valid_empty]
  mutes_length := by simp [withSeed]
  polarity_length := by simp [withSeed]
  polarity := by simp [withSeed]
  description_length := by simp [withSeed]
  description := by simp [withSeed, fits_empty]
  bindings_length := by simp [withSeed, Midi.empty]
  bindings := by simp [withSeed, Midi.empty, Midi.scriptCount]
  clockDiv_pos := by simp [withSeed, Midi.empty]
  clockDiv_le := by simp [withSeed, Midi.empty, Midi.clockDivMax]

/-! Each stored field may change to anything its record can hold. -/

theorem Stored.withScripts (h : s.Stored) {scs : List Script} (hl : scs.length = scriptCount)
    (hv : ∀ sc ∈ scs, sc.Stored) : { s with scripts := scs }.Stored :=
  { h with scripts_length := hl, scripts := hv }

theorem Stored.withGlobals (h : s.Stored) {g : List Int16} (hl : g.length = varCount) :
    { s with globals := g }.Stored :=
  { h with globals_length := hl }

theorem Stored.withPatterns (h : s.Stored) {ps : List Pattern} (hl : ps.length = patternCount)
    (hv : ∀ p ∈ ps, p.Valid) : { s with patterns := ps }.Stored :=
  { h with patterns_length := hl, patterns := hv }

theorem Stored.withMutes (h : s.Stored) {m : List Bool} (hl : m.length = triggerCount) :
    { s with mutes := m }.Stored :=
  { h with mutes_length := hl }

theorem Stored.withPolarity (h : s.Stored) {ps : List Nat} (hl : ps.length = triggerCount)
    (hv : ∀ p ∈ ps, p ≤ 3) : { s with polarity := ps }.Stored :=
  { h with polarity_length := hl, polarity := hv }

theorem Stored.withDescription (h : s.Stored) {d : List String} (hl : d.length = descriptionLines)
    (hv : ∀ t ∈ d, Fits descriptionLength t) : { s with description := d }.Stored :=
  { h with description_length := hl, description := hv }

theorem Stored.withMidi (h : s.Stored) {m : Midi} (hl : m.bindings.length = Midi.kinds)
    (hb : ∀ b ∈ m.bindings, -1 ≤ b ∧ b < Midi.scriptCount) (hc : 1 ≤ m.clockDiv)
    (hc' : m.clockDiv ≤ Midi.clockDivMax) : { s with midi := m }.Stored :=
  { h with bindings_length := hl, bindings := hb, clockDiv_pos := hc, clockDiv_le := hc' }

theorem Stored.withMidiSame (h : s.Stored) {m : Midi} (hb : m.bindings = s.midi.bindings)
    (hc : m.clockDiv = s.midi.clockDiv) : { s with midi := m }.Stored :=
  h.withMidi (hb ▸ h.bindings_length) (hb ▸ h.bindings) (hc ▸ h.clockDiv_pos)
    (hc ▸ h.clockDiv_le)

theorem forall_mem_modify {α : Type} {P : α → Prop} {l : List α} {i : Nat} {f : α → α}
    (h : ∀ x ∈ l, P x) (hf : ∀ x ∈ l, P (f x)) : ∀ y ∈ l.modify i f, P y := by
  intro y hy
  obtain ⟨j, hj, rfl⟩ := List.getElem_of_mem hy
  rw [List.getElem_modify]
  split
  · exact hf _ (List.getElem_mem _)
  · exact h _ (List.getElem_mem _)

theorem forall_mem_set {α : Type} {P : α → Prop} {l : List α} {i : Nat} {a : α}
    (h : ∀ x ∈ l, P x) (ha : P a) : ∀ y ∈ l.set i a, P y := fun _ hy =>
  (List.mem_or_eq_of_mem_set hy).elim (h _) fun e => e ▸ ha

theorem Stored.modifyPattern (h : s.Stored) (n : Nat) {f : Pattern → Pattern}
    (hf : ∀ p ∈ s.patterns, (f p).Valid) : (s.modifyPattern n f).Stored :=
  h.withPatterns (by simp [h.patterns_length]) (forall_mem_modify h.patterns hf)

theorem Stored.pattern_valid (h : s.Stored) (n : Nat) : (s.pattern n).Valid := by
  unfold pattern
  rw [List.getD_eq_getElem?_getD]
  cases hp : s.patterns[min n (patternCount - 1)]? with
  | none => exact Pattern.valid_empty
  | some p => exact h.patterns p (List.mem_of_getElem? hp)

end Scene

end TriggerScript
