import TriggerScript.Record.Scene
import TriggerScript.Proofs.StoredState
/-!
Reading a scene image back.

The reader of a scene image is a codec for the writer, field by field (`Reader.Codec`):
a script is its line count and six text fields, of which those past the count are empty,
and reading it compiles each line from its text; a pattern is its values and four words
and a flag, which must fit together; the fields after the version follow one another,
and layout 2 adds the description, the bindings and the divider. So a stored scene reads
back as itself (`sceneOfImage_sceneImageVersion`), and every record that loads is the
image of the fields it loaded from (`sceneOfImage_inverts`).
-/

set_option autoImplicit false
set_option relaxedAutoImplicit false

namespace TriggerScript.Record

/-- The bytes of a script whose lines have these texts: the count, then six text fields. -/
def scriptImage (texts : List String) : List UInt8 :=
  [texts.length.toUInt8] ++ (List.range Script.maxLines).flatMap fun n =>
    text (texts[n]?.getD "") Line.maxLength

/-- The bytes of a pattern: its values, then length, window, cursor and wrap flag. -/
def patternImage (p : Pattern) : List UInt8 :=
  p.values.flatMap int16 ++ word16 p.len ++ word16 p.start ++ word16 p.finish ++
    word16 p.index ++ [if p.wrap then 1 else 0]

theorem Pattern.eq_of_ofParts {values : List Int16} {len start finish index : Nat} {wrap : Bool}
    {p : Pattern} (h : Pattern.ofParts? values len start finish index wrap = some p) :
    p = ⟨values, len, start, finish, index, wrap⟩ := by
  unfold Pattern.ofParts? at h
  dsimp only at h
  by_cases hbad : len > Pattern.size ∨ start > finish ∨ finish > Pattern.size ∨
      ¬(if start < finish then start ≤ index ∧ index < finish else index = start)
  · rw [if_pos hbad] at h
    cases h
  · rw [if_neg hbad] at h
    cases h
    rfl

/-- What a scene image holds after its version: each script's line texts, the variables,
patterns, calibration, mutes and polarities, and, from layout 2, the description, the
bindings and the divider. -/
structure Fields where
  scripts : List (List String)
  globals : List Int16
  patterns : List Pattern
  calibration : Calibration
  mutes : List Bool
  polarity : List Nat
  description : List String
  bindings : List Int
  clockDiv : Nat

namespace Fields

/-- The bytes of the fields in a layout; layout 1 leaves out the last three. -/
def image (version : Nat) (f : Fields) : List UInt8 :=
  let c := f.calibration
  f.scripts.flatMap scriptImage ++ f.globals.flatMap int16 ++ f.patterns.flatMap patternImage ++
    (word16 c.inMin.toNat ++ word16 c.inMax.toNat ++ word16 c.paramMin.toNat ++
      word16 c.paramMax.toNat) ++
    f.mutes.map (fun m => if m then (1 : UInt8) else 0) ++ f.polarity.map Nat.toUInt8 ++
    if version ≥ 2 then
      f.description.flatMap (text · Scene.descriptionLength) ++
        f.bindings.map (fun b => (b % 256).toNat.toUInt8) ++ [f.clockDiv.toUInt8]
    else []

/-- The scene the fields make: a fresh scene holding them, each line compiled from its text. -/
def scene (f : Fields) : Scene :=
  { Scene.withSeed 0 with
    scripts := f.scripts.map fun texts => ⟨texts.map Line.ofText⟩
    globals := f.globals
    patterns := f.patterns
    calibration := f.calibration
    mutes := f.mutes
    polarity := f.polarity
    description := f.description
    midi := { (Scene.withSeed 0).midi with bindings := f.bindings, clockDiv := f.clockDiv } }

/-- Fields a layout can hold: the fixed counts, each field in range, and, in layout 1, the
description, bindings and divider of a fresh scene. -/
structure Ok (version : Nat) (f : Fields) : Prop where
  scripts_length : f.scripts.length = Scene.scriptCount
  scripts : ∀ texts ∈ f.scripts,
    texts.length ≤ Script.maxLines ∧ ∀ t ∈ texts, Fits Line.maxLength t
  globals_length : f.globals.length = Scene.varCount
  patterns_length : f.patterns.length = Scene.patternCount
  patterns : ∀ p ∈ f.patterns, p.Valid
  calibration : f.calibration.isValid = true
  mutes_length : f.mutes.length = Scene.triggerCount
  polarity_length : f.polarity.length = Scene.triggerCount
  polarity : ∀ p ∈ f.polarity, p ≤ 3
  extra : if version ≥ 2 then
      (f.description.length = Scene.descriptionLines ∧
        ∀ t ∈ f.description, Fits Scene.descriptionLength t) ∧
      (f.bindings.length = Midi.kinds ∧ ∀ b ∈ f.bindings, -1 ≤ b ∧ b < Midi.scriptCount) ∧
      (1 ≤ f.clockDiv ∧ f.clockDiv ≤ Midi.clockDivMax)
    else f.description = (Scene.withSeed 0).description ∧
      f.bindings = (Scene.withSeed 0).midi.bindings ∧ f.clockDiv = (Scene.withSeed 0).midi.clockDiv

end Fields

namespace Reader

theorem scriptLine_codec (count n : Nat) (acc : List Line) :
    Codec (do
        let t ← text Line.maxLength
        if n < count then pure (ForInStep.yield (acc ++ [Line.ofText t]))
        else if (!t.isEmpty) = true then do
          throw (corrupt "LINE COUNT")
          pure (ForInStep.yield acc)
        else pure (ForInStep.yield acc))
      (fun t => ForInStep.yield (if n < count then acc ++ [Line.ofText t] else acc))
      (fun t => Record.text t Line.maxLength)
      (fun t => Fits Line.maxLength t ∧ (count ≤ n → t = "")) where
  reads t ht rest := by
    rw [StateT.run_bind, (text_codec _).reads t ht.1 rest, ok_bind]
    by_cases hn : n < count
    · simp only [if_pos hn]
      rfl
    · have ht' : t = "" := ht.2 (by omega)
      subst ht'
      simp only [if_neg hn]
      rfl
  inverts input x rest h := by
    obtain ⟨t, mid, ht, hm⟩ := run_bind_ok h
    obtain ⟨t, hfit, rfl, rfl⟩ := (text_codec _).inverts _ _ _ ht
    by_cases hn : n < count
    · simp only [if_pos hn] at hm
      obtain ⟨rfl, rfl⟩ := pure_run_ok hm
      exact ⟨t, ⟨hfit, fun h => absurd h (by omega)⟩, by simp [hn], rfl⟩
    · simp only [if_neg hn] at hm
      by_cases he : (!t.isEmpty) = true
      · rw [if_pos he] at hm
        obtain ⟨_, _, hthrow, _⟩ := run_bind_ok hm
        exact (throw_run_ok hthrow).elim
      · rw [if_neg he] at hm
        obtain ⟨rfl, rfl⟩ := pure_run_ok hm
        have hempty : t = "" := String.isEmpty_iff.mp (by simpa using he)
        exact ⟨t, ⟨hfit, fun _ => hempty⟩, by simp [hn], rfl⟩

theorem foldl_zip_range' {α β : Type} (h : α → β) (c : Nat) (l : List α) (k : Nat) (acc : List β) :
    ((List.range' k l.length).zip l).foldl (fun a p => if p.1 < c then a ++ [h p.2] else a) acc =
      acc ++ (l.take (c - k)).map h := by
  induction l generalizing k acc with
  | nil => simp
  | cons x l ih =>
    rw [List.length_cons, List.range'_succ, List.zip_cons_cons, List.foldl_cons]
    by_cases hk : k < c
    · rw [if_pos hk, ih, show c - k = c - (k + 1) + 1 by omega, List.take_succ_cons]
      simp
    · rw [if_neg hk, ih, show c - k = 0 by omega, show c - (k + 1) = 0 by omega]
      simp

theorem take_padded {texts : List String} {k : Nat} (h : texts.length ≤ k) :
    ((List.range k).map fun n => texts[n]?.getD "").take texts.length = texts := by
  rw [← List.map_take, List.take_range, Nat.min_eq_left h]
  refine List.ext_getElem (by simp) fun i h₁ h₂ => ?_
  simp [List.getElem?_eq_getElem h₂]

theorem padded_take {fields : List String} {c k : Nat} (hlen : fields.length = k)
    (hempty : ∀ i (hi : i < fields.length), c ≤ i → fields[i] = "") :
    (List.range k).map (fun n => (fields.take c)[n]?.getD "") = fields := by
  refine List.ext_getElem (by simp [hlen]) fun i h₁ h₂ => ?_
  simp only [List.getElem_map, List.getElem_range, List.getElem?_take]
  by_cases hi : i < c
  · simp [hi, List.getElem?_eq_getElem h₂]
  · simp [hi, hempty i h₂ (by omega)]

theorem script_codec :
    Codec script (fun texts => (⟨texts.map Line.ofText⟩ : Script)) scriptImage
      (fun texts => texts.length ≤ Script.maxLines ∧ ∀ t ∈ texts, Fits Line.maxLength t) where
  reads texts hok rest := by
    obtain ⟨hlen, hfit⟩ := hok
    have hfields : List.Forall₂ (fun n t => Fits Line.maxLength t ∧ (texts.length ≤ n → t = ""))
        (List.range Script.maxLines)
        ((List.range Script.maxLines).map fun n => texts[n]?.getD "") := by
      refine List.forall₂_map_right_iff.mpr (List.forall₂_same.mpr fun n _ => ?_)
      cases ht : texts[n]? with
      | none => exact ⟨Scene.fits_empty _, fun _ => rfl⟩
      | some t =>
        have hn : n < texts.length := (List.getElem?_eq_some_iff.mp ht).1
        exact ⟨hfit t (List.mem_of_getElem? ht), fun h => absurd h (by omega)⟩
    have hfold := foldl_zip_range' Line.ofText texts.length
      ((List.range Script.maxLines).map fun n => texts[n]?.getD "") 0 []
    rw [List.length_map, List.length_range, ← List.range_eq_range', Nat.sub_zero,
      take_padded hlen, List.nil_append] at hfold
    unfold script
    rw [scriptImage, ← List.flatMap_map (fun n => texts[n]?.getD "")
      (fun t => Record.text t Line.maxLength), List.append_assoc, StateT.run_bind,
      byte_codec.reads _ (by simp [Script.maxLines] at hlen ⊢; omega), ok_bind]
    simp only [id, gt_iff_lt, if_neg (Nat.not_lt.mpr hlen)]
    rw [StateT.run_bind, (forIn_codec (fun n acc => scriptLine_codec texts.length n acc) _ _).reads _
      hfields rest, ok_bind, hfold]
    rfl
  inverts input x rest h := by
    unfold script at h
    obtain ⟨count, mid, hc, hm⟩ := run_bind_ok h
    obtain ⟨count, hcount, rfl, rfl⟩ := byte_codec.inverts _ _ _ hc
    simp only at hm
    by_cases hbig : count > Script.maxLines
    · rw [if_pos hbig] at hm
      obtain ⟨_, _, hthrow, _⟩ := run_bind_ok hm
      exact (throw_run_ok hthrow).elim
    · rw [if_neg hbig] at hm
      obtain ⟨lines, mid', hloop, hp⟩ := run_bind_ok hm
      obtain ⟨rfl, rfl⟩ := pure_run_ok hp
      obtain ⟨fields, hok, rfl, rfl⟩ :=
        (forIn_codec (fun n acc => scriptLine_codec count n acc) _ _).inverts _ _ _ hloop
      have hlen : fields.length = Script.maxLines := by simpa using hok.length_eq.symm
      obtain ⟨-, hall⟩ := List.forall₂_iff_get.mp hok
      have hempty : ∀ i (hi : i < fields.length), count ≤ i → fields[i] = "" := fun i hi hci =>
        (hall i (by simpa [hlen] using hi) hi).2 (by simpa using hci)
      have hfold := foldl_zip_range' Line.ofText count fields 0 []
      rw [hlen, ← List.range_eq_range', Nat.sub_zero, List.nil_append] at hfold
      have htake : (fields.take count).length = count := by simp [hlen]; omega
      refine ⟨fields.take count, ⟨by simp; omega, fun t ht => ?_⟩, by rw [hfold], ?_⟩
      · obtain ⟨i, hi, rfl⟩ := List.getElem_of_mem ht
        rw [List.getElem_take]
        exact (hall i (by simp [htake] at hi; simp; omega) _).1
      · rw [scriptImage, ← List.flatMap_map (fun n => (fields.take count)[n]?.getD "")
          (fun t => Record.text t Line.maxLength), padded_take hlen hempty, htake]
        simp

theorem pattern_codec : Codec pattern id patternImage Pattern.Valid where
  reads p hp rest := by
    have hw : ∀ n, n ≤ Pattern.size → n < 65536 := fun n h => by simp [Pattern.size] at h; omega
    have hindex : p.index ≤ Pattern.size := by
      rcases hp.index_in with h | h
      · have := hp.finish_le; omega
      · have := hp.start_le_finish; have := hp.finish_le; omega
    unfold pattern
    simp only [patternImage, List.append_assoc]
    rw [StateT.run_bind, (many_codec int16_codec _).reads p.values
        ⟨hp.values_length, fun _ _ => trivial⟩, ok_bind, List.map_id,
      StateT.run_bind, word_codec.reads _ (hw _ hp.len_le), ok_bind,
      StateT.run_bind, word_codec.reads _ (hw _ (hp.start_le_finish.trans hp.finish_le)), ok_bind,
      StateT.run_bind, word_codec.reads _ (hw _ hp.finish_le), ok_bind,
      StateT.run_bind, word_codec.reads _ (hw _ hindex), ok_bind,
      StateT.run_bind, flag_codec.reads _ trivial, ok_bind]
    simp only [id, hp.ofParts]
    rfl
  inverts input x rest h := by
    unfold pattern at h
    obtain ⟨values, m₁, h₁, k₁⟩ := run_bind_ok h
    obtain ⟨values, ⟨hlen, -⟩, rfl, rfl⟩ := (many_codec int16_codec _).inverts _ _ _ h₁
    obtain ⟨len, m₂, h₂, k₂⟩ := run_bind_ok k₁
    obtain ⟨len, -, rfl, rfl⟩ := word_codec.inverts _ _ _ h₂
    obtain ⟨start, m₃, h₃, k₃⟩ := run_bind_ok k₂
    obtain ⟨start, -, rfl, rfl⟩ := word_codec.inverts _ _ _ h₃
    obtain ⟨finish, m₄, h₄, k₄⟩ := run_bind_ok k₃
    obtain ⟨finish, -, rfl, rfl⟩ := word_codec.inverts _ _ _ h₄
    obtain ⟨index, m₅, h₅, k₅⟩ := run_bind_ok k₄
    obtain ⟨index, -, rfl, rfl⟩ := word_codec.inverts _ _ _ h₅
    obtain ⟨wrap, m₆, h₆, k₆⟩ := run_bind_ok k₅
    obtain ⟨wrap, -, rfl, rfl⟩ := flag_codec.inverts _ _ _ h₆
    split at k₆
    · rename_i p hparts
      obtain ⟨rfl, rfl⟩ := pure_run_ok k₆
      rw [List.map_id] at hparts
      refine ⟨_, Pattern.valid_of_ofParts hlen hparts, rfl, ?_⟩
      rw [Pattern.eq_of_ofParts hparts]
      simp [patternImage]
    · exact (throw_run_ok k₆).elim

theorem sceneFields_codec (version : Nat) :
    Codec (sceneFields version) Fields.scene (Fields.image version) (Fields.Ok version) where
  reads f hf rest := by
    have hc := hf.calibration
    simp only [Calibration.isValid, Bool.and_eq_true, decide_eq_true_eq] at hc
    unfold sceneFields
    simp only [Fields.image, List.append_assoc, List.map_eq_flatMap]
    rw [StateT.run_bind, (many_codec script_codec _).reads f.scripts
        ⟨hf.scripts_length, hf.scripts⟩, ok_bind,
      StateT.run_bind, (many_codec int16_codec _).reads f.globals
        ⟨hf.globals_length, fun _ _ => trivial⟩, ok_bind,
      StateT.run_bind, (many_codec pattern_codec _).reads f.patterns
        ⟨hf.patterns_length, hf.patterns⟩, ok_bind,
      StateT.run_bind, word_codec.reads _ f.calibration.inMin.toNat_lt, ok_bind,
      StateT.run_bind, word_codec.reads _ f.calibration.inMax.toNat_lt, ok_bind,
      StateT.run_bind, word_codec.reads _ f.calibration.paramMin.toNat_lt, ok_bind,
      StateT.run_bind, word_codec.reads _ f.calibration.paramMax.toNat_lt, ok_bind]
    simp only [id, Nat.toUInt16_eq, UInt16.ofNat_toNat]
    simp only [Calibration.isValid, hc.1.1.1, hc.1.1.2, hc.1.2, hc.2, decide_true,
      Bool.and_self, Bool.not_true, Bool.false_eq_true, if_false]
    rw [StateT.run_bind, (many_codec flag_codec _).reads f.mutes
        ⟨hf.mutes_length, fun _ _ => trivial⟩, ok_bind,
      StateT.run_bind, (many_codec polarity_codec _).reads f.polarity
        ⟨hf.polarity_length, hf.polarity⟩, ok_bind]
    simp only [List.map_id]
    have hx := hf.extra
    by_cases hv : version ≥ 2
    · rw [if_pos hv] at hx
      obtain ⟨⟨hdl, hd⟩, ⟨hbl, hb⟩, hd₁, hd₂⟩ := hx
      simp only [if_pos hv, List.append_assoc]
      rw [StateT.run_bind, (many_codec (text_codec _) _).reads f.description ⟨hdl, hd⟩, ok_bind,
        StateT.run_bind, (many_codec binding_codec _).reads f.bindings ⟨hbl, hb⟩, ok_bind,
        StateT.run_bind, byte_codec.reads _ (by simp [Midi.clockDivMax] at hd₂; omega), ok_bind]
      simp only [id, List.map_id, if_neg (show ¬ (f.clockDiv < 1 ∨ f.clockDiv > Midi.clockDivMax) by omega)]
      rfl
    · rw [if_neg hv] at hx
      obtain ⟨hd, hb, hd'⟩ := hx
      simp only [if_neg hv, List.nil_append]
      show Except.ok (_, rest) = _
      rw [Fields.scene, hd, hb, hd']
  inverts input x rest h := by
    unfold sceneFields at h
    obtain ⟨scs, m₁, h₁, k₁⟩ := run_bind_ok h
    obtain ⟨scs, ⟨hscl, hsc⟩, rfl, rfl⟩ := (many_codec script_codec _).inverts _ _ _ h₁
    obtain ⟨gs, m₂, h₂, k₂⟩ := run_bind_ok k₁
    obtain ⟨gs, ⟨hgl, -⟩, rfl, rfl⟩ := (many_codec int16_codec _).inverts _ _ _ h₂
    obtain ⟨ps, m₃, h₃, k₃⟩ := run_bind_ok k₂
    obtain ⟨ps, ⟨hpl, hps⟩, rfl, rfl⟩ := (many_codec pattern_codec _).inverts _ _ _ h₃
    obtain ⟨c₁, m₄, h₄, k₄⟩ := run_bind_ok k₃
    obtain ⟨c₁, hc₁, rfl, rfl⟩ := word_codec.inverts _ _ _ h₄
    obtain ⟨c₂, m₅, h₅, k₅⟩ := run_bind_ok k₄
    obtain ⟨c₂, hc₂, rfl, rfl⟩ := word_codec.inverts _ _ _ h₅
    obtain ⟨c₃, m₆, h₆, k₆⟩ := run_bind_ok k₅
    obtain ⟨c₃, hc₃, rfl, rfl⟩ := word_codec.inverts _ _ _ h₆
    obtain ⟨c₄, m₇, h₇, k₇⟩ := run_bind_ok k₆
    obtain ⟨c₄, hc₄, rfl, rfl⟩ := word_codec.inverts _ _ _ h₇
    simp only [List.map_id] at k₇
    split at k₇
    · obtain ⟨_, _, hthrow, _⟩ := run_bind_ok k₇
      exact (throw_run_ok hthrow).elim
    rename_i hcv
    obtain ⟨ms, m₈, h₈, k₈⟩ := run_bind_ok k₇
    obtain ⟨ms, ⟨hml, -⟩, rfl, rfl⟩ := (many_codec flag_codec _).inverts _ _ _ h₈
    obtain ⟨pol, m₉, h₉, k₉⟩ := run_bind_ok k₈
    obtain ⟨pol, ⟨hpoll, hpol⟩, rfl, rfl⟩ := (many_codec polarity_codec _).inverts _ _ _ h₉
    simp only [List.map_id] at k₉
    have hcal : (⟨c₁.toUInt16, c₂.toUInt16, c₃.toUInt16, c₄.toUInt16⟩ : Calibration).isValid =
        true := by simpa using hcv
    have hword : ∀ n, n < 65536 → n.toUInt16.toNat = n := fun n h => by simp; omega
    split at k₉
    · rename_i hv
      obtain ⟨ds, m₁₀, h₁₀, k₁₀⟩ := run_bind_ok k₉
      obtain ⟨ds, ⟨hdl, hds⟩, rfl, rfl⟩ := (many_codec (text_codec _) _).inverts _ _ _ h₁₀
      obtain ⟨bs, m₁₁, h₁₁, k₁₁⟩ := run_bind_ok k₁₀
      obtain ⟨bs, ⟨hbl, hbs⟩, rfl, rfl⟩ := (many_codec binding_codec _).inverts _ _ _ h₁₁
      obtain ⟨div, m₁₂, h₁₂, k₁₂⟩ := run_bind_ok k₁₁
      obtain ⟨div, hdiv, rfl, rfl⟩ := byte_codec.inverts _ _ _ h₁₂
      simp only [List.map_id] at k₁₂
      split at k₁₂
      · obtain ⟨_, _, hthrow, _⟩ := run_bind_ok k₁₂
        exact (throw_run_ok hthrow).elim
      rename_i hdiv'
      obtain ⟨rfl, rfl⟩ := pure_run_ok k₁₂
      refine ⟨⟨scs, gs, ps, ⟨c₁.toUInt16, c₂.toUInt16, c₃.toUInt16, c₄.toUInt16⟩, ms, pol, ds, bs,
        div⟩,
        ⟨hscl, hsc, hgl, hpl, hps, hcal, hml, hpoll, hpol, ?_⟩, rfl, ?_⟩
      · simp only [if_pos hv]
        exact ⟨⟨hdl, hds⟩, ⟨hbl, hbs⟩, by omega, by omega⟩
      · simp [Fields.image, List.map_eq_flatMap, if_pos hv, hword _ hc₁, hword _ hc₂, hword _ hc₃,
          hword _ hc₄]
    · rename_i hv
      obtain ⟨rfl, rfl⟩ := pure_run_ok k₉
      refine ⟨⟨scs, gs, ps, ⟨c₁.toUInt16, c₂.toUInt16, c₃.toUInt16, c₄.toUInt16⟩, ms, pol,
        (Scene.withSeed 0).description,
        (Scene.withSeed 0).midi.bindings, (Scene.withSeed 0).midi.clockDiv⟩,
        ⟨hscl, hsc, hgl, hpl, hps, hcal, hml, hpoll, hpol, ?_⟩, rfl, ?_⟩
      · rw [if_neg hv]
        exact ⟨rfl, rfl, rfl⟩
      · simp [Fields.image, List.map_eq_flatMap, if_neg hv, hword _ hc₁, hword _ hc₂, hword _ hc₃,
          hword _ hc₄]

theorem finish_nil : finish.run [] = .ok ((), []) := rfl

theorem finish_inverts {input rest : List UInt8} {u : Unit}
    (h : finish.run input = .ok (u, rest)) : input = [] ∧ rest = [] := by
  cases input with
  | nil => cases h; exact ⟨rfl, rfl⟩
  | cons b bs => cases h

end Reader

/-! ### Whole images -/

theorem sceneOfImage_sealed {version : Nat} (hv : version = 1 ∨ version = 2) {f : Fields}
    (hf : f.Ok version) :
    sceneOfImage (sealed (word16 version ++ f.image version)) = .ok f.scene := by
  have hw : version < 65536 := by omega
  have hbad : ¬ (version = 0 ∨ version > currentVersion) := by simp [currentVersion]; omega
  unfold sceneOfImage
  rw [Reader.openSealed_sealed, Reader.ok_bind, ← List.append_nil (word16 version ++ f.image version),
    List.append_assoc]
  dsimp only
  rw [StateT.run_bind, Reader.word_codec.reads _ hw, Reader.ok_bind]
  simp only [id, if_neg hbad]
  rw [StateT.run_bind, (Reader.sceneFields_codec version).reads f hf [], Reader.ok_bind,
    StateT.run_bind, Reader.finish_nil, Reader.ok_bind]
  rfl

/-- Every record that loads is sealed fields in layout 1 or 2, and loads as the scene they
make. -/
theorem sceneOfImage_inverts {bytes : List UInt8} {s : Scene} (h : sceneOfImage bytes = .ok s) :
    ∃ version, ∃ f : Fields, (version = 1 ∨ version = 2) ∧ f.Ok version ∧ s = f.scene ∧
      bytes = sealed (word16 version ++ f.image version) := by
  unfold sceneOfImage at h
  obtain ⟨body, hopen, h⟩ := Reader.bind_eq_ok h
  dsimp only at h
  obtain ⟨⟨x, rest⟩, hread, h⟩ := Reader.bind_eq_ok h
  cases h
  obtain ⟨version, m₁, h₁, k₁⟩ := Reader.run_bind_ok hread
  obtain ⟨version, hw, rfl, rfl⟩ := Reader.word_codec.inverts _ _ _ h₁
  split at k₁
  · obtain ⟨_, _, hthrow, _⟩ := Reader.run_bind_ok k₁
    exact (Reader.throw_run_ok hthrow).elim
  rename_i hv
  obtain ⟨y, m₂, h₂, k₂⟩ := Reader.run_bind_ok k₁
  obtain ⟨f, hf, rfl, rfl⟩ := (Reader.sceneFields_codec version).inverts _ _ _ h₂
  obtain ⟨u, m₃, h₃, k₃⟩ := Reader.run_bind_ok k₂
  obtain ⟨rfl, rfl⟩ := Reader.finish_inverts h₃
  obtain ⟨rfl, -⟩ := Reader.pure_run_ok k₃
  refine ⟨version, f, by simp [currentVersion] at hv; omega, hf, rfl, ?_⟩
  rw [Reader.sealed_of_openSealed hopen, List.append_nil]

/-! ### The fields of a scene -/

namespace Fields

/-- The fields a scene writes: each script's line texts, and the rest of its stored part
as it is. -/
def ofScene (s : Scene) : Fields :=
  ⟨s.scripts.map fun sc => sc.lines.map (·.text), s.globals, s.patterns, s.calibration, s.mutes,
    s.polarity, s.description, s.midi.bindings, s.midi.clockDiv⟩

/-- The fields with layout 2's additions as a fresh scene has them. -/
def firstLayout (f : Fields) : Fields :=
  { f with description := (Scene.withSeed 0).description,
           bindings := (Scene.withSeed 0).midi.bindings,
           clockDiv := (Scene.withSeed 0).midi.clockDiv }

theorem image_firstLayout (f : Fields) : f.firstLayout.image 1 = f.image 1 := rfl

theorem Ok.firstLayout {version : Nat} {f : Fields} (h : f.Ok version) : f.firstLayout.Ok 1 :=
  { h with extra := by rw [if_neg (by decide)]; exact ⟨rfl, rfl, rfl⟩ }

theorem ok_ofScene {s : Scene} (hs : s.Stored) (hc : s.calibration.isValid = true) :
    (ofScene s).Ok 2 where
  scripts_length := by simp [ofScene, hs.scripts_length]
  scripts := by
    intro texts ht
    simp only [ofScene, List.mem_map] at ht
    obtain ⟨sc, hsc, rfl⟩ := ht
    have hst := hs.scripts sc hsc
    refine ⟨by simpa using hst.length_le, ?_⟩
    simp only [List.mem_map]
    rintro _ ⟨l, hl, rfl⟩
    exact (hst.lines l hl).2
  globals_length := hs.globals_length
  patterns_length := hs.patterns_length
  patterns := hs.patterns
  calibration := hc
  mutes_length := hs.mutes_length
  polarity_length := hs.polarity_length
  polarity := hs.polarity
  extra := by
    rw [if_pos (Nat.le_refl 2)]
    exact ⟨⟨hs.description_length, hs.description⟩, ⟨hs.bindings_length, hs.bindings⟩,
      hs.clockDiv_pos, hs.clockDiv_le⟩

theorem scene_ofScene_persisted {s : Scene} (hs : s.Stored) :
    (ofScene s).scene.persisted = s.persisted := by
  have hscripts : (s.scripts.map fun sc => sc.lines.map (·.text)).map
      (fun texts => (⟨texts.map Line.ofText⟩ : Script)) = s.scripts := by
    rw [List.map_map]
    refine (List.map_congr_left fun sc hsc => ?_).trans (List.map_id' _)
    simp only [Function.comp_apply, List.map_map, Function.comp_def,
      (hs.scripts sc hsc).lines_ofText]
  simp only [Scene.persisted, scene, ofScene, hscripts]

theorem scene_firstLayout_persisted {s : Scene} (hs : s.Stored) :
    (ofScene s).firstLayout.scene.persisted =
      { s.persisted with description := (Scene.withSeed 0).description,
                         bindings := (Scene.withSeed 0).midi.bindings,
                         clockDiv := (Scene.withSeed 0).midi.clockDiv } := by
  have h := scene_ofScene_persisted hs
  simp only [Scene.persisted, Persisted.mk.injEq] at h ⊢
  obtain ⟨hsc, -⟩ := h
  exact ⟨hsc, rfl, rfl, rfl, rfl, rfl, rfl, rfl, rfl⟩

theorem Ok.stored {version : Nat} {f : Fields} (h : f.Ok version) : f.scene.Stored := by
  have hfresh := Scene.stored_withSeed 0
  have hextra : (f.description.length = Scene.descriptionLines ∧
        ∀ t ∈ f.description, Fits Scene.descriptionLength t) ∧
      (f.bindings.length = Midi.kinds ∧ ∀ b ∈ f.bindings, -1 ≤ b ∧ b < Midi.scriptCount) ∧
      (1 ≤ f.clockDiv ∧ f.clockDiv ≤ Midi.clockDivMax) := by
    have he := h.extra
    split at he
    · exact he
    · obtain ⟨hd, hb, hc⟩ := he
      rw [hd, hb, hc]
      exact ⟨⟨hfresh.description_length, hfresh.description⟩,
        ⟨hfresh.bindings_length, hfresh.bindings⟩, hfresh.clockDiv_pos, hfresh.clockDiv_le⟩
  obtain ⟨⟨hdl, hd⟩, ⟨hbl, hb⟩, hc₁, hc₂⟩ := hextra
  refine ⟨by simp [scene, h.scripts_length], ?_, h.globals_length, h.patterns_length, h.patterns,
    h.mutes_length, h.polarity_length, h.polarity, hdl, hd, hbl, hb, hc₁, hc₂⟩
  intro sc hsc
  simp only [scene, List.mem_map] at hsc
  obtain ⟨texts, ht, rfl⟩ := hsc
  obtain ⟨hlen, hfit⟩ := h.scripts texts ht
  refine ⟨by simpa using hlen, ?_⟩
  simp only [List.mem_map]
  rintro _ ⟨t, htt, rfl⟩
  exact Line.stored_ofText_of_fits (hfit t htt)

end Fields

theorem sceneBody_eq_image (s : Scene) (version : Nat) :
    sceneBody s version = word16 version ++ (Fields.ofScene s).image version := by
  simp [sceneBody, Fields.image, Fields.ofScene, scriptImage, Script.size, List.flatMap_map,
    List.append_assoc]
  -- the pattern bytes are the one field whose grouping differs
  congr 1
  funext p
  simp [patternImage]

/-- A stored scene with a valid calibration reads back from its image as the scene of its
fields. -/
theorem sceneOfImage_sceneImage {s : Scene} (hs : s.Stored) (hc : s.calibration.isValid = true) :
    sceneOfImage (sceneImage s) = .ok (Fields.ofScene s).scene := by
  unfold sceneImage
  rw [sceneBody_eq_image]
  exact sceneOfImage_sealed (Or.inr rfl) (Fields.ok_ofScene hs hc)

theorem sceneOfImage_firstLayout {s : Scene} (hs : s.Stored) (hc : s.calibration.isValid = true) :
    ∃ bytes, sceneImageVersion s 1 = .ok bytes ∧
      sceneOfImage bytes = .ok (Fields.ofScene s).firstLayout.scene := by
  refine ⟨_, rfl, ?_⟩
  rw [sceneBody_eq_image, ← Fields.image_firstLayout]
  exact sceneOfImage_sealed (Or.inl rfl) (Fields.ok_ofScene hs hc).firstLayout

theorem stored_of_sceneOfImage {bytes : List UInt8} {s : Scene} (h : sceneOfImage bytes = .ok s) :
    s.Stored := by
  obtain ⟨version, f, -, hf, rfl, -⟩ := sceneOfImage_inverts h
  exact hf.stored

end TriggerScript.Record
