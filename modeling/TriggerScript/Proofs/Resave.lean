import TriggerScript.Proofs.SceneImage
import TriggerScript.Proofs.Reachable
/-!
Saving a loaded scene again.

Loading compiles each line from its text, and a line keeps its text trimmed and in upper
case. Everything else a record holds comes back as it was read. So saving a loaded scene in
the layout it was read from writes the same fields with each line text replaced by the one
its line keeps (`sceneImageVersion_scene`), and gives back the very bytes exactly when every
line text already was trimmed and in upper case (`resave_iff_canonical`). A record with the
line text `a 1` loads, and saving it writes `A 1` instead.
-/

set_option autoImplicit false
set_option relaxedAutoImplicit false

namespace TriggerScript.Record

/-! ### The encoders tell values apart -/

theorem length_text (t : String) (width : Nat) : (text t width).length = width := by
  simp only [text, List.length_append, List.length_take, List.length_replicate]
  omega

theorem text_inj {width : Nat} {t₁ t₂ : String} (h₁ : Fits width t₁) (h₂ : Fits width t₂)
    (he : text t₁ width = text t₂ width) : t₁ = t₂ :=
  ((Reader.text_codec width).prefix_unique h₁ h₂ (congrArg (· ++ []) he)).1

theorem sealed_inj {a b : List UInt8} (h : sealed a = sealed b) : a = b := by
  have hopen := Reader.openSealed_sealed a
  rw [h, Reader.openSealed_sealed] at hopen
  exact (Except.ok.inj hopen).symm

theorem flatMap_eq_flatMap_iff {α β : Type} {l : List α} {f g : α → List β}
    (h : ∀ x ∈ l, (f x).length = (g x).length) :
    l.flatMap f = l.flatMap g ↔ ∀ x ∈ l, f x = g x := by
  induction l with
  | nil => simp
  | cons x l ih =>
    have hx := h x List.mem_cons_self
    simp only [List.flatMap_cons, List.mem_cons, forall_eq_or_imp]
    rw [← ih fun y hy => h y (List.mem_cons_of_mem x hy)]
    constructor
    · intro he
      exact List.append_inj he hx
    · rintro ⟨hfx, hrest⟩
      rw [hfx, hrest]

theorem length_scriptImage (texts : List String) :
    (scriptImage texts).length = 1 + Script.maxLines * Line.maxLength := by
  simp [scriptImage, length_text, Script.maxLines]
  omega

/-! ### Line texts as lines keep them -/

namespace Fields

def recompiled (f : Fields) : Fields :=
  { f with scripts := f.scripts.map (·.map fun t => (Line.ofText t).text) }

theorem ofScene_scene (f : Fields) : ofScene f.scene = f.recompiled := by
  simp only [ofScene, scene, recompiled, List.map_map, Function.comp_def]

theorem scriptImage_recompiled_iff {texts : List String} (hlen : texts.length ≤ Script.maxLines)
    (hfit : ∀ t ∈ texts, Fits Line.maxLength t) :
    scriptImage (texts.map fun t => (Line.ofText t).text) = scriptImage texts ↔
      ∀ t ∈ texts, (Line.ofText t).text = t := by
  have hpad : ∀ n : Nat, Fits Line.maxLength (texts[n]?.getD "") := by
    intro n
    cases hn : texts[n]? with
    | none => exact Scene.fits_empty _
    | some t => exact hfit t (List.mem_of_getElem? hn)
  have hpad' : ∀ n : Nat, Fits Line.maxLength ((texts.map fun t => (Line.ofText t).text)[n]?.getD "") := by
    intro n
    rw [List.getElem?_map]
    cases hn : texts[n]? with
    | none => exact Scene.fits_empty _
    | some t => exact (Line.stored_ofText_of_fits (hfit t (List.mem_of_getElem? hn))).2
  simp only [scriptImage, List.length_map, List.singleton_append, List.cons.injEq, true_and]
  rw [flatMap_eq_flatMap_iff fun n _ => by rw [length_text, length_text]]
  constructor
  · intro h t ht
    obtain ⟨n, hn, rfl⟩ := List.getElem_of_mem ht
    have hfield := text_inj (hpad' n) (hpad n) (h n (List.mem_range.mpr (by omega)))
    simpa [List.getElem?_eq_getElem hn] using hfield
  · intro h n _
    rw [List.getElem?_map]
    cases hn : texts[n]? with
    | none => rfl
    | some t => rw [Option.map_some, Option.getD_some, Option.getD_some, h t (List.mem_of_getElem? hn)]

theorem image_recompiled_iff {version : Nat} {f : Fields}
    (hf : ∀ texts ∈ f.scripts,
      texts.length ≤ Script.maxLines ∧ ∀ t ∈ texts, Fits Line.maxLength t) :
    f.recompiled.image version = f.image version ↔
      ∀ texts ∈ f.scripts, ∀ t ∈ texts, (Line.ofText t).text = t := by
  simp only [image, recompiled, List.append_assoc, List.append_left_inj, List.flatMap_map]
  rw [flatMap_eq_flatMap_iff fun texts _ => by rw [length_scriptImage, length_scriptImage]]
  constructor
  · intro h texts ht
    exact (scriptImage_recompiled_iff (hf texts ht).1 (hf texts ht).2).mp (h texts ht)
  · intro h texts ht
    exact (scriptImage_recompiled_iff (hf texts ht).1 (hf texts ht).2).mpr (h texts ht)

end Fields

/-! ### Saving again -/

theorem sceneImageVersion_scene {version : Nat} (hv : version = 1 ∨ version = 2) (f : Fields) :
    sceneImageVersion f.scene version =
      .ok (sealed (word16 version ++ f.recompiled.image version)) := by
  rw [sceneImageVersion, if_pos hv, sceneBody_eq_image, Fields.ofScene_scene]

theorem resave_iff_canonical {version : Nat} (hv : version = 1 ∨ version = 2) {f : Fields}
    (hf : f.Ok version) :
    sceneImageVersion f.scene version = .ok (sealed (word16 version ++ f.image version)) ↔
      ∀ texts ∈ f.scripts, ∀ t ∈ texts, (Line.ofText t).text = t := by
  rw [sceneImageVersion_scene hv, ← Fields.image_recompiled_iff hf.scripts]
  constructor
  · intro h
    exact List.append_cancel_left (sealed_inj (Except.ok.inj h))
  · intro h
    rw [h]

/-- **Saving a loaded record again.** A record that loads holds fields in layout 1 or 2;
saving the scene it loads as in that layout writes those fields with each line text as its
line keeps it, so it gives back the very bytes exactly when every line text already was
trimmed and in upper case. -/
theorem sceneOfImage_resave {bytes : List UInt8} {s : Scene} (h : sceneOfImage bytes = .ok s) :
    ∃ version, ∃ f : Fields, (version = 1 ∨ version = 2) ∧
      bytes = sealed (word16 version ++ f.image version) ∧ s = f.scene ∧
      sceneImageVersion s version = .ok (sealed (word16 version ++ f.recompiled.image version)) ∧
      (sceneImageVersion s version = .ok bytes ↔
        ∀ texts ∈ f.scripts, ∀ t ∈ texts, (Line.ofText t).text = t) := by
  obtain ⟨version, f, hv, hf, rfl, rfl⟩ := sceneOfImage_inverts h
  exact ⟨version, f, hv, rfl, rfl, sceneImageVersion_scene hv f, resave_iff_canonical hv hf⟩

/-- The image of the session's scene, stored lines and all, loads, and saving the scene it loads
as writes its fields back. -/
theorem session_image_resaves :
    (Fields.ofScene Scene.session).scripts.head? = some ["CV 1 X", "DEL 100: TR.P 1"] ∧
    sceneOfImage (sceneImage Scene.session) = .ok (Fields.ofScene Scene.session).scene ∧
    ∃ version, ∃ f : Fields, (version = 1 ∨ version = 2) ∧
      sceneImage Scene.session = sealed (word16 version ++ f.image version) ∧
      (Fields.ofScene Scene.session).scene = f.scene ∧
      sceneImageVersion (Fields.ofScene Scene.session).scene version =
        .ok (sealed (word16 version ++ f.recompiled.image version)) ∧
      (sceneImageVersion (Fields.ofScene Scene.session).scene version =
          .ok (sceneImage Scene.session) ↔
        ∀ texts ∈ f.scripts, ∀ t ∈ texts, (Line.ofText t).text = t) :=
  have hload := sceneOfImage_sceneImage Scene.reachable_session.stored (by decide +kernel)
  ⟨by decide +kernel, hload, sceneOfImage_resave hload⟩

/-- A record whose first script holds the line text `a 1` loads, but saving the scene it
loads as writes `A 1` in its place. -/
theorem lowercase_line_not_resaved :
    let bytes := sealed (word16 2 ++ Fields.image 2
      { Fields.ofScene (Scene.withSeed 0) with scripts := ["a 1"] :: List.replicate 9 [] })
    bytes.take 2 = word16 2 ∧ ∃ s, sceneOfImage bytes = .ok s ∧ sceneImage s ≠ bytes := by
  intro bytes
  have hfresh := Fields.ok_ofScene (Scene.stored_withSeed 0) (by decide)
  have hscripts : ∀ texts ∈ ["a 1"] :: List.replicate 9 [],
      texts.length ≤ Script.maxLines ∧ ∀ t ∈ texts, Fits Line.maxLength t := by
    decide
  let f : Fields := { Fields.ofScene (Scene.withSeed 0) with scripts := ["a 1"] :: List.replicate 9 [] }
  have hf : f.Ok 2 := { hfresh with scripts_length := rfl, scripts := hscripts }
  refine ⟨by simp [bytes, sealed, word16], _, sceneOfImage_sealed (Or.inr rfl) hf, fun hsame => ?_⟩
  -- saving again would make every line text canonical, and `a 1` is not
  have hcanon := (resave_iff_canonical (Or.inr rfl) hf).mp (congrArg Except.ok hsame)
  have hline := hcanon ["a 1"] List.mem_cons_self "a 1" List.mem_cons_self
  rw [Line.ofText_text] at hline
  exact absurd hline (by decide)

end TriggerScript.Record
