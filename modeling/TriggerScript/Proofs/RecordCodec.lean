import TriggerScript.Record.Scene
import Mathlib.Data.List.Forall2
/-!
Reading back what was written, field by field.

A reader is a codec for a writer when two things hold. Reading the bytes the writer gave
for an allowed value returns that value and leaves the bytes after it (`Codec.reads`);
and whatever the reader accepts, it accepted from exactly such bytes (`Codec.inverts`).
The first makes saving and loading a round trip; the second says that a record the
reader accepts is the image of something, so that nothing a writer could not have
written gets through.

Codecs are given here for the fields of scene records: bytes, words, signed values,
flags and zero-padded text, and for a fixed number of items of one kind.
-/

set_option autoImplicit false
set_option relaxedAutoImplicit false

namespace TriggerScript.Record

/-! ### Printable text

A text field holds printable ASCII, one byte a character. -/

section Ascii

theorem isPrintable_iff {c : Char} :
    Line.isPrintable c = true ↔ 32 ≤ c.toNat ∧ c.toNat ≤ 126 := by
  simp [Line.isPrintable, Char.le_def, UInt32.le_iff_toNat_le]

theorem toNat_ofNat_of_lt {n : Nat} (h : n < 55296) : (Char.ofNat n).toNat = n := by
  rw [Char.ofNat, dif_pos (Or.inl h)]
  rfl

theorem toNat_toUInt8 {c : Char} (h : c.toNat < 256) : c.toUInt8.toNat = c.toNat := by
  rw [← Char.toUInt8_val, UInt32.toNat_toUInt8]
  exact Nat.mod_eq_of_lt h

theorem byteArray_toList (bs : ByteArray) : bs.toList = bs.data.toList := by
  -- The loop conses the bytes it has passed onto an accumulator that it reverses at the end.
  suffices ∀ i r, ByteArray.toList.loop bs i r = r.reverse ++ bs.data.toList.drop i by
    simpa [ByteArray.toList] using this 0 []
  intro i r
  fun_induction ByteArray.toList.loop bs i r with
  | case1 i r hi ih =>
    rw [ih]
    have hdrop : bs.data.toList.drop i = bs.get! i :: bs.data.toList.drop (i + 1) := by
      rw [List.drop_eq_getElem_cons (by simpa using hi)]
      simp [ByteArray.get!, hi]
    simp [hdrop]
  | case2 i r hi =>
    have hdrop : bs.data.toList.drop i = [] := List.drop_eq_nil_of_le (by simpa using hi)
    simp [hdrop]

theorem flatMap_utf8EncodeChar_of_ascii (l : List Char) (h : ∀ c ∈ l, c.toNat < 128) :
    l.flatMap String.utf8EncodeChar = l.map Char.toUInt8 := by
  induction l with
  | nil => rfl
  | cons c l ih =>
    have hc : c.utf8Size = 1 := by
      rw [Char.utf8Size_eq_one_iff, UInt32.le_iff_toNat_le]
      exact Nat.le_of_lt_succ (h c List.mem_cons_self)
    rw [List.flatMap_cons, String.utf8EncodeChar_eq_singleton hc, Char.toUInt8_val, List.map_cons,
      ih fun d hd => h d (List.mem_cons_of_mem c hd)]
    rfl

theorem toUTF8_toList_of_ascii {t : String} (h : ∀ c ∈ t.toList, c.toNat < 128) :
    t.toUTF8.toList = t.toList.map Char.toUInt8 := by
  rw [byteArray_toList, String.toUTF8_eq_toByteArray, ← String.utf8Encode_toList, List.utf8Encode,
    List.toList_data_toByteArray, flatMap_utf8EncodeChar_of_ascii _ h]

theorem utf8ByteSize_of_ascii {t : String} (h : ∀ c ∈ t.toList, c.toNat < 128) :
    t.utf8ByteSize = t.toList.length := by
  rw [← String.size_toByteArray, ← String.utf8Encode_toList, List.utf8Encode, List.size_toByteArray,
    flatMap_utf8EncodeChar_of_ascii _ h, List.length_map]

/-- A text that a field of `width` bytes holds: printable ASCII, at most `width` bytes. -/
def Fits (width : Nat) (t : String) : Prop :=
  (∀ c ∈ t.toList, Line.isPrintable c = true) ∧ t.utf8ByteSize ≤ width

-- The check on each character is spelled out: an instance that enumerates every `Char`
-- would otherwise be found for the bounded quantifier.
instance (width : Nat) (t : String) : Decidable (Fits width t) :=
  @instDecidableAnd _ _ (List.decidableBAll _ t.toList) (Nat.decLe _ _)

example : Fits 3 "a 1" ∧ ¬ Fits 2 "a 1" := by decide

theorem Fits.ascii {width : Nat} {t : String} (h : Fits width t) : ∀ c ∈ t.toList, c.toNat < 128 :=
  fun c hc => by have := isPrintable_iff.mp (h.1 c hc); omega

theorem Fits.length_le {width : Nat} {t : String} (h : Fits width t) : t.toList.length ≤ width :=
  utf8ByteSize_of_ascii h.ascii ▸ h.2

theorem text_of_fits {width : Nat} {t : String} (h : Fits width t) :
    text t width = t.toList.map Char.toUInt8 ++ List.replicate (width - t.toList.length) 0 := by
  simp only [text, toUTF8_toList_of_ascii h.ascii]
  rw [List.take_of_length_le (by simpa using h.length_le), List.length_map]

theorem takeWhile_append_drop {α : Type} (p : α → Bool) (l : List α) :
    l.takeWhile p ++ l.drop (l.takeWhile p).length = l := by
  induction l with
  | nil => rfl
  | cons a l ih => by_cases h : p a <;> simp [h, ih]

theorem Fits.bytes {width : Nat} {t : String} (h : Fits width t) :
    ∀ b ∈ t.toList.map Char.toUInt8, (b != 0) = true ∧ (b < 32 || b > 126) = false := by
  intro b hb
  obtain ⟨c, hc, rfl⟩ := List.mem_map.mp hb
  have hp := isPrintable_iff.mp (h.1 c hc)
  have hb : c.toUInt8.toNat = c.toNat := toNat_toUInt8 (by omega)
  constructor
  · simp only [bne_iff_ne, ne_eq, ← UInt8.toNat_inj, hb]
    simp
    omega
  · simp only [Bool.or_eq_false_iff, decide_eq_false_iff_not, UInt8.lt_iff_toNat_lt, hb]
    simp
    omega

theorem ofList_bytes {t : String} (h : ∀ c ∈ t.toList, c.toNat < 128) :
    String.ofList ((t.toList.map Char.toUInt8).map fun b => Char.ofNat b.toNat) = t := by
  have hmap : (t.toList.map Char.toUInt8).map (fun b => Char.ofNat b.toNat) = t.toList := by
    rw [List.map_map]
    conv => rhs; rw [← List.map_id t.toList]
    refine List.map_congr_left fun c hc => ?_
    simp only [Function.comp, toNat_toUInt8 (Nat.lt_trans (h c hc) (by decide)), Char.ofNat_toNat, id]
  rw [hmap, String.ofList_toList]

theorem toUInt8_ofNat_toNat {b : UInt8} (h : b.toNat < 128) : (Char.ofNat b.toNat).toUInt8 = b := by
  have hc : (Char.ofNat b.toNat).toNat = b.toNat := toNat_ofNat_of_lt (by omega)
  exact UInt8.toNat_inj.mp (by rw [toNat_toUInt8 (by omega), hc])

theorem bytes_ofList {bs : List UInt8} (h : ∀ b ∈ bs, b.toNat < 128) :
    (String.ofList (bs.map fun b => Char.ofNat b.toNat)).toList.map Char.toUInt8 = bs := by
  rw [String.toList_ofList, List.map_map]
  conv => rhs; rw [← List.map_id bs]
  exact List.map_congr_left fun b hb => toUInt8_ofNat_toNat (h b hb)

theorem fits_ofList {bs : List UInt8} {width : Nat}
    (h : ∀ b ∈ bs, 32 ≤ b.toNat ∧ b.toNat ≤ 126) (hlen : bs.length ≤ width) :
    Fits width (String.ofList (bs.map fun b => Char.ofNat b.toNat)) := by
  have hchars : ∀ c ∈ (String.ofList (bs.map fun b => Char.ofNat b.toNat)).toList,
      Line.isPrintable c = true := by
    intro c hc
    rw [String.toList_ofList] at hc
    obtain ⟨b, hb, rfl⟩ := List.mem_map.mp hc
    have := h b hb
    exact isPrintable_iff.mpr (by rw [toNat_ofNat_of_lt (by omega)]; omega)
  refine ⟨hchars, ?_⟩
  rw [utf8ByteSize_of_ascii fun c hc => by have := isPrintable_iff.mp (hchars c hc); omega,
    String.toList_ofList, List.length_map]
  exact hlen

end Ascii

namespace Reader

variable {α β ρ : Type}

/-- `r` reads back exactly what `enc` writes: for an allowed raw value `y` it returns `dec y`
and leaves what follows (`reads`), and whatever it accepts was written so (`inverts`). -/
structure Codec (r : Reader α) (dec : ρ → α) (enc : ρ → List UInt8) (ok : ρ → Prop) : Prop where
  reads : ∀ y, ok y → ∀ rest, r.run (enc y ++ rest) = .ok (dec y, rest)
  inverts : ∀ input x rest, r.run input = .ok (x, rest) →
    ∃ y, ok y ∧ x = dec y ∧ input = enc y ++ rest

/-- An allowed value's bytes end where its encoding does: two allowed values written before
any rests read back alike only when they decode alike and the rests agree. -/
theorem Codec.prefix_unique {r : Reader α} {dec : ρ → α} {enc : ρ → List UInt8} {ok : ρ → Prop}
    (c : Codec r dec enc ok) {y₁ y₂ : ρ} {rest₁ rest₂ : List UInt8} (h₁ : ok y₁) (h₂ : ok y₂)
    (he : enc y₁ ++ rest₁ = enc y₂ ++ rest₂) : dec y₁ = dec y₂ ∧ rest₁ = rest₂ := by
  have hread := c.reads y₁ h₁ rest₁
  rw [he, c.reads y₂ h₂ rest₂] at hread
  simp only [Except.ok.injEq, Prod.mk.injEq] at hread
  exact ⟨hread.1.symm, hread.2.symm⟩

theorem ok_bind {ε γ : Type} (a : γ) (f : γ → Except ε β) : (Except.ok a >>= f) = f a := rfl

theorem bind_eq_ok {ε γ : Type} {x : Except ε γ} {f : γ → Except ε β} {b : β}
    (h : (x >>= f) = .ok b) : ∃ a, x = .ok a ∧ f a = .ok b := by
  cases x with
  | error e => cases h
  | ok a => exact ⟨a, rfl, h⟩

theorem run_bind_ok {r : Reader α} {f : α → Reader β} {input rest : List UInt8} {y : β}
    (h : (r >>= f).run input = .ok (y, rest)) :
    ∃ x mid, r.run input = .ok (x, mid) ∧ (f x).run mid = .ok (y, rest) := by
  rw [StateT.run_bind] at h
  obtain ⟨⟨x, mid⟩, hr, hf⟩ := bind_eq_ok h
  exact ⟨x, mid, hr, hf⟩

theorem pure_run_ok {a x : α} {input rest : List UInt8}
    (h : (Pure.pure a : Reader α).run input = .ok (x, rest)) : x = a ∧ rest = input := by
  cases h
  exact ⟨rfl, rfl⟩

theorem throw_run_ok {e : Error} {input rest : List UInt8} {x : α}
    (h : (throw e : Reader α).run input = .ok (x, rest)) : False := by
  cases h

theorem take_run (bs rest : List UInt8) : (take bs.length).run (bs ++ rest) = .ok (bs, rest) := by
  have hlen : ¬ (bs.length + rest.length < bs.length) := by omega
  simp [take, StateT.run_bind, StateT.run_get, StateT.run_set, hlen]
  rfl

theorem take_inverts {n : Nat} {input bs rest : List UInt8}
    (h : (take n).run input = .ok (bs, rest)) : bs.length = n ∧ input = bs ++ rest := by
  unfold take at h
  simp only [StateT.run_bind, StateT.run_get, pure_bind] at h
  split at h
  · cases h
  · simp only [StateT.run_bind, StateT.run_set, pure_bind, StateT.run_pure] at h
    cases h
    exact ⟨by simp; omega, (List.take_append_drop n input).symm⟩

theorem byte_run (b : UInt8) (rest : List UInt8) : byte.run (b :: rest) = .ok (b.toNat, rest) := by
  have := take_run [b] rest
  simp only [List.length_singleton, List.singleton_append] at this
  simp only [byte, StateT.run_bind, this]
  rfl

theorem byte_inverts {input rest : List UInt8} {n : Nat} (h : byte.run input = .ok (n, rest)) :
    ∃ b : UInt8, n = b.toNat ∧ input = b :: rest := by
  obtain ⟨bs, mid, ht, hp⟩ := run_bind_ok h
  obtain ⟨hn, rfl⟩ := pure_run_ok hp
  obtain ⟨hl, rfl⟩ := take_inverts ht
  match bs, hl with
  | [b], _ => exact ⟨b, hn, rfl⟩

theorem byte_codec : Codec byte id (fun n => [n.toUInt8]) (· < 256) where
  reads n hn rest := by
    have hb : n.toUInt8.toNat = n := by simp; omega
    simpa [hb] using byte_run n.toUInt8 rest
  inverts input n rest h := by
    obtain ⟨b, rfl, rfl⟩ := byte_inverts h
    exact ⟨b.toNat, b.toNat_lt, rfl, by simp⟩

theorem word_run {n : Nat} (h : n < 65536) (rest : List UInt8) :
    word.run (word16 n ++ rest) = .ok (n, rest) := by
  have := take_run (word16 n) rest
  simp only [word16, List.length_cons, List.length_nil] at this
  simp only [word, StateT.run_bind, word16, this]
  show Except.ok (_, rest) = _
  congr 2
  simp
  omega

theorem word_inverts {input rest : List UInt8} {n : Nat} (h : word.run input = .ok (n, rest)) :
    n < 65536 ∧ input = word16 n ++ rest := by
  obtain ⟨bs, mid, ht, hp⟩ := run_bind_ok h
  obtain ⟨hn, rfl⟩ := pure_run_ok hp
  obtain ⟨hl, rfl⟩ := take_inverts ht
  match bs, hl with
  | [b₀, b₁], _ =>
    have h₀ := b₀.toNat_lt
    have h₁ := b₁.toNat_lt
    simp only [List.getD_cons_zero, List.getD_cons_succ] at hn
    subst hn
    refine ⟨by omega, ?_⟩
    simp only [word16, List.cons_append, List.nil_append, List.cons.injEq, and_true]
    constructor
    · apply UInt8.toNat_inj.mp
      simp
    · apply UInt8.toNat_inj.mp
      simp
      omega

theorem word_codec : Codec word id word16 (· < 65536) where
  reads _ hn rest := word_run hn rest
  inverts _ _ _ h := let ⟨hn, he⟩ := word_inverts h; ⟨_, hn, rfl, he⟩

theorem ofNat_toUInt16_toNat (v : Int16) : Int16.ofNat v.toUInt16.toNat = v :=
  Int16.toBitVec_inj.mp (by simp)

theorem toUInt16_toNat_ofNat {n : Nat} (h : n < 65536) : (Int16.ofNat n).toUInt16.toNat = n := by
  simp
  omega

theorem int16_codec : Codec Reader.int16 id Record.int16 (fun _ => True) where
  reads v _ rest := by
    simp only [Reader.int16, Record.int16, StateT.run_bind, word_run v.toUInt16.toNat_lt]
    show Except.ok (Int16.ofNat v.toUInt16.toNat, rest) = _
    rw [ofNat_toUInt16_toNat]
    rfl
  inverts input x rest h := by
    obtain ⟨n, mid, hw, hp⟩ := run_bind_ok h
    obtain ⟨rfl, rfl⟩ := pure_run_ok hp
    obtain ⟨hn, rfl⟩ := word_inverts hw
    exact ⟨Int16.ofNat n, trivial, rfl, by rw [Record.int16, toUInt16_toNat_ofNat hn]⟩

theorem flag_codec : Codec flag id (fun b => [if b then 1 else 0]) (fun _ => True) where
  reads b _ rest := by
    cases b <;> simp [flag, StateT.run_bind, byte_run] <;> rfl
  inverts input x rest h := by
    obtain ⟨n, mid, hb, hm⟩ := run_bind_ok h
    obtain ⟨b, rfl, rfl⟩ := byte_inverts hb
    split at hm
    · obtain ⟨rfl, rfl⟩ := pure_run_ok hm
      exact ⟨false, trivial, rfl, by simp [UInt8.toNat_inj.mp (by assumption : b.toNat = (0 : UInt8).toNat)]⟩
    · obtain ⟨rfl, rfl⟩ := pure_run_ok hm
      exact ⟨true, trivial, rfl, by simp [UInt8.toNat_inj.mp (by assumption : b.toNat = (1 : UInt8).toNat)]⟩
    · exact (throw_run_ok hm).elim

theorem signedByte_codec :
    Codec signedByte id (fun b => [(b % 256).toNat.toUInt8]) (fun b => -128 ≤ b ∧ b < 128) where
  reads b hb rest := by
    have hn : (b % 256).toNat < 256 := by omega
    simp only [signedByte, StateT.run_bind]
    rw [byte_codec.reads _ hn rest]
    show Except.ok (_, rest) = _
    congr 2
    simp only [id]
    split <;> omega
  inverts input x rest h := by
    obtain ⟨n, mid, hb, hp⟩ := run_bind_ok h
    obtain ⟨rfl, rfl⟩ := pure_run_ok hp
    obtain ⟨n, hn, rfl, rfl⟩ := byte_codec.inverts _ _ _ hb
    refine ⟨if n < 128 then (n : Int) else n - 256, by split <;> omega, rfl, ?_⟩
    have hmod : ((if n < 128 then (n : Int) else n - 256) % 256).toNat = n := by split <;> omega
    rw [hmod]

theorem Codec.check {r : Reader α} {dec : ρ → α} {enc : ρ → List UInt8} {ok : ρ → Prop}
    (h : Codec r dec enc ok) (bad : α → Prop) [DecidablePred bad] (e : Error) :
    Codec (do
        let x ← r
        if bad x then throw e
        return x) dec enc (fun y => ok y ∧ ¬ bad (dec y)) where
  reads y hy rest := by
    rw [StateT.run_bind, h.reads y hy.1 rest]
    show StateT.run (if bad (dec y) then _ else _) rest = _
    rw [if_neg hy.2]
    rfl
  inverts input x rest hrun := by
    obtain ⟨a, mid, hr, hm⟩ := run_bind_ok hrun
    obtain ⟨y, hy, rfl, rfl⟩ := h.inverts _ _ _ hr
    by_cases hbad : bad (dec y)
    · rw [if_pos hbad] at hm
      obtain ⟨_, _, hthrow, _⟩ := run_bind_ok hm
      exact (throw_run_ok hthrow).elim
    · rw [if_neg hbad] at hm
      obtain ⟨rfl, rfl⟩ := pure_run_ok hm
      exact ⟨y, ⟨hy, hbad⟩, rfl, rfl⟩

theorem polarity_codec : Codec polarity id (fun p => [p.toUInt8]) (fun p => p ≤ 3) := by
  have h := byte_codec.check (fun p => p > 3) (corrupt "POLARITY")
  refine ⟨fun p hp => h.reads p ⟨by omega, by simp; omega⟩, fun input x rest hrun => ?_⟩
  obtain ⟨p, hp, hx, hin⟩ := h.inverts input x rest hrun
  exact ⟨p, by simp at hp; omega, hx, hin⟩

theorem binding_codec :
    Codec binding id (fun b => [(b % 256).toNat.toUInt8]) (fun b => -1 ≤ b ∧ b < 10) := by
  have h := signedByte_codec.check (fun b => b < -1 ∨ b ≥ (Scene.scriptCount : Int))
    (corrupt "MIDI BINDING")
  refine ⟨fun b hb => h.reads b ⟨by omega, by simp [Scene.scriptCount]; omega⟩,
    fun input x rest hrun => ?_⟩
  obtain ⟨b, hb, hx, hin⟩ := h.inverts input x rest hrun
  exact ⟨b, by simp [Scene.scriptCount] at hb; omega, hx, hin⟩

theorem text_codec (width : Nat) :
    Codec (Reader.text width) id (fun t => Record.text t width) (Fits width) where
  reads t ht rest := by
    have hbytes := ht.bytes
    have hlen : (t.toList.map Char.toUInt8 ++
        List.replicate (width - t.toList.length) 0).length = width := by
      simp
      have := ht.length_le
      omega
    have hrun := take_run (t.toList.map Char.toUInt8 ++
      List.replicate (width - t.toList.length) 0) rest
    rw [hlen] at hrun
    have hchars : (t.toList.map Char.toUInt8 ++ List.replicate (width - t.toList.length) 0).takeWhile
        (· != 0) = t.toList.map Char.toUInt8 := by
      rw [List.takeWhile_append_of_pos fun b hb => (hbytes b hb).1]
      cases width - t.toList.length <;> simp [List.replicate_succ]
    rw [text_of_fits ht]
    simp only [Reader.text, StateT.run_bind, hrun]
    show StateT.run (ite _ _ _) rest = _
    rw [hchars, if_neg]
    · show Except.ok (String.ofList _, rest) = _
      rw [ofList_bytes ht.ascii]
      rfl
    · have hprint : ((t.toList.map Char.toUInt8).any fun b => decide (b < 32) || decide (b > 126)) =
          false := List.any_eq_false.mpr fun b hb => by simp [(hbytes b hb).2]
      simp [hprint]
  inverts input x rest h := by
    obtain ⟨field, mid, ht, hm⟩ := run_bind_ok h
    obtain ⟨hlen, rfl⟩ := take_inverts ht
    simp only at hm
    by_cases hbad : (((field.drop (field.takeWhile (· != 0)).length).any fun b => b != 0) ||
        (field.takeWhile (· != 0)).any fun b => decide (b < 32) || decide (b > 126)) = true
    · rw [if_pos hbad] at hm
      obtain ⟨_, _, hthrow, _⟩ := run_bind_ok hm
      exact (throw_run_ok hthrow).elim
    · rw [if_neg hbad] at hm
      obtain ⟨rfl, rfl⟩ := pure_run_ok hm
      simp only [Bool.or_eq_true, List.any_eq_true, not_or, not_exists, not_and] at hbad
      obtain ⟨hpad, hbytes⟩ := hbad
      have hprint : ∀ b ∈ field.takeWhile (· != 0), 32 ≤ b.toNat ∧ b.toNat ≤ 126 := by
        intro b hb
        have := hbytes b hb
        simp [UInt8.lt_iff_toNat_lt] at this
        omega
      have hfits := fits_ofList hprint (hlen ▸ (List.takeWhile_sublist _).length_le)
      refine ⟨_, hfits, rfl, ?_⟩
      rw [text_of_fits hfits, bytes_ofList fun b hb => by have := hprint b hb; omega,
        String.toList_ofList, List.length_map]
      congr 1
      conv => lhs; rw [← takeWhile_append_drop (· != 0) field]
      congr 1
      exact List.eq_replicate_iff.mpr ⟨by simp [hlen], fun b hb => by simpa using hpad b hb⟩

theorem mapM_codec {item : Reader α} {dec : ρ → α} {enc : ρ → List UInt8} {ok : ρ → Prop}
    (h : Codec item dec enc ok) (L : List β) :
    Codec (L.mapM fun _ => item) (List.map dec) (List.flatMap enc)
      (fun ys => ys.length = L.length ∧ ∀ y ∈ ys, ok y) := by
  induction L with
  | nil =>
    refine ⟨fun ys hys rest => ?_, fun input xs rest hrun => ?_⟩
    · rw [List.eq_nil_of_length_eq_zero hys.1]
      rfl
    · obtain ⟨rfl, rfl⟩ := pure_run_ok hrun
      exact ⟨[], ⟨rfl, by simp⟩, rfl, rfl⟩
  | cons a L ih =>
    refine ⟨fun ys hys rest => ?_, fun input xs rest hrun => ?_⟩
    · match ys, hys with
      | y :: ys, ⟨hlen, hok⟩ =>
        rw [List.mapM_cons, StateT.run_bind, List.flatMap_cons, List.append_assoc,
          h.reads y (hok y List.mem_cons_self), ok_bind, StateT.run_bind,
          ih.reads ys ⟨by simpa using hlen, fun y hy => hok y (List.mem_cons_of_mem _ hy)⟩]
        rfl
    · rw [List.mapM_cons] at hrun
      obtain ⟨x, mid, hx, hrest⟩ := run_bind_ok hrun
      obtain ⟨xs', mid', hxs, hp⟩ := run_bind_ok hrest
      obtain ⟨rfl, rfl⟩ := pure_run_ok hp
      obtain ⟨y, hy, rfl, rfl⟩ := h.inverts _ _ _ hx
      obtain ⟨ys, ⟨hlen, hok⟩, rfl, rfl⟩ := ih.inverts _ _ _ hxs
      refine ⟨y :: ys, ⟨by simp [hlen], ?_⟩, rfl, by simp⟩
      intro z hz
      rcases List.mem_cons.mp hz with rfl | hz
      · exact hy
      · exact hok z hz

theorem many_codec {item : Reader α} {dec : ρ → α} {enc : ρ → List UInt8} {ok : ρ → Prop}
    (h : Codec item dec enc ok) (n : Nat) :
    Codec (many n item) (List.map dec) (List.flatMap enc)
      (fun ys => ys.length = n ∧ ∀ y ∈ ys, ok y) := by
  have := mapM_codec h (List.range n)
  rwa [List.length_range] at this

theorem forIn_codec {σ : Type} {f : Nat → σ → Reader (ForInStep σ)} {g : Nat → σ → ρ → σ}
    {enc : ρ → List UInt8} {P : Nat → ρ → Prop}
    (h : ∀ n acc, Codec (f n acc) (fun y => .yield (g n acc y)) enc (P n)) (L : List Nat) (acc : σ) :
    Codec (forIn L acc f) (fun ys => (L.zip ys).foldl (fun a p => g p.1 a p.2) acc)
      (List.flatMap enc) (List.Forall₂ P L) := by
  induction L generalizing acc with
  | nil =>
    refine ⟨fun ys hys rest => ?_, fun input r rest hrun => ?_⟩
    · rw [List.forall₂_nil_left_iff.mp hys]
      rfl
    · rw [List.forIn_nil] at hrun
      obtain ⟨rfl, rfl⟩ := pure_run_ok hrun
      exact ⟨[], List.Forall₂.nil, rfl, rfl⟩
  | cons n L ih =>
    refine ⟨fun ys hys rest => ?_, fun input r rest hrun => ?_⟩
    · match ys, hys with
      | y :: ys, List.Forall₂.cons hy hys =>
        rw [List.forIn_cons, StateT.run_bind, List.flatMap_cons, List.append_assoc,
          (h n acc).reads y hy, ok_bind]
        exact (ih (g n acc y)).reads ys hys rest
    · rw [List.forIn_cons] at hrun
      obtain ⟨step, mid, hstep, hrest⟩ := run_bind_ok hrun
      obtain ⟨y, hy, rfl, rfl⟩ := (h n acc).inverts _ _ _ hstep
      obtain ⟨ys, hys, rfl, rfl⟩ := (ih (g n acc y)).inverts _ _ _ hrest
      exact ⟨y :: ys, List.Forall₂.cons hy hys, rfl, by simp⟩

/-! ### The seal -/

theorem word32_value (n : UInt32) :
    (word32 n).foldr (fun b acc => acc * 256 + b.toNat) 0 = n.toNat := by
  have h := n.toNat_lt
  simp [word32, UInt32.toNat_shiftRight, Nat.shiftRight_eq_div_pow]
  omega

theorem word32_of_value {a b c d : UInt8} {n : UInt32}
    (h : [a, b, c, d].foldr (fun b acc => acc * 256 + b.toNat) 0 = n.toNat) :
    word32 n = [a, b, c, d] := by
  have ha := a.toNat_lt
  have hb := b.toNat_lt
  have hc := c.toNat_lt
  have hd := d.toNat_lt
  simp at h
  simp only [word32, List.cons.injEq, and_true]
  refine ⟨?_, ?_, ?_, ?_⟩ <;> apply UInt8.toNat_inj.mp <;>
    simp [UInt32.toNat_shiftRight, Nat.shiftRight_eq_div_pow] <;> omega

theorem openSealed_sealed (body : List UInt8) : openSealed (sealed body) = .ok body := by
  have hlen : (word32 (Crc32.checksum body)).length = 4 := rfl
  simp [openSealed, sealed, hlen, word32_value]

theorem sealed_of_openSealed {bytes body : List UInt8} (h : openSealed bytes = .ok body) :
    bytes = sealed body := by
  unfold openSealed at h
  split at h
  · cases h
  · simp only at h
    split at h
    · cases h
    · cases h
      rename_i hlen hcrc
      have htail : (bytes.drop (bytes.length - 4)).length = 4 := by simp; omega
      match hd : bytes.drop (bytes.length - 4), htail with
      | [a, b, c, d], _ =>
        rw [hd] at hcrc
        have hw : word32 (Crc32.checksum (bytes.take (bytes.length - 4))) = [a, b, c, d] :=
          word32_of_value (by simp at hcrc; simp [hcrc])
        rw [sealed, hw, ← hd, List.take_append_drop]

end Reader

end TriggerScript.Record
