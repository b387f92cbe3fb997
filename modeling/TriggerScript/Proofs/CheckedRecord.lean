import TriggerScript.Checked.Record
import TriggerScript.Proofs.RecordCodec
import TriggerScript.Proofs.CheckedParts
/-!
Reading and writing a scene image stop nothing.

`ReadsAs rc r` says that the checked reader `rc` is the reader `r` with its checks: from any
position within a body it answers as `r` answers on the bytes from there on, and ends where
the bytes `r` leaves begin. It composes through `bind`, `if`, `mapM` and `for`, so each reader
of the image is its plain namesake field by field (`sceneOfImageChecked_eq`). The writer only
counts: a stored scene's image is 5512 bytes, far inside the count's word
(`sceneImageChecks_ok`).
-/

set_option autoImplicit false
set_option relaxedAutoImplicit false

namespace TriggerScript.Record

namespace CheckedReader

variable {α β σ : Type}

theorem runAt_bind_ok {x : CheckedReader α} {f : α → CheckedReader β} {body : List UInt8}
    {pos p : Nat} {a : α} (h : x.runAt body pos = .ok (.ok (a, p))) :
    (x >>= f).runAt body pos = (f a).runAt body p := by
  simp only [runAt] at h ⊢
  simp only [ReaderT.run_bind, StateT.run_bind, ExceptT.run_bind, h]
  rfl

theorem runAt_bind_error {x : CheckedReader α} {f : α → CheckedReader β} {body : List UInt8}
    {pos : Nat} {e : Error} (h : x.runAt body pos = .ok (.error e)) :
    (x >>= f).runAt body pos = .ok (.error e) := by
  simp only [runAt] at h ⊢
  simp only [ReaderT.run_bind, StateT.run_bind, ExceptT.run_bind, h]
  rfl

theorem runAt_lift {c : Checked β} {b : β} (h : c = .ok b) (body : List UInt8) (pos : Nat) :
    (monadLift c : CheckedReader β).runAt body pos = .ok (.ok (b, pos)) := by
  subst h
  rfl

theorem runAt_remaining {body : List UInt8} {pos : Nat} (h : pos ≤ body.length) :
    remaining.runAt body pos = .ok (.ok (body.length - pos, pos)) := by
  have hlift : remaining.runAt body pos =
      (monadLift (Checked.sizeSub body.length pos) : CheckedReader Nat).runAt body pos := rfl
  rw [hlift, runAt_lift (Checked.sizeSub_of h)]

theorem runAt_read_bind (f : List UInt8 → CheckedReader α) (body : List UInt8) (pos : Nat) :
    (read >>= f).runAt body pos = (f body).runAt body pos := rfl

theorem runAt_get_bind (f : Nat → CheckedReader α) (body : List UInt8) (pos : Nat) :
    (get >>= f).runAt body pos = (f pos).runAt body pos := rfl

theorem runAt_set_bind (p : Nat) (f : PUnit → CheckedReader α) (body : List UInt8) (pos : Nat) :
    (set p >>= f).runAt body pos = (f ()).runAt body p := rfl

theorem runAt_lift_bind {c : Checked β} {b : β} (h : c = .ok b) (f : β → CheckedReader α)
    (body : List UInt8) (pos : Nat) :
    (monadLift c >>= f).runAt body pos = (f b).runAt body pos := by
  subst h
  rfl

theorem runAt_throw_bind (e : Error) (f : β → CheckedReader α) (body : List UInt8) (pos : Nat) :
    (throwThe Error e >>= f).runAt body pos = .ok (.error e) := rfl

theorem runAt_take {body : List UInt8} {pos : Nat} (n : Nat) (hpos : pos ≤ body.length) :
    (take n).runAt body pos = if body.length - pos < n then .ok (.error (corrupt "TRUNCATED"))
      else .ok (.ok ((body.drop pos).take n, pos + n)) := by
  unfold take
  rw [runAt_bind_ok (runAt_remaining hpos)]
  split
  · simp only [runAt_throw_bind]
  · rename_i hge
    have hs : Checked.slice pos (pos + n) body.length = .ok () :=
      Checked.slice_of (Nat.le_add_right pos n) (by omega)
    simp only [runAt_read_bind, runAt_get_bind, runAt_lift_bind hs, runAt_set_bind]
    rfl

theorem take_run_eq (n : Nat) (input : List UInt8) :
    (Reader.take n).run input = if input.length < n then .error (corrupt "TRUNCATED")
      else .ok (input.take n, input.drop n) := by
  unfold Reader.take
  simp only [StateT.run_bind, StateT.run_get, pure_bind]
  split
  · rfl
  · rfl

/-- `rc` is the reader `r` with its checks, and they stop nothing: from a position within a
body, `rc` reports what `r` reports on the bytes from there on, and ends where the bytes `r`
leaves begin. -/
structure ReadsAs (rc : CheckedReader α) (r : Reader α) : Prop where
  ok : ∀ body pos a rest, pos ≤ body.length → r.run (body.drop pos) = .ok (a, rest) →
    ∃ pos', pos' ≤ body.length ∧ rest = body.drop pos' ∧
      rc.runAt body pos = .ok (.ok (a, pos'))
  error : ∀ body pos e, pos ≤ body.length → r.run (body.drop pos) = .error e →
    rc.runAt body pos = .ok (.error e)

namespace ReadsAs

theorem pure (a : α) : ReadsAs (Pure.pure a) (Pure.pure a : Reader α) where
  ok body pos _ _ hpos h := by
    cases h
    exact ⟨pos, hpos, rfl, rfl⟩
  error _ _ _ _ h := by cases h

theorem throw (e : Error) :
    ReadsAs (throwThe Error e : CheckedReader α) (MonadExcept.throw e) where
  ok _ _ _ _ _ h := by cases h
  error _ _ _ _ h := by cases h; rfl

theorem bind_of {rx : CheckedReader α} {x : Reader α} {rf : α → CheckedReader β}
    {f : α → Reader β} {P : α → Prop} (hx : ReadsAs rx x)
    (hP : ∀ input a rest, x.run input = .ok (a, rest) → P a)
    (hf : ∀ a, P a → ReadsAs (rf a) (f a)) : ReadsAs (rx >>= rf) (x >>= f) where
  ok body pos b rest hpos h := by
    rw [StateT.run_bind] at h
    rcases hrun : x.run (body.drop pos) with e | ⟨a, mid⟩
    · rw [hrun] at h
      cases h
    · rw [hrun] at h
      obtain ⟨p, hp, rfl, hx'⟩ := hx.ok body pos a mid hpos hrun
      obtain ⟨p', hp', rfl, hf'⟩ := (hf a (hP _ _ _ hrun)).ok body p b rest hp h
      exact ⟨p', hp', rfl, by rw [runAt_bind_ok hx', hf']⟩
  error body pos e hpos h := by
    rw [StateT.run_bind] at h
    rcases hrun : x.run (body.drop pos) with e' | ⟨a, mid⟩
    · rw [hrun] at h
      cases h
      exact runAt_bind_error (hx.error body pos e hpos hrun)
    · rw [hrun] at h
      obtain ⟨p, hp, rfl, hx'⟩ := hx.ok body pos a mid hpos hrun
      rw [runAt_bind_ok hx']
      exact (hf a (hP _ _ _ hrun)).error body p e hp h

theorem bind {rx : CheckedReader α} {x : Reader α} {rf : α → CheckedReader β}
    {f : α → Reader β} (hx : ReadsAs rx x) (hf : ∀ a, ReadsAs (rf a) (f a)) :
    ReadsAs (rx >>= rf) (x >>= f) :=
  hx.bind_of (P := fun _ => True) (fun _ _ _ _ => trivial) fun a _ => hf a

theorem lift_bind {c : Checked β} {b : β} (hc : c = .ok b) {rf : β → CheckedReader α}
    {r : Reader α} (h : ReadsAs (rf b) r) : ReadsAs (monadLift c >>= rf) r where
  ok body pos a rest hpos hr := by
    rw [runAt_lift_bind hc]
    exact h.ok body pos a rest hpos hr
  error body pos e hpos hr := by
    rw [runAt_lift_bind hc]
    exact h.error body pos e hpos hr

theorem ite (p : Prop) [Decidable p] {rc rc' : CheckedReader α} {r r' : Reader α}
    (h : p → ReadsAs rc r) (h' : ¬ p → ReadsAs rc' r') :
    ReadsAs (if p then rc else rc') (if p then r else r') := by
  by_cases hp : p
  · simp only [if_pos hp]
    exact h hp
  · simp only [if_neg hp]
    exact h' hp

/-- A check that throws when `p` holds, before the rest of the read. -/
theorem guard (p : Prop) [Decidable p] (e : Error) {rc : PUnit → CheckedReader α}
    {r : PUnit → Reader α} (h : ReadsAs (rc ()) (r ())) :
    ReadsAs (if p then throwThe Error e >>= rc else rc ())
      (if p then MonadExcept.throw e >>= r else r ()) :=
  .ite _ (fun _ => .bind (.throw _) fun _ => h) fun _ => h

theorem mapM {γ : Type} (xs : List γ) {rf : γ → CheckedReader α} {f : γ → Reader α}
    (h : ∀ c, ReadsAs (rf c) (f c)) : ReadsAs (xs.mapM rf) (xs.mapM f) := by
  induction xs with
  | nil => exact .pure []
  | cons c cs ih =>
    simp only [List.mapM_cons]
    exact (h c).bind fun a => ih.bind fun as => .pure (a :: as)

theorem forIn {γ : Type} (xs : List γ) (init : σ)
    {rf : γ → σ → CheckedReader (ForInStep σ)} {f : γ → σ → Reader (ForInStep σ)}
    (h : ∀ c s, ReadsAs (rf c s) (f c s)) :
    ReadsAs (ForIn.forIn xs init rf) (ForIn.forIn xs init f) := by
  induction xs generalizing init with
  | nil => exact .pure init
  | cons c cs ih =>
    simp only [List.forIn_cons]
    refine (h c init).bind fun step => ?_
    cases step with
    | done s => exact .pure s
    | yield s => exact ih s

end ReadsAs

theorem take_reads (n : Nat) : ReadsAs (take n) (Reader.take n) where
  ok body pos a rest hpos h := by
    rw [take_run_eq, List.length_drop] at h
    split at h
    · cases h
    · rename_i hge
      cases h
      refine ⟨pos + n, by omega, by rw [List.drop_drop], ?_⟩
      rw [runAt_take n hpos, if_neg hge]
  error body pos e hpos h := by
    rw [take_run_eq, List.length_drop] at h
    split at h
    · rename_i hlt
      cases h
      rw [runAt_take n hpos, if_pos hlt]
    · cases h

theorem byte_reads : ReadsAs byte Reader.byte :=
  (take_reads 1).bind_of (fun _ _ _ h => (Reader.take_inverts h).1) fun _ hb =>
    .lift_bind (Checked.index_of (by omega)) (.pure _)

theorem signedByte_reads : ReadsAs signedByte Reader.signedByte :=
  byte_reads.bind fun _ => .pure _

theorem word_reads : ReadsAs word Reader.word :=
  (take_reads 2).bind_of (fun _ _ _ h => (Reader.take_inverts h).1) fun _ hb =>
    .lift_bind (Checked.index_of (by omega)) (.lift_bind (Checked.index_of (by omega)) (.pure _))

theorem int16_reads : ReadsAs int16 Reader.int16 :=
  word_reads.bind fun _ => .pure _

theorem flag_reads : ReadsAs flag Reader.flag := by
  refine byte_reads.bind fun b => ?_
  rcases b with _ | _ | b
  · exact .pure _
  · exact .pure _
  · exact .throw _

theorem text_reads (width : Nat) : ReadsAs (text width) (Reader.text width) := by
  refine (take_reads width).bind fun field => ?_
  refine .lift_bind (Checked.slice_of (Nat.zero_le _) (List.takeWhile_prefix _).length_le) ?_
  exact .guard _ _ (.pure _)

theorem finish_run_eq (input : List UInt8) :
    Reader.finish.run input =
      if input.isEmpty then .ok ((), input) else .error (corrupt "LENGTH") := by
  cases input <;> rfl

theorem runAt_finish {body : List UInt8} {pos : Nat} (hpos : pos ≤ body.length) :
    finish.runAt body pos =
      if body.length - pos = 0 then .ok (.ok ((), pos)) else .ok (.error (corrupt "LENGTH")) := by
  unfold finish
  rw [runAt_bind_ok (runAt_remaining hpos)]
  by_cases h : body.length - pos = 0
  · simp only [h, bne_self_eq_false, Bool.false_eq_true, if_false, if_true]
    rfl
  · simp only [h, if_false]
    simp only [bne_iff_ne, ne_eq, h, not_false_eq_true, if_true]
    rfl

theorem finish_reads : ReadsAs finish Reader.finish where
  ok body pos a rest hpos h := by
    rw [finish_run_eq] at h
    split at h
    · rename_i hempty
      cases h
      have hend : body.length - pos = 0 := by
        simpa only [List.isEmpty_iff, List.drop_eq_nil_iff, Nat.sub_eq_zero_iff_le] using hempty
      exact ⟨pos, hpos, rfl, by rw [runAt_finish hpos, if_pos hend]⟩
    · cases h
  error body pos e hpos h := by
    rw [finish_run_eq] at h
    split at h
    · cases h
    · rename_i hleft
      cases h
      have hleft' : ¬ body.length ≤ pos := by
        simpa only [List.isEmpty_iff, List.drop_eq_nil_iff] using hleft
      rw [runAt_finish hpos, if_neg (by omega)]

theorem many_reads (n : Nat) {rc : CheckedReader α} {r : Reader α} (h : ReadsAs rc r) :
    ReadsAs (many n rc) (Reader.many n r) :=
  .mapM _ fun _ => h

theorem script_reads : ReadsAs script Reader.script := by
  unfold script Reader.script
  refine byte_reads.bind fun count => .guard _ _ ?_
  refine .bind (.forIn _ _ fun n lines => (text_reads _).bind fun t => ?_) fun _ => .pure _
  exact .ite _ (fun _ => .lift_bind (Line.ofTextChecks_ok t) (.pure _)) fun _ =>
    .guard _ _ (.pure _)

theorem pattern_reads : ReadsAs pattern Reader.pattern := by
  unfold pattern Reader.pattern
  refine (many_reads _ int16_reads).bind fun values => word_reads.bind fun len =>
    word_reads.bind fun start => word_reads.bind fun finish => word_reads.bind fun index =>
    flag_reads.bind fun wrap => ?_
  rcases Pattern.ofParts? values len start finish index wrap with _ | p
  · exact .throw _
  · exact .pure _

theorem polarity_reads : ReadsAs polarity Reader.polarity :=
  byte_reads.bind fun _ => .guard _ _ (.pure _)

theorem binding_reads : ReadsAs binding Reader.binding :=
  signedByte_reads.bind fun _ => .guard _ _ (.pure _)

theorem sceneFields_reads (version : Nat) :
    ReadsAs (sceneFields version) (Reader.sceneFields version) := by
  unfold sceneFields Reader.sceneFields
  refine (many_reads _ script_reads).bind fun _ => (many_reads _ int16_reads).bind fun _ =>
    (many_reads _ pattern_reads).bind fun _ => word_reads.bind fun _ => word_reads.bind fun _ =>
    word_reads.bind fun _ => word_reads.bind fun _ => .guard _ _ ?_
  refine (many_reads _ flag_reads).bind fun _ => (many_reads _ polarity_reads).bind fun _ => ?_
  exact .ite _ (fun _ => (many_reads _ (text_reads _)).bind fun _ =>
    (many_reads _ binding_reads).bind fun _ => byte_reads.bind fun _ => .guard _ _ (.pure _))
    fun _ => .pure _

theorem ReadsAs.whole {rc : CheckedReader α} {r : Reader α} (h : ReadsAs rc r)
    (body : List UInt8) :
    (do let x ← rc.runAt body 0; Pure.pure (x.map Prod.fst) : Checked (Except Error α)) =
      .ok (do let y ← r.run body; Pure.pure y.1) := by
  rcases hr : r.run body with e | ⟨a, rest⟩
  · rw [h.error body 0 e (Nat.zero_le _) (by simpa using hr)]
    rfl
  · obtain ⟨p, -, -, hrc⟩ := h.ok body 0 a rest (Nat.zero_le _) (by simpa using hr)
    rw [hrc]
    rfl

end CheckedReader

theorem openChecks_ok (bytes : List UInt8) : openChecks bytes = .ok () := by
  unfold openChecks
  split
  · rfl
  · rename_i hlen
    have htail : (bytes.drop (bytes.length - 4)).length = 4 := by
      simp only [List.length_drop]
      omega
    rw [Checked.sizeSub_of (by omega), Checked.ok_bind,
      Checked.slice_of (Nat.zero_le _) (Nat.sub_le _ _), Checked.ok_bind, htail]
    rfl

/-- **Reading an image stops nothing**: its checked reading answers as its reading, whatever the
bytes. -/
theorem sceneOfImageChecked_eq (bytes : List UInt8) :
    sceneOfImageChecked bytes = .ok (sceneOfImage bytes) := by
  unfold sceneOfImageChecked sceneOfImage
  rw [openChecks_ok, Checked.ok_bind]
  cases Reader.openSealed bytes with
  | error e => rfl
  | ok body =>
    refine CheckedReader.ReadsAs.whole ?_ body
    unfold CheckedReader.body
    refine CheckedReader.word_reads.bind fun version => .guard _ _ ?_
    exact (CheckedReader.sceneFields_reads version).bind fun s =>
      CheckedReader.finish_reads.bind fun _ => .pure s

namespace CheckedWriter

variable {α β σ : Type}

/-- `w` writes at most `n` bytes, and stops nothing while the count has room for them. -/
def Writes (n : Nat) (w : CheckedWriter α) : Prop :=
  ∀ c, c + n ≤ 18446744073709551615 → ∃ a c', c' ≤ c + n ∧ w.run c = .ok (a, c')

theorem writes_bytes (k : Nat) : Writes k (bytes k) :=
  fun c _ => ⟨(), c + k, Nat.le_refl _, rfl⟩

theorem writes_text (width : Nat) : Writes width (text width) := by
  intro c hc
  refine ⟨(), c + width, Nat.le_refl _, ?_⟩
  have hu : Checked.u64 ((c : Int) + width) = .ok ((c : Int) + width) :=
    Checked.u64_of (by omega) (by omega)
  simp only [text, StateT.run_bind, StateT.run_get, pure_bind, liftM, StateT.run_monadLift, hu]
  rfl

namespace Writes

theorem mono {n m : Nat} {w : CheckedWriter α} (h : Writes n w) (hnm : n ≤ m) : Writes m w :=
  fun c hc =>
    let ⟨a, c', hc', hw⟩ := h c (by omega)
    ⟨a, c', by omega, hw⟩

theorem pure (a : α) : Writes 0 (Pure.pure a : CheckedWriter α) :=
  fun c _ => ⟨a, c, Nat.le_refl _, rfl⟩

theorem bind {n m : Nat} {x : CheckedWriter α} {f : α → CheckedWriter β} (hx : Writes n x)
    (hf : ∀ a, Writes m (f a)) : Writes (n + m) (x >>= f) := by
  intro c hc
  obtain ⟨a, c₁, hc₁, hx'⟩ := hx c (by omega)
  obtain ⟨b, c₂, hc₂, hf'⟩ := hf a c₁ (by omega)
  refine ⟨b, c₂, by omega, ?_⟩
  rw [StateT.run_bind, hx']
  exact hf'

theorem ite (p : Prop) [Decidable p] {n : Nat} {w w' : CheckedWriter α} (h : Writes n w)
    (h' : Writes n w') : Writes n (if p then w else w') := by
  by_cases hp : p
  · simpa only [if_pos hp] using h
  · simpa only [if_neg hp] using h'

theorem forIn (xs : List β) (init : σ) {m : Nat} {f : β → σ → CheckedWriter (ForInStep σ)}
    (h : ∀ x s, Writes m (f x s)) : Writes (xs.length * m) (ForIn.forIn xs init f) := by
  induction xs generalizing init with
  | nil => exact (Writes.pure init).mono (Nat.zero_le _)
  | cons x xs ih =>
    rw [List.forIn_cons, List.length_cons, Nat.succ_mul, Nat.add_comm]
    refine (h x init).bind fun step => ?_
    cases step with
    | done s => exact (Writes.pure s).mono (Nat.zero_le _)
    | yield s => exact ih s

end Writes

theorem scene_writes {s : Scene} (hs : s.Stored) (version : Nat) :
    Writes 5512 (scene s version) := by
  unfold scene
  refine ((writes_bytes 2).bind fun _ => (Writes.forIn s.scripts _ fun _ _ =>
    (writes_bytes 1).bind fun _ => (Writes.forIn _ _ fun _ _ =>
      (writes_text _).bind fun _ => .pure _).bind fun _ => .pure _).bind fun _ =>
    (writes_bytes _).bind fun _ => (Writes.forIn s.patterns _ fun _ _ =>
      (writes_bytes _).bind fun _ => .pure _).bind fun _ =>
    (writes_bytes 8).bind fun _ => (writes_bytes _).bind fun _ => (writes_bytes _).bind fun _ =>
    Writes.ite _
      ((Writes.forIn s.description _ fun _ _ => (writes_text _).bind fun _ => .pure _).bind
      fun _ => (writes_bytes _).bind fun _ => writes_bytes 4) ((writes_bytes 4).mono ?_)).mono ?_
  · omega
  · rw [hs.scripts_length, hs.globals_length, hs.patterns_length, hs.mutes_length,
      hs.polarity_length, hs.description_length, hs.bindings_length, List.length_range]
    decide

end CheckedWriter

/-- **Writing an image stops nothing**: a stored scene's image is 5512 bytes at most, so the
count of bytes written stays in its word. -/
theorem sceneImageChecks_ok {s : Scene} (hs : s.Stored) (version : Nat) :
    sceneImageChecks s version = .ok () := by
  obtain ⟨u, c, -, hw⟩ := CheckedWriter.scene_writes hs version 0 (by decide)
  rw [sceneImageChecks, hw]
  rfl

end TriggerScript.Record
