import TriggerScript.Machine.DelayQueue
/-!
The delay queue as a bounded priority queue on a wrapping clock.

Fire ticks wrap at 2³², so "earlier" between two arbitrary ticks is not an order. Among the
entries that are due at `now`, though, the wrapping difference `now - fire` is below 2³¹
and measures how long ago each fell due; on them `precedes` is exactly "fell due longer
ago, or as long ago and scheduled first" (`precedes_iff`). That order is strict and, with
distinct sequence numbers, total, so the one scan of `earliestDue`, which keeps a running
best, ends with the one entry that leaves before every other due entry.

Along any sequence of calls from `empty` the queue stays `Valid`: sixteen slots, distinct
sequence numbers, all below `nextSeq`. Every call is then accounted for: the entries held
after it, with the entries it returned or cancelled, are those held before it and the one it
scheduled (`Call.conserves`), so over a whole run every entry ever scheduled is held,
returned once, or cancelled (`run_conserves`).
-/

set_option autoImplicit false
set_option relaxedAutoImplicit false

namespace TriggerScript.DelayQueue

/-! ## Due entries and the order they leave in -/

/-- How long before `now`, on the wrapping clock, the entry fell due. -/
def age (now : UInt32) (e : DelayEntry) : Nat := (now - e.fire).toNat

/-- The entry is due at `now` and was scheduled before sequence number `before`. -/
def Due (now : UInt32) (before : Nat) (e : DelayEntry) : Prop :=
  e.seq < before ∧ Tick.notAfter e.fire now = true

instance (now : UInt32) (before : Nat) : DecidablePred (Due now before) := fun _ =>
  inferInstanceAs (Decidable (_ ∧ _))

/-- `e` leaves before `b`: it fell due longer ago, or as long ago and was scheduled first. -/
def LeavesBefore (now : UInt32) (e b : DelayEntry) : Prop :=
  age now b < age now e ∨ (age now b = age now e ∧ e.seq < b.seq)

theorem due_iff (now : UInt32) (before : Nat) (e : DelayEntry) :
    (decide (e.seq < before) && Tick.notAfter e.fire now) = true ↔ Due now before e := by
  simp only [Bool.and_eq_true, decide_eq_true_eq, Due]

theorem precedes_iff {now : UInt32} {e b : DelayEntry} (he : Tick.notAfter e.fire now = true)
    (hb : Tick.notAfter b.fire now = true) : precedes e b = true ↔ LeavesBefore now e b := by
  have hE := e.fire.toNat_lt
  have hB := b.fire.toNat_lt
  have hN := now.toNat_lt
  -- subtracting from `now` is one-to-one, so equal ticks are equal ages
  have hfire : e.fire = b.fire ↔ age now e = age now b := by
    rw [← UInt32.toNat_inj]
    simp only [age, UInt32.toNat_sub]
    omega
  simp only [Tick.notAfter, Tick.halfRange, decide_eq_true_eq, UInt32.toNat_sub] at he hb
  simp only [precedes, Tick.notAfter, Tick.halfRange, Bool.or_eq_true, Bool.and_eq_true,
    bne_iff_ne, ne_eq, beq_iff_eq, decide_eq_true_eq, hfire, LeavesBefore, age,
    UInt32.toNat_sub]
  omega

theorem LeavesBefore.irrefl (now : UInt32) (e : DelayEntry) : ¬ LeavesBefore now e e := by
  unfold LeavesBefore
  omega

theorem LeavesBefore.trans {now : UInt32} {a b c : DelayEntry} (hab : LeavesBefore now a b)
    (hbc : LeavesBefore now b c) : LeavesBefore now a c := by
  unfold LeavesBefore at *
  omega

theorem LeavesBefore.total (now : UInt32) {e b : DelayEntry} (h : e.seq ≠ b.seq) :
    LeavesBefore now e b ∨ LeavesBefore now b e := by
  unfold LeavesBefore
  omega

/-! ## The scan -/

/-- `best` answers for the candidates `cs`: each due candidate is `best`'s entry or leaves
after it. -/
def Covers (now : UInt32) (before : Nat) (best : Option (Nat × DelayEntry))
    (cs : List DelayEntry) : Prop :=
  ∀ c ∈ cs, Due now before c → ∃ k b, best = some (k, b) ∧ (b = c ∨ LeavesBefore now b c)

section Scan

variable {now : UInt32} {before : Nat}

theorem earliestDue_cons_some (n : Nat) (x : DelayEntry) (rest : List (Option DelayEntry))
    (best : Option (Nat × DelayEntry)) :
    earliestDue now before n (some x :: rest) best =
      earliestDue now before (n + 1) rest
        (if (decide (x.seq < before) && Tick.notAfter x.fire now) &&
            best.all (fun p => precedes x p.2) then some (n, x) else best) := by
  cases best <;> rfl

theorem Covers.step {best : Option (Nat × DelayEntry)} {cs : List DelayEntry} {x : DelayEntry}
    (hcov : Covers now before best cs)
    (hbest : ∀ k b, best = some (k, b) → b ∈ cs ∧ Due now before b)
    (hfresh : ∀ c ∈ cs, c.seq ≠ x.seq) (n : Nat) :
    Covers now before
      (if (decide (x.seq < before) && Tick.notAfter x.fire now) &&
          best.all (fun p => precedes x p.2) then some (n, x) else best) (cs ++ [x]) := by
  intro c hc hdue
  rw [List.mem_append, List.mem_singleton] at hc
  by_cases hwin : ((decide (x.seq < before) && Tick.notAfter x.fire now) &&
      best.all (fun p => precedes x p.2)) = true
  case pos =>
    rw [if_pos hwin]
    rw [Bool.and_eq_true, due_iff] at hwin
    obtain ⟨hx, hall⟩ := hwin
    rcases hc with hc | rfl
    case inr => exact ⟨n, c, rfl, .inl rfl⟩
    case inl =>
      obtain ⟨k, b, rfl, hbc⟩ := hcov c hc hdue
      have hxb : LeavesBefore now x b :=
        (precedes_iff hx.2 (hbest k b rfl).2.2).mp (by simpa using hall)
      refine ⟨n, x, rfl, .inr ?_⟩
      rcases hbc with rfl | hbc
      · exact hxb
      · exact hxb.trans hbc
  case neg =>
    rw [if_neg hwin]
    rcases hc with hc | rfl
    case inl => exact hcov c hc hdue
    case inr =>
      rw [Bool.and_eq_true, due_iff, not_and] at hwin
      cases best with
      | none => exact absurd rfl (hwin hdue)
      | some p =>
        obtain ⟨k, b⟩ := p
        have hlost : precedes c b = false := by simpa using hwin hdue
        have hb := hbest k b rfl
        have hnot : ¬ LeavesBefore now c b := fun h =>
          absurd ((precedes_iff hdue.2 hb.2.2).mpr h) (by simp [hlost])
        refine ⟨k, b, rfl, .inr ?_⟩
        exact ((LeavesBefore.total now (hfresh b hb.1).symm).resolve_left hnot)

theorem earliestDue_mem : ∀ (slots : List (Option DelayEntry)) (n : Nat)
    (best : Option (Nat × DelayEntry)) (k : Nat) (e : DelayEntry),
    earliestDue now before n slots best = some (k, e) →
      best = some (k, e) ∨ (n ≤ k ∧ slots[k - n]? = some (some e) ∧ Due now before e)
  | [], _, _, _, _, h => .inl h
  | none :: rest, n, best, k, e, h => by
    rcases earliestDue_mem rest (n + 1) best k e h with h | ⟨hk, hslot, hdue⟩
    · exact .inl h
    · refine .inr ⟨by omega, ?_, hdue⟩
      rw [show k - n = (k - (n + 1)) + 1 by omega]
      exact hslot
  | some x :: rest, n, best, k, e, h => by
    rw [earliestDue_cons_some] at h
    rcases earliestDue_mem rest (n + 1) _ k e h with h | ⟨hk, hslot, hdue⟩
    · split at h
      case isTrue hwin =>
        obtain ⟨rfl, rfl⟩ := Prod.mk.inj (Option.some.inj h).symm
        rw [Bool.and_eq_true, due_iff] at hwin
        exact .inr ⟨Nat.le_refl _, by simp, hwin.1⟩
      case isFalse => exact .inl h
    · refine .inr ⟨by omega, ?_, hdue⟩
      rw [show k - n = (k - (n + 1)) + 1 by omega]
      exact hslot

/-- The scan's invariant: the running best is a due entry already seen, and answers for
every entry seen. -/
theorem earliestDue_covers : ∀ (slots : List (Option DelayEntry)) (n : Nat)
    (best : Option (Nat × DelayEntry)) (cs : List DelayEntry),
    (∀ k b, best = some (k, b) → b ∈ cs ∧ Due now before b) → Covers now before best cs →
    ((cs ++ slots.filterMap id).map DelayEntry.seq).Nodup →
    Covers now before (earliestDue now before n slots best) (cs ++ slots.filterMap id)
  | [], _, _, _, _, hcov, _ => by simpa [earliestDue] using hcov
  | none :: rest, n, best, cs, hbest, hcov, hnd => by
    rw [List.filterMap_cons_none rfl] at hnd ⊢
    exact earliestDue_covers rest (n + 1) best cs hbest hcov hnd
  | some x :: rest, n, best, cs, hbest, hcov, hnd => by
    have hnd' : ((cs ++ [x] ++ rest.filterMap id).map DelayEntry.seq).Nodup := by simpa using hnd
    have hfresh : ∀ c ∈ cs, c.seq ≠ x.seq := by
      intro c hc heq
      simp only [List.map_append, List.nodup_append] at hnd
      exact hnd.2.2 c.seq (List.mem_map_of_mem hc) x.seq (List.mem_cons_self) heq
    rw [earliestDue_cons_some]
    have hbest' : ∀ k b, (if (decide (x.seq < before) && Tick.notAfter x.fire now) &&
        best.all (fun p => precedes x p.2) then some (n, x) else best) = some (k, b) →
        b ∈ cs ++ [x] ∧ Due now before b := by
      intro k b h
      split at h
      case isTrue hwin =>
        obtain ⟨rfl, rfl⟩ := Prod.mk.inj (Option.some.inj h)
        rw [Bool.and_eq_true, due_iff] at hwin
        exact ⟨by simp, hwin.1⟩
      case isFalse =>
        obtain ⟨hb, hdue⟩ := hbest k b h
        exact ⟨List.mem_append_left _ hb, hdue⟩
    simpa using earliestDue_covers rest (n + 1) _ (cs ++ [x]) hbest' (hcov.step hbest hfresh n)
      hnd'

/-- The whole scan from the first slot: nothing when no entry is due, and otherwise the
slot of the due entry that leaves before every other due entry. -/
theorem earliestDue_spec {slots : List (Option DelayEntry)}
    (hnd : ((slots.filterMap id).map DelayEntry.seq).Nodup) :
    (earliestDue now before 0 slots none = none ↔ ∀ e ∈ slots.filterMap id, ¬ Due now before e) ∧
      ∀ k e, earliestDue now before 0 slots none = some (k, e) →
        slots[k]? = some (some e) ∧ Due now before e ∧
          ∀ c ∈ slots.filterMap id, Due now before c → c = e ∨ LeavesBefore now e c := by
  have hcov := @earliestDue_covers now before slots 0 none [] (by simp) (by simp [Covers])
    (by simpa using hnd)
  rw [List.nil_append] at hcov
  have hfound : ∀ k e, earliestDue now before 0 slots none = some (k, e) →
      slots[k]? = some (some e) ∧ Due now before e := by
    intro k e h
    rcases earliestDue_mem slots 0 none k e h with h | ⟨_, hslot, hdue⟩
    · cases h
    · exact ⟨by simpa using hslot, hdue⟩
  refine ⟨⟨fun h c hc hdue => ?_, fun hnone => ?_⟩, fun k e h => ?_⟩
  · obtain ⟨_, _, hsome, _⟩ := hcov c hc hdue
    rw [h] at hsome
    cases hsome
  · cases h : earliestDue now before 0 slots none with
    | none => rfl
    | some p =>
      obtain ⟨hslot, hdue⟩ := hfound p.1 p.2 h
      exact absurd hdue (hnone p.2 (List.mem_filterMap.mpr ⟨some p.2, List.mem_of_getElem? hslot, rfl⟩))
  · obtain ⟨hslot, hdue⟩ := hfound k e h
    refine ⟨hslot, hdue, fun c hc hc' => ?_⟩
    obtain ⟨k', b, hsome, hbc⟩ := hcov c hc hc'
    rw [h] at hsome
    obtain ⟨-, rfl⟩ := Prod.mk.inj (Option.some.inj hsome)
    exact hbc.imp_left Eq.symm

end Scan

/-! ## Slots -/

section Slots

variable {α : Type}

theorem filterMap_set_none [DecidableEq α] : ∀ {l : List (Option α)} {k : Nat} {x : α}, l[k]? = some (some x) →
    (l.filterMap id).Nodup → (l.set k none).filterMap id = (l.filterMap id).erase x
  | [], _, _, h, _ => by cases h
  | o :: l, 0, x, h, _ => by
    obtain rfl : o = some x := by simpa using h
    simp [List.erase_cons_head]
  | none :: l, k + 1, x, h, hnd => by
    simpa using filterMap_set_none (l := l) (by simpa using h) (by simpa using hnd)
  | some y :: l, k + 1, x, h, hnd => by
    have h' : l[k]? = some (some x) := by simpa using h
    have hx : x ∈ l.filterMap id := List.mem_filterMap.mpr ⟨some x, List.mem_of_getElem? h', rfl⟩
    rw [List.filterMap_cons_some (f := id) rfl, List.nodup_cons] at hnd
    have hyx : y ≠ x := fun hyx => hnd.1 (hyx ▸ hx)
    rw [List.set_cons_succ, List.filterMap_cons_some (f := id) rfl,
      List.filterMap_cons_some (f := id) rfl, List.erase_cons_tail (by simpa using hyx),
      filterMap_set_none h' hnd.2]

theorem filterMap_set_some : ∀ {l : List (Option α)} {k : Nat} (x : α), l[k]? = some none →
    ((l.set k (some x)).filterMap id).Perm (x :: l.filterMap id)
  | [], _, _, h => by cases h
  | o :: l, 0, x, h => by
    obtain rfl : o = none := by simpa using h
    simp
  | none :: l, k + 1, x, h => by
    simpa using filterMap_set_some (l := l) x (by simpa using h)
  | some y :: l, k + 1, x, h => by
    rw [List.set_cons_succ, List.filterMap_cons_some (f := id) rfl,
      List.filterMap_cons_some (f := id) rfl]
    exact ((filterMap_set_some x (by simpa using h)).cons y).trans (List.Perm.swap x y _)

theorem length_filterMap_id_eq_iff :
    ∀ l : List (Option α), (l.filterMap id).length = l.length ↔ ∀ o ∈ l, o.isNone = false
  | [] => by simp
  | none :: l => by
    have hle := List.length_filterMap_le id l
    rw [List.filterMap_cons_none (f := id) rfl, List.length_cons]
    exact iff_of_false (by omega) fun hall =>
      Bool.noConfusion (hall none List.mem_cons_self : true = false)
  | some y :: l => by
    rw [List.filterMap_cons_some (f := id) rfl, List.length_cons, List.length_cons,
      Nat.add_right_cancel_iff, length_filterMap_id_eq_iff l, List.forall_mem_cons]
    exact (and_iff_right rfl).symm

end Slots

/-! ## The invariant and what each call does -/

/-- What every queue reached from `empty` satisfies: sixteen slots, and entries with
distinct sequence numbers below the next one to hand out. -/
structure Valid (q : DelayQueue) : Prop where
  length_slots : q.slots.length = capacity
  seq_nodup : (q.entries.map DelayEntry.seq).Nodup
  seq_lt : ∀ e ∈ q.entries, e.seq < q.nextSeq

theorem valid_empty : empty.Valid where
  length_slots := rfl
  seq_nodup := by decide
  seq_lt := by decide

section Calls

variable {q : DelayQueue}

theorem Valid.size_le (hq : q.Valid) : q.size ≤ capacity :=
  hq.length_slots ▸ List.length_filterMap_le id q.slots

theorem Valid.nodup (hq : q.Valid) : q.entries.Nodup :=
  List.Pairwise.of_map DelayEntry.seq (fun _ _ h he => h (congrArg _ he)) hq.seq_nodup

theorem Valid.of_sublist {q' : DelayQueue} (hq : q.Valid) (hlen : q'.slots.length = capacity)
    (hseq : q'.nextSeq = q.nextSeq) (hsub : q'.entries.Sublist q.entries) : q'.Valid where
  length_slots := hlen
  seq_nodup := hq.seq_nodup.sublist (hsub.map _)
  seq_lt e he := hseq ▸ hq.seq_lt e (hsub.subset he)

variable (script : Nat) (index : Int16) (command : Command) (fire : UInt32)

theorem schedule_full (hq : q.Valid) (h : q.size = capacity) :
    q.schedule script index command fire = .error (.bare .delayQueueFull) := by
  have hall := (length_filterMap_id_eq_iff q.slots).mp (by rw [hq.length_slots]; exact h)
  have hnone : q.slots.findIdx? Option.isNone = none := List.findIdx?_eq_none_iff.mpr hall
  simp only [schedule, hnone]

theorem schedule_room (hq : q.Valid) (h : q.size < capacity) :
    ∃ q', q.schedule script index command fire = .ok q' ∧ q'.slots.length = capacity ∧
      q'.nextSeq = q.nextSeq + 1 ∧
      q'.entries.Perm ({ fire, seq := q.nextSeq, script, index, command } :: q.entries) := by
  cases hidx : q.slots.findIdx? Option.isNone with
  | none =>
    have hall := List.findIdx?_eq_none_iff.mp hidx
    have := (length_filterMap_id_eq_iff q.slots).mpr hall
    rw [hq.length_slots] at this
    simp only [size, entries] at h
    omega
  | some n =>
    obtain ⟨hn, hfree, -⟩ := List.findIdx?_eq_some_iff_getElem.mp hidx
    have hslot : q.slots[n]? = some none := by
      rw [List.getElem?_eq_getElem hn, Option.isNone_iff_eq_none.mp hfree]
    let e : DelayEntry := { fire, seq := q.nextSeq, script, index, command }
    refine ⟨⟨q.slots.set n (some e), q.nextSeq + 1⟩, by simp only [schedule, hidx, e], ?_, rfl,
      filterMap_set_some e hslot⟩
    rw [List.length_set, hq.length_slots]

theorem schedule_eq_error_iff (hq : q.Valid) :
    q.schedule script index command fire = .error (.bare .delayQueueFull) ↔
      q.size = capacity := by
  refine ⟨fun herr => ?_, schedule_full script index command fire hq⟩
  rcases Nat.lt_or_ge q.size capacity with hlt | hge
  · obtain ⟨q', hok, -⟩ := schedule_room script index command fire hq hlt
    rw [hok] at herr
    cases herr
  · exact Nat.le_antisymm hq.size_le hge

variable {now : UInt32} {before : Nat}

theorem entries_set_none {k : Nat} {e : DelayEntry} (hq : q.Valid)
    (h : q.slots[k]? = some (some e)) :
    ({ q with slots := q.slots.set k none } : DelayQueue).entries = q.entries.erase e :=
  filterMap_set_none h hq.nodup

theorem popDueBefore_none_iff (hq : q.Valid) :
    (q.popDueBefore now before).1 = none ↔ ∀ e ∈ q.entries, ¬ Due now before e := by
  have hspec := (@earliestDue_spec now before q.slots hq.seq_nodup).1
  unfold popDueBefore
  split
  · next hscan => exact iff_of_true rfl (hspec.mp hscan)
  · next hscan =>
    refine iff_of_false (Option.some_ne_none _) fun hnone => ?_
    rw [hspec.mpr hnone] at hscan
    cases hscan

theorem popDueBefore_of_none (h : (q.popDueBefore now before).1 = none) :
    (q.popDueBefore now before).2 = q := by
  unfold popDueBefore at h ⊢
  split
  · rfl
  · simp_all

theorem popDueBefore_some {e : DelayEntry} (hq : q.Valid)
    (h : (q.popDueBefore now before).1 = some e) :
    Due now before e ∧ (∀ c ∈ q.entries, Due now before c → c = e ∨ LeavesBefore now e c) ∧
      ∃ k, q.slots[k]? = some (some e) ∧
        (q.popDueBefore now before).2 = { q with slots := q.slots.set k none } := by
  unfold popDueBefore at h ⊢
  split at h
  · cases h
  · next k e' hscan =>
    obtain rfl : e' = e := Option.some.inj h
    obtain ⟨hslot, hdue, hfirst⟩ := (earliestDue_spec hq.seq_nodup).2 k e' hscan
    exact ⟨hdue, hfirst, k, hslot, rfl⟩

theorem entries_cancelScript (q : DelayQueue) (script : Nat) :
    (q.cancelScript script).entries = q.entries.filter (·.script != script) := by
  unfold cancelScript entries
  dsimp only
  induction q.slots with
  | nil => rfl
  | cons o l ih =>
    cases o with
    | none => exact ih
    | some e =>
      by_cases he : e.script = script
      · simp only [List.map_cons, he, if_true]
        rw [List.filterMap_cons_none (f := id) rfl, List.filterMap_cons_some (f := id) rfl,
          List.filter_cons_of_neg (by simp [he]), ih]
      · simp only [List.map_cons, he, if_false]
        rw [List.filterMap_cons_some (f := id) rfl, List.filterMap_cons_some (f := id) rfl,
          List.filter_cons_of_pos (p := fun x : DelayEntry => x.script != script)
            (bne_iff_ne.mpr he), ih]

theorem entries_cancelAll (q : DelayQueue) : q.cancelAll.entries = [] := by
  simp only [cancelAll, entries, List.filterMap_map]
  exact List.filterMap_eq_nil_iff.mpr fun _ _ => rfl

theorem nextSeq_popDueBefore (q : DelayQueue) (now : UInt32) (before : Nat) :
    (q.popDueBefore now before).2.nextSeq = q.nextSeq := by
  unfold popDueBefore
  split <;> rfl

theorem Valid.popDueBefore (hq : q.Valid) : (q.popDueBefore now before).2.Valid := by
  cases h : (q.popDueBefore now before).1 with
  | none => rw [popDueBefore_of_none h]; exact hq
  | some e =>
    obtain ⟨-, -, k, hslot, hq'⟩ := popDueBefore_some hq h
    rw [hq']
    refine hq.of_sublist ?_ rfl ?_
    · rw [List.length_set, hq.length_slots]
    · rw [entries_set_none hq hslot]
      exact List.erase_sublist

theorem popDueBefore_conserves (hq : q.Valid) :
    ((q.popDueBefore now before).2.entries ++ (q.popDueBefore now before).1.toList).Perm
      q.entries := by
  cases h : (q.popDueBefore now before).1 with
  | none => rw [popDueBefore_of_none h, Option.toList_none, List.append_nil]
  | some e =>
    obtain ⟨-, -, k, hslot, hq'⟩ := popDueBefore_some hq h
    have he : e ∈ q.entries := List.mem_filterMap.mpr ⟨_, List.mem_of_getElem? hslot, rfl⟩
    rw [hq', entries_set_none hq hslot, Option.toList_some]
    exact (List.perm_append_singleton e _).trans (List.perm_cons_erase he).symm

theorem Valid.insert_fresh {q' : DelayQueue} {e : DelayEntry} (hq : q.Valid)
    (hlen : q'.slots.length = capacity) (hseq : q'.nextSeq = q.nextSeq + 1)
    (he : e.seq = q.nextSeq) (hperm : q'.entries.Perm (e :: q.entries)) : q'.Valid where
  length_slots := hlen
  seq_nodup := by
    rw [(hperm.map DelayEntry.seq).nodup_iff, List.map_cons, List.nodup_cons]
    refine ⟨fun hmem => ?_, hq.seq_nodup⟩
    obtain ⟨c, hc, hceq⟩ := List.mem_map.mp hmem
    have := hq.seq_lt c hc
    omega
  seq_lt c hc := by
    rcases List.mem_cons.mp (hperm.mem_iff.mp hc) with rfl | hc
    · omega
    · have := hq.seq_lt c hc
      omega

end Calls

/-! ## Sequences of calls -/

inductive Call
  | schedule (script : Nat) (index : Int16) (command : Command) (fire : UInt32)
  | popDue (now : UInt32)
  | popDueBefore (now : UInt32) (before : Nat)
  | cancelScript (script : Nat)
  | cancelAll

namespace Call

/-- The queue after the call; a refused schedule leaves it as it was. -/
def apply (q : DelayQueue) : Call → DelayQueue
  | .schedule script index command fire =>
    match q.schedule script index command fire with
    | .ok q' => q'
    | .error _ => q
  | .popDue now => (q.popDue now).2
  | .popDueBefore now before => (q.popDueBefore now before).2
  | .cancelScript script => q.cancelScript script
  | .cancelAll => q.cancelAll

/-- The entry the call hands back: a pop's answer. -/
def returned (q : DelayQueue) : Call → List DelayEntry
  | .popDue now => (q.popDue now).1.toList
  | .popDueBefore now before => (q.popDueBefore now before).1.toList
  | _ => []

/-- The entries the call cancels: those the script owns, or all of them. -/
def cancelled (q : DelayQueue) : Call → List DelayEntry
  | .cancelScript script => q.entries.filter (·.script == script)
  | .cancelAll => q.entries
  | _ => []

/-- The entry the call schedules when a slot is free, stamped with the next sequence
number. -/
def scheduled (q : DelayQueue) : Call → List DelayEntry
  | .schedule script index command fire =>
    if q.size < capacity then [{ fire, seq := q.nextSeq, script, index, command }] else []
  | _ => []

variable {q : DelayQueue}

theorem valid_apply (hq : q.Valid) : ∀ c : Call, (c.apply q).Valid
  | .schedule script index command fire => by
    rcases Nat.lt_or_ge q.size capacity with hlt | hge
    · obtain ⟨q', hok, hlen, hseq, hperm⟩ := schedule_room script index command fire hq hlt
      simp only [apply, hok]
      exact hq.insert_fresh hlen hseq rfl hperm
    · simp only [apply, schedule_full script index command fire hq (Nat.le_antisymm hq.size_le hge)]
      exact hq
  | .popDue _ => hq.popDueBefore
  | .popDueBefore _ _ => hq.popDueBefore
  | .cancelScript script => by
    refine hq.of_sublist ?_ rfl ?_
    · exact (List.length_map _).trans hq.length_slots
    · rw [apply, entries_cancelScript]
      exact List.filter_sublist
  | .cancelAll => by
    refine hq.of_sublist ?_ rfl ?_
    · exact (List.length_map _).trans hq.length_slots
    · rw [apply, entries_cancelAll]
      exact List.nil_sublist _

/-- No call loses an entry or makes one up: what is held after it, with what it returned
and cancelled, is what was held before it and what it scheduled. -/
theorem conserves (hq : q.Valid) : ∀ c : Call,
    ((c.apply q).entries ++ c.returned q ++ c.cancelled q).Perm (q.entries ++ c.scheduled q)
  | .schedule script index command fire => by
    rcases Nat.lt_or_ge q.size capacity with hlt | hge
    · obtain ⟨q', hok, -, -, hperm⟩ := schedule_room script index command fire hq hlt
      simp only [apply, hok, returned, cancelled, scheduled, if_pos hlt, List.append_nil]
      exact hperm.trans (List.perm_append_singleton _ _).symm
    · simp only [apply, schedule_full script index command fire hq (Nat.le_antisymm hq.size_le hge),
        returned, cancelled, scheduled, if_neg (Nat.not_lt.mpr hge), List.append_nil]
      exact List.Perm.refl _
  | .popDue _ => by
    simpa only [apply, returned, cancelled, scheduled, List.append_nil, DelayQueue.popDue] using
      popDueBefore_conserves hq
  | .popDueBefore _ _ => by
    simpa only [apply, returned, cancelled, scheduled, List.append_nil] using
      popDueBefore_conserves hq
  | .cancelScript script => by
    simp only [apply, returned, cancelled, scheduled, entries_cancelScript, List.append_nil]
    have hsplit := List.filter_append_perm (·.script != script) q.entries
    simpa only [bne, Bool.not_not] using hsplit
  | .cancelAll => by
    simp only [apply, returned, cancelled, scheduled, entries_cancelAll, List.nil_append,
      List.append_nil]
    exact List.Perm.refl _

theorem nextSeq_apply (hq : q.Valid) : ∀ c : Call,
    (c.apply q).nextSeq = q.nextSeq + (c.scheduled q).length
  | .schedule script index command fire => by
    rcases Nat.lt_or_ge q.size capacity with hlt | hge
    · obtain ⟨q', hok, -, hseq, -⟩ := schedule_room script index command fire hq hlt
      simp only [apply, hok, scheduled, if_pos hlt, List.length_singleton, hseq]
    · simp only [apply, schedule_full script index command fire hq (Nat.le_antisymm hq.size_le hge),
        scheduled, if_neg (Nat.not_lt.mpr hge), List.length_nil, Nat.add_zero]
  | .popDue _ => nextSeq_popDueBefore _ _ _
  | .popDueBefore _ _ => nextSeq_popDueBefore _ _ _
  | .cancelScript _ => rfl
  | .cancelAll => rfl

theorem seq_scheduled : ∀ c : Call,
    (c.scheduled q).map DelayEntry.seq = List.range' q.nextSeq (c.scheduled q).length
  | .schedule .. => by
    by_cases h : q.size < capacity
    · simp only [scheduled, if_pos h]
      rfl
    · simp only [scheduled, if_neg h]
      rfl
  | .popDue _ | .popDueBefore _ _ | .cancelScript _ | .cancelAll => rfl

end Call

def run (q : DelayQueue) : List Call → DelayQueue
  | [] => q
  | c :: cs => run (c.apply q) cs

/-- What one of a call's logs records over a sequence of calls, in order. -/
def trace (log : DelayQueue → Call → List DelayEntry) (q : DelayQueue) :
    List Call → List DelayEntry
  | [] => []
  | c :: cs => log q c ++ trace log (c.apply q) cs

theorem valid_run : ∀ {q : DelayQueue} (calls : List Call), q.Valid → (q.run calls).Valid
  | _, [], hq => hq
  | _, c :: cs, hq => valid_run cs (Call.valid_apply hq c)

/-- Over a whole run no entry is lost or made up: what is held at the end, with everything
returned and cancelled, is what was held at the start and everything scheduled. -/
theorem run_conserves : ∀ {q : DelayQueue} (calls : List Call), q.Valid →
    ((q.run calls).entries ++ trace Call.returned q calls ++ trace Call.cancelled q calls).Perm
      (q.entries ++ trace Call.scheduled q calls)
  | _, [], _ => by simp only [run, trace, List.append_nil]; exact List.Perm.refl _
  | q, c :: cs, hq => by
    -- the step's balance and the rest of the run's balance add up, entry by entry
    have hstep := List.perm_iff_count.mp (Call.conserves hq c)
    have hrest := List.perm_iff_count.mp (run_conserves cs (Call.valid_apply hq c))
    refine List.perm_iff_count.mpr fun a => ?_
    have h1 := hstep a
    have h2 := hrest a
    simp only [run, trace, List.count_append] at h1 h2 ⊢
    omega

theorem run_seq : ∀ {q : DelayQueue} (calls : List Call), q.Valid →
    (q.run calls).nextSeq = q.nextSeq + (trace Call.scheduled q calls).length ∧
      (trace Call.scheduled q calls).map DelayEntry.seq =
        List.range' q.nextSeq (trace Call.scheduled q calls).length
  | _, [], _ => ⟨rfl, rfl⟩
  | q, c :: cs, hq => by
    obtain ⟨hnext, hseqs⟩ := run_seq cs (Call.valid_apply hq c)
    rw [Call.nextSeq_apply hq c] at hnext hseqs
    refine ⟨by simp only [run, trace, List.length_append, hnext]; omega, ?_⟩
    simp only [trace, List.map_append, List.length_append, Call.seq_scheduled c, hseqs]
    rw [show q.nextSeq + (c.scheduled q).length = q.nextSeq + 1 * (c.scheduled q).length by
      omega, List.range'_append]

theorem Call.scheduled_length_le (q : DelayQueue) : ∀ c : Call, (c.scheduled q).length ≤ 1
  | .schedule .. => by
    simp only [Call.scheduled]
    split <;> simp
  | .popDue _ | .popDueBefore _ _ | .cancelScript _ | .cancelAll => Nat.zero_le _

theorem trace_scheduled_length_le : ∀ (q : DelayQueue) (calls : List Call),
    (trace Call.scheduled q calls).length ≤ calls.length
  | _, [] => Nat.le_refl _
  | q, c :: cs => by
    have hstep := Call.scheduled_length_le q c
    have hrest := trace_scheduled_length_le (c.apply q) cs
    simp only [trace, List.length_append, List.length_cons]
    omega

/-- Each call hands out at most one sequence number, so after `n` calls from the empty queue
`nextSeq` is at most `n`: counted in a 64-bit word it cannot pass the word's end before 2⁶⁴
calls. -/
theorem run_nextSeq_le (calls : List Call) : (empty.run calls).nextSeq ≤ calls.length := by
  have hrun := (run_seq calls valid_empty).1
  have hcount := trace_scheduled_length_le empty calls
  rw [show empty.nextSeq = 0 from rfl, Nat.zero_add] at hrun
  omega

/-- Along any sequence of calls from the empty queue: at most sixteen entries are held, with
distinct sequence numbers below `nextSeq`; scheduling is refused with `DELAY QUEUE FULL`
exactly when sixteen are held, changing nothing, and otherwise adds one entry stamped
`nextSeq` and counts on; a pop answers nothing exactly when no entry is due, and otherwise
the due entry that fell due longest ago, of equal ages the one scheduled first, freeing its
slot and no other; `popDue` is the pop with the largest cut-off; cancelling a script drops
exactly its entries. Over the run every entry ever scheduled, each with the next sequence
number, is held, handed back once, or cancelled. -/
theorem run_bounded_priority_queue (calls : List Call) :
    let q := empty.run calls
    (q.size ≤ capacity ∧ (q.entries.map DelayEntry.seq).Nodup ∧
      ∀ e ∈ q.entries, e.seq < q.nextSeq) ∧
    (∀ script index command fire,
      (q.schedule script index command fire = .error (.bare .delayQueueFull) ↔
        q.size = capacity) ∧
      (q.size = capacity → (Call.schedule script index command fire).apply q = q) ∧
      (q.size < capacity → ∃ q', q.schedule script index command fire = .ok q' ∧
        q'.nextSeq = q.nextSeq + 1 ∧
        q'.entries.Perm ({ fire, seq := q.nextSeq, script, index, command } :: q.entries))) ∧
    (∀ now before,
      ((q.popDueBefore now before).1 = none ↔ ∀ e ∈ q.entries, ¬ Due now before e) ∧
      ((q.popDueBefore now before).1 = none → (q.popDueBefore now before).2 = q) ∧
      ∀ e, (q.popDueBefore now before).1 = some e →
        Due now before e ∧
        (∀ c ∈ q.entries, Due now before c → c = e ∨ LeavesBefore now e c) ∧
        (∃ k, q.slots[k]? = some (some e) ∧
          (q.popDueBefore now before).2 = { q with slots := q.slots.set k none }) ∧
        (q.popDueBefore now before).2.entries = q.entries.erase e) ∧
    (∀ now, q.popDue now = q.popDueBefore now seqLimit) ∧
    (∀ script, (q.cancelScript script).entries = q.entries.filter (·.script != script) ∧
      (q.cancelScript script).nextSeq = q.nextSeq) ∧
    ((q.entries ++ trace Call.returned empty calls ++ trace Call.cancelled empty calls).Perm
        (trace Call.scheduled empty calls) ∧
      (trace Call.scheduled empty calls).map DelayEntry.seq = List.range q.nextSeq) := by
  intro q
  have hq : q.Valid := valid_run calls valid_empty
  have hseq : q.nextSeq = 0 + (trace Call.scheduled empty calls).length ∧
      (trace Call.scheduled empty calls).map DelayEntry.seq =
        List.range' 0 (trace Call.scheduled empty calls).length :=
    run_seq calls valid_empty
  have hbalance : (q.entries ++ trace Call.returned empty calls ++
      trace Call.cancelled empty calls).Perm ([] ++ trace Call.scheduled empty calls) :=
    run_conserves calls valid_empty
  refine ⟨⟨hq.size_le, hq.seq_nodup, hq.seq_lt⟩, fun script index command fire => ?_,
    fun now before => ⟨popDueBefore_none_iff hq, popDueBefore_of_none, fun e he => ?_⟩,
    fun _ => rfl, fun script => ⟨entries_cancelScript q script, rfl⟩, ?_, ?_⟩
  · refine ⟨schedule_eq_error_iff script index command fire hq, fun hfull => ?_, fun hroom => ?_⟩
    · simp only [Call.apply, schedule_full script index command fire hq hfull]
    · obtain ⟨q', hok, -, hnext, hperm⟩ := schedule_room script index command fire hq hroom
      exact ⟨q', hok, hnext, hperm⟩
  · obtain ⟨hdue, hfirst, k, hslot, hpop⟩ := popDueBefore_some hq he
    exact ⟨hdue, hfirst, ⟨k, hslot, hpop⟩, by rw [hpop, entries_set_none hq hslot]⟩
  · rwa [List.nil_append] at hbalance
  · rw [hseq.2, hseq.1, Nat.zero_add, List.range_eq_range']

/-- On the wrapping clock an entry due at tick 2³² - 1 fell due before one due at tick 1,
and leaves first at tick 2. -/
example : ((empty.run [.schedule 0 0 .nop 1, .schedule 1 0 .nop 4294967295]).popDue 2).1.map
    (·.script) = some 1 := by
  decide

end TriggerScript.DelayQueue
