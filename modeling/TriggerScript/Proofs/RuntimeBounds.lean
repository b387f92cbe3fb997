import TriggerScript.Proofs.StoredState
import TriggerScript.Proofs.DelayFiring
/-!
The ranges a running scene keeps outside its stored part.

Besides what its record holds, a scene carries the state of a run: the pattern bank, the
turtle, the grid, the output settings, the metronome, the MIDI batches, the `EVERY`
counters, the command stack and the delay queue. Each operation that writes one of them
holds the value to its range: the bank to the four patterns, the turtle to the grid and its
heading to the eight directions, LED levels to fifteen, CV values to full scale, slews,
pulse times and the metronome period to their least values, batches to twenty entries,
counters below their period, the stack and the queue to sixteen entries (`Scene.Bounded`).

A change that leaves those fields alone keeps a scene bounded (`Bounded.congr`); each of
the others has its lemma here, for the value it writes.
-/

set_option autoImplicit false
set_option relaxedAutoImplicit false

namespace TriggerScript

/-! ### Clamped values -/

section Clamp

theorem int16_toInt_max (a b : Int16) : (max a b).toInt = max a.toInt b.toInt := by
  show (if a ≤ b then b else a).toInt = _
  by_cases h : a ≤ b
  · rw [if_pos h]
    rw [Int16.le_iff_toInt_le] at h
    omega
  · rw [if_neg h]
    rw [Int16.le_iff_toInt_le] at h
    omega

theorem int16_toInt_min (a b : Int16) : (min a b).toInt = min a.toInt b.toInt := by
  show (if a ≤ b then a else b).toInt = _
  by_cases h : a ≤ b
  · rw [if_pos h]
    rw [Int16.le_iff_toInt_le] at h
    omega
  · rw [if_neg h]
    rw [Int16.le_iff_toInt_le] at h
    omega

theorem le_max_floor (v floor : Int16) : floor ≤ max v floor := by
  rw [Int16.le_iff_toInt_le, int16_toInt_max]
  omega

theorem clamp_cvMax (v : Int16) :
    0 ≤ max 0 (min Value.cvMax v) ∧ max 0 (min Value.cvMax v) ≤ Value.cvMax := by
  have hmax : Value.cvMax.toInt = 16383 := by decide
  rw [Int16.le_iff_toInt_le, Int16.le_iff_toInt_le, int16_toInt_max, int16_toInt_min, hmax,
    Int16.toInt_zero]
  omega

end Clamp

/-! ### The turtle -/

namespace Turtle

/-- A turtle in a cell of the grid, heading one of the eight directions. -/
structure OnGrid (t : Turtle) : Prop where
  x_lt : t.x < gridSize
  y_lt : t.y < gridSize
  heading_lt : t.heading < 8

theorem wrapCoord_lt (c : Nat) (d : Int) : wrapCoord c d < gridSize := by
  unfold wrapCoord gridSize
  omega

theorem clampCoord_lt (c : Nat) (d : Int) : clampCoord c d < gridSize := by
  unfold clampCoord gridSize
  omega

theorem onGrid_home : home.OnGrid := ⟨by decide, by decide, by decide⟩

variable {t : Turtle}

theorem OnGrid.setX (h : t.OnGrid) (v : Int16) : (t.setX v).OnGrid :=
  ⟨clampCoord_lt _ _, h.y_lt, h.heading_lt⟩

theorem OnGrid.setY (h : t.OnGrid) (v : Int16) : (t.setY v).OnGrid :=
  ⟨h.x_lt, clampCoord_lt _ _, h.heading_lt⟩

theorem OnGrid.setHeading (h : t.OnGrid) (v : Int16) : (t.setHeading v).OnGrid :=
  ⟨h.x_lt, h.y_lt, show (v.toInt % 8).toNat < 8 by omega⟩

theorem OnGrid.forward (h : t.OnGrid) (n : Int16) : (t.forward n).OnGrid := by
  unfold Turtle.forward
  split
  exact ⟨wrapCoord_lt _ _, wrapCoord_lt _ _, h.heading_lt⟩

theorem OnGrid.bump (h : t.OnGrid) (n : Int16) : (t.bump n).OnGrid := by
  unfold Turtle.bump
  split
  exact ⟨clampCoord_lt _ _, clampCoord_lt _ _, h.heading_lt⟩

theorem OnGrid.moveBy (h : t.OnGrid) (dx dy : Int16) : (t.moveBy dx dy).OnGrid :=
  ⟨clampCoord_lt _ _, clampCoord_lt _ _, h.heading_lt⟩

theorem OnGrid.turn (h : t.OnGrid) (n : Int16) : (t.turn n).OnGrid :=
  ⟨h.x_lt, h.y_lt, show (((t.heading : Int) + n.toInt) % 8).toNat < 8 by omega⟩

theorem OnGrid.quarterTurn (h : t.OnGrid) (n : Int16) : (t.quarterTurn n).OnGrid :=
  ⟨h.x_lt, h.y_lt, show ((((t.heading / 2 : Nat) : Int) + n.toInt) % 4).toNat * 2 < 8 by omega⟩

end Turtle

/-! ### MIDI batches -/

namespace Midi

structure Batched (m : Midi) : Prop where
  notesOn : m.notesOn.length ≤ batchLimit
  notesOff : m.notesOff.length ≤ batchLimit
  controls : m.controls.length ≤ batchLimit

theorem batched_endBatch (m : Midi) : m.endBatch.Batched :=
  ⟨Nat.zero_le _, Nat.zero_le _, Nat.zero_le _⟩

theorem length_recordControl {batch batch' : List (Int16 × Int16 × Int16)} {ch num val : Int16}
    (hb : batch.length ≤ batchLimit) (h : recordControl batch ch num val = some batch') :
    batch'.length ≤ batchLimit := by
  unfold recordControl at h
  split at h
  · cases h
    rw [List.length_map]
    exact hb
  · split at h
    · cases h
    · rename_i hroom
      cases h
      rw [List.length_append, List.length_singleton]
      omega

variable {m : Midi}

theorem Batched.receiveNoteOff (h : m.Batched) (ch note : UInt8) :
    (m.receiveNoteOff ch note).2.Batched := by
  unfold Midi.receiveNoteOff
  dsimp only
  split
  · exact ⟨h.notesOn, h.notesOff, h.controls⟩
  split
  · exact ⟨h.notesOn, h.notesOff, h.controls⟩
  rename_i hroom
  refine ⟨h.notesOn, ?_, h.controls⟩
  rw [List.length_append, List.length_singleton]
  omega

theorem Batched.receiveNoteOn (h : m.Batched) (ch note vel : UInt8) :
    (m.receiveNoteOn ch note vel).2.Batched := by
  unfold Midi.receiveNoteOn
  split
  · exact h.receiveNoteOff ch note
  dsimp only
  split
  · exact ⟨h.notesOn, h.notesOff, h.controls⟩
  split
  · exact ⟨h.notesOn, h.notesOff, h.controls⟩
  rename_i hroom
  refine ⟨?_, h.notesOff, h.controls⟩
  rw [List.length_append, List.length_singleton]
  omega

theorem Batched.receiveControl (h : m.Batched) (ch num val : UInt8) :
    (m.receiveControl ch num val).2.Batched := by
  unfold Midi.receiveControl
  dsimp only
  split
  · exact ⟨h.notesOn, h.notesOff, h.controls⟩
  split
  · rename_i batch hbatch
    exact ⟨h.notesOn, h.notesOff, length_recordControl h.controls hbatch⟩
  · exact ⟨h.notesOn, h.notesOff, h.controls⟩

theorem Batched.receive (h : m.Batched) (msg : MidiMessage) : (m.receive msg).2.Batched := by
  cases msg with
  | noteOn ch note vel => exact h.receiveNoteOn ch note vel
  | noteOff ch note => exact h.receiveNoteOff ch note
  | controlChange ch num val => exact h.receiveControl ch num val
  | clock =>
    unfold Midi.receive
    dsimp only
    split
    · exact ⟨h.notesOn, h.notesOff, h.controls⟩
    · exact ⟨h.notesOn, h.notesOff, h.controls⟩
  | start | stop | resume => exact ⟨h.notesOn, h.notesOff, h.controls⟩

end Midi

/-! ### Output settings -/

namespace Outputs

/-- CV values within full scale, slews and pulse times of at least a millisecond, and a
pulse time for each output. -/
structure InRange (o : Outputs) : Prop where
  cv : ∀ v ∈ o.cv, 0 ≤ v ∧ v ≤ Value.cvMax
  cvSlew : ∀ v ∈ o.cvSlew, 1 ≤ v
  trTime_length : o.trTime.length = Scene.outputCount
  trTime : ∀ v ∈ o.trTime, 1 ≤ v

variable {o : Outputs}

theorem InRange.setCv (h : o.InRange) (ch : Nat) {v : Int16} (hv : 0 ≤ v ∧ v ≤ Value.cvMax) :
    { o with cv := o.cv.set ch v }.InRange :=
  ⟨Scene.forall_mem_set h.cv hv, h.cvSlew, h.trTime_length, h.trTime⟩

theorem InRange.setCvSlew (h : o.InRange) (ch : Nat) {ms : Int16} (hms : 1 ≤ ms) :
    { o with cvSlew := o.cvSlew.set ch ms }.InRange :=
  ⟨h.cv, Scene.forall_mem_set h.cvSlew hms, h.trTime_length, h.trTime⟩

theorem InRange.setTrTime (h : o.InRange) (ch : Nat) {ms : Int16} (hms : 1 ≤ ms) :
    { o with trTime := o.trTime.set ch ms }.InRange :=
  ⟨h.cv, h.cvSlew, by rw [List.length_set, h.trTime_length], Scene.forall_mem_set h.trTime hms⟩

theorem InRange.trTime_getD (h : o.InRange) {ch : Nat} (hch : ch < Scene.outputCount) :
    1 ≤ o.trTime.getD ch 0 := by
  have hlt : ch < o.trTime.length := h.trTime_length ▸ hch
  rw [List.getD_eq_getElem?_getD, List.getElem?_eq_getElem hlt, Option.getD_some]
  exact h.trTime _ (List.getElem_mem _)

theorem inRange_default : ({} : Outputs).InRange where
  cv v hv := by
    rw [List.eq_of_mem_replicate hv]
    decide
  cvSlew v hv := by
    rw [List.eq_of_mem_replicate hv]
    decide
  trTime_length := rfl
  trTime v hv := by
    rw [List.eq_of_mem_replicate hv]
    decide

end Outputs

namespace DelayQueue

theorem Valid.cancelScript {q : DelayQueue} (hq : q.Valid) (script : Nat) :
    (q.cancelScript script).Valid :=
  hq.of_sublist ((List.length_map _).trans hq.length_slots) rfl
    (by rw [entries_cancelScript]; exact List.filter_sublist)

end DelayQueue

/-! ### The command stack -/

namespace BoundedStack

variable {α : Type} {st st' : BoundedStack α}

theorem push_ok {x : α} (h : st.push x = .ok st') :
    st'.capacity = st.capacity ∧ st'.size ≤ st.capacity := by
  unfold push at h
  split at h
  · cases h
  · rename_i hfull
    cases h
    simp only [isFull, decide_eq_true_eq, Nat.not_le] at hfull
    refine ⟨rfl, ?_⟩
    show (st.items ++ [x]).length ≤ st.capacity
    rw [List.length_append, List.length_singleton]
    omega

theorem pop_le (st : BoundedStack α) : st.pop.2.capacity = st.capacity ∧ st.pop.2.size ≤ st.size := by
  unfold pop
  split
  · exact ⟨rfl, Nat.le_refl _⟩
  · refine ⟨rfl, ?_⟩
    show st.items.dropLast.length ≤ st.items.length
    rw [List.length_dropLast]
    exact Nat.sub_le _ _

end BoundedStack

/-! ### Bounded scenes -/

structure Transient where
  bank : Nat
  turtle : Turtle
  grid : List (List Nat)
  cv : List Int16
  cvSlew : List Int16
  trTime : List Int16
  metro : Int16
  notesOn : List (Int16 × Int16 × Int16)
  notesOff : List (Int16 × Int16)
  controls : List (Int16 × Int16 × Int16)
  every : List (List Nat)
  liveEvery : Nat
  stack : BoundedStack StackEntry
  delays : DelayQueue

namespace Scene

def levelMax : Nat := 15

/-- The largest count an `EVERY` counter holds: one below the longest period. -/
def everyMax : Nat := 32766

def transient (s : Scene) : Transient :=
  ⟨s.bank, s.turtle, s.grid, s.outputs.cv, s.outputs.cvSlew, s.outputs.trTime, s.metro,
    s.midi.notesOn, s.midi.notesOff, s.midi.controls, s.every, s.liveEvery, s.stack, s.delays⟩

/-- A scene whose run state is in range: the bank names a pattern, the turtle is on the grid,
LED levels are at most fifteen, the outputs are in range, the metronome period is at least
its least value, the MIDI batches hold at most twenty entries, every `EVERY` counter is below
the longest period, and the command stack and the delay queue hold at most sixteen entries. -/
structure Bounded (s : Scene) : Prop where
  bank_lt : s.bank < patternCount
  turtle : s.turtle.OnGrid
  grid : ∀ row ∈ s.grid, ∀ level ∈ row, level ≤ levelMax
  outputs : s.outputs.InRange
  metro : metroMin ≤ s.metro
  midi : s.midi.Batched
  every : ∀ row ∈ s.every, ∀ count ∈ row, count ≤ everyMax
  liveEvery : s.liveEvery ≤ everyMax
  stack_capacity : s.stack.capacity = stackSize
  stack_size : s.stack.size ≤ stackSize
  delays : s.delays.Valid

variable {s s' : Scene}

theorem Bounded.congr (h : s.Bounded) (e : s'.transient = s.transient) : s'.Bounded := by
  simp only [transient, Transient.mk.injEq] at e
  obtain ⟨hbank, hturtle, hgrid, hcv, hslew, htime, hmetro, hon, hoff, hcc, hevery, hlive,
    hstack, hdelays⟩ := e
  have ho := h.outputs
  have hm := h.midi
  exact ⟨hbank ▸ h.bank_lt, hturtle ▸ h.turtle, hgrid ▸ h.grid,
    ⟨hcv ▸ ho.cv, hslew ▸ ho.cvSlew, htime ▸ ho.trTime_length, htime ▸ ho.trTime⟩,
    hmetro ▸ h.metro, ⟨hon ▸ hm.notesOn, hoff ▸ hm.notesOff, hcc ▸ hm.controls⟩,
    hevery ▸ h.every, hlive ▸ h.liveEvery, hstack ▸ h.stack_capacity, hstack ▸ h.stack_size,
    hdelays ▸ h.delays⟩

theorem freshCounters_le : ∀ row ∈ freshCounters, ∀ count ∈ row, count ≤ everyMax := by
  intro row hrow count hcount
  rw [freshCounters] at hrow
  rw [List.eq_of_mem_replicate hrow] at hcount
  rw [List.eq_of_mem_replicate hcount]
  exact Nat.zero_le _

theorem bounded_withSeed (seed : UInt64) : (withSeed seed).Bounded where
  bank_lt := show 0 < patternCount by decide
  turtle := Turtle.onGrid_home
  grid row hrow level hlevel := by
    rw [List.eq_of_mem_replicate hrow] at hlevel
    rw [List.eq_of_mem_replicate hlevel]
    exact Nat.zero_le _
  outputs := Outputs.inRange_default
  metro := show metroMin ≤ metroDefault by decide
  midi := Midi.batched_endBatch Midi.empty
  every := freshCounters_le
  liveEvery := Nat.zero_le _
  stack_capacity := rfl
  stack_size := Nat.zero_le _
  delays := DelayQueue.valid_empty

theorem Bounded.withTurtle (h : s.Bounded) {t : Turtle} (ht : t.OnGrid) :
    { s with turtle := t }.Bounded :=
  { h with turtle := ht }

theorem Bounded.withOutputs (h : s.Bounded) {o : Outputs} (ho : o.InRange) :
    { s with outputs := o }.Bounded :=
  { h with outputs := ho }

theorem Bounded.withMidi (h : s.Bounded) {m : Midi} (hm : m.Batched) :
    { s with midi := m }.Bounded :=
  { h with midi := hm }

theorem Bounded.withDelays (h : s.Bounded) {q : DelayQueue} (hq : q.Valid) :
    { s with delays := q }.Bounded :=
  { h with delays := hq }

theorem Bounded.setBank (h : s.Bounded) {b : Nat} (hb : b < patternCount) :
    { s with bank := b }.Bounded :=
  { h with bank_lt := hb }

theorem Bounded.setMetro (h : s.Bounded) {m : Int16} (hm : metroMin ≤ m) :
    { s with metro := m }.Bounded :=
  { h with metro := hm }

theorem Bounded.setGridLed (h : s.Bounded) (x y : Nat) {level : Nat} (hl : level ≤ levelMax) :
    (s.setGridLed x y level).Bounded :=
  { h with grid := forall_mem_modify h.grid fun row hrow => forall_mem_set (h.grid row hrow) hl }

theorem Bounded.clearGrid (h : s.Bounded) :
    { s with grid := List.replicate gridSize (List.replicate gridSize 0) }.Bounded :=
  { h with
    grid := fun row hrow level hlevel => by
      rw [List.eq_of_mem_replicate hrow] at hlevel
      rw [List.eq_of_mem_replicate hlevel]
      exact Nat.zero_le _ }

theorem Bounded.setEvery (h : s.Bounded) (script line : Nat) {count : Nat}
    (hc : count ≤ everyMax) :
    { s with every := s.every.modify script (·.set line count) }.Bounded :=
  { h with every := forall_mem_modify h.every fun row hrow => forall_mem_set (h.every row hrow) hc }

theorem Bounded.setLiveEvery (h : s.Bounded) {count : Nat} (hc : count ≤ everyMax) :
    { s with liveEvery := count }.Bounded :=
  { h with liveEvery := hc }

theorem Bounded.withStack (h : s.Bounded) {st : BoundedStack StackEntry}
    (hcap : st.capacity = stackSize) (hsize : st.size ≤ stackSize) :
    { s with stack := st }.Bounded :=
  { h with stack_capacity := hcap, stack_size := hsize }

theorem Bounded.clearStack (h : s.Bounded) : { s with stack := s.stack.clear }.Bounded :=
  h.withStack h.stack_capacity (Nat.zero_le _)

theorem Bounded.scriptChanged (h : s.Bounded) (n : Nat) : (s.scriptChanged n).Bounded :=
  { h with
    every := forall_mem_set h.every fun count hcount => by
      rw [List.eq_of_mem_replicate hcount]
      exact Nat.zero_le _
    delays := h.delays.cancelScript n }

theorem Bounded.resetTransient (h : s.Bounded) : s.resetTransient.Bounded :=
  { h with
    turtle := Turtle.onGrid_home
    midi := Midi.batched_endBatch _
    every := freshCounters_le
    liveEvery := Nat.zero_le _
    stack_size := Nat.zero_le _
    delays := h.delays.cancelAll }

end Scene

theorem everyTick_le (count : Nat) (n : Int16) : (everyTick count n).1 ≤ Scene.everyMax := by
  have hn := n.toInt_le
  have hmax : Int16.maxValue.toInt = 32767 := by decide
  unfold everyTick
  dsimp only
  split
  · exact Nat.zero_le _
  · rename_i hlt
    simp only [Scene.everyMax]
    omega

end TriggerScript
