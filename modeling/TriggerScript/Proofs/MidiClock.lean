import TriggerScript.Proofs.MidiBatches
import TriggerScript.Proofs.MidiRuns
/-!
Dividing the MIDI clock.

A clock message moves the clock count on by one, and when it reaches the divider reports the
clock event, runs what is bound to the clock and starts again at zero (`receive_clock`). So
while nothing sets the divider or restarts the count, the count after `k` clock messages is
`k` modulo the divider (`clockCount_edit`), and the `k`-th message reports the clock exactly when
the divider divides `k` (`receive_kth_clock`).

Across everything that can happen to a scene the divider stays between one and the largest
divider, and the count below the largest divider (`Midi.ClockRange`): `MI.CLKD` holds the
divider in range, `MI.CLKR` restarts the count, and a clock message leaves the count below the
divider it reads. So counting one more never leaves a byte, and after each clock message the
count is below the divider (`Midi.clock_division_in_range`).
-/

set_option autoImplicit false
set_option relaxedAutoImplicit false

namespace TriggerScript

namespace MidiEdit

/-- Whether a change sets the divider or restarts the clock count. -/
def touchesClock : MidiEdit → Bool
  | .setClockDiv _ | .resetClock => true
  | _ => false

end MidiEdit

namespace Midi

/-! ### Counting clock messages -/

/-- The number of clock messages in a sequence of changes. -/
def clocks (es : List MidiEdit) : Nat := (es.filterMap MidiEdit.message?).count .clock

theorem clocks_receive (msg : MidiMessage) (es : List MidiEdit) :
    clocks (.receive msg :: es) = (if msg = .clock then 1 else 0) + clocks es := by
  by_cases h : msg = .clock <;> simp [clocks, MidiEdit.message?, h]; omega

theorem clocks_of_message?_none {e : MidiEdit} (h : e.message? = none) (es : List MidiEdit) :
    clocks (e :: es) = clocks es := by
  simp [clocks, h]

theorem receive_clock (m : Midi) :
    m.receive .clock =
      if m.clockCount + 1 < m.clockDiv then (.kept, { m with clockCount := m.clockCount + 1 })
      else (m.runNow .clock, { m with clockCount := 0, lastEvent := 4 }) := by
  simp only [receive]
  split <;> rfl

theorem receive_clockCount (m : Midi) (msg : MidiMessage) :
    (m.receive msg).2.clockCount =
      if msg = .clock then (if m.clockCount + 1 < m.clockDiv then m.clockCount + 1 else 0)
      else m.clockCount := by
  cases msg with
  | clock => rw [receive_clock]; split <;> rfl
  | noteOn ch note vel =>
    by_cases hv : vel = 0
    · simp [receive, receiveNoteOn, hv, receiveNoteOff_snd]
    · simp [receive, receiveNoteOn_snd m ch note vel hv]
  | _ => simp [receive, receiveNoteOff_snd, receiveControl_snd]

theorem succ_mod_of_lt {c d : Nat} (hc : c < d) :
    (c + 1) % d = if c + 1 < d then c + 1 else 0 := by
  split
  · exact Nat.mod_eq_of_lt ‹_›
  · rw [show c + 1 = d by omega, Nat.mod_self]

theorem clockCount_edit {m : Midi} (hc : m.clockCount < m.clockDiv) (es : List MidiEdit)
    (hes : ∀ e ∈ es, e.touchesClock = false) :
    (m.edit es).clockDiv = m.clockDiv ∧
      (m.edit es).clockCount = (m.clockCount + clocks es) % m.clockDiv := by
  induction es generalizing m with
  | nil => exact ⟨rfl, (Nat.mod_eq_of_lt hc).symm⟩
  | cons e es ih =>
    have hrest : ∀ e ∈ es, e.touchesClock = false := fun e he => hes e (List.mem_cons_of_mem _ he)
    cases e with
    | receive msg =>
      have hdiv := (receive_stored m msg).2
      have hcount := receive_clockCount m msg
      have hlt : (m.receive msg).2.clockCount < (m.receive msg).2.clockDiv := by
        rw [hcount, hdiv]
        split <;> [split <;> omega; exact hc]
      obtain ⟨ih₁, ih₂⟩ := ih hlt hrest
      refine ⟨ih₁.trans hdiv, ?_⟩
      rw [edit_cons, MidiEdit.apply, ih₂, hdiv, hcount, clocks_receive]
      by_cases hclock : msg = .clock
      · -- one more clock: the count moves on by one modulo the divider
        rw [if_pos hclock, if_pos hclock, ← succ_mod_of_lt hc, Nat.mod_add_mod]
        congr 1
        omega
      · rw [if_neg hclock, if_neg hclock, Nat.zero_add]
    | bind ev script =>
      obtain ⟨ih₁, ih₂⟩ := ih (m := m.bind ev script) hc hrest
      rw [edit_cons, clocks_of_message?_none rfl]
      exact ⟨ih₁, ih₂⟩
    | setClockDiv div => simp [MidiEdit.touchesClock] at hes
    | resetClock => simp [MidiEdit.touchesClock] at hes

/-- **The `k`-th clock message.** From a clock count of zero, with a divider `d` of at least one
that no change sets again and no clock restart, the `k`-th clock message reports the clock event
and runs what is bound to it exactly when `d` divides `k`; otherwise it only moves the count on
to `k mod d`. -/
theorem receive_kth_clock {m : Midi} (hd : 0 < m.clockDiv) (h0 : m.clockCount = 0)
    (es : List MidiEdit) (hes : ∀ e ∈ es, e.touchesClock = false) :
    (m.edit es).receive .clock =
      if m.clockDiv ∣ clocks es + 1 then
        ((m.edit es).runNow .clock, { m.edit es with clockCount := 0, lastEvent := 4 })
      else (.kept, { m.edit es with clockCount := (clocks es + 1) % m.clockDiv }) := by
  obtain ⟨hdiv, hcount⟩ := clockCount_edit (m := m) (by omega) es hes
  rw [h0, Nat.zero_add] at hcount
  have hlt : clocks es % m.clockDiv < m.clockDiv := Nat.mod_lt _ hd
  -- the count after the `k`-th message is `k mod d`, zero exactly when `d` divides `k`
  have hk : (clocks es + 1) % m.clockDiv =
      if clocks es % m.clockDiv + 1 < m.clockDiv then clocks es % m.clockDiv + 1 else 0 := by
    rw [← succ_mod_of_lt hlt, Nat.mod_add_mod]
  rw [receive_clock]
  by_cases hnext : clocks es % m.clockDiv + 1 < m.clockDiv
  · have hndvd : ¬ m.clockDiv ∣ clocks es + 1 := by
      rw [Nat.dvd_iff_mod_eq_zero, hk, if_pos hnext]
      omega
    rw [if_pos (by rw [hcount, hdiv]; exact hnext), if_neg hndvd, hk, if_pos hnext, hcount]
  · have hdvd : m.clockDiv ∣ clocks es + 1 := by
      rw [Nat.dvd_iff_mod_eq_zero, hk, if_neg hnext]
    rw [if_neg (by rw [hcount, hdiv]; exact hnext), if_pos hdvd]

/-! ### The clock stays in range -/

/-- The divider is between one and the largest divider, and the clock count below the largest
divider. -/
structure ClockRange (m : Midi) : Prop where
  div_pos : 1 ≤ m.clockDiv
  div_le : m.clockDiv ≤ clockDivMax
  count_lt : m.clockCount < clockDivMax

theorem receive_clockCount_lt {m : Midi} (hd : 1 ≤ m.clockDiv) :
    (m.receive .clock).2.clockCount < (m.receive .clock).2.clockDiv := by
  rw [receive_clock]
  split
  · assumption
  · exact hd

theorem ClockRange.receive {m : Midi} (h : m.ClockRange) (msg : MidiMessage) :
    (m.receive msg).2.ClockRange := by
  have hdiv := (receive_stored m msg).2
  refine ⟨hdiv ▸ h.div_pos, hdiv ▸ h.div_le, ?_⟩
  have hcount := h.count_lt
  have hdiv_le := h.div_le
  rw [receive_clockCount]
  split
  · split <;> omega
  · exact hcount

theorem clockRange_invariant : Invariant ClockRange where
  resetClock _ h := ⟨h.div_pos, h.div_le, by simp [resetClock, clockDivMax]⟩
  setClockDiv m v h :=
    ⟨(setClockDiv_clockDiv m v).1, (setClockDiv_clockDiv m v).2, h.count_lt⟩
  setBinding _ _ _ h := ⟨h.div_pos, h.div_le, h.count_lt⟩
  receive _ msg h := h.receive msg
  endBatch _ h := ⟨h.div_pos, h.div_le, h.count_lt⟩

end Midi

theorem Record.clockCount_of_sceneOfImage {bytes : List UInt8} {s : Scene}
    (h : Record.sceneOfImage bytes = .ok s) : s.midi.clockCount = 0 := by
  obtain ⟨version, f, -, -, rfl, -⟩ := Record.sceneOfImage_inverts h
  rfl

theorem Operators.read_midiClockReset_clockCount (f : Frame) (a : List Int16) (st : Machine) :
    ((Operators.read f .midiClockReset a).run st).2.scene.midi.clockCount = 0 := rfl

theorem Scene.Reachable.clockRange {s : Scene} (h : s.Reachable) : s.midi.ClockRange :=
  h.midi Midi.clockRange_invariant fun _ _ hpos hle =>
    ⟨hpos, hle, (by decide : (0 : Nat) < Midi.clockDivMax)⟩

/-- **Clock division.** From a clock count of zero with the divider fixed at `d`, the `k`-th
clock message reports the clock event (`MI.LE` becomes 4) and runs what is bound to the clock
exactly when `d` divides `k`, and otherwise only moves the count on to `k mod d`. The count is
zero in a fresh scene, in a scene read from its image and right after `MI.CLKR`. In every
reachable scene, however dividers were set, counts restarted and clock messages received, the
divider is in range and the count below the largest divider, so counting one more fits a byte,
and a clock message leaves the count below the divider. -/
theorem Midi.clock_division_in_range :
    (∀ (m : Midi) (es : List MidiEdit), 0 < m.clockDiv → m.clockCount = 0 →
      (∀ e ∈ es, e.touchesClock = false) →
      (m.edit es).receive .clock =
        if m.clockDiv ∣ Midi.clocks es + 1 then
          ((m.edit es).runNow .clock, { m.edit es with clockCount := 0, lastEvent := 4 })
        else (.kept, { m.edit es with clockCount := (Midi.clocks es + 1) % m.clockDiv })) ∧
    (∀ seed : UInt64, (Scene.withSeed seed).midi.clockCount = 0) ∧
    (∀ (bytes : List UInt8) (s : Scene), Record.sceneOfImage bytes = .ok s →
      s.midi.clockCount = 0) ∧
    (∀ (f : Frame) (a : List Int16) (st : Machine),
      ((Operators.read f .midiClockReset a).run st).2.scene.midi.clockCount = 0) ∧
    (∀ s : Scene, s.Reachable →
      s.midi.ClockRange ∧ s.midi.clockCount + 1 < 256 ∧
        (s.midi.receive .clock).2.clockCount < (s.midi.receive .clock).2.clockDiv) := by
  refine ⟨fun m es hd h0 hes => Midi.receive_kth_clock hd h0 es hes, fun _ => rfl,
    fun _ _ h => Record.clockCount_of_sceneOfImage h, Operators.read_midiClockReset_clockCount,
    fun s hs => ?_⟩
  have hrange := hs.clockRange
  have hbyte : s.midi.clockCount + 1 < 256 := by
    have hcount := hrange.count_lt
    simp only [Midi.clockDivMax] at hcount
    omega
  exact ⟨hrange, hbyte, Midi.receive_clockCount_lt hrange.div_pos⟩

/-- With the divider at three, the third clock message reports the clock event, and a fresh
scene's clock is in range. -/
theorem Midi.third_clock_reports :
    (((Midi.empty.setClockDiv 3).edit [.receive .clock, .receive .clock]).receive
      .clock).2.lastEvent = 4 ∧ (Scene.withSeed 0).midi.ClockRange := by
  have hthird := Midi.clock_division_in_range.1 (Midi.empty.setClockDiv 3)
    [.receive .clock, .receive .clock] (by decide) rfl (by decide)
  rw [hthird]
  exact ⟨by decide, (Midi.clock_division_in_range.2.2.2.2 _ (.fresh 0)).1⟩

end TriggerScript
