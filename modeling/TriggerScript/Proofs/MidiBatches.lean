import TriggerScript.Proofs.Reachable
import TriggerScript.Proofs.RuntimeBounds
/-!
What the MIDI batches and the last-message values hold after any run of changes.

A run of changes to the MIDI state (`MidiEdit`: messages, binding changes, divider changes and
clock restarts) is replayed by `Midi.edit`; `Midi.arrivals` lists its messages, each with the
state it arrives in, so that whether a kind was bound when a message came is read off that state.

Each field of the state falls into one of three shapes. A last-message value is changed only by
a message, to what the message offers (`Midi.newest_edit`): the newest offer wins. The note
batches take what a message offers while there is room (`Midi.batch_edit`): they hold the first
twenty offers. The controller batch updates an entry of the same channel and controller in
place, appends a new pair below twenty and drops it at twenty (`Midi.ControlsOf.record`): it holds
one entry per pair, for the first twenty pairs in order of first arrival, each with the latest
value. Every message's effect is read off one closed form per kind of message
(`Midi.receiveNoteOn_snd` and its siblings), and a change that is no message touches only the
bindings, the divider and the clock count (`Midi.apply_frame`). The main statement is
`Midi.batches_keep_first_and_latest`.
-/

set_option autoImplicit false
set_option relaxedAutoImplicit false

namespace TriggerScript

/-! ### Messages and what they offer -/

namespace MidiEdit

def message? : MidiEdit → Option MidiMessage
  | .receive msg => some msg
  | _ => none

end MidiEdit

namespace MidiMessage

/-- The kind a message is reported as: a note-on of velocity zero is a note-off. -/
def event : MidiMessage → MidiEvent
  | .noteOn _ _ vel => if vel = 0 then .noteOff else .noteOn
  | .noteOff _ _ => .noteOff
  | .controlChange _ _ _ => .controlChange
  | .clock => .clock
  | .start => .start
  | .stop => .stop
  | .resume => .resume

/-- The entry a note-on of velocity above zero makes in its batch: channel, note, velocity. -/
def noteOnItem? : MidiMessage → Option (Int16 × Int16 × Int16)
  | .noteOn ch note vel =>
    if vel = 0 then none else some (Midi.byteValue ch, Midi.byteValue note, Midi.byteValue vel)
  | _ => none

/-- The entry a note-off, or a note-on of velocity zero, makes in its batch: channel, note. -/
def noteOffItem? : MidiMessage → Option (Int16 × Int16)
  | .noteOn ch note vel => if vel = 0 then some (Midi.byteValue ch, Midi.byteValue note) else none
  | .noteOff ch note => some (Midi.byteValue ch, Midi.byteValue note)
  | _ => none

/-- The entry a controller change makes in its batch: channel, controller, value. -/
def controlItem? : MidiMessage → Option (Int16 × Int16 × Int16)
  | .controlChange ch num val => some (Midi.byteValue ch, Midi.byteValue num, Midi.byteValue val)
  | _ => none

/-- The channel of a note or controller message. -/
def channel? : MidiMessage → Option Int16
  | .noteOn ch _ _ | .noteOff ch _ | .controlChange ch _ _ => some (Midi.byteValue ch)
  | _ => none

/-- The note and velocity of a note message, velocity zero for a note-off. -/
def note? : MidiMessage → Option (Int16 × Int16)
  | .noteOn _ note vel => some (Midi.byteValue note, Midi.byteValue vel)
  | .noteOff _ note => some (Midi.byteValue note, 0)
  | _ => none

def control? : MidiMessage → Option (Int16 × Int16)
  | .controlChange _ num val => some (Midi.byteValue num, Midi.byteValue val)
  | _ => none

end MidiMessage

namespace Midi

/-- What a message received in state `a.1` offers the batch of kind `e`: its entry, while `e` is
bound. -/
def offered {β : Type} (e : MidiEvent) (item? : MidiMessage → Option β) (a : Midi × MidiMessage) :
    Option β :=
  if (a.1.binding e).isSome then item? a.2 else none

/-- The kind a message received in state `a.1` reports: its own, except a clock that does not
count out the divider, which reports nothing. -/
def reported? (a : Midi × MidiMessage) : Option Int16 :=
  if a.2 = .clock ∧ a.1.clockCount + 1 < a.1.clockDiv then none else some (Int16.ofNat a.2.event.kind)

/-! ### Runs of changes -/

/-- The MIDI state after a sequence of changes, made in order. -/
def edit (m : Midi) (es : List MidiEdit) : Midi := es.foldl (fun m e => e.apply m) m

@[simp] theorem edit_nil (m : Midi) : m.edit [] = m := rfl

@[simp] theorem edit_cons (m : Midi) (e : MidiEdit) (es : List MidiEdit) :
    m.edit (e :: es) = (e.apply m).edit es := rfl

/-- The messages of a sequence of changes, each with the state it arrives in. -/
def arrivals : Midi → List MidiEdit → List (Midi × MidiMessage)
  | _, [] => []
  | m, e :: es => (e.message?.map (m, ·)).toList ++ arrivals (e.apply m) es

@[simp] theorem arrivals_nil (m : Midi) : m.arrivals [] = [] := rfl

@[simp] theorem arrivals_cons (m : Midi) (e : MidiEdit) (es : List MidiEdit) :
    m.arrivals (e :: es) = (e.message?.map (m, ·)).toList ++ (e.apply m).arrivals es := rfl

/-! ### What one message does -/

theorem receiveNoteOff_snd (m : Midi) (ch note : UInt8) :
    (m.receiveNoteOff ch note).2 =
      { m with lastEvent := 2, lastChannel := byteValue ch, lastNote := byteValue note,
               lastVelocity := 0,
               notesOff := if (m.binding .noteOff).isSome ∧ m.notesOff.length < batchLimit then
                 m.notesOff ++ [(byteValue ch, byteValue note)] else m.notesOff } := by
  simp only [receiveNoteOff, binding]
  split_ifs <;> simp_all; omega

theorem receiveNoteOn_snd (m : Midi) (ch note vel : UInt8) (hv : vel ≠ 0) :
    (m.receiveNoteOn ch note vel).2 =
      { m with lastEvent := 1, lastChannel := byteValue ch, lastNote := byteValue note,
               lastVelocity := byteValue vel,
               notesOn := if (m.binding .noteOn).isSome ∧ m.notesOn.length < batchLimit then
                 m.notesOn ++ [(byteValue ch, byteValue note, byteValue vel)] else m.notesOn } := by
  simp only [receiveNoteOn, binding, if_neg hv]
  split_ifs <;> simp_all; omega

theorem receiveControl_snd (m : Midi) (ch num val : UInt8) :
    (m.receiveControl ch num val).2 =
      { m with lastEvent := 3, lastChannel := byteValue ch, lastController := byteValue num,
               lastCc := byteValue val,
               controls := if (m.binding .controlChange).isSome then
                 (recordControl m.controls (byteValue ch) (byteValue num) (byteValue val)).getD
                   m.controls
                 else m.controls } := by
  cases hr : recordControl m.controls (byteValue ch) (byteValue num) (byteValue val) <;>
    simp only [receiveControl, binding, hr] <;> split_ifs <;> simp_all

theorem receive_clock_snd (m : Midi) :
    (m.receive .clock).2 =
      if m.clockCount + 1 < m.clockDiv then { m with clockCount := m.clockCount + 1 }
      else { m with clockCount := 0, lastEvent := 4 } := by
  simp only [receive]
  split <;> rfl

theorem byteValue_zero : byteValue 0 = 0 := rfl

theorem apply_frame {α : Type} (field : Midi → α)
    (hframe : ∀ m b d c, field { m with bindings := b, clockDiv := d, clockCount := c } = field m)
    {e : MidiEdit} (h : e.message? = none) (m : Midi) : field (e.apply m) = field m := by
  cases e with
  | bind e script => exact hframe m _ m.clockDiv m.clockCount
  | setClockDiv div => exact hframe m m.bindings _ m.clockCount
  | resetClock => exact hframe m m.bindings m.clockDiv 0
  | receive msg => cases h

/-! ### Values that follow the newest message -/

/-- A field that only messages change, each to what it offers or else leaving it, holds what the
newest message offering one offered. -/
theorem newest_edit {α : Type} (field : Midi → α) (offer : Midi × MidiMessage → Option α)
    (hother : ∀ (m : Midi) (e : MidiEdit), e.message? = none → field (e.apply m) = field m)
    (hrecv : ∀ (m : Midi) (msg : MidiMessage),
      field (m.receive msg).2 = (offer (m, msg)).getD (field m))
    (m : Midi) (es : List MidiEdit) :
    field (m.edit es) = (((m.arrivals es).filterMap offer).getLast?).getD (field m) := by
  induction es generalizing m with
  | nil => rfl
  | cons e es ih =>
    rw [edit_cons, ih, arrivals_cons, List.filterMap_append, List.getLast?_append]
    -- the change itself offers at most one value, which a later offer overrides
    have hstep : field (e.apply m) =
        (((e.message?.map (m, ·)).toList.filterMap offer).getLast?).getD (field m) := by
      cases e with
      | receive msg =>
        simp only [MidiEdit.apply, hrecv, MidiEdit.message?, Option.map_some, Option.toList_some,
          List.filterMap_cons, List.filterMap_nil]
        cases offer (m, msg) <;> rfl
      | _ => simpa [MidiEdit.message?] using hother m _ rfl
    rw [hstep]
    cases ((e.apply m).arrivals es |>.filterMap offer).getLast? <;> rfl

section LastValues

variable {m : Midi}

theorem receive_lastEvent (m : Midi) (msg : MidiMessage) :
    (m.receive msg).2.lastEvent = (reported? (m, msg)).getD m.lastEvent := by
  cases msg with
  | noteOn ch note vel =>
    by_cases hv : vel = 0
    · simp [receive, receiveNoteOn, hv, receiveNoteOff_snd, reported?, MidiMessage.event]; rfl
    · simp [receive, receiveNoteOn_snd m ch note vel hv, reported?, MidiMessage.event, hv]; rfl
  | clock =>
    rw [receive_clock_snd]
    by_cases hc : m.clockCount + 1 < m.clockDiv
    · simp [hc, reported?]
    · simp only [hc, if_false, reported?, true_and, Option.getD_some]
      rfl
  | _ => simp [receive, receiveNoteOff_snd, receiveControl_snd, reported?, MidiMessage.event]; rfl

theorem receive_lastChannel (m : Midi) (msg : MidiMessage) :
    (m.receive msg).2.lastChannel = msg.channel?.getD m.lastChannel := by
  cases msg with
  | noteOn ch note vel =>
    by_cases hv : vel = 0
    · simp [receive, receiveNoteOn, hv, receiveNoteOff_snd, MidiMessage.channel?]
    · simp [receive, receiveNoteOn_snd m ch note vel hv, MidiMessage.channel?]
  | clock =>
    rw [receive_clock_snd]
    split <;> rfl
  | _ => simp [receive, receiveNoteOff_snd, receiveControl_snd, MidiMessage.channel?]

theorem receive_lastNote (m : Midi) (msg : MidiMessage) :
    ((m.receive msg).2.lastNote, (m.receive msg).2.lastVelocity) =
      msg.note?.getD (m.lastNote, m.lastVelocity) := by
  cases msg with
  | noteOn ch note vel =>
    by_cases hv : vel = 0
    · simp [receive, receiveNoteOn, hv, receiveNoteOff_snd, MidiMessage.note?, byteValue_zero]
    · simp [receive, receiveNoteOn_snd m ch note vel hv, MidiMessage.note?]
  | clock =>
    rw [receive_clock_snd]
    split <;> rfl
  | _ => simp [receive, receiveNoteOff_snd, receiveControl_snd, MidiMessage.note?]

theorem receive_lastControl (m : Midi) (msg : MidiMessage) :
    ((m.receive msg).2.lastController, (m.receive msg).2.lastCc) =
      msg.control?.getD (m.lastController, m.lastCc) := by
  cases msg with
  | noteOn ch note vel =>
    by_cases hv : vel = 0
    · simp [receive, receiveNoteOn, hv, receiveNoteOff_snd, MidiMessage.control?]
    · simp [receive, receiveNoteOn_snd m ch note vel hv, MidiMessage.control?]
  | clock =>
    rw [receive_clock_snd]
    split <;> rfl
  | _ => simp [receive, receiveNoteOff_snd, receiveControl_snd, MidiMessage.control?]

end LastValues

/-! ### Batches that keep the first entries -/

theorem take_append_take {β : Type} (l c : List β) (n : Nat) :
    (l.take n ++ c).take n = (l ++ c).take n := by
  by_cases h : l.length ≤ n
  · rw [List.take_of_length_le h]
  · rw [List.take_append_of_le_length (by simp; omega), List.take_take, Nat.min_self,
      List.take_append_of_le_length (by omega)]

theorem append_offer_take {β : Type} {l : List β} (h : l.length ≤ batchLimit) (x : β) (c : Prop)
    [Decidable c] :
    (if c ∧ l.length < batchLimit then l ++ [x] else l) =
      (l ++ (if c then some x else none).toList).take batchLimit := by
  by_cases hc : c
  · simp only [hc, true_and, if_true, Option.toList_some]
    split
    · rw [List.take_of_length_le (by simp; omega)]
    · rw [List.take_append_of_le_length (by omega), List.take_of_length_le h]
  · simp [hc, List.take_of_length_le h]

/-- A batch that each message offers at most one entry, kept while there is room, holds the
first entries offered. -/
theorem batch_edit {β : Type} (field : Midi → List β) (offer : Midi × MidiMessage → Option β)
    (hother : ∀ (m : Midi) (e : MidiEdit), e.message? = none → field (e.apply m) = field m)
    (hrecv : ∀ (m : Midi) (msg : MidiMessage), (field m).length ≤ batchLimit →
      field (m.receive msg).2 = (field m ++ (offer (m, msg)).toList).take batchLimit)
    (m : Midi) (h : (field m).length ≤ batchLimit) (es : List MidiEdit) :
    field (m.edit es) = (field m ++ (m.arrivals es).filterMap offer).take batchLimit := by
  induction es generalizing m with
  | nil => rw [edit_nil, arrivals_nil, List.filterMap_nil, List.append_nil, List.take_of_length_le h]
  | cons e es ih =>
    have hstep : field (e.apply m) =
        (field m ++ (e.message?.map (m, ·)).toList.filterMap offer).take batchLimit := by
      cases e with
      | receive msg =>
        simp only [MidiEdit.apply, hrecv m msg h, MidiEdit.message?, Option.map_some,
          Option.toList_some, List.filterMap_cons, List.filterMap_nil]
        cases offer (m, msg) <;> rfl
      | _ =>
        rw [hother m _ rfl]
        simpa [MidiEdit.message?] using (List.take_of_length_le h).symm
    have hlen : (field (e.apply m)).length ≤ batchLimit := by
      rw [hstep, List.length_take]
      exact Nat.min_le_left _ _
    rw [edit_cons, ih _ hlen, hstep, take_append_take, arrivals_cons, List.filterMap_append,
      List.append_assoc]

section NoteBatches

variable {m : Midi}

theorem receive_notesOn (h : m.notesOn.length ≤ batchLimit) (msg : MidiMessage) :
    (m.receive msg).2.notesOn =
      (m.notesOn ++ (offered .noteOn MidiMessage.noteOnItem? (m, msg)).toList).take batchLimit := by
  cases msg with
  | noteOn ch note vel =>
    by_cases hv : vel = 0
    · simp [receive, receiveNoteOn, hv, receiveNoteOff_snd, offered, MidiMessage.noteOnItem?,
        List.take_of_length_le h]
    · simp only [receive, receiveNoteOn_snd m ch note vel hv, offered, MidiMessage.noteOnItem?,
        if_neg hv]
      exact append_offer_take h _ _
  | clock =>
    rw [receive_clock_snd]
    split <;> simp [offered, MidiMessage.noteOnItem?, List.take_of_length_le h]
  | _ => simp [receive, receiveNoteOff_snd, receiveControl_snd, offered, MidiMessage.noteOnItem?,
      List.take_of_length_le h]

theorem receive_notesOff (h : m.notesOff.length ≤ batchLimit) (msg : MidiMessage) :
    (m.receive msg).2.notesOff =
      (m.notesOff ++ (offered .noteOff MidiMessage.noteOffItem? (m, msg)).toList).take batchLimit := by
  cases msg with
  | noteOn ch note vel =>
    by_cases hv : vel = 0
    · simp only [receive, receiveNoteOn, if_pos hv, receiveNoteOff_snd, offered,
        MidiMessage.noteOffItem?]
      exact append_offer_take h _ _
    · simp [receive, receiveNoteOn_snd m ch note vel hv, offered, MidiMessage.noteOffItem?, hv,
        List.take_of_length_le h]
  | noteOff ch note =>
    simp only [receive, receiveNoteOff_snd, offered, MidiMessage.noteOffItem?]
    exact append_offer_take h _ _
  | clock =>
    rw [receive_clock_snd]
    split <;> simp [offered, MidiMessage.noteOffItem?, List.take_of_length_le h]
  | _ => simp [receive, receiveControl_snd, offered, MidiMessage.noteOffItem?,
      List.take_of_length_le h]

end NoteBatches

/-! ### The controller batch -/

/-- The channel and controller a controller entry is for. -/
def controlKey (c : Int16 × Int16 × Int16) : Int16 × Int16 := (c.1, c.2.1)

section RecordControl

variable {C : List (Int16 × Int16 × Int16)} {ch num val : Int16}

theorem recordControl_of_mem (h : (ch, num) ∈ C.map controlKey) :
    recordControl C ch num val =
      some (C.map fun c => if controlKey c = (ch, num) then (ch, num, val) else c) := by
  obtain ⟨c, hc, hkey⟩ := List.mem_map.mp h
  simp only [controlKey, Prod.mk.injEq] at hkey
  rw [recordControl, if_pos (List.any_eq_true.mpr ⟨c, hc, by simp [hkey.1, hkey.2]⟩)]
  congr 1
  refine List.map_congr_left fun c _ => ?_
  simp only [controlKey, Prod.mk.injEq, beq_iff_eq, Bool.and_eq_true]
  split <;> rename_i hc
  · rw [hc.1, hc.2]
  · rfl

theorem recordControl_of_not_mem (h : (ch, num) ∉ C.map controlKey) :
    recordControl C ch num val =
      if batchLimit ≤ C.length then none else some (C ++ [(ch, num, val)]) := by
  rw [recordControl, if_neg]
  intro hany
  obtain ⟨c, hc, hkey⟩ := List.any_eq_true.mp hany
  simp only [beq_iff_eq, Bool.and_eq_true] at hkey
  exact h (List.mem_map.mpr ⟨c, hc, by simp [controlKey, hkey.1, hkey.2]⟩)

end RecordControl

/-- The controller batch `C` after the changes `L` were offered to it: one entry per channel and
controller, for the first twenty pairs in order of first arrival, each entry the latest change
offered for its pair. -/
structure ControlsOf (L C : List (Int16 × Int16 × Int16)) : Prop where
  nodup : (C.map controlKey).Nodup
  firsts : C.map controlKey = ((L.map controlKey).eraseDups).take batchLimit
  latest : ∀ c ∈ C, ∃ pre post, L = pre ++ c :: post ∧ ∀ d ∈ post, controlKey d ≠ controlKey c

theorem controlsOf_nil : ControlsOf [] [] := ⟨List.nodup_nil, rfl, fun _ h => absurd h List.not_mem_nil⟩

section Step

variable {L C : List (Int16 × Int16 × Int16)}

theorem ControlsOf.latest_append (h : ControlsOf L C) {c x : Int16 × Int16 × Int16} (hc : c ∈ C)
    (hx : controlKey x ≠ controlKey c) :
    ∃ pre post, L ++ [x] = pre ++ c :: post ∧ ∀ d ∈ post, controlKey d ≠ controlKey c := by
  obtain ⟨pre, post, hL, hpost⟩ := h.latest c hc
  refine ⟨pre, post ++ [x], by rw [hL]; simp, fun d hd => ?_⟩
  rcases List.mem_append.mp hd with hd | hd
  · exact hpost d hd
  · rw [List.mem_singleton.mp hd]
    exact hx

theorem latest_last (L : List (Int16 × Int16 × Int16)) (x : Int16 × Int16 × Int16) :
    ∃ pre post, L ++ [x] = pre ++ x :: post ∧ ∀ d ∈ post, controlKey d ≠ controlKey x :=
  ⟨L, [], rfl, fun _ hd => absurd hd List.not_mem_nil⟩

theorem eraseDups_concat {α : Type} [BEq α] [LawfulBEq α] (l : List α) (x : α) :
    (l ++ [x]).eraseDups = l.eraseDups ++ if x ∈ l then [] else [x] := by
  rw [List.eraseDups_append]
  split <;> rename_i hx <;> simp [List.removeAll, hx, List.eraseDups_cons]

theorem eraseDups_append_key (L : List (Int16 × Int16 × Int16)) (x : Int16 × Int16 × Int16) :
    ((L ++ [x]).map controlKey).eraseDups =
      (L.map controlKey).eraseDups ++
        if controlKey x ∈ L.map controlKey then [] else [controlKey x] := by
  rw [List.map_append, List.map_singleton]
  exact eraseDups_concat _ _

theorem ControlsOf.record (h : ControlsOf L C) (x : Int16 × Int16 × Int16) :
    ControlsOf (L ++ [x]) ((recordControl C x.1 x.2.1 x.2.2).getD C) := by
  have hfirst : C.map controlKey ⊆ L.map controlKey := fun k hk => by
    rw [h.firsts] at hk
    exact List.mem_eraseDups.mp (List.mem_of_mem_take hk)
  by_cases hmem : controlKey x ∈ C.map controlKey
  · -- the pair is held: its entry takes the new value, every key stays where it was
    have hrec : recordControl C x.1 x.2.1 x.2.2 =
        some (C.map fun c => if controlKey c = controlKey x then x else c) :=
      recordControl_of_mem hmem
    rw [hrec, Option.getD_some]
    have hkeys : (C.map fun c => if controlKey c = controlKey x then x else c).map controlKey =
        C.map controlKey := by
      rw [List.map_map]
      refine List.map_congr_left fun c _ => ?_
      simp only [Function.comp_apply]
      split <;> rename_i hc
      · exact hc.symm
      · rfl
    refine ⟨?_, ?_, fun c' hc' => ?_⟩
    · rw [hkeys]
      exact h.nodup
    · rw [hkeys, eraseDups_append_key, if_pos (hfirst hmem), List.append_nil]
      exact h.firsts
    · obtain ⟨c, hc, rfl⟩ := List.mem_map.mp hc'
      split <;> rename_i hkey
      · exact latest_last L x
      · exact h.latest_append hc (Ne.symm hkey)
  · -- a new pair: appended below twenty pairs, dropped at twenty
    have hrec : recordControl C x.1 x.2.1 x.2.2 =
        if batchLimit ≤ C.length then none else some (C ++ [x]) :=
      recordControl_of_not_mem hmem
    have hother : ∀ c ∈ C, controlKey x ≠ controlKey c := fun c hc hkey =>
      hmem (hkey ▸ List.mem_map_of_mem hc)
    have hlen : C.length = min batchLimit (L.map controlKey).eraseDups.length := by
      rw [← List.length_map (f := controlKey), h.firsts, List.length_take]
    rw [hrec]
    split <;> rename_i hfull
    · rw [Option.getD_none]
      refine ⟨h.nodup, ?_, fun c hc => h.latest_append hc (hother c hc)⟩
      rw [eraseDups_append_key, List.take_append_of_le_length (by omega)]
      exact h.firsts
    · rw [Option.getD_some]
      have htake : ((L.map controlKey).eraseDups).take batchLimit = (L.map controlKey).eraseDups :=
        List.take_of_length_le (by omega)
      -- below twenty pairs every pair offered so far is held, so this one is new to `L`
      have hnew : controlKey x ∉ L.map controlKey := fun hx =>
        hmem (by rw [h.firsts, htake]; exact List.mem_eraseDups.mpr hx)
      refine ⟨?_, ?_, fun c hc => ?_⟩
      · rw [List.map_append, List.map_singleton, List.nodup_append]
        refine ⟨h.nodup, List.nodup_cons.mpr ⟨List.not_mem_nil, List.nodup_nil⟩, fun a ha b hb => ?_⟩
        rw [List.mem_singleton.mp hb]
        rintro rfl
        exact hmem ha
      · rw [eraseDups_append_key, if_neg hnew, List.map_append, List.map_singleton, h.firsts, htake,
          List.take_of_length_le (by simp; omega)]
      · rcases List.mem_append.mp hc with hc | hc
        · exact h.latest_append hc (hother c hc)
        · rw [List.mem_singleton.mp hc]
          exact latest_last L x

end Step

section ControlRuns

variable {m : Midi}

theorem controlsOf_receive {L : List (Int16 × Int16 × Int16)} (h : ControlsOf L m.controls)
    (msg : MidiMessage) :
    ControlsOf (L ++ (offered .controlChange MidiMessage.controlItem? (m, msg)).toList)
      (m.receive msg).2.controls := by
  cases msg with
  | controlChange ch num val =>
    simp only [receive, receiveControl_snd, offered, MidiMessage.controlItem?]
    split
    · exact h.record _
    · simpa using h
  | noteOn ch note vel =>
    by_cases hv : vel = 0
    · simpa [receive, receiveNoteOn, hv, receiveNoteOff_snd, offered, MidiMessage.controlItem?] using h
    · simpa [receive, receiveNoteOn_snd m ch note vel hv, offered, MidiMessage.controlItem?] using h
  | clock =>
    rw [receive_clock_snd]
    split <;> simpa [offered, MidiMessage.controlItem?] using h
  | _ => simpa [receive, receiveNoteOff_snd, offered, MidiMessage.controlItem?] using h

theorem controlsOf_edit {L : List (Int16 × Int16 × Int16)} (h : ControlsOf L m.controls)
    (es : List MidiEdit) :
    ControlsOf (L ++ (m.arrivals es).filterMap (offered .controlChange MidiMessage.controlItem?))
      (m.edit es).controls := by
  induction es generalizing m L with
  | nil => simpa using h
  | cons e es ih =>
    rw [edit_cons, arrivals_cons, List.filterMap_append, ← List.append_assoc]
    apply ih
    cases e with
    | receive msg =>
      have hstep := controlsOf_receive h msg
      simp only [MidiEdit.apply, MidiEdit.message?, Option.map_some, Option.toList_some,
        List.filterMap_cons, List.filterMap_nil]
      cases hx : offered .controlChange MidiMessage.controlItem? (m, msg) <;> simpa [hx] using hstep
    | _ => simpa [MidiEdit.apply, MidiEdit.message?, bind, setClockDiv, resetClock] using h

end ControlRuns

end Midi

/-- **MIDI batches keep the first entries and the last values follow the newest message.** After
a flush or a reset (`endBatch`), for any sequence of messages, binding changes, divider changes and
clock restarts: every batch holds at most twenty entries; the note-on and note-off batches hold,
in arrival order, the first twenty entries offered by messages of their kind received while the
kind was bound (a note-on of velocity zero counting as a note-off); the controller batch holds one
entry per channel and controller, for the first twenty pairs offered in order of first arrival,
each the latest change offered for its pair; and the last event is the kind of the newest message
reported (a clock only when it counts out the divider), the last channel that of the newest note or
controller message, the last note and velocity those of the newest note message (velocity zero for
a note-off), and the last controller and value those of the newest controller message, each
unchanged while no such message arrived. -/
theorem Midi.batches_keep_first_and_latest (m : Midi) (es : List MidiEdit) :
    (m.endBatch.edit es).Batched ∧
    (m.endBatch.edit es).notesOn = ((m.endBatch.arrivals es).filterMap
      (Midi.offered .noteOn MidiMessage.noteOnItem?)).take Midi.batchLimit ∧
    (m.endBatch.edit es).notesOff = ((m.endBatch.arrivals es).filterMap
      (Midi.offered .noteOff MidiMessage.noteOffItem?)).take Midi.batchLimit ∧
    Midi.ControlsOf ((m.endBatch.arrivals es).filterMap
      (Midi.offered .controlChange MidiMessage.controlItem?)) (m.endBatch.edit es).controls ∧
    (m.endBatch.edit es).lastEvent =
      (((m.endBatch.arrivals es).filterMap Midi.reported?).getLast?).getD m.lastEvent ∧
    (m.endBatch.edit es).lastChannel =
      (((m.endBatch.arrivals es).filterMap fun a => a.2.channel?).getLast?).getD m.lastChannel ∧
    ((m.endBatch.edit es).lastNote, (m.endBatch.edit es).lastVelocity) =
      (((m.endBatch.arrivals es).filterMap fun a => a.2.note?).getLast?).getD
        (m.lastNote, m.lastVelocity) ∧
    ((m.endBatch.edit es).lastController, (m.endBatch.edit es).lastCc) =
      (((m.endBatch.arrivals es).filterMap fun a => a.2.control?).getLast?).getD
        (m.lastController, m.lastCc) := by
  have hon := Midi.batch_edit Midi.notesOn _
    (fun m _ h => Midi.apply_frame _ (fun _ _ _ _ => rfl) h m)
    (fun m msg h => Midi.receive_notesOn h msg) m.endBatch (Nat.zero_le _) es
  have hoff := Midi.batch_edit Midi.notesOff _
    (fun m _ h => Midi.apply_frame _ (fun _ _ _ _ => rfl) h m)
    (fun m msg h => Midi.receive_notesOff h msg) m.endBatch (Nat.zero_le _) es
  have hcc := Midi.controlsOf_edit (m := m.endBatch) Midi.controlsOf_nil es
  rw [List.nil_append] at hcc
  have hlast : ∀ {α : Type} (field : Midi → α) (offer : Midi × MidiMessage → Option α),
      (∀ m msg, field (m.receive msg).2 = (offer (m, msg)).getD (field m)) →
      (∀ m b d c, field { m with bindings := b, clockDiv := d, clockCount := c } = field m) →
      field (m.endBatch.edit es) =
        (((m.endBatch.arrivals es).filterMap offer).getLast?).getD (field m.endBatch) :=
    fun field offer hrecv hframe => Midi.newest_edit field offer
      (fun m _ h => Midi.apply_frame field hframe h m) hrecv _ es
  refine ⟨⟨?_, ?_, ?_⟩, hon, hoff, hcc, hlast _ _ Midi.receive_lastEvent (fun _ _ _ _ => rfl),
    hlast _ _ Midi.receive_lastChannel (fun _ _ _ _ => rfl),
    hlast (fun m => (m.lastNote, m.lastVelocity)) _ Midi.receive_lastNote (fun _ _ _ _ => rfl),
    hlast (fun m => (m.lastController, m.lastCc)) _ Midi.receive_lastControl
      (fun _ _ _ _ => rfl)⟩
  · rw [hon, List.length_take]
    exact Nat.min_le_left _ _
  · rw [hoff, List.length_take]
    exact Nat.min_le_left _ _
  · rw [← List.length_map (f := Midi.controlKey), hcc.firsts, List.length_take]
    exact Nat.min_le_left _ _

end TriggerScript
