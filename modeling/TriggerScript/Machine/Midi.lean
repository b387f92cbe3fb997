/-!
MIDI input: bindings of event kinds to scripts, the clock divider, the values of the
last message, and the batches of notes and controller changes received since the last
flush.

Every message updates the last-message values. Notes and controller changes are kept in
their batch only while a script is bound to their kind, at most twenty per batch; a
controller change for a controller and channel already in the batch updates that entry
in place. A note-on with velocity zero is a note-off. Clock messages count up to the
divider and then report the clock event; clock and transport events run their bound
script at once, while note and controller scripts wait for the flush.
-/

set_option autoImplicit false
set_option relaxedAutoImplicit false

namespace TriggerScript

/-- The kinds of MIDI events a script can be bound to, numbered 1 to 7. -/
inductive MidiEvent
  | noteOn | noteOff | controlChange | clock | start | stop | resume
  deriving DecidableEq, Repr, Inhabited

def MidiEvent.kind : MidiEvent → Nat
  | .noteOn => 1 | .noteOff => 2 | .controlChange => 3 | .clock => 4 | .start => 5
  | .stop => 6 | .resume => 7

inductive MidiMessage
  | noteOn (channel note velocity : UInt8)
  | noteOff (channel note : UInt8)
  | controlChange (channel controller value : UInt8)
  | clock | start | stop | resume
  deriving DecidableEq, Repr, Inhabited

inductive Receipt
  /-- Buffered for the next flush, or nothing to do. -/
  | kept
  /-- The batch for its kind was full. -/
  | dropped
  /-- A clock or transport event bound to this script, which runs at once. -/
  | run (script : Nat)
  deriving DecidableEq, Repr

/-- The MIDI state of a scene. Only the bindings and the divider are stored with it. -/
structure Midi where
  /-- The script bound to each kind, or `-1`. -/
  bindings : List Int
  clockDiv : Nat
  clockCount : Nat
  lastEvent : Int16
  lastChannel : Int16
  lastNote : Int16
  lastVelocity : Int16
  lastController : Int16
  lastCc : Int16
  /-- Channel, note and velocity of each note-on of the batch. -/
  notesOn : List (Int16 × Int16 × Int16)
  /-- Channel and note of each note-off of the batch. -/
  notesOff : List (Int16 × Int16)
  /-- Channel, controller and value, one entry per controller and channel. -/
  controls : List (Int16 × Int16 × Int16)
  deriving DecidableEq, Repr

namespace Midi

/-- The most events a batch holds. -/
def batchLimit : Nat := 20

def kinds : Nat := 7

def clockDivMax : Nat := 24

def scriptCount : Nat := 10

/-- Nothing bound, divider one, no messages. -/
def empty : Midi :=
  { bindings := List.replicate kinds (-1), clockDiv := 1, clockCount := 0, lastEvent := 0,
    lastChannel := 0, lastNote := 0, lastVelocity := 0, lastController := 0, lastCc := 0,
    notesOn := [], notesOff := [], controls := [] }

instance : Inhabited Midi := ⟨empty⟩

/-- Binds a kind to a script, or unbinds it for `none` or a script out of range. -/
def bind (m : Midi) (e : MidiEvent) (script : Option Nat) : Midi :=
  let b : Int := match script with
    | some s => if s < scriptCount then s else -1
    | none => -1
  { m with bindings := m.bindings.set (e.kind - 1) b }

/-- Sets the clock divider, held between 1 and 24. -/
def setClockDiv (m : Midi) (div : Int16) : Midi :=
  { m with clockDiv := (max 1 (min (clockDivMax : Int) div.toInt)).toNat }

def resetClock (m : Midi) : Midi := { m with clockCount := 0 }

def binding (m : Midi) (e : MidiEvent) : Option Nat :=
  let b := m.bindings.getD (e.kind - 1) (-1)
  if b ≥ 0 then some b.toNat else none

/-- Runs the bound script of a clock or transport event, if there is one. -/
def runNow (m : Midi) (e : MidiEvent) : Receipt :=
  match m.binding e with
  | some s => .run s
  | none => .kept

/-- A controller batch with a change recorded: an entry for the same channel and
controller takes the new value; otherwise the change is appended unless the batch is
full. -/
def recordControl (batch : List (Int16 × Int16 × Int16)) (ch num val : Int16) :
    Option (List (Int16 × Int16 × Int16)) :=
  if batch.any (fun (c, n, _) => c == ch && n == num) then
    some (batch.map fun (c, n, v) => if c == ch && n == num then (c, n, val) else (c, n, v))
  else if batch.length ≥ batchLimit then none
  else some (batch ++ [(ch, num, val)])

def byteValue (b : UInt8) : Int16 := Int16.ofNat b.toNat

/-- Records a note-off. -/
def receiveNoteOff (m : Midi) (ch note : UInt8) : Receipt × Midi :=
  let m := { m with lastEvent := 2, lastChannel := byteValue ch, lastNote := byteValue note,
                    lastVelocity := 0 }
  if (m.binding .noteOff).isNone then (.kept, m)
  else if m.notesOff.length ≥ batchLimit then (.dropped, m)
  else (.kept, { m with notesOff := m.notesOff ++ [(byteValue ch, byteValue note)] })

/-- Records a note-on; one with velocity zero is a note-off. -/
def receiveNoteOn (m : Midi) (ch note vel : UInt8) : Receipt × Midi :=
  if vel = 0 then m.receiveNoteOff ch note
  else
    let m := { m with lastEvent := 1, lastChannel := byteValue ch, lastNote := byteValue note,
                      lastVelocity := byteValue vel }
    if (m.binding .noteOn).isNone then (.kept, m)
    else if m.notesOn.length ≥ batchLimit then (.dropped, m)
    else (.kept, { m with notesOn := m.notesOn ++ [(byteValue ch, byteValue note, byteValue vel)] })

def receiveControl (m : Midi) (ch num val : UInt8) : Receipt × Midi :=
  let m := { m with lastEvent := 3, lastChannel := byteValue ch, lastController := byteValue num,
                    lastCc := byteValue val }
  if (m.binding .controlChange).isNone then (.kept, m)
  else
    match recordControl m.controls (byteValue ch) (byteValue num) (byteValue val) with
    | some batch => (.kept, { m with controls := batch })
    | none => (.dropped, m)

def receive (m : Midi) (msg : MidiMessage) : Receipt × Midi :=
  match msg with
  | .noteOn ch note vel => m.receiveNoteOn ch note vel
  | .noteOff ch note => m.receiveNoteOff ch note
  | .controlChange ch num val => m.receiveControl ch num val
  | .clock =>
    let count := m.clockCount + 1
    if count < m.clockDiv then (.kept, { m with clockCount := count })
    else
      let m := { m with clockCount := 0, lastEvent := 4 }
      (m.runNow .clock, m)
  | .start => let m := { m with lastEvent := 5 }; (m.runNow .start, m)
  | .stop => let m := { m with lastEvent := 6 }; (m.runNow .stop, m)
  | .resume => let m := { m with lastEvent := 7 }; (m.runNow .resume, m)

/-- The scripts bound to note-on, note-off and controller changes whose batch is not
empty, in that order, each once. -/
def dueScripts (m : Midi) : List Nat :=
  [(MidiEvent.noteOn, m.notesOn.length), (.noteOff, m.notesOff.length),
    (.controlChange, m.controls.length)].foldl
    (fun due (e, count) =>
      match m.binding e with
      | some s => if count > 0 && !due.contains s then due ++ [s] else due
      | none => due) []

def endBatch (m : Midi) : Midi := { m with notesOn := [], notesOff := [], controls := [] }

end Midi

end TriggerScript
