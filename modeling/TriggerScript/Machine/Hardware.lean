import TriggerScript.Machine.Calibration
/-!
The hardware a scene talks to, as data: the readings it can take and the requests it
makes.

Readings are the clock, the raw analog inputs, the trigger input states and the reply
of the last bus read. Requests are appended to a log in the order they are made. A
silent connection reads zero everywhere and keeps no log; a recording one serves its
readings and logs every request.
-/

set_option autoImplicit false
set_option relaxedAutoImplicit false

namespace TriggerScript

structure Readings where
  /-- Milliseconds since start, wrapping. -/
  now : UInt32 := 0
  adcIn : Nat := 0
  adcParam : Nat := 0
  inputs : List Bool := List.replicate 8 false
  /-- The two bytes a bus read answers with. -/
  iiReply : List UInt8 := [0, 0]
  deriving DecidableEq, Repr, Inhabited

/-- A request a scene makes of the hardware. Channels count from zero. -/
inductive Event
  | cv (ch : Nat) (value : Int16) (slew : Bool)
  | cvSlew (ch : Nat) (ms : Int16)
  | cvOff (ch : Nat) (offset : Int16)
  | tr (ch : Nat) (high : Bool)
  | trPulse (ch : Nat) (ms : Int16)
  | trPulseClear (ch : Nat)
  | trPulseTime (ch : Nat) (ms : Int16)
  | iiTx (addr : UInt8) (data : List UInt8)
  | iiRx (addr : UInt8)
  | metro (ms : Int16) (active : Bool)
  | metroReset
  | mutesUpdated
  | varsUpdated
  | kill
  | loadScene (slot : Nat)
  | saveCalibration (c : Calibration)
  | deviceFlip
  | gridUpdated
  deriving DecidableEq, Repr, Inhabited

/-- A connection to the hardware: its readings, whether it logs requests, and the log. -/
structure Io where
  readings : Readings
  recording : Bool
  events : Array Event
  deriving Repr, Inhabited

namespace Io

/-- A connection that reads zero everywhere and drops every request. -/
def silent : Io := { readings := {}, recording := false, events := #[] }

/-- A connection that serves `r` and logs every request. -/
def recorder (r : Readings) : Io := { readings := r, recording := true, events := #[] }

def ticks (io : Io) : UInt32 := io.readings.now

def adc (io : Io) (which : Special) : Nat :=
  match which with
  | .input => io.readings.adcIn
  | .param => io.readings.adcParam

def inputState (io : Io) (n : Nat) : Bool := io.readings.inputs.getD n false

def reply (io : Io) : List UInt8 := io.readings.iiReply

/-- Makes a request: logs it when recording. -/
def emit (io : Io) (e : Event) : Io :=
  if io.recording then { io with events := io.events.push e } else io

def lastCv (io : Io) (ch : Nat) : Option Int16 :=
  io.events.toList.reverse.findSome? fun
    | .cv c v _ => if c = ch then some v else none
    | _ => none

end Io

end TriggerScript
