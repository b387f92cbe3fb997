import TriggerScript.Machine.Script
import TriggerScript.Machine.Pattern
import TriggerScript.Machine.Turtle
import TriggerScript.Machine.Midi
import TriggerScript.Machine.Hardware
import TriggerScript.Machine.DelayQueue
import TriggerScript.Machine.Stack
import TriggerScript.Random.Uniform
/-!
Scenes: everything a running program can see or change.

A scene holds ten scripts (eight triggers, METRO and INIT), twenty-six global variables,
four patterns, the outputs as last written, the metronome and clock, the turtle and the
grid, MIDI state, calibration, mutes and polarities of the trigger inputs, a description
of up to thirty-two lines, and the transient machinery of a run: the delay queue, the
command stack, the `EVERY` counters, the random generator and counts of what was
dropped.

Editing a script cancels the delays it owns and restarts its counters. Resetting the
transient state keeps every stored part of the scene but the pattern cursors, which it
rewinds to the start of their windows.
-/

set_option autoImplicit false
set_option relaxedAutoImplicit false

namespace TriggerScript

/-- Counts of bounded conditions that were absorbed instead of failing. The program keeps the
first three in 32-bit words and stops on an overflow; as natural numbers they agree with
those words while each is below 2³² (`Scene.CountersFit`). -/
structure Stats where
  depthAborts : Nat := 0
  droppedDelays : Nat := 0
  droppedStack : Nat := 0
  /-- Nested calls cut short because the run used up the fuel of its entry point. -/
  exhausted : Nat := 0
  deriving DecidableEq, Repr, Inhabited

structure Outputs where
  cv : List Int16 := List.replicate 4 0
  cvOff : List Int16 := List.replicate 4 0
  cvSlew : List Int16 := List.replicate 4 1
  tr : List Bool := List.replicate 4 false
  trPol : List Bool := List.replicate 4 true
  trTime : List Int16 := List.replicate 4 100
  deriving DecidableEq, Repr, Inhabited

/-- A command on the stack: its owning script, the loop index it captured, and the
command itself. -/
structure StackEntry where
  script : Nat
  index : Int16
  command : Command
  deriving DecidableEq, Repr, Inhabited

structure Scene where
  scripts : List Script
  globals : List Int16
  patterns : List Pattern
  bank : Nat
  calibration : Calibration
  mutes : List Bool
  polarity : List Nat
  description : List String
  midi : Midi
  turtle : Turtle
  grid : List (List Nat)
  keys : List (List Bool)
  outputs : Outputs
  metro : Int16
  metroAct : Bool
  timeBase : UInt32
  timeFrozen : Int16
  timeAct : Bool
  lastRun : List UInt32
  every : List (List Nat)
  liveEvery : Nat
  delays : DelayQueue
  stack : BoundedStack StackEntry
  rng : Generator
  seed : Int16
  stats : Stats
  slot : Nat
  initializing : Bool
  flip : Bool

namespace Scene

/-- Trigger scripts are 0 to 7. -/
def triggerCount : Nat := 8
def metroScript : Nat := 8
def initScript : Nat := 9
def scriptCount : Nat := 10
def liveScript : Nat := 10
/-- Nested script calls stop at this depth. -/
def maxDepth : Nat := 8
/-- The most times one `W` line repeats. -/
def whileLimit : Nat := 10000
def patternCount : Nat := 4
def varCount : Nat := 26
def outputCount : Nat := 4
def gridSize : Nat := 16
def sceneSlots : Nat := 32
def descriptionLines : Nat := 32
def descriptionLength : Nat := 32
def metroMin : Int16 := 25
def metroDefault : Int16 := 1000
/-- The most commands on the stack. -/
def stackSize : Nat := 16

/-- Counters of every line, all at zero. -/
def freshCounters : List (List Nat) := List.replicate scriptCount (List.replicate Script.maxLines 0)

/-- A new scene whose random operators start from `seed`. -/
def withSeed (seed : UInt64) : Scene :=
  { scripts := List.replicate scriptCount Script.empty
    globals := List.replicate varCount 0
    patterns := List.replicate patternCount Pattern.empty
    bank := 0
    calibration := Calibration.default
    mutes := List.replicate triggerCount false
    polarity := List.replicate triggerCount 1
    description := List.replicate descriptionLines ""
    midi := Midi.empty
    turtle := Turtle.home
    grid := List.replicate gridSize (List.replicate gridSize 0)
    keys := List.replicate gridSize (List.replicate gridSize false)
    outputs := {}
    metro := metroDefault
    metroAct := true
    timeBase := 0
    timeFrozen := 0
    timeAct := true
    lastRun := List.replicate scriptCount 0
    every := freshCounters
    liveEvery := 0
    delays := DelayQueue.empty
    stack := BoundedStack.empty stackSize "COMMAND STACK"
    rng := Generator.ofSeed seed
    seed := Int16.ofInt (seed.toNat % 65536 : Nat)
    stats := {}
    slot := 0
    initializing := false
    flip := false }

instance : Inhabited Scene := ⟨withSeed 0⟩

/-- Restarts the random operators from `seed`, and `SEED` reads its low sixteen bits. -/
def reseed (s : Scene) (seed : UInt64) : Scene :=
  { s with rng := Generator.ofSeed seed, seed := Int16.ofInt (seed.toNat % 65536 : Nat) }

/-- Whether two scenes agree on what is stored: scripts, variables, patterns,
calibration, mutes, polarities, description, MIDI bindings and divider. -/
def samePersisted (a b : Scene) : Bool :=
  a.scripts == b.scripts && a.globals == b.globals && a.patterns == b.patterns &&
    a.calibration == b.calibration && a.mutes == b.mutes && a.polarity == b.polarity &&
    a.description == b.description && a.midi.bindings == b.midi.bindings &&
    a.midi.clockDiv == b.midi.clockDiv

/-- Global variable `n`, zero out of range. -/
def var (s : Scene) (n : Nat) : Int16 := s.globals.getD n 0

/-- Pattern `n`, the last one for `n` out of range. -/
def pattern (s : Scene) (n : Nat) : Pattern := s.patterns.getD (min n (patternCount - 1)) Pattern.empty

/-- Changes pattern `n`, the last one for `n` out of range. -/
def modifyPattern (s : Scene) (n : Nat) (f : Pattern → Pattern) : Scene :=
  { s with patterns := s.patterns.modify (min n (patternCount - 1)) f }

/-- The LED level at a grid cell, zero off the grid. -/
def gridLed (s : Scene) (x y : Nat) : Nat := (s.grid.getD y []).getD x 0

def setGridLed (s : Scene) (x y level : Nat) : Scene :=
  { s with grid := s.grid.modify y (·.set x level) }

/-- Whether a grid key is held, false off the grid. -/
def gridKey (s : Scene) (x y : Nat) : Bool := (s.keys.getD y []).getD x false

/-- Mutes or unmutes a trigger input; inputs out of range are ignored. -/
def setMute (s : Scene) (input : Nat) (muted : Bool) : Scene :=
  { s with mutes := s.mutes.set input muted }

/-- Sets which edges of a trigger input run its script: bit 1 rising, bit 2 falling. -/
def setPolarity (s : Scene) (input : Nat) (p : Nat) : Scene :=
  { s with polarity := s.polarity.set input (p % 4) }

/-- Replaces description line `n`: printable ASCII of at most 32 characters. -/
def setDescriptionLine (s : Scene) (n : Nat) (text : String) : Except Error Scene :=
  if n ≥ descriptionLines then .error (.bare .noSuchLine)
  else
    match text.toList.findIdx? (fun c => !Line.isPrintable c) with
    | some pos => .error (.spanned .invalidCharacter (Span.at pos))
    | none =>
      if text.utf8ByteSize > descriptionLength then
        .error (.spanned .lineTooLong ⟨descriptionLength, text.utf8ByteSize⟩)
      else .ok { s with description := s.description.set n text }

/-- After script `n` changes: its delays are cancelled and its counters restart. -/
def scriptChanged (s : Scene) (n : Nat) : Scene :=
  { s with delays := s.delays.cancelScript n,
           every := s.every.set n (List.replicate Script.maxLines 0) }

/-- Script `n`, or `NO SUCH SCRIPT`. -/
def script? (s : Scene) (n : Nat) : Except Error Script :=
  match s.scripts[n]? with
  | some sc => .ok sc
  | none => .error (.bare .noSuchScript)

/-- Compiles a line into a script, replacing line `n` or inserting before it. A line that
cannot be stored is refused; one that stores but does not compile is kept as `nop` and
its error returned along with the changed scene. -/
def placeLine (s : Scene) (script n : Nat) (text : String) (insert : Bool) :
    Except Error (Scene × Option Error) := do
  let target ← s.script? script
  let line := Line.ofText text
  if !line.isStorable then throw (line.error.getD (.bare .invalidCharacter))
  let changed ← if insert then target.insertLine n line else target.setLine n line
  pure ({ s with scripts := s.scripts.set script changed }.scriptChanged script, line.error)

/-- Removes line `n` of a script. -/
def deleteLine (s : Scene) (script n : Nat) : Except Error Scene := do
  let target ← s.script? script
  let changed ← target.deleteLine n
  pure ({ s with scripts := s.scripts.set script changed }.scriptChanged script)

def clearScript (s : Scene) (script : Nat) : Except Error Scene := do
  let _ ← s.script? script
  pure ({ s with scripts := s.scripts.set script Script.empty }.scriptChanged script)

/-- Drops delays and stacked commands, sends the turtle home, restarts counters, rewinds
each pattern's cursor to the start of its window and empties the MIDI batches; of what a
scene stores, only those cursors change. -/
def resetTransient (s : Scene) : Scene :=
  { s with delays := s.delays.cancelAll, stack := s.stack.clear, turtle := Turtle.home,
           every := freshCounters, liveEvery := 0, patterns := s.patterns.map Pattern.rewind,
           midi := s.midi.endBatch }

end Scene

end TriggerScript
