import TriggerScript.Machine.Execute
/-!
The entry points of a running scene: starting it, trigger edges, metronome ticks, the end
of a trigger pulse, grid keys and MIDI input, and a queue of such inputs handled in
order.

A trigger edge runs its input's script unless the input is muted or its polarity ignores
that edge; with the panel flipped the inputs are numbered in reverse. The metronome runs
nothing while METRO is empty. While INIT runs, `SCENE` requests are ignored.
-/

set_option autoImplicit false
set_option relaxedAutoImplicit false

namespace TriggerScript

/-- Something that happened outside the scene and needs a response. -/
inductive Input
  | trigger (input : Nat) (rising : Bool)
  /-- The millisecond clock reached this tick. -/
  | tick (now : UInt32)
  | metro
  | pulseEnd (ch : Nat)
  | gridKey (x y : Nat) (pressed : Bool)
  | midi (msg : MidiMessage)
  | midiFlush
  deriving DecidableEq, Repr, Inhabited

namespace Machine

open Act

def init : Act Outcome := do
  modifyScene fun s => { s with initializing := true }
  let o ← run Scene.initScript
  modifyScene fun s => { s with initializing := false }
  return o

/-- An edge on a trigger input: runs the input's script unless it is out of range, muted,
or its polarity ignores the edge. -/
def trigger (input : Nat) (rising : Bool) : Act (Option Outcome) := do
  if input ≥ Scene.triggerCount then return none
  let s ← Act.scene
  let n := if s.flip then Scene.triggerCount - 1 - input else input
  if s.mutes.getD n false then return none
  let mask := if rising then 1 else 2
  if (s.polarity.getD n 0) &&& mask == 0 then return none
  return some (← run n)

/-- A metronome tick: runs METRO unless it is empty. -/
def metroTick : Act (Option Outcome) := do
  if ((← Act.scene).scripts.getD Scene.metroScript Script.empty).isEmpty then return none
  return some (← run Scene.metroScript)

/-- The pulse on a trigger output has elapsed: the output returns to the level opposite
its polarity. -/
def pulseEnd (ch : Nat) : Act Unit := do
  if ch < Scene.outputCount then
    let level := !((← Act.scene).outputs.trPol.getD ch false)
    modifyScene fun s => { s with outputs := { s.outputs with tr := s.outputs.tr.set ch level } }
    emit (.tr ch level)

/-- A grid key was pressed or released. -/
def gridPress (x y : Nat) (pressed : Bool) : Act Unit := do
  if x < Scene.gridSize ∧ y < Scene.gridSize then
    modifyScene fun s => { s with keys := s.keys.modify y (·.set x pressed) }
    emit .gridUpdated

/-- Takes one MIDI message; a clock or transport event bound to a script runs it. -/
def midiIn (msg : MidiMessage) : Act Unit := do
  let (r, m) := (← Act.scene).midi.receive msg
  modifyScene fun s => { s with midi := m }
  if let .run script := r then
    let _ ← run script

/-- Runs each script bound to a note or controller kind with a non-empty batch, once
each, then starts new batches. Returns the number of scripts run. -/
def midiFlush : Act Nat := do
  let due := (← Act.scene).midi.dueScripts
  for script in due do
    let _ ← run script
  modifyScene fun s => { s with midi := s.midi.endBatch }
  return due.length

def dispatch : Input → Act Unit
  | .trigger input rising => do let _ ← trigger input rising
  | .tick now => do let _ ← advanceDelays now
  | .metro => do let _ ← metroTick
  | .pulseEnd ch => pulseEnd ch
  | .gridKey x y pressed => gridPress x y pressed
  | .midi msg => midiIn msg
  | .midiFlush => do let _ ← midiFlush

/-- Handles queued inputs in order and returns how many there were. -/
def drain (inputs : List Input) : Act Nat := do
  for i in inputs do
    dispatch i
  return inputs.length

end Machine

end TriggerScript
