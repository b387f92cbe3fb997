import TriggerScript.Checked.Parts
import TriggerScript.Machine.Entry
/-!
The executor and the entry points, with their checks.

`CheckedAct` is an action on a machine that may stop the program. Each function here is its
plain namesake with the checks of its source made where the source makes them: an operator
over its evaluated operands, a reading of `IN` or `PARAM`, an `EVERY` counter, the next index
of `L`, the delays of `DEL.X` and `DEL.R`, the counts of dropped delays, dropped stacked
commands and `SCRIPT` calls at the depth limit in 32 bits, the sequence number of the delay
queue in 64 bits, the first due entry taken off the queue, a received MIDI message, and the
literals of a line compiled by `execute`. The steps that cannot stop are the plain ones, lifted.

A step's checks read the machine it starts from and compute what the step computes, so the
checked functions answer as the plain ones whenever no check stops: that is what the proofs
show, for every reachable scene.
-/

set_option autoImplicit false
set_option relaxedAutoImplicit false

namespace TriggerScript

/-- Actions on a machine that may stop the program. -/
abbrev CheckedAct := StateT Machine Checked

namespace CheckedAct

variable {α : Type}

/-- An action that cannot stop. -/
def lift (m : Act α) : CheckedAct α := fun st => .ok (m.run st)

/-- An action preceded by the checks it makes, read from the machine it starts from. -/
def guarded (checks : Machine → Checked Unit) (m : Act α) : CheckedAct α :=
  fun st => do
    checks st
    .ok (m.run st)

/-- Checked operations on values already at hand: they stop, or change nothing. -/
def check (c : Checked Unit) : CheckedAct Unit :=
  fun st => do
    c
    .ok ((), st)

end CheckedAct

/-- A count of the statistics goes on in 32 bits. -/
def Stats.countChecks (n : Nat) : Checked Unit := discard <| Checked.u32 (n + 1)

namespace Operators

open Checked

/-- A read of entry `n` of a MIDI batch, from a table of twenty. -/
def batchChecks (n : Int16) (count : Nat) : Checked Unit :=
  match position n count with
  | some k => index k Midi.batchLimit
  | none => pure ()

/-- The checks of a pattern operation's getter form on pattern `n`: the pattern is taken
from the table of four, then its method runs. -/
def patternReadChecks (s : Scene) (n : Nat) (p : PatternOp) (a : List Int16) : Checked Unit := do
  index n Scene.patternCount
  let pat := s.pattern n
  match p with
  | .value => pat.positionChecks (arg a 0)
  | .next => pat.moveChecks 1
  | .prev => pat.moveChecks (-1)
  | .step => pat.moveChecks (arg a 0)
  | .ins => pat.insertChecks (arg a 0)
  | .rm => pat.removeChecks (arg a 0)
  | .pop => pat.popChecks
  | .min | .max => pat.dataChecks
  | .rnd => pat.randomChecks s.rng
  | _ => pure ()

/-- The checks of a pattern operation's setter form on pattern `n`. -/
def patternWriteChecks (s : Scene) (n : Nat) (p : PatternOp) (a : List Int16) (v : Int16) :
    Checked Unit := do
  index n Scene.patternCount
  let pat := s.pattern n
  match p with
  | .value => pat.positionChecks (arg a 0)
  | .start => pat.setStartChecks v
  | .finish => pat.setFinishChecks v
  | .index => pat.setIndexChecks v
  | _ => pure ()

/-- The checks of an operator's getter form over its evaluated operands. -/
def readChecks (o : Operator) (a : List Int16) (st : Machine) : Checked Unit :=
  let s := st.scene
  let x := arg a
  match o with
  | .rand => rangeTo (min (x 0) 0).toInt (max (x 0) 0).toInt
  | .rrand => rangeTo (min (x 0) (x 1)).toInt (max (x 0) (x 1)).toInt
  | .pattern p => patternReadChecks s s.bank p a
  | .patternAt p => patternReadChecks s (bank (x 0)) p (a.drop 1)
  | .turtleStep => s.turtle.forwardChecks 1
  | .turtleFwd => s.turtle.forwardChecks (x 0)
  | .turtleBump => s.turtle.bumpChecks (x 0)
  | .turtleMove => s.turtle.moveByChecks (x 0) (x 1)
  | .turtleTurn => s.turtle.turnChecks (x 0)
  | .turtleQTurn => s.turtle.quarterTurnChecks (x 0)
  | .midiNote | .midiVelocity | .midiNoteChannel => batchChecks (x 0) s.midi.notesOn.length
  | .midiOff | .midiOffChannel => batchChecks (x 0) s.midi.notesOff.length
  | .midiCcNumber | .midiCcValue | .midiCcChannel => batchChecks (x 0) s.midi.controls.length
  | _ => o.pureChecks a

/-- The checks of an operator's setter form over its evaluated operands and the value
written. -/
def writeChecks (o : Operator) (a : List Int16) (v : Int16) (st : Machine) : Checked Unit :=
  let s := st.scene
  match o with
  | .pattern p => patternWriteChecks s s.bank p a v
  | .patternAt p => patternWriteChecks s (bank (arg a 0)) p (a.drop 1) v
  | .turtle => s.turtle.cellChecks
  | .turtleX | .turtleY => Turtle.setCoordChecks v
  | .turtleDir => Turtle.setHeadingChecks v
  | _ => pure ()

end Operators

namespace Executor

/-- The `EVERY` counter the running line advances: its own, or the shared one. -/
def everyCount (f : Frame) (s : Scene) : Nat :=
  match f.line with
  | some line =>
    if f.script < Scene.scriptCount ∧ line < Script.maxLines then
      (s.every.getD f.script []).getD line 0
    else s.liveEvery
  | none => s.liveEvery

/-- The checks of a variable's read: `IN` and `PARAM` scale the reading. -/
def readVarChecks (v : Variable) (st : Machine) : Checked Unit :=
  match v with
  | .special which => st.scene.calibration.readChecks which (st.io.adc which)
  | _ => pure ()

/-- The checks of scheduling a body: the queue's, or the count of dropped delays. -/
def deferChecks (f : Frame) (body : Command) (delay : UInt32) (st : Machine) : Checked Unit :=
  match st.scene.delays.schedule f.script f.index body (st.io.ticks + delay) with
  | .ok _ => st.scene.delays.scheduleChecks
  | .error _ => Stats.countChecks st.scene.stats.droppedDelays

/-- The checks of stacking a body: the count of dropped stacked commands. -/
def stackBodyChecks (f : Frame) (body : Command) (st : Machine) : Checked Unit :=
  match st.scene.stack.push { script := f.script, index := f.index, command := body } with
  | .ok _ => pure ()
  | .error _ => Stats.countChecks st.scene.stats.droppedStack

/-- Counting a `SCRIPT` call at the depth limit. -/
def abortCount (s : Scene) : Scene :=
  { s with stats := { s.stats with depthAborts := s.stats.depthAborts + 1 } }

namespace Checked

open CheckedAct

/-- The checked steps of a run: the primitive steps of `Executor`, each with its checks. -/
def exhaust : CheckedAct Unit := lift Executor.exhaust

def scene : CheckedAct Scene := lift Act.scene

def ticks : CheckedAct UInt32 := lift Act.ticks

def modifyScene (g : Scene → Scene) : CheckedAct Unit := lift (Act.modifyScene g)

def readVar (f : Frame) (v : Variable) : CheckedAct Int16 :=
  guarded (readVarChecks v) (Executor.readVar f v)

def writeVar (f : Frame) (v : Variable) (value : Int16) : CheckedAct Frame :=
  lift (Executor.writeVar f v value)

def tickEvery (f : Frame) (n : Int16) : CheckedAct Bool :=
  guarded (fun st => everyTickChecks (everyCount f st.scene)) (Executor.tickEvery f n)

def defer (f : Frame) (body : Command) (delay : UInt32) : CheckedAct Unit :=
  guarded (deferChecks f body delay) (Executor.defer f body delay)

/-- `DEL.X` and `DEL.R`: the delay of copy `k` is `k` times the period, in 32 bits. -/
def deferCopies (f : Frame) (body : Command) (t : UInt32) : Nat → Nat → CheckedAct Unit
  | _, 0 => pure ()
  | k, n + 1 => do
    check (discard <| Checked.u32 (t.toNat * k))
    defer f body (t * k.toUInt32)
    deferCopies f body t (k + 1) n

def stackBody (f : Frame) (body : Command) : CheckedAct Unit :=
  guarded (stackBodyChecks f body) (Executor.stackBody f body)

def popStack : CheckedAct (Option StackEntry) := lift Executor.popStack

def read (f : Frame) (o : Operator) (a : List Int16) : CheckedAct Int16 :=
  guarded (Operators.readChecks o a) (Operators.read f o a)

def write (o : Operator) (a : List Int16) (v : Int16) : CheckedAct Unit :=
  guarded (Operators.writeChecks o a v) (Operators.write o a v)

/-- A `SCRIPT` call at the depth limit is counted. -/
def abort : CheckedAct Unit :=
  guarded (fun st => Stats.countChecks st.scene.stats.depthAborts) (Act.modifyScene abortCount)

mutual

def exec : Nat → Frame → Command → CheckedAct (Option Int16 × Frame)
  | 0, f, _ => do exhaust; return (none, f)
  | fuel + 1, f, c =>
    match c with
    | .nop => return (none, f)
    | .literal n => return (some n, f)
    | .var v => return (some (← readVar f v), f)
    | .op o args => do
      let (v, f) ← evalOp fuel f o args
      return (some v, f)
    | .set o args value => do
      let (a, f) ← evalArgs fuel f (args.take 3)
      let (v, f) ← exec fuel f value
      let f ← setOp fuel f o a (v.getD 0)
      return (none, f)
    | .store var value => do
      let (v, f) ← exec fuel f value
      let f ← writeVar f var (v.getD 0)
      return (none, f)
    | .modified m args body => do
      let f ← execModifier fuel f m args body
      return (none, f)
    | .seq cs => execSeq fuel f cs none

def execSeq : Nat → Frame → List Command → Option Int16 → CheckedAct (Option Int16 × Frame)
  | 0, f, _, acc => do exhaust; return (acc, f)
  | _ + 1, f, [], acc => return (acc, f)
  | fuel + 1, f, c :: cs, acc => do
    let (v, f) ← exec fuel f c
    let acc := if v.isSome then v else acc
    if f.breaking then return (acc, f) else execSeq fuel f cs acc

def evalArgs : Nat → Frame → List Command → CheckedAct (List Int16 × Frame)
  | 0, f, _ => do exhaust; return ([], f)
  | _ + 1, f, [] => return ([], f)
  | fuel + 1, f, c :: cs => do
    let (v, f) ← exec fuel f c
    let (vs, f) ← evalArgs fuel f cs
    return (v.getD 0 :: vs, f)

def evalArg : Nat → Frame → List Command → Nat → CheckedAct (Int16 × Frame)
  | 0, f, _, _ => do exhaust; return (0, f)
  | fuel + 1, f, args, n =>
    match args[n]? with
    | some c => do
      let (v, f) ← exec fuel f c
      return (v.getD 0, f)
    | none => return (0, f)

/-- A pure operator checks its arithmetic over its evaluated operands. -/
def evalOp : Nat → Frame → Operator → List Command → CheckedAct (Int16 × Frame)
  | 0, f, _, _ => do exhaust; return (0, f)
  | fuel + 1, f, o, args =>
    match o.opClass with
    | .control => do
      let (c, f) ← evalArg fuel f args 0
      if c != 0 then evalArg fuel f args 1 else evalArg fuel f args 2
    | .pure => do
      let (a, f) ← evalArgs fuel f (args.take 3)
      check (o.pureChecks a)
      return (o.evalPure a, f)
    | .effect => do
      let (a, f) ← evalArgs fuel f (args.take 3)
      getOp fuel f o a

def getOp : Nat → Frame → Operator → List Int16 → CheckedAct (Int16 × Frame)
  | 0, f, _, _ => do exhaust; return (0, f)
  | fuel + 1, f, o, a =>
    match o with
    | .halt => return (0, { f with breaking := true })
    | .stackAll => do
      stackAll fuel f.depth (← scene).stack.size
      return (0, f)
    | .stackPop => do
      if let some e ← popStack then runStacked fuel f.depth e
      return (0, f)
    | _ => do
      let v ← read f o a
      return (v, f)

def setOp : Nat → Frame → Operator → List Int16 → Int16 → CheckedAct Frame
  | 0, f, _, _, _ => do exhaust; return f
  | fuel + 1, f, o, a, v =>
    match o with
    | .script => do
      if let some s := Operators.channel v Scene.scriptCount then
        let _ ← runAt fuel s (f.depth + 1)
      return f
    | _ => do
      write o a v
      return f

def stackAll : Nat → Nat → Nat → CheckedAct Unit
  | 0, _, _ => exhaust
  | _ + 1, _, 0 => pure ()
  | fuel + 1, depth, count + 1 => do
    match ← popStack with
    | none => pure ()
    | some e => do
      runStacked fuel depth e
      stackAll fuel depth count

def runStacked : Nat → Nat → StackEntry → CheckedAct Unit
  | 0, _, _ => exhaust
  | fuel + 1, depth, e => do
    let _ ← exec fuel { script := e.script, depth, index := e.index } e.command

def execModifier : Nat → Frame → Modifier → List Command → Command → CheckedAct Frame
  | 0, f, _, _, _ => do exhaust; return f
  | fuel + 1, f, m, args, body =>
    match m with
    | .ifThen => do
      let (c, f) ← evalArg fuel f args 0
      let f := { f with ifElse := c == 0 }
      if c != 0 then return (← exec fuel f body).2 else return f
    | .elif => do
      if f.ifElse then
        let (c, f) ← evalArg fuel f args 0
        if c != 0 then return (← exec fuel { f with ifElse := false } body).2 else return f
      else return f
    | .orElse => do
      if f.ifElse then return (← exec fuel { f with ifElse := false } body).2 else return f
    | .loop => do
      let (a, f) ← evalArg fuel f args 0
      let (b, f) ← evalArg fuel f args 1
      let step : Int := if a.toInt ≤ b.toInt then 1 else -1
      execLoop fuel f body a.toInt step ((b.toInt - a.toInt).natAbs + 1)
    | .whileLoop => execWhile fuel f (args.headD .nop) body 0
    | .every | .skip => do
      let (n, f) ← evalArg fuel f args 0
      let hit ← tickEvery f n
      let fired := if m == .every then hit else !hit
      let f := { f with everyFired := fired }
      if fired then return (← exec fuel f body).2 else return f
    | .other => do
      if !f.everyFired then return (← exec fuel f body).2 else return f
    | .prob => do
      let (n, f) ← evalArg fuel f args 0
      let s ← scene
      let (r, g) := s.rng.int32Between 0 99
      modifyScene fun s => { s with rng := g }
      if r < n.toInt then return (← exec fuel f body).2 else return f
    | .delay => do
      let (t, f) ← evalArg fuel f args 0
      defer f body (ticksOf t)
      return f
    | .delayRepeat => do
      let (n, f) ← evalArg fuel f args 0
      let (t, f) ← evalArg fuel f args 1
      deferCopies f body (ticksOf t) 1 (copiesOf n)
      return f
    | .delayRun => do
      let (n, f) ← evalArg fuel f args 0
      let (t, f) ← evalArg fuel f args 1
      let f ← if copiesOf n > 0 then pure (← exec fuel f body).2 else pure f
      deferCopies f body (ticksOf t) 1 (copiesOf n - 1)
      return f
    | .stack => do
      stackBody f body
      return f

/-- `L` moves its index in 32 bits before each pass after the first. -/
def execLoop : Nat → Frame → Command → Int → Int → Nat → CheckedAct Frame
  | 0, f, _, _, _, _ => do exhaust; return f
  | _ + 1, f, _, _, _, 0 => return f
  | fuel + 1, f, body, i, step, count + 1 => do
    let (_, f) ← exec fuel { f with index := Int16.ofInt i } body
    if f.breaking || count == 0 then return f
    else do
      check (discard <| Checked.i32 (i + step))
      execLoop fuel f body (i + step) step count

def execWhile : Nat → Frame → Command → Command → Nat → CheckedAct Frame
  | 0, f, _, _, _ => do exhaust; return f
  | fuel + 1, f, cond, body, count => do
    if count ≥ Scene.whileLimit then return f
    let (c, f) ← exec fuel f cond
    if c.getD 0 == 0 then return f
    let (_, f) ← exec fuel f body
    if f.breaking then return f
    execWhile fuel f cond body (count + 1)

def runAt : Nat → Nat → Nat → CheckedAct Outcome
  | 0, _, _ => do exhaust; return .value none
  | fuel + 1, script, depth => do
    if depth ≥ Scene.maxDepth then
      abort
      return .depthExceeded
    match (← scene).scripts[script]? with
    | none => return .value none
    | some sc => do
      let now ← ticks
      modifyScene fun s => { s with lastRun := s.lastRun.set script now }
      let v ← runLines fuel { script, depth } (sc.lines.map (·.command)) 0 none
      return .value v

def runLines : Nat → Frame → List Command → Nat → Option Int16 → CheckedAct (Option Int16)
  | 0, _, _, _, acc => do exhaust; return acc
  | _ + 1, _, [], _, acc => return acc
  | fuel + 1, f, c :: cs, n, acc => do
    let (v, f) ← exec fuel { f with line := some n } c
    let acc := if v.isSome then v else acc
    if f.breaking then return acc else runLines fuel f cs (n + 1) acc

end

end Checked

end Executor

namespace Machine.Checked

open CheckedAct Executor.Checked

def run (script : Nat) : CheckedAct Outcome := do
  let before := (← Executor.Checked.scene).stats.depthAborts
  let outcome ← runAt fuel script 0
  if (← Executor.Checked.scene).stats.depthAborts != before then return .depthExceeded
  return outcome

/-- `Machine.execute`: compiling the line reads its literals. -/
def execute (text : String) : CheckedAct (Except Error (Option Int16)) := do
  check (Line.ofTextChecks text)
  let line := Line.ofText text
  match line.error with
  | some e => return .error e
  | none =>
    let (v, _) ← exec fuel { script := Scene.liveScript, depth := 0 } line.command
    return .ok v

def init : CheckedAct Outcome := do
  modifyScene fun s => { s with initializing := true }
  let o ← run Scene.initScript
  modifyScene fun s => { s with initializing := false }
  return o

def trigger (input : Nat) (rising : Bool) : CheckedAct (Option Outcome) := do
  if input ≥ Scene.triggerCount then return none
  let s ← Executor.Checked.scene
  let n := if s.flip then Scene.triggerCount - 1 - input else input
  if s.mutes.getD n false then return none
  let mask := if rising then 1 else 2
  if (s.polarity.getD n 0) &&& mask == 0 then return none
  return some (← run n)

def metroTick : CheckedAct (Option Outcome) := do
  if ((← Executor.Checked.scene).scripts.getD Scene.metroScript Script.empty).isEmpty then return none
  return some (← run Scene.metroScript)

/-- `Machine.fireDue`: taking the first due entry off the queue. -/
def fireDue (now : UInt32) (before : Nat) : Nat → Nat → CheckedAct Nat
  | 0, fired => return fired
  | count + 1, fired => do
    let s ← Executor.Checked.scene
    check (s.delays.popDueBeforeChecks now before)
    let (e, q) := s.delays.popDueBefore now before
    match e with
    | none => return fired
    | some e => do
      modifyScene fun s => { s with delays := q }
      let _ ← exec fuel { script := e.script, depth := 0, index := e.index } e.command
      fireDue now before count (fired + 1)

def advanceDelays (now : UInt32) : CheckedAct Nat := do
  let q := (← Executor.Checked.scene).delays
  fireDue now q.nextSeq q.size 0

/-- `Machine.midiIn`: receiving the message. -/
def midiIn (msg : MidiMessage) : CheckedAct Unit := do
  let s ← Executor.Checked.scene
  check (s.midi.receiveChecks msg)
  let (r, m) := s.midi.receive msg
  modifyScene fun s => { s with midi := m }
  if let .run script := r then
    let _ ← run script

def midiFlush : CheckedAct Nat := do
  let due := (← Executor.Checked.scene).midi.dueScripts
  for script in due do
    let _ ← run script
  modifyScene fun s => { s with midi := s.midi.endBatch }
  return due.length

/-- `Machine.dispatch` with its checks; ending a pulse and pressing a grid key cannot stop. -/
def dispatch : Input → CheckedAct Unit
  | .trigger input rising => do let _ ← trigger input rising
  | .tick now => do let _ ← advanceDelays now
  | .metro => do let _ ← metroTick
  | .pulseEnd ch => lift (pulseEnd ch)
  | .gridKey x y pressed => lift (gridPress x y pressed)
  | .midi msg => midiIn msg
  | .midiFlush => do let _ ← midiFlush

def drain (inputs : List Input) : CheckedAct Nat := do
  for i in inputs do
    dispatch i
  return inputs.length

end Machine.Checked

end TriggerScript
