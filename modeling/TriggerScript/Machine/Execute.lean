import TriggerScript.Machine.Operators
/-!
The executor: how compiled commands run against a machine.

A script runs its lines in order, and its value is the value of the last line that
produced one. `BREAK` ends the line and the script. `IF` records whether it failed, so
that a later `ELIF` or `ELSE` of the same run may take over. `L` visits every index from
its first operand to its second, one step at a time, `W` repeats at most ten thousand
times, and `EVERY`, `SKIP` and `OTHER` follow per-line counters. `DEL`, `DEL.X` and
`DEL.R` schedule their body on the delay queue, `S` puts it on the command stack; both
drop the body, and count it, when full. `SCRIPT` runs another script one level deeper;
at depth eight the call is skipped and counted.

Every function here takes a fuel argument that bounds the nesting of the run. The entry
points give `fuel`, far more than any run that ends can use. A call that finds no fuel
left counts itself in the scene's statistics and stops, so a run ended on its own exactly
when it leaves that count as it found it.
-/

set_option autoImplicit false
set_option relaxedAutoImplicit false

namespace TriggerScript

inductive Outcome
  /-- The value of the last line that produced one. -/
  | value (v : Option Int16)
  /-- The call, or a nested `SCRIPT` call within it, reached the depth limit. -/
  | depthExceeded
  deriving DecidableEq, Repr, Inhabited

namespace Executor

open Act Operators

def readVar (f : Frame) : Variable → Act Int16
  | .global n => return (← scene).var n
  | .index => return f.index
  | .pattern n => return ((← scene).pattern n).get
  | .special which => do
    let raw := (← get).io.adc which
    return (← scene).calibration.read which raw

/-- Writes a variable; `IN` and `PARAM` ignore writes. -/
def writeVar (f : Frame) (v : Variable) (value : Int16) : Act Frame :=
  match v with
  | .global n => do modifyScene (fun s => { s with globals := s.globals.set n value }); return f
  | .index => return { f with index := value }
  | .pattern n => do modifyScene (fun s => s.modifyPattern n (·.set value)); return f
  | .special _ => return f

/-- Advances the `EVERY` counter of the running line, or the shared one for lines outside
any script, and reports whether it fired. -/
def tickEvery (f : Frame) (n : Int16) : Act Bool := do
  let s ← scene
  match f.line with
  | some line =>
    if f.script < Scene.scriptCount ∧ line < Script.maxLines then
      let (count, hit) := everyTick ((s.every.getD f.script []).getD line 0) n
      modifyScene fun s => { s with every := s.every.modify f.script (·.set line count) }
      return hit
    else
      let (count, hit) := everyTick s.liveEvery n
      modifyScene fun s => { s with liveEvery := count }
      return hit
  | none =>
    let (count, hit) := everyTick s.liveEvery n
    modifyScene fun s => { s with liveEvery := count }
    return hit

/-- Schedules a body to fire `delay` ticks from now; a full queue drops it and counts. -/
def defer (f : Frame) (body : Command) (delay : UInt32) : Act Unit := do
  let fire := (← ticks) + delay
  let s ← scene
  match s.delays.schedule f.script f.index body fire with
  | .ok q => modifyScene fun s => { s with delays := q }
  | .error _ => modifyScene fun s => { s with stats := { s.stats with droppedDelays := s.stats.droppedDelays + 1 } }

/-- Schedules copies of a body at `t`, `2t`, … , `count * t` ticks from now. -/
def deferCopies (f : Frame) (body : Command) (t : UInt32) : Nat → Nat → Act Unit
  | _, 0 => pure ()
  | k, n + 1 => do defer f body (t * k.toUInt32); deferCopies f body t (k + 1) n

/-- Puts a body on the command stack; a full stack drops it and counts. -/
def stackBody (f : Frame) (body : Command) : Act Unit := do
  let s ← scene
  match s.stack.push { script := f.script, index := f.index, command := body } with
  | .ok st => modifyScene fun s => { s with stack := st }
  | .error _ => modifyScene fun s => { s with stats := { s.stats with droppedStack := s.stats.droppedStack + 1 } }

/-- Takes the top command off the stack. -/
def popStack : Act (Option StackEntry) := do
  let s ← scene
  let (e, st) := s.stack.pop
  modifyScene fun s => { s with stack := st }
  return e

/-- Records that a nested call found no fuel left; the call then stops. -/
def exhaust : Act Unit :=
  modifyScene fun s => { s with stats := { s.stats with exhausted := s.stats.exhausted + 1 } }

/-- A delay in ticks from a value: at least one. -/
def ticksOf (v : Int16) : UInt32 := (max v 1).toInt.toNat.toUInt32

/-- A copy count from a value: between 0 and 16. -/
def copiesOf (v : Int16) : Nat := (max 0 (min 16 v.toInt)).toNat

mutual

/-- Runs a command; its value, if it has one, and the frame after it. -/
def exec : Nat → Frame → Command → Act (Option Int16 × Frame)
  | 0, f, _ => do exhaust; return (none, f)
  | fuel + 1, f, c =>
    match c with
    | .nop => return (none, f)
    | .literal n => return (some n, f)
    | .var v => return (some (← readVar f v), f)
    | .op o args => do
      let (v, f) ← evalOp fuel f o args
      return (some v, f)
    | .set o args value => do
      let (a, f) ← evalArgs fuel f (args.take 3)
      let (v, f) ← exec fuel f value
      let f ← setOp fuel f o a (v.getD 0)
      return (none, f)
    | .store var value => do
      let (v, f) ← exec fuel f value
      let f ← writeVar f var (v.getD 0)
      return (none, f)
    | .modified m args body => do
      let f ← execModifier fuel f m args body
      return (none, f)
    | .seq cs => execSeq fuel f cs none

/-- Runs the parts of a sequence until one breaks; the value of the last part that had
one. -/
def execSeq : Nat → Frame → List Command → Option Int16 → Act (Option Int16 × Frame)
  | 0, f, _, acc => do exhaust; return (acc, f)
  | _ + 1, f, [], acc => return (acc, f)
  | fuel + 1, f, c :: cs, acc => do
    let (v, f) ← exec fuel f c
    let acc := if v.isSome then v else acc
    if f.breaking then return (acc, f) else execSeq fuel f cs acc

/-- Evaluates operands in order; a command without a value counts as zero. -/
def evalArgs : Nat → Frame → List Command → Act (List Int16 × Frame)
  | 0, f, _ => do exhaust; return ([], f)
  | _ + 1, f, [] => return ([], f)
  | fuel + 1, f, c :: cs => do
    let (v, f) ← exec fuel f c
    let (vs, f) ← evalArgs fuel f cs
    return (v.getD 0 :: vs, f)

/-- Evaluates operand `n`, or gives zero when there is none. -/
def evalArg : Nat → Frame → List Command → Nat → Act (Int16 × Frame)
  | 0, f, _, _ => do exhaust; return (0, f)
  | fuel + 1, f, args, n =>
    match args[n]? with
    | some c => do
      let (v, f) ← exec fuel f c
      return (v.getD 0, f)
    | none => return (0, f)

/-- The value of an operator: `?` evaluates its condition and one branch; other
operators evaluate all operands first. -/
def evalOp : Nat → Frame → Operator → List Command → Act (Int16 × Frame)
  | 0, f, _, _ => do exhaust; return (0, f)
  | fuel + 1, f, o, args =>
    match o.opClass with
    | .control => do
      let (c, f) ← evalArg fuel f args 0
      if c != 0 then evalArg fuel f args 1 else evalArg fuel f args 2
    | .pure => do
      let (a, f) ← evalArgs fuel f (args.take 3)
      return (o.evalPure a, f)
    | .effect => do
      let (a, f) ← evalArgs fuel f (args.take 3)
      getOp fuel f o a

/-- The getter form of an operator that touches the scene. -/
def getOp : Nat → Frame → Operator → List Int16 → Act (Int16 × Frame)
  | 0, f, _, _ => do exhaust; return (0, f)
  | fuel + 1, f, o, a =>
    match o with
    | .halt => return (0, { f with breaking := true })
    | .stackAll => do
      stackAll fuel f.depth (← scene).stack.size
      return (0, f)
    | .stackPop => do
      if let some e ← popStack then runStacked fuel f.depth e
      return (0, f)
    | _ => do
      let v ← Operators.read f o a
      return (v, f)

/-- The setter form of an operator; `SCRIPT` runs a script one level deeper. -/
def setOp : Nat → Frame → Operator → List Int16 → Int16 → Act Frame
  | 0, f, _, _, _ => do exhaust; return f
  | fuel + 1, f, o, a, v =>
    match o with
    | .script => do
      if let some s := channel v Scene.scriptCount then
        let _ ← runAt fuel s (f.depth + 1)
      return f
    | _ => do
      Operators.write o a v
      return f

/-- Runs up to `count` commands from the top of the stack, at the given depth. -/
def stackAll : Nat → Nat → Nat → Act Unit
  | 0, _, _ => exhaust
  | _ + 1, _, 0 => pure ()
  | fuel + 1, depth, count + 1 => do
    match ← popStack with
    | none => pure ()
    | some e => do
      runStacked fuel depth e
      stackAll fuel depth count

/-- Runs a command from the stack with the script and loop index it captured. -/
def runStacked : Nat → Nat → StackEntry → Act Unit
  | 0, _, _ => exhaust
  | fuel + 1, depth, e => do
    let _ ← exec fuel { script := e.script, depth, index := e.index } e.command

def execModifier : Nat → Frame → Modifier → List Command → Command → Act Frame
  | 0, f, _, _, _ => do exhaust; return f
  | fuel + 1, f, m, args, body =>
    match m with
    | .ifThen => do
      let (c, f) ← evalArg fuel f args 0
      let f := { f with ifElse := c == 0 }
      if c != 0 then return (← exec fuel f body).2 else return f
    | .elif => do
      if f.ifElse then
        let (c, f) ← evalArg fuel f args 0
        if c != 0 then return (← exec fuel { f with ifElse := false } body).2 else return f
      else return f
    | .orElse => do
      if f.ifElse then return (← exec fuel { f with ifElse := false } body).2 else return f
    | .loop => do
      let (a, f) ← evalArg fuel f args 0
      let (b, f) ← evalArg fuel f args 1
      let step : Int := if a.toInt ≤ b.toInt then 1 else -1
      execLoop fuel f body a.toInt step ((b.toInt - a.toInt).natAbs + 1)
    | .whileLoop => execWhile fuel f (args.headD .nop) body 0
    | .every | .skip => do
      let (n, f) ← evalArg fuel f args 0
      let hit ← tickEvery f n
      let fired := if m == .every then hit else !hit
      let f := { f with everyFired := fired }
      if fired then return (← exec fuel f body).2 else return f
    | .other => do
      if !f.everyFired then return (← exec fuel f body).2 else return f
    | .prob => do
      let (n, f) ← evalArg fuel f args 0
      let s ← scene
      let (r, g) := s.rng.int32Between 0 99
      modifyScene fun s => { s with rng := g }
      if r < n.toInt then return (← exec fuel f body).2 else return f
    | .delay => do
      let (t, f) ← evalArg fuel f args 0
      defer f body (ticksOf t)
      return f
    | .delayRepeat => do
      let (n, f) ← evalArg fuel f args 0
      let (t, f) ← evalArg fuel f args 1
      deferCopies f body (ticksOf t) 1 (copiesOf n)
      return f
    | .delayRun => do
      let (n, f) ← evalArg fuel f args 0
      let (t, f) ← evalArg fuel f args 1
      let f ← if copiesOf n > 0 then pure (← exec fuel f body).2 else pure f
      deferCopies f body (ticksOf t) 1 (copiesOf n - 1)
      return f
    | .stack => do
      stackBody f body
      return f

/-- The iterations of `L` from index `i`, `count` of them, moving by `step`. -/
def execLoop : Nat → Frame → Command → Int → Int → Nat → Act Frame
  | 0, f, _, _, _, _ => do exhaust; return f
  | _ + 1, f, _, _, _, 0 => return f
  | fuel + 1, f, body, i, step, count + 1 => do
    let (_, f) ← exec fuel { f with index := Int16.ofInt i } body
    if f.breaking || count == 0 then return f
    else execLoop fuel f body (i + step) step count

/-- The iterations of `W` after `count` of them: the condition is evaluated before
each. -/
def execWhile : Nat → Frame → Command → Command → Nat → Act Frame
  | 0, f, _, _, _ => do exhaust; return f
  | fuel + 1, f, cond, body, count => do
    if count ≥ Scene.whileLimit then return f
    let (c, f) ← exec fuel f cond
    if c.getD 0 == 0 then return f
    let (_, f) ← exec fuel f body
    if f.breaking then return f
    execWhile fuel f cond body (count + 1)

/-- Runs a script at a nesting depth: at the depth limit it is skipped and counted; a
script number out of range has no value. -/
def runAt : Nat → Nat → Nat → Act Outcome
  | 0, _, _ => do exhaust; return .value none
  | fuel + 1, script, depth => do
    if depth ≥ Scene.maxDepth then
      modifyScene fun s => { s with stats := { s.stats with depthAborts := s.stats.depthAborts + 1 } }
      return .depthExceeded
    match (← scene).scripts[script]? with
    | none => return .value none
    | some sc => do
      let now ← ticks
      modifyScene fun s => { s with lastRun := s.lastRun.set script now }
      let v ← runLines fuel { script, depth } (sc.lines.map (·.command)) 0 none
      return .value v

/-- Runs lines from line `n` on until one breaks; the value of the last line that had
one. -/
def runLines : Nat → Frame → List Command → Nat → Option Int16 → Act (Option Int16)
  | 0, _, _, _, acc => do exhaust; return acc
  | _ + 1, _, [], _, acc => return acc
  | fuel + 1, f, c :: cs, n, acc => do
    let (v, f) ← exec fuel { f with line := some n } c
    let acc := if v.isSome then v else acc
    if f.breaking then return acc else runLines fuel f cs (n + 1) acc

end

end Executor

namespace Machine

open Executor

/-- Fuel for one entry point, 2⁴⁰: far more nesting than any run that ends reaches. -/
def fuel : Nat := 1099511627776

/-- Runs a script; if it or any script it called hit the depth limit, the outcome says
so. -/
def run (script : Nat) : Act Outcome := do
  let before := (← Act.scene).stats.depthAborts
  let outcome ← runAt fuel script 0
  if (← Act.scene).stats.depthAborts != before then return .depthExceeded
  return outcome

def execute (text : String) : Act (Except Error (Option Int16)) := do
  let line := Line.ofText text
  match line.error with
  | some e => return .error e
  | none =>
    let (v, _) ← exec fuel { script := Scene.liveScript, depth := 0 } line.command
    return .ok v

/-- Fires the due entries scheduled before sequence number `before`, at most `count`
of them, and counts them. -/
def fireDue (now : UInt32) (before : Nat) : Nat → Nat → Act Nat
  | 0, fired => return fired
  | count + 1, fired => do
    let (e, q) := (← Act.scene).delays.popDueBefore now before
    match e with
    | none => return fired
    | some e => do
      Act.modifyScene fun s => { s with delays := q }
      let _ ← exec fuel { script := e.script, depth := 0, index := e.index } e.command
      fireDue now before count (fired + 1)

/-- Fires every delayed command due at `now`, earliest first; commands scheduled while
firing wait for a later call. Returns the number fired. -/
def advanceDelays (now : UInt32) : Act Nat := do
  let q := (← Act.scene).delays
  fireDue now q.nextSeq q.size 0

def runStackEntry (e : StackEntry) : Act Unit := runStacked fuel 0 e

end Machine

end TriggerScript
