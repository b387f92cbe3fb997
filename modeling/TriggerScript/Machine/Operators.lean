import TriggerScript.Machine.Scene
/-!
What operators do to a scene and its hardware, apart from running other commands.

A `Machine` is a scene with its hardware connection; operators act on it in the state
monad `Act`. Channels and script numbers in scripts count from one, positions from zero;
one out of range reads zero and writes nothing. CV values are held between 0 and 16383,
and the offset of the channel is added before the value is sent.

The operators that run other commands (`SCRIPT`, `S.POP`, `S.ALL`) and `BREAK` belong to
the executor; here are the others.
-/

set_option autoImplicit false
set_option relaxedAutoImplicit false

namespace TriggerScript

structure Machine where
  scene : Scene
  io : Io
  deriving Inhabited

abbrev Act := StateM Machine

/-- The state of one running line: its script, nesting depth, loop index, the `IF` chain
flag, whether the last `EVERY` fired, whether `BREAK` ran, and the line being run. -/
structure Frame where
  script : Nat
  depth : Nat
  index : Int16 := 0
  /-- An `IF` failed and no `ELIF` or `ELSE` has run yet. -/
  ifElse : Bool := false
  everyFired : Bool := false
  breaking : Bool := false
  line : Option Nat := none
  deriving DecidableEq, Repr, Inhabited

namespace Act

def scene : Act Scene := return (← get).scene

def modifyScene (f : Scene → Scene) : Act Unit :=
  modify fun m => { m with scene := f m.scene }

def emit (e : Event) : Act Unit :=
  modify fun m => { m with io := m.io.emit e }

def ticks : Act UInt32 := return (← get).io.ticks

/-- A uniform draw from `lo..=hi`. -/
def drawBetween (lo hi : Int16) : Act Int16 := do
  let s ← scene
  let (v, g) := s.rng.int16Between lo hi
  modifyScene fun s => { s with rng := g }
  return v

end Act

namespace Operators

/-- The zero-based channel for a channel number counted from one. -/
def channel (n : Int16) (count : Nat) : Option Nat :=
  if 1 ≤ n.toInt ∧ n.toInt ≤ count then some (n.toInt.toNat - 1) else none

/-- A position counted from zero, if it lies below `count`. -/
def position (n : Int16) (count : Nat) : Option Nat :=
  if 0 ≤ n.toInt ∧ n.toInt < count then some n.toInt.toNat else none

/-- A pattern number, held between 0 and 3. -/
def bank (n : Int16) : Nat := (max 0 (min 3 n.toInt)).toNat

/-- A grid LED level, held between 0 and 15. -/
def level (n : Int16) : Nat := (max 0 (min 15 n.toInt)).toNat

def ofBool (b : Bool) : Int16 := if b then 1 else 0

/-- The operand `n`, zero when missing. -/
def arg (a : List Int16) (n : Nat) : Int16 := a.getD n 0

/-- The `TIME` clock: running, the ticks since its base, cut to sixteen bits; paused, the
value it was paused at. -/
def time (s : Scene) (now : UInt32) : Int16 :=
  if s.timeAct then Int16.ofInt (now - s.timeBase).toNat else s.timeFrozen

/-- A value sign-extended to a 32-bit word. -/
def wordOf (v : Int16) : UInt32 := UInt32.ofInt v.toInt

open Act

/-- Writes a CV channel and sends the value with its offset, both held to full scale. -/
def writeCv (ch : Nat) (v : Int16) (slew : Bool) : Act Unit := do
  let v := max 0 (min Value.cvMax v)
  modifyScene fun s => { s with outputs := { s.outputs with cv := s.outputs.cv.set ch v } }
  let s ← scene
  let out := max 0 (min 16383 (v.toInt + (s.outputs.cvOff.getD ch 0).toInt))
  emit (.cv ch (Int16.ofInt out) slew)

/-- Stops every delay and stacked command and clears pulses. -/
def kill : Act Unit := do
  modifyScene fun s => { s with delays := s.delays.cancelAll, stack := s.stack.clear }
  for ch in List.range Scene.outputCount do
    emit (.trPulseClear ch)
  emit .kill

/-- Captures the current raw reading as one calibration bound and reports it. -/
def calibrate (o : Operator) : Act Int16 := do
  let which : Special := match o with
    | .inCalMin | .inCalMax => .input
    | _ => .param
  let raw := min ((← get).io.adc which) Calibration.fullScale
  modifyScene fun s =>
    let c := s.calibration
    { s with calibration := match o with
      | .inCalMin => { c with inMin := raw.toUInt16 }
      | .inCalMax => { c with inMax := raw.toUInt16 }
      | .paramCalMin => { c with paramMin := raw.toUInt16 }
      | _ => { c with paramMax := raw.toUInt16 } }
  emit (.saveCalibration (← scene).calibration)
  return Int16.ofNat raw

/-- A pattern operation's getter form on pattern `n`, with its own operands. -/
def patternRead (n : Nat) (p : PatternOp) (a : List Int16) : Act Int16 := do
  let s ← scene
  let pat := s.pattern n
  let update (q : Pattern) : Act Unit := modifyScene fun s => s.modifyPattern n fun _ => q
  match p with
  | .value => return pat.getAt (arg a 0)
  | .len => return Int16.ofNat pat.len
  | .wrap => return ofBool pat.wrap
  | .start => return Int16.ofNat pat.start
  | .finish => return Int16.ofNat pat.finish
  | .index => return Int16.ofNat pat.index
  | .here => return pat.get
  | .next => let (v, q) := pat.step 1; update q; return v
  | .prev => let (v, q) := pat.step (-1); update q; return v
  | .step => let (v, q) := pat.step (arg a 0); update q; return v
  | .ins => update (pat.insert (arg a 0) (arg a 1)); return 0
  | .rm => let (v, q) := pat.remove (arg a 0); update q; return v
  | .push => update (pat.push (arg a 0)); return 0
  | .pop => let (v, q) := pat.pop; update q; return v
  | .min => return Int16.ofNat pat.minIndex
  | .max => return Int16.ofNat pat.maxIndex
  | .rnd =>
    if pat.start ≥ pat.finish then return pat.get
    else
      let (k, g) := s.rng.indexBelow pat.start pat.finish
      modifyScene fun s => { s with rng := g }
      return pat.valueAt k

/-- A pattern operation's setter form on pattern `n`. -/
def patternWrite (n : Nat) (p : PatternOp) (a : List Int16) (v : Int16) : Act Unit :=
  modifyScene fun s => s.modifyPattern n fun pat =>
    match p with
    | .value => pat.setAt (arg a 0) v
    | .len => pat.setLen v
    | .wrap => pat.setWrap (v != 0)
    | .start => (pat.setStart v).2
    | .finish => (pat.setFinish v).2
    | .index => pat.setIndex v
    | .here => pat.set v
    | _ => pat

/-- The getter form of an operator that touches the scene, over evaluated operands. -/
def read (f : Frame) (o : Operator) (a : List Int16) : Act Int16 := do
  let s ← scene
  let x := arg a
  let outs := s.outputs
  match o with
  | .rand => drawBetween (min (x 0) 0) (max (x 0) 0)
  | .rrand => drawBetween (min (x 0) (x 1)) (max (x 0) (x 1))
  | .toss => drawBetween 0 1
  | .seed => return s.seed
  | .cv => return ((channel (x 0) 4).map (outs.cv.getD · 0)).getD 0
  | .cvSlew => return ((channel (x 0) 4).map (outs.cvSlew.getD · 0)).getD 0
  | .cvOff => return ((channel (x 0) 4).map (outs.cvOff.getD · 0)).getD 0
  | .cvSet =>
    if let some ch := channel (x 0) 4 then writeCv ch (x 1) false
    return 0
  | .tr => return ((channel (x 0) 4).map fun ch => ofBool (outs.tr.getD ch false)).getD 0
  | .trPol => return ((channel (x 0) 4).map fun ch => ofBool (outs.trPol.getD ch false)).getD 0
  | .trTime => return ((channel (x 0) 4).map (outs.trTime.getD · 0)).getD 0
  | .trTog =>
    if let some ch := channel (x 0) 4 then
      let high := !outs.tr.getD ch false
      modifyScene fun s => { s with outputs := { s.outputs with tr := s.outputs.tr.set ch high } }
      emit (.tr ch high)
    return 0
  | .trPulse =>
    if let some ch := channel (x 0) 4 then
      let high := outs.trPol.getD ch false
      modifyScene fun s => { s with outputs := { s.outputs with tr := s.outputs.tr.set ch high } }
      emit (.tr ch high)
      emit (.trPulse ch (outs.trTime.getD ch 0))
    return 0
  | .metro => return s.metro
  | .metroAct => return ofBool s.metroAct
  | .metroReset => emit .metroReset; return 0
  | .time => return time s (← ticks)
  | .timeAct => return ofBool s.timeAct
  | .last =>
    match channel (x 0) Scene.scriptCount with
    | some n =>
      let elapsed := ((← ticks) - s.lastRun.getD n 0).toNat
      return Int16.ofNat (min elapsed 32767)
    | none => return 0
  | .scene => return Int16.ofNat s.slot
  | .script => return if f.script < Scene.scriptCount then Int16.ofNat (f.script + 1) else 0
  | .scriptPol => return ((channel (x 0) 8).map fun n => Int16.ofNat (s.polarity.getD n 0)).getD 0
  | .mute => return ((channel (x 0) 8).map fun n => ofBool (s.mutes.getD n false)).getD 0
  | .state =>
    let io := (← get).io
    return ((channel (x 0) 8).map fun n => ofBool (io.inputState n)).getD 0
  | .kill => kill; return 0
  | .initPattern =>
    if let some n := position (x 0) Scene.patternCount then
      modifyScene fun s => { s with patterns := s.patterns.set n Pattern.empty }
    return 0
  | .initPatterns =>
    modifyScene fun s => { s with patterns := List.replicate Scene.patternCount Pattern.empty }
    return 0
  | .initData =>
    modifyScene fun s => { s with globals := List.replicate Scene.varCount 0,
                                  patterns := List.replicate Scene.patternCount Pattern.empty }
    emit .varsUpdated
    return 0
  | .delayClear => modifyScene (fun s => { s with delays := s.delays.cancelAll }); return 0
  | .stackClear => modifyScene (fun s => { s with stack := s.stack.clear }); return 0
  | .stackLen => return Int16.ofNat s.stack.size
  | .patternBank => return Int16.ofNat s.bank
  | .pattern p => patternRead s.bank p a
  | .patternAt p => patternRead (bank (x 0)) p (a.drop 1)
  | .turtle => return Int16.ofNat (s.gridLed s.turtle.x s.turtle.y)
  | .turtleX => return Int16.ofNat s.turtle.x
  | .turtleY => return Int16.ofNat s.turtle.y
  | .turtleDir => return Int16.ofNat s.turtle.heading
  | .turtleStep => modifyScene (fun s => { s with turtle := s.turtle.forward 1 }); return 0
  | .turtleFwd => modifyScene (fun s => { s with turtle := s.turtle.forward (x 0) }); return 0
  | .turtleBump => modifyScene (fun s => { s with turtle := s.turtle.bump (x 0) }); return 0
  | .turtleMove => modifyScene (fun s => { s with turtle := s.turtle.moveBy (x 0) (x 1) }); return 0
  | .turtleTurn => modifyScene (fun s => { s with turtle := s.turtle.turn (x 0) }); return 0
  | .turtleQTurn => modifyScene (fun s => { s with turtle := s.turtle.quarterTurn (x 0) }); return 0
  | .turtleHome => modifyScene (fun s => { s with turtle := Turtle.home }); return 0
  | .gridLed =>
    match position (x 0) Scene.gridSize, position (x 1) Scene.gridSize with
    | some gx, some gy => return Int16.ofNat (s.gridLed gx gy)
    | _, _ => return 0
  | .gridClear =>
    modifyScene fun s => { s with grid := List.replicate Scene.gridSize (List.replicate Scene.gridSize 0) }
    emit .gridUpdated
    return 0
  | .gridKey =>
    match position (x 0) Scene.gridSize, position (x 1) Scene.gridSize with
    | some gx, some gy => return ofBool (s.gridKey gx gy)
    | _, _ => return 0
  | .iiTx =>
    let w := (x 2).toUInt16
    emit (.iiTx (max 0 (min 127 (x 0).toInt)).toNat.toUInt8
      [(x 1).toUInt16.toUInt8, (w >>> 8).toUInt8, w.toUInt8])
    return 0
  | .iiRx =>
    let addr := (max 0 (min 127 (x 0).toInt)).toNat.toUInt8
    emit (.iiTx addr [(x 1).toUInt16.toUInt8])
    emit (.iiRx addr)
    let reply := (← get).io.reply
    return Int16.ofNat ((reply.getD 0 0).toNat * 256 + (reply.getD 1 0).toNat)
  | .inCalMin | .inCalMax | .paramCalMin | .paramCalMax => calibrate o
  | .inCalReset =>
    modifyScene fun s => { s with calibration := { s.calibration with inMin := 0, inMax := 16383 } }
    emit (.saveCalibration (← scene).calibration)
    return 0
  | .paramCalReset =>
    modifyScene fun s => { s with calibration := { s.calibration with paramMin := 0, paramMax := 16383 } }
    emit (.saveCalibration (← scene).calibration)
    return 0
  | .midiBind =>
    return ((channel (x 0) Midi.kinds).map fun k => Int16.ofInt (s.midi.bindings.getD k (-1) + 1)).getD 0
  | .midiLastEvent => return s.midi.lastEvent
  | .midiLastChannel => return s.midi.lastChannel
  | .midiLastNote => return s.midi.lastNote
  | .midiLastVelocity => return s.midi.lastVelocity
  | .midiLastController => return s.midi.lastController
  | .midiLastCc => return s.midi.lastCc
  | .midiNoteCount => return Int16.ofNat s.midi.notesOn.length
  | .midiNote => return ((position (x 0) s.midi.notesOn.length).map fun n => (s.midi.notesOn.getD n default).2.1).getD 0
  | .midiVelocity => return ((position (x 0) s.midi.notesOn.length).map fun n => (s.midi.notesOn.getD n default).2.2).getD 0
  | .midiNoteChannel => return ((position (x 0) s.midi.notesOn.length).map fun n => (s.midi.notesOn.getD n default).1).getD 0
  | .midiOffCount => return Int16.ofNat s.midi.notesOff.length
  | .midiOff => return ((position (x 0) s.midi.notesOff.length).map fun n => (s.midi.notesOff.getD n default).2).getD 0
  | .midiOffChannel => return ((position (x 0) s.midi.notesOff.length).map fun n => (s.midi.notesOff.getD n default).1).getD 0
  | .midiCcCount => return Int16.ofNat s.midi.controls.length
  | .midiCcNumber => return ((position (x 0) s.midi.controls.length).map fun n => (s.midi.controls.getD n default).2.1).getD 0
  | .midiCcValue => return ((position (x 0) s.midi.controls.length).map fun n => (s.midi.controls.getD n default).2.2).getD 0
  | .midiCcChannel => return ((position (x 0) s.midi.controls.length).map fun n => (s.midi.controls.getD n default).1).getD 0
  | .midiClockDiv => return Int16.ofNat s.midi.clockDiv
  | .midiClockReset => modifyScene (fun s => { s with midi := s.midi.resetClock }); return 0
  | .deviceFlip =>
    modifyScene fun s => { s with flip := !s.flip }
    emit .deviceFlip
    return 0
  | _ => return o.evalPure a

/-- The setter form of an operator that touches the scene, over evaluated operands and
the value written. -/
def write (o : Operator) (a : List Int16) (v : Int16) : Act Unit := do
  let x := arg a
  match o with
  | .seed => modifyScene fun s => { s with seed := v, rng := Generator.ofSeed (UInt64.ofInt v.toInt) }
  | .cv => if let some ch := channel (x 0) 4 then writeCv ch v true
  | .cvSlew =>
    if let some ch := channel (x 0) 4 then
      let ms := max v 1
      modifyScene fun s => { s with outputs := { s.outputs with cvSlew := s.outputs.cvSlew.set ch ms } }
      emit (.cvSlew ch ms)
  | .cvOff =>
    if let some ch := channel (x 0) 4 then
      modifyScene fun s => { s with outputs := { s.outputs with cvOff := s.outputs.cvOff.set ch v } }
      emit (.cvOff ch v)
  | .tr =>
    if let some ch := channel (x 0) 4 then
      modifyScene fun s => { s with outputs := { s.outputs with tr := s.outputs.tr.set ch (v != 0) } }
      emit (.tr ch (v != 0))
  | .trPol =>
    if let some ch := channel (x 0) 4 then
      modifyScene fun s => { s with outputs := { s.outputs with trPol := s.outputs.trPol.set ch (v != 0) } }
  | .trTime =>
    if let some ch := channel (x 0) 4 then
      let ms := max v 1
      modifyScene fun s => { s with outputs := { s.outputs with trTime := s.outputs.trTime.set ch ms } }
      emit (.trPulseTime ch ms)
  | .metro =>
    modifyScene fun s => { s with metro := max v Scene.metroMin }
    let s ← scene
    emit (.metro s.metro s.metroAct)
  | .metroAct =>
    modifyScene fun s => { s with metroAct := v != 0 }
    let s ← scene
    emit (.metro s.metro s.metroAct)
  | .time =>
    let now ← ticks
    modifyScene fun s => { s with timeBase := now - wordOf v, timeFrozen := v }
  | .timeAct =>
    let now ← ticks
    let s ← scene
    let current := time s now
    if v != 0 then modifyScene fun s => { s with timeAct := true, timeBase := now - wordOf current }
    else modifyScene fun s => { s with timeAct := false, timeFrozen := current }
  | .scene =>
    let s ← scene
    if !s.initializing then
      if let some slot := position v Scene.sceneSlots then emit (.loadScene slot)
  | .scriptPol =>
    if let some n := channel (x 0) 8 then
      modifyScene fun s => { s with polarity := s.polarity.set n (max 0 (min 3 v.toInt)).toNat }
  | .mute =>
    if let some n := channel (x 0) 8 then
      modifyScene fun s => { s with mutes := s.mutes.set n (v != 0) }
      emit .mutesUpdated
  | .patternBank => modifyScene fun s => { s with bank := bank v }
  | .pattern p => do patternWrite (← scene).bank p a v
  | .patternAt p => patternWrite (bank (x 0)) p (a.drop 1) v
  | .turtle =>
    modifyScene fun s => s.setGridLed s.turtle.x s.turtle.y (level v)
    emit .gridUpdated
  | .turtleX => modifyScene fun s => { s with turtle := s.turtle.setX v }
  | .turtleY => modifyScene fun s => { s with turtle := s.turtle.setY v }
  | .turtleDir => modifyScene fun s => { s with turtle := s.turtle.setHeading v }
  | .gridLed =>
    match position (x 0) Scene.gridSize, position (x 1) Scene.gridSize with
    | some gx, some gy =>
      modifyScene fun s => s.setGridLed gx gy (level v)
      emit .gridUpdated
    | _, _ => pure ()
  | .midiBind =>
    if let some k := channel (x 0) Midi.kinds then
      let b : Int := match channel v Scene.scriptCount with
        | some s => s
        | none => -1
      modifyScene fun s => { s with midi := { s.midi with bindings := s.midi.bindings.set k b } }
  | .midiClockDiv => modifyScene fun s => { s with midi := s.midi.setClockDiv v }
  | _ => pure ()

end Operators

end TriggerScript
