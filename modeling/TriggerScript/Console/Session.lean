import TriggerScript.Machine.Entry
import TriggerScript.Storage
import TriggerScript.Console.Options
import TriggerScript.Console.Completion
/-!
A console session: a scene driven by a simulated millisecond clock, whose hardware
requests are recorded and printed instead of reaching hardware.

* `Session.start` loads the scene named on the command line (or a new one), seeds it,
  takes the panel orientation from the device record and runs INIT.
* `Session.enter` takes one typed line. A line starting with `:` is a console command;
  any other line runs live and prints its value. An error prints in bold.
* After each line the requests recorded so far are printed, one per line, and the
  console plays the hardware for some of them: it times trigger pulses and the
  metronome, loads the scene a script asks for, and saves the device record when the
  panel flips.
* `:tick MS` moves the clock forward in steps of at most ten milliseconds; at each step
  the pulses that ended, then a due metronome tick, then the clock tick reach the scene.

Scenes that start without a seed of their own draw their randomness from `entropy`.
-/

set_option autoImplicit false
set_option relaxedAutoImplicit false

namespace TriggerScript

namespace Console

def commandHelp : List String :=
  [ ":edit S N TEXT   replace line N of script S (1-8, M, I)",
    ":ins S N TEXT    insert before line N",
    ":del S N         delete line N",
    ":list [S]        show scripts",
    ":trig N          pulse trigger input N",
    ":run S           run script S",
    ":note N V        send a MIDI note and flush the batch",
    ":tick MS         advance the clock",
    ":clock           run in real time until Ctrl-C",
    ":save N          save to slot N",
    ":load N          load slot N and run I",
    ":flip            flip the panel",
    "anything else runs as a live line" ]

def bold (s : String) : String := "\x1b[1m" ++ s ++ "\x1b[0m"

def showValue (v : Int16) : String := toString v.toInt

/-- The display name of a script: `1` to `8`, `M` and `I`. -/
def scriptName (n : Nat) : String :=
  if n = Scene.metroScript then "M"
  else if n = Scene.initScript then "I"
  else toString (n + 1)

/-- A flag as `0` or `1`. -/
def digitOf (b : Bool) : String := if b then "1" else "0"

/-- The way the console prints a request: a few in the words of the scripts, the rest
by their name and fields. -/
def describe : Event → String
  | .cv ch v _ => "CV " ++ toString (ch + 1) ++ " " ++ showValue v
  | .tr ch high => "TR " ++ toString (ch + 1) ++ " " ++ digitOf high
  | .trPulse ch ms => "TR.PULSE " ++ toString (ch + 1) ++ " " ++ showValue ms
  | .metro ms active => "M " ++ showValue ms ++ " " ++ digitOf active
  | .loadScene slot => "SCENE " ++ toString slot
  | .cvSlew ch ms => "CvSlew(" ++ toString ch ++ ", " ++ showValue ms ++ ")"
  | .cvOff ch o => "CvOff(" ++ toString ch ++ ", " ++ showValue o ++ ")"
  | .trPulseClear ch => "TrPulseClear(" ++ toString ch ++ ")"
  | .trPulseTime ch ms => "TrPulseTime(" ++ toString ch ++ ", " ++ showValue ms ++ ")"
  | .iiTx addr bytes =>
    "IiTx(" ++ toString addr.toNat ++ ", [" ++ ", ".intercalate (bytes.map (toString ·.toNat)) ++
      "])"
  | .iiRx addr => "IiRx(" ++ toString addr.toNat ++ ")"
  | .metroReset => "MetroReset"
  | .mutesUpdated => "MutesUpdated"
  | .varsUpdated => "VarsUpdated"
  | .kill => "Kill"
  | .saveCalibration c =>
    "SaveCalibration(Calibration \x7b in_min: " ++ toString c.inMin ++ ", in_max: " ++
      toString c.inMax ++ ", param_min: " ++ toString c.paramMin ++ ", param_max: " ++
      toString c.paramMax ++ " \x7d)"
  | .deviceFlip => "DeviceFlip"
  | .gridUpdated => "GridUpdated"

/-- The number of trigger outputs whose pulses the console times. -/
def pulseOutputs : Nat := 4

/-- The longest step of the simulated clock, in milliseconds. -/
def clockStep : Nat := 10

def lastSlot : Nat := Scene.sceneSlots - 1

/-- A number a command takes, between `lo` and `hi`. -/
def number (s : String) (lo hi : Nat) : Except Error Nat :=
  match Text.readUnsigned Text.wordBound s with
  | .ok n => if lo ≤ n ∧ n ≤ hi then .ok n else outOfRange
  | .error _ => outOfRange
where
  outOfRange : Except Error Nat :=
    .error (.detailed .needParams ("EXPECTED " ++ toString lo ++ ".." ++ toString hi))

/-- Splits a command at single spaces into at most `n` words, the last taking the rest. -/
def splitWords : Nat → List Char → List String
  | 0, _ => []
  | 1, cs => [String.ofList cs]
  | n + 2, cs =>
    match cs.findIdx? (· == ' ') with
    | some k => String.ofList (cs.take k) :: splitWords (n + 1) (cs.drop (k + 1))
    | none => [String.ofList cs]

/-- A scene with its recorded requests, storage, and the console's clock state. -/
structure Session where
  scene : Scene
  readings : Readings
  /-- Requests recorded and not yet printed. -/
  pending : Array Event
  storage : Storage
  /-- When the metronome next ticks. -/
  nextMetro : UInt32
  /-- When the pulse of each trigger output ends. -/
  pulses : List (Option UInt32)
  /-- The seed of the next scene that comes without one. -/
  entropy : UInt64

namespace Session

def now (s : Session) : UInt32 := s.readings.now

def act {α : Type} (s : Session) (a : Act α) : α × Session :=
  let (r, m) := a.run ⟨s.scene, { readings := s.readings, recording := true, events := s.pending }⟩
  (r, { s with scene := m.scene, pending := m.io.events })

def send (s : Session) (i : Input) : Session := (s.act (Machine.dispatch i)).2

/-- Gives a scene fresh randomness without changing its seed value. -/
def refresh (s : Session) (scene : Scene) : Scene × Session :=
  ({ scene with rng := Generator.ofSeed s.entropy }, { s with entropy := s.entropy + 1 })

/-- Ends the pulse of output `ch` if it is due. -/
def endPulse (now : UInt32) (s : Session) (ch : Nat) : Session :=
  match s.pulses.getD ch none with
  | some stop =>
    if Tick.notAfter stop now then { s with pulses := s.pulses.set ch none }.send (.pulseEnd ch)
    else s
  | none => s

/-- Moves the clock to `now` and delivers what came due: pulse ends, the metronome, then
the clock tick. -/
def advance (s : Session) (now : UInt32) : Session :=
  let s := { s with readings := { s.readings with now } }
  let s := (List.range pulseOutputs).foldl (endPulse now) s
  let s :=
    if s.scene.metroAct && Tick.notAfter s.nextMetro now then
      { s with nextMetro := now + Operators.wordOf s.scene.metro }.send .metro
    else s
  s.send (.tick now)

/-- Moves the clock forward by `ms`, in steps of at most `clockStep`. -/
def runClock (s : Session) : Nat → Session
  | 0 => s
  | ms + 1 =>
    let step := min (ms + 1) clockStep
    (s.advance (s.now + step.toUInt32)).runClock (ms + 1 - step)
termination_by ms => ms
decreasing_by simp only [clockStep]; omega

/-- Loads a scene slot in place of the scene, keeping the panel orientation, and runs
INIT. -/
def load (s : Session) (slot : Nat) : Except Error Session := do
  let loaded ← s.storage.loadScene slot
  let (loaded, s) := s.refresh { loaded with flip := s.scene.flip }
  let s := { s with scene := loaded, pulses := List.replicate pulseOutputs none }
  return (s.act Machine.init).2

/-- Plays the hardware for one request and prints it, after any error it caused. -/
def respond (s : Session) (e : Event) : Session × List String :=
  let (s, errors) : Session × List String := match e with
    | .trPulse ch ms =>
      ({ s with pulses := s.pulses.set ch (some (s.now + Operators.wordOf ms)) }, [])
    | .trPulseClear ch => ({ s with pulses := s.pulses.set ch none }, [])
    | .metro ms _ => ({ s with nextMetro := s.now + Operators.wordOf ms }, [])
    | .metroReset => ({ s with nextMetro := s.now }, [])
    | .loadScene slot =>
      match s.load slot with
      | .ok s => (s, [])
      | .error err => (s, [bold err.render])
    | .deviceFlip =>
      match s.storage.saveDevice s.scene.flip with
      | .ok st => ({ s with storage := st }, [])
      | .error err => (s, [bold err.render])
    | _ => (s, [])
  (s, errors ++ [describe e])

/-- Prints the requests recorded so far, playing the hardware for them. Requests made
while doing so wait for the next report. -/
def report (s : Session) : Session × List String :=
  s.pending.toList.foldl
    (fun (s, out) e => let (s, lines) := s.respond e; (s, out ++ lines))
    ({ s with pending := #[] }, [])

/-- The listing of one script: its name, then each line with its number and any error. -/
def listing (s : Session) (n : Nat) : List String :=
  let lines := match s.scene.script? n with
    | .ok sc => sc.lines
    | .error _ => []
  ("#" ++ scriptName n) :: lines.zipIdx.map fun (l, i) =>
    match l.error with
    | some e => toString (i + 1) ++ " " ++ l.text ++ "  " ++ bold e.render
    | none => toString (i + 1) ++ " " ++ l.text

/-- Edits or inserts a line; a line that does not compile is kept and its error shown. -/
def place (s : Session) (words : List String) (insert : Bool) :
    Session × Except Error (List String) :=
  let arg (n : Nat) := words.getD n ""
  match (do
      let script ← scriptNumber (arg 1)
      let n ← lineNumber (arg 2)
      s.scene.placeLine script n (arg 3) insert) with
  | .ok (scene, none) => ({ s with scene }, .ok [])
  | .ok (scene, some e) => ({ s with scene }, .error e)
  | .error e => (s, .error e)

/-- Runs a console command, the `:` left out. -/
def command (s : Session) (text : String) : Session × Except Error (List String) :=
  let words := splitWords 4 text.toList
  let arg (n : Nat) := words.getD n ""
  let fail (e : Error) : Session × Except Error (List String) := (s, .error e)
  match Text.lowerAscii (arg 0) with
  | "edit" => s.place words false
  | "ins" => s.place words true
  | "del" =>
    match (do s.scene.deleteLine (← scriptNumber (arg 1)) (← lineNumber (arg 2))) with
    | .ok scene => ({ s with scene }, .ok [])
    | .error e => fail e
  | "list" =>
    if (arg 1).isEmpty then (s, .ok ((List.range Scene.scriptCount).flatMap s.listing))
    else
      match scriptNumber (arg 1) with
      | .ok n => (s, .ok (s.listing n))
      | .error e => fail e
  | "trig" =>
    match number (arg 1) 1 Scene.triggerCount with
    | .ok n => ((s.send (.trigger (n - 1) true)).send (.trigger (n - 1) false), .ok [])
    | .error e => fail e
  | "run" =>
    match scriptNumber (arg 1) with
    | .ok n =>
      match s.act (Machine.run n) with
      | (.value (some v), s) => (s, .ok [showValue v])
      | (.value none, s) => (s, .ok [])
      | (.depthExceeded, s) => (s, .error (.bare .recursionLimit))
    | .error e => fail e
  | "note" =>
    match number (arg 1) 0 127, number (arg 2) 0 127 with
    | .ok note, .ok velocity =>
      let s := s.send (.midi (.noteOn 0 note.toUInt8 velocity.toUInt8))
      (s.send .midiFlush, .ok [])
    | .error e, _ => fail e
    | _, .error e => fail e
  | "tick" =>
    match number (arg 1) 0 65535 with
    | .ok ms =>
      let s := s.runClock ms
      (s, .ok ["TIME " ++ toString s.now])
    | .error e => fail e
  | "save" =>
    match (do
        let slot ← number (arg 1) 0 lastSlot
        let st ← s.storage.saveScene slot s.scene
        pure (slot, st)) with
    | .ok (slot, st) => ({ s with storage := st, scene := { s.scene with slot } }, .ok [])
    | .error e => fail e
  | "load" =>
    match number (arg 1) 0 lastSlot >>= s.load with
    | .ok s => (s, .ok [])
    | .error e => fail e
  | "flip" =>
    match s.act (Machine.execute "DEVICE.FLIP") with
    | (.ok _, s) => (s, .ok [])
    | (.error e, s) => (s, .error e)
  | "help" => (s, .ok commandHelp)
  | _ => fail (.detailed .unknownOperator "TRY :HELP")

/-- Runs a line live and prints its value, if it has one. -/
def live (s : Session) (line : String) : Session × Except Error (List String) :=
  match s.act (Machine.execute line) with
  | (.ok (some v), s) => (s, .ok [showValue v])
  | (.ok none, s) => (s, .ok [])
  | (.error e, s) => (s, .error e)

def clockCommand : String := ":clock"

/-- Whether typed keys ask for the real-time clock, which runs until it is interrupted. -/
def asksForClock (s : Session) (keys : String) : Bool :=
  Text.trim (typeLine s.scene keys) == clockCommand

/-- One step of the real-time clock: moves it to `now` and prints the requests made. -/
def clockTo (s : Session) (now : UInt32) : Session × List String := (s.advance now).report

/-- Takes one typed line: completes it, runs it, and prints its answer and the requests
it made. A blank line does nothing. The real-time clock, which runs until interrupted, is
the caller's to run with `clockTo`; here it is interrupted at once. -/
def enter (s : Session) (keys : String) : Session × List String :=
  let line := Text.trim (typeLine s.scene keys)
  if line.isEmpty then (s, [])
  else if line == clockCommand then s.report
  else
    let (s, result) := match line.toList with
      | ':' :: rest => s.command (String.ofList rest)
      | _ => s.live line
    let shown := match result with
      | .ok lines => lines
      | .error e => [bold e.render]
    let (s, reported) := s.report
    (s, shown ++ reported)

/-- Starts a session: loads the scene, seeds it, sets the panel orientation from the
device record and runs INIT. -/
def start (o : Options) (storage : Storage) (entropy : UInt64) : Session × List String :=
  let scene := match o.scene with
    | some n => storage.loadSceneOrNew n
    | none => Scene.withSeed 0
  let s : Session :=
    { scene, readings := {}, pending := #[], storage, nextMetro := 0,
      pulses := List.replicate pulseOutputs none, entropy }
  let (scene, s) := s.refresh scene
  let scene := match o.seed with
    | some v => scene.reseed v.toUInt64
    | none => scene
  let s := { s with scene := { scene with flip := storage.loadDeviceOrDefault } }
  let s := (s.act Machine.init).2
  { s with nextMetro := Operators.wordOf s.scene.metro }.report

end Session

end Console

end TriggerScript
