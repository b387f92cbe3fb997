import TriggerScript.Record.Bytes
import TriggerScript.Machine.Scene
/-!
Scene images: the stored part of a scene as a fixed-size record.

An image starts with its layout version and holds, in order: each script's line count
and six text fields of 64 bytes, the 26 variables, each pattern's values, length, window,
cursor and wrap flag, the calibration, the mutes and the polarities. Layout 2 adds the 32
description lines of 32 bytes, the seven MIDI bindings and the clock divider. Layout 1
images are 4480 bytes long and layout 2 images 5512.

Reading an image recompiles every line from its text and checks each field as it comes:
the first field out of place names the error.
-/

set_option autoImplicit false
set_option relaxedAutoImplicit false

namespace TriggerScript.Record

def currentVersion : Nat := 2

/-- The body of an image in a layout, before its seal. -/
def sceneBody (s : Scene) (version : Nat) : List UInt8 :=
  let scripts := s.scripts.flatMap fun sc =>
    [sc.size.toUInt8] ++ (List.range Script.maxLines).flatMap fun n =>
      text ((sc.lines[n]?.map (·.text)).getD "") Line.maxLength
  let globals := s.globals.flatMap int16
  let patterns := s.patterns.flatMap fun p =>
    p.values.flatMap int16 ++ word16 p.len ++ word16 p.start ++ word16 p.finish ++
      word16 p.index ++ [if p.wrap then 1 else 0]
  let c := s.calibration
  let calibration :=
    word16 c.inMin.toNat ++ word16 c.inMax.toNat ++ word16 c.paramMin.toNat ++ word16 c.paramMax.toNat
  let mutes := s.mutes.map fun m => if m then (1 : UInt8) else 0
  let polarity := s.polarity.map Nat.toUInt8
  let extra :=
    if version ≥ 2 then
      s.description.flatMap (text · Scene.descriptionLength) ++
        s.midi.bindings.map (fun b => (b % 256).toNat.toUInt8) ++ [s.midi.clockDiv.toUInt8]
    else []
  word16 version ++ scripts ++ globals ++ patterns ++ calibration ++ mutes ++ polarity ++ extra

def sceneImage (s : Scene) : List UInt8 := sealed (sceneBody s currentVersion)

/-- The image of a scene in layout 1 or 2; fields a layout lacks are left out. -/
def sceneImageVersion (s : Scene) (version : Nat) : Except Error (List UInt8) :=
  if version = 1 ∨ version = 2 then .ok (sealed (sceneBody s version))
  else .error (.bare .unknownVersion)

namespace Reader

/-- Reads `n` items. -/
def many {α : Type} (n : Nat) (item : Reader α) : Reader (List α) :=
  (List.range n).mapM fun _ => item

/-- A script: its line count, at most six, and six text fields, of which those past the
count must be empty. -/
def script : Reader Script := do
  let count ← byte
  if count > Script.maxLines then throw (corrupt "LINE COUNT")
  let mut lines : List Line := []
  for n in List.range Script.maxLines do
    let t ← text Line.maxLength
    if n < count then lines := lines ++ [Line.ofText t]
    else if !t.isEmpty then throw (corrupt "LINE COUNT")
  return ⟨lines⟩

/-- A pattern, whose window, cursor and length must fit together. -/
def pattern : Reader Pattern := do
  let values ← many Pattern.size int16
  let len ← word
  let start ← word
  let finish ← word
  let index ← word
  let wrap ← flag
  match Pattern.ofParts? values len start finish index wrap with
  | some p => return p
  | none => throw (corrupt "PATTERN")

/-- A polarity: at most 3. -/
def polarity : Reader Nat := do
  let p ← byte
  if p > 3 then throw (corrupt "POLARITY")
  return p

/-- A MIDI binding: a script number or `-1`. -/
def binding : Reader Int := do
  let b ← signedByte
  if b < -1 ∨ b ≥ Scene.scriptCount then throw (corrupt "MIDI BINDING")
  return b

/-- The fields of a scene image after its version, onto a fresh scene. -/
def sceneFields (version : Nat) : Reader Scene := do
  let s := Scene.withSeed 0
  let scripts ← many Scene.scriptCount script
  let globals ← many Scene.varCount int16
  let patterns ← many Scene.patternCount pattern
  let c : Calibration :=
    ⟨(← word).toUInt16, (← word).toUInt16, (← word).toUInt16, (← word).toUInt16⟩
  if !c.isValid then throw (corrupt "CALIBRATION")
  let mutes ← many Scene.triggerCount flag
  let polarity ← many Scene.triggerCount Reader.polarity
  let s := { s with scripts, globals, patterns, calibration := c, mutes, polarity }
  if version ≥ 2 then
    let description ← many Scene.descriptionLines (text Scene.descriptionLength)
    let bindings ← many Midi.kinds binding
    let div ← byte
    if div < 1 ∨ div > Midi.clockDivMax then throw (corrupt "MIDI CLOCK")
    return { s with description, midi := { s.midi with bindings, clockDiv := div } }
  else return s

end Reader

def sceneOfImage (bytes : List UInt8) : Except Error Scene := do
  let body ← Reader.openSealed bytes
  let read : Reader Scene := do
    let version ← Reader.word
    if version = 0 ∨ version > currentVersion then
      throw (.detailed .unknownVersion s!"VERSION {version}")
    let s ← Reader.sceneFields version
    Reader.finish
    return s
  return (← read.run body).1

end TriggerScript.Record
