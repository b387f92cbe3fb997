import TriggerScript.Checked.Parts
import TriggerScript.Record.Scene
/-!
Scene images, with the checks of their reader and writer.

The reader keeps the body of a record and the position of its next byte. Opening a record
takes the seal's four bytes off its length once they are there, splits the body from the seal
and reads the seal by index. The bytes left are the body's length less the position. A field
takes its bytes as the slice of the body from the position on, once enough are left, and reads
them by index; a text field splits its bytes where the zeros begin. Compiling a stored line
makes the checks of reading a line.

The writer counts the bytes it has written; a text field ends at its start plus its width, a
word of 64 bits.
-/

set_option autoImplicit false
set_option relaxedAutoImplicit false

namespace TriggerScript.Record

/-- Reading a record body with the checks of its reader: the body is at hand, the state is the
position of the next byte, and a read reports a corrupt record or stops the program. -/
abbrev CheckedReader := ReaderT (List UInt8) (StateT Nat (ExceptT Error Checked))

namespace CheckedReader

variable {α : Type}

/-- A checked read of `body` from position `pos`. -/
def runAt (rc : CheckedReader α) (body : List UInt8) (pos : Nat) :
    Checked (Except Error (α × Nat)) :=
  ((rc.run body).run pos).run

def remaining : CheckedReader Nat := do
  Checked.sizeSub (← read).length (← get)

/-- The next `n` bytes: the slice from the position to `n` past it, once `n` are left. -/
def take (n : Nat) : CheckedReader (List UInt8) := do
  if (← remaining) < n then throwThe Error (corrupt "TRUNCATED")
  let body ← read
  let pos ← get
  Checked.slice pos (pos + n) body.length
  set (pos + n)
  return (body.drop pos).take n

/-- An unsigned byte, the first of a one-byte slice. -/
def byte : CheckedReader Nat := do
  let b ← take 1
  Checked.index 0 b.length
  return (b.headD 0).toNat

def signedByte : CheckedReader Int := do
  let b ← byte
  return if b < 128 then b else (b : Int) - 256

/-- An unsigned 16-bit word, from the two bytes of its slice. -/
def word : CheckedReader Nat := do
  let bs ← take 2
  Checked.index 0 bs.length
  Checked.index 1 bs.length
  return (bs.getD 0 0).toNat + 256 * (bs.getD 1 0).toNat

/-- A signed 16-bit value. -/
def int16 : CheckedReader Int16 := do return Int16.ofNat (← word)

/-- A flag: 0 or 1. -/
def flag : CheckedReader Bool := do
  match ← byte with
  | 0 => return false
  | 1 => return true
  | _ => throwThe Error (corrupt "FLAG")

/-- A text field, split where its zeros begin. -/
def text (width : Nat) : CheckedReader String := do
  let field ← take width
  let chars := field.takeWhile (· != 0)
  Checked.slice 0 chars.length field.length
  let padding := field.drop chars.length
  if padding.any (· != 0) || chars.any (fun b => b < 32 || b > 126) then
    throwThe Error (corrupt "TEXT")
  return String.ofList (chars.map fun b => Char.ofNat b.toNat)

def finish : CheckedReader Unit := do
  if (← remaining) != 0 then throwThe Error (corrupt "LENGTH")

/-- Reads `n` items. -/
def many (n : Nat) (item : CheckedReader α) : CheckedReader (List α) :=
  (List.range n).mapM fun _ => item

/-- A script; each stored line is compiled with the checks of reading a line. -/
def script : CheckedReader Script := do
  let count ← byte
  if count > Script.maxLines then throwThe Error (corrupt "LINE COUNT")
  let mut lines : List Line := []
  for n in List.range Script.maxLines do
    let t ← text Line.maxLength
    if n < count then
      Line.ofTextChecks t
      lines := lines ++ [Line.ofText t]
    else if !t.isEmpty then throwThe Error (corrupt "LINE COUNT")
  return ⟨lines⟩

/-- A pattern, whose window, cursor and length must fit together. -/
def pattern : CheckedReader Pattern := do
  let values ← many Pattern.size int16
  let len ← word
  let start ← word
  let finish ← word
  let index ← word
  let wrap ← flag
  match Pattern.ofParts? values len start finish index wrap with
  | some p => return p
  | none => throwThe Error (corrupt "PATTERN")

/-- A polarity: at most 3. -/
def polarity : CheckedReader Nat := do
  let p ← byte
  if p > 3 then throwThe Error (corrupt "POLARITY")
  return p

/-- A MIDI binding: a script number or `-1`. -/
def binding : CheckedReader Int := do
  let b ← signedByte
  if b < -1 ∨ b ≥ Scene.scriptCount then throwThe Error (corrupt "MIDI BINDING")
  return b

/-- The fields of a scene image after its version, onto a fresh scene. -/
def sceneFields (version : Nat) : CheckedReader Scene := do
  let s := Scene.withSeed 0
  let scripts ← many Scene.scriptCount script
  let globals ← many Scene.varCount int16
  let patterns ← many Scene.patternCount pattern
  let c : Calibration :=
    ⟨(← word).toUInt16, (← word).toUInt16, (← word).toUInt16, (← word).toUInt16⟩
  if !c.isValid then throwThe Error (corrupt "CALIBRATION")
  let mutes ← many Scene.triggerCount flag
  let polarity ← many Scene.triggerCount polarity
  let s := { s with scripts, globals, patterns, calibration := c, mutes, polarity }
  if version ≥ 2 then
    let description ← many Scene.descriptionLines (text Scene.descriptionLength)
    let bindings ← many Midi.kinds binding
    let div ← byte
    if div < 1 ∨ div > Midi.clockDivMax then throwThe Error (corrupt "MIDI CLOCK")
    return { s with description, midi := { s.midi with bindings, clockDiv := div } }
  else return s

/-- A whole body: its version, its fields, and nothing after them. -/
def body : CheckedReader Scene := do
  let version ← word
  if version = 0 ∨ version > currentVersion then
    throwThe Error (.detailed .unknownVersion s!"VERSION {version}")
  let s ← sceneFields version
  finish
  return s

end CheckedReader

/-- Opening a record: its length less the seal's four bytes, once they are there, the split of
the body from the seal, and the seal's four bytes by index. -/
def openChecks (bytes : List UInt8) : Checked Unit :=
  if bytes.length < 4 then pure ()
  else do
    let mid ← Checked.sizeSub bytes.length 4
    Checked.slice 0 mid bytes.length
    (List.range 4).forM fun k => Checked.index k (bytes.drop mid).length

/-- Rebuilds a scene from its image with the checks of its reader. -/
def sceneOfImageChecked (bytes : List UInt8) : Checked (Except Error Scene) := do
  openChecks bytes
  match Reader.openSealed bytes with
  | .error e => return .error e
  | .ok body => return (← CheckedReader.body.runAt body 0).map Prod.fst

/-- Writing a record with the checks of its writer, which counts the bytes written. -/
abbrev CheckedWriter := StateT Nat Checked

namespace CheckedWriter

/-- Fixed-size fields of `n` bytes in all. -/
def bytes (n : Nat) : CheckedWriter Unit := modify (· + n)

/-- A text field of `width` bytes, ending at its start plus its width. -/
def text (width : Nat) : CheckedWriter Unit := do
  let stop ← Checked.u64 ((← get) + width)
  set stop.toNat

/-- The writes of a scene's image in a layout, and its seal. -/
def scene (s : Scene) (version : Nat) : CheckedWriter Unit := do
  bytes 2
  for _ in s.scripts do
    bytes 1
    for _ in List.range Script.maxLines do text Line.maxLength
  bytes (2 * s.globals.length)
  for _ in s.patterns do bytes (2 * Pattern.size + 9)
  bytes 8
  bytes s.mutes.length
  bytes s.polarity.length
  if version ≥ 2 then
    for _ in s.description do text Scene.descriptionLength
    bytes (s.midi.bindings.length + 1)
  bytes 4

end CheckedWriter

def sceneImageChecks (s : Scene) (version : Nat) : Checked Unit :=
  ((CheckedWriter.scene s version).run 0).map Prod.fst

end TriggerScript.Record
