import TriggerScript.Record.Crc
import TriggerScript.Error
/-!
Fixed-layout records: little-endian fields written one after another and sealed with the
CRC-32 of everything before the seal.

Reading checks the seal first, then takes the fields back in the order they were
written. A record too short for its seal, or for the next field, is `TRUNCATED`; a seal
that does not match is `CHECKSUM`; a flag other than 0 or 1 is `FLAG`; text that is not
printable ASCII padded with zeros is `TEXT`; bytes left over at the end are `LENGTH`.
-/

set_option autoImplicit false
set_option relaxedAutoImplicit false

namespace TriggerScript.Record

/-- A corrupt record, with what is wrong with it. -/
def corrupt (what : String) : Error := .detailed .corrupt what

/-- The bytes of a 16-bit word, low byte first. -/
def word16 (n : Nat) : List UInt8 := [(n % 256).toUInt8, (n / 256 % 256).toUInt8]

/-- The bytes of a 32-bit word, low byte first. -/
def word32 (n : UInt32) : List UInt8 :=
  [n.toUInt8, (n >>> 8).toUInt8, (n >>> 16).toUInt8, (n >>> 24).toUInt8]

/-- The bytes of a signed 16-bit value. -/
def int16 (v : Int16) : List UInt8 := word16 v.toUInt16.toNat

/-- A text field of `width` bytes: the text's bytes, cut to the width, then zeros. -/
def text (s : String) (width : Nat) : List UInt8 :=
  let bs := (s.toUTF8.toList).take width
  bs ++ List.replicate (width - bs.length) 0

/-- A record sealed with the checksum of its body. -/
def sealed (body : List UInt8) : List UInt8 := body ++ word32 (Crc32.checksum body)

abbrev Reader := StateT (List UInt8) (Except Error)

namespace Reader

/-- The body of a sealed record, if the seal matches. -/
def openSealed (bytes : List UInt8) : Except Error (List UInt8) :=
  if bytes.length < 4 then .error (corrupt "TRUNCATED")
  else
    let body := bytes.take (bytes.length - 4)
    let tail := bytes.drop (bytes.length - 4)
    let stored := tail.foldr (fun b acc => acc * 256 + b.toNat) 0
    if (Crc32.checksum body).toNat != stored then .error (corrupt "CHECKSUM") else .ok body

/-- The next `n` bytes. -/
def take (n : Nat) : Reader (List UInt8) := do
  let rest ← get
  if rest.length < n then throw (corrupt "TRUNCATED")
  set (rest.drop n)
  return rest.take n

def byte : Reader Nat := do return ((← take 1).headD 0).toNat

def signedByte : Reader Int := do
  let b ← byte
  return if b < 128 then b else (b : Int) - 256

/-- An unsigned 16-bit word. -/
def word : Reader Nat := do
  let bs ← take 2
  return (bs.getD 0 0).toNat + 256 * (bs.getD 1 0).toNat

/-- A signed 16-bit value. -/
def int16 : Reader Int16 := do return Int16.ofNat (← word)

/-- A flag: 0 or 1. -/
def flag : Reader Bool := do
  match ← byte with
  | 0 => return false
  | 1 => return true
  | _ => throw (corrupt "FLAG")

/-- A text field of `width` bytes: printable ASCII, then only zeros. -/
def text (width : Nat) : Reader String := do
  let field ← take width
  let chars := field.takeWhile (· != 0)
  let padding := field.drop chars.length
  if padding.any (· != 0) || chars.any (fun b => b < 32 || b > 126) then throw (corrupt "TEXT")
  return String.ofList (chars.map fun b => Char.ofNat b.toNat)

def finish : Reader Unit := do
  if !(← get).isEmpty then throw (corrupt "LENGTH")

end Reader

end TriggerScript.Record
