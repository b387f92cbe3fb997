import TriggerScript.Record.Bytes
/-!
The device record: settings of the unit rather than of a scene. It holds its version,
which is 1, and the flag for a panel mounted upside down.
-/

set_option autoImplicit false
set_option relaxedAutoImplicit false

namespace TriggerScript.Record

def deviceVersion : Nat := 1

def deviceImage (flip : Bool) : List UInt8 :=
  sealed [deviceVersion.toUInt8, if flip then 1 else 0]

def deviceOfImage (bytes : List UInt8) : Except Error Bool := do
  let body ← Reader.openSealed bytes
  let read : Reader Bool := do
    let version ← Reader.byte
    if version != deviceVersion then throw (.bare .unknownVersion)
    let flip ← Reader.flag
    Reader.finish
    return flip
  return (← read.run body).1

end TriggerScript.Record
