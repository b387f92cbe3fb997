/-!
The CRC-32 checksum of IEEE 802.3, which seals every stored record.

Bytes are processed least significant bit first against the reflected polynomial
`0xEDB88320`, from an all-ones register that is inverted at the end.
-/

set_option autoImplicit false
set_option relaxedAutoImplicit false

namespace TriggerScript.Crc32

/-- The reflected generator polynomial. -/
def polynomial : UInt32 := 0xEDB88320

def shiftBit (r : UInt32) : UInt32 :=
  if r &&& 1 = 1 then (r >>> 1) ^^^ polynomial else r >>> 1

def feed (r : UInt32) (b : UInt8) : UInt32 :=
  (List.range 8).foldl (fun r _ => shiftBit r) (r ^^^ b.toUInt32)

def checksum (bs : List UInt8) : UInt32 :=
  bs.foldl feed 0xFFFFFFFF ^^^ 0xFFFFFFFF

end TriggerScript.Crc32
