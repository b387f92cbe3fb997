import TriggerScript.Random.Generator
/-!
Uniform draws from integer ranges.

A draw from a range of `r` values takes a random word `v` of the sampling width and
forms the product `v * r` at twice that width: the high half is the offset into the
range, and the draw is accepted when the low half lies in the acceptance zone, which
makes every offset equally likely. For sixteen-bit ranges the zone is the largest
multiple of `r` in 32 bits, minus one; for wider ones it is `r` shifted up to the top
bit, minus one. Rejected words are drawn again; a range that covers every sixteen-bit
value takes one word and keeps its low sixteen bits.

Rejection ends after `attempts` draws at most. Each draw is rejected with probability
below one half, so the bound is never reached in practice.
-/

set_option autoImplicit false
set_option relaxedAutoImplicit false

namespace TriggerScript.Generator

/-- The most draws one sample makes before it gives up. -/
def attempts : Nat := 256

/-- The number of 32-bit words. -/
def wordCount32 : Nat := 4294967296

/-- The number of 64-bit words. -/
def wordCount64 : Nat := 18446744073709551616

/-- The least 32-bit word with its sign bit set. -/
def signBit32 : Nat := 2147483648

/-- The number of leading zero bits of a nonzero word of `width` bits. -/
def leadingZeros (width r : Nat) : Nat := width - 1 - Nat.log2 r

/-- Draws 32-bit words until `v * range` has its low half at most `zone`, and returns the
high half. -/
def offset32 (range zone : Nat) : Nat → Generator → Nat × Generator
  | 0, g => (0, g)
  | fuel + 1, g =>
    let (v, g) := g.next32
    let product := v.toNat * range
    if product % wordCount32 ≤ zone then (product / wordCount32, g) else offset32 range zone fuel g

/-- Draws 64-bit words until `v * range` has its low half at most `zone`, and returns the
high half. -/
def offset64 (range zone : Nat) : Nat → Generator → Nat × Generator
  | 0, g => (0, g)
  | fuel + 1, g =>
    let (v, g) := g.next64
    let product := v.toNat * range
    if product % wordCount64 ≤ zone then (product / wordCount64, g) else offset64 range zone fuel g

/-- A value drawn uniformly from `lo..=hi`, sixteen-bit values with `lo ≤ hi`. -/
def int16Between (g : Generator) (lo hi : Int16) : Int16 × Generator :=
  let range := ((hi.toInt - lo.toInt + 1) % 65536).toNat
  if range = 0 then
    let (v, g) := g.next32
    (Int16.ofInt (v.toNat % 65536 : Nat), g)
  else
    let zone := (wordCount32 - 1) - (wordCount32 - range) % range
    let (k, g) := offset32 range zone attempts g
    (Int16.ofInt (lo.toInt + k), g)

/-- A value drawn uniformly from `lo..=hi`, thirty-two-bit values with `lo ≤ hi`. -/
def int32Between (g : Generator) (lo hi : Int) : Int × Generator :=
  let range := ((hi - lo + 1) % (wordCount32 : Int)).toNat
  if range = 0 then
    let (v, g) := g.next32
    (if v.toNat < signBit32 then v.toNat else (v.toNat : Int) - wordCount32, g)
  else
    let zone := (range <<< leadingZeros 32 range) % wordCount32 - 1
    let (k, g) := offset32 range zone attempts g
    (lo + k, g)

/-- A position drawn uniformly from `lo..hi`, for `lo < hi`. -/
def indexBelow (g : Generator) (lo hi : Nat) : Nat × Generator :=
  let range := hi - lo
  let zone := (range <<< leadingZeros 64 range) % wordCount64 - 1
  let (k, g) := offset64 range zone attempts g
  (lo + k, g)

end TriggerScript.Generator
