/-!
The ChaCha block function.

A block is sixteen 32-bit words computed from a 256-bit key, a 64-bit block counter and a
64-bit stream number: the state holds four constant words, the key, the counter and the
stream; `rounds / 2` double rounds of quarter rounds mix it, and the mixed state is added
to the starting state word by word. ChaCha with twelve rounds drives the random operators.
-/

set_option autoImplicit false
set_option relaxedAutoImplicit false

namespace TriggerScript.ChaCha

/-- The four constant words, "expand 32-byte k" in little-endian order. -/
def constants : List UInt32 := [0x61707865, 0x3320646e, 0x79622d32, 0x6b206574]

/-- Rotates a word left by `n` places, for `0 < n < 32`. -/
def rotl (x : UInt32) (n : UInt32) : UInt32 := (x <<< n) ||| (x >>> (32 - n))

/-- The quarter round on words `a`, `b`, `c`, `d` of the state. -/
def quarterRound (s : Array UInt32) (a b c d : Nat) : Array UInt32 :=
  let va := s.getD a 0
  let vb := s.getD b 0
  let vc := s.getD c 0
  let vd := s.getD d 0
  let va := va + vb
  let vd := rotl (vd ^^^ va) 16
  let vc := vc + vd
  let vb := rotl (vb ^^^ vc) 12
  let va := va + vb
  let vd := rotl (vd ^^^ va) 8
  let vc := vc + vd
  let vb := rotl (vb ^^^ vc) 7
  ((s.setIfInBounds a va).setIfInBounds b vb |>.setIfInBounds c vc).setIfInBounds d vd

/-- A column round followed by a diagonal round. -/
def doubleRound (s : Array UInt32) : Array UInt32 :=
  let s := quarterRound s 0 4 8 12
  let s := quarterRound s 1 5 9 13
  let s := quarterRound s 2 6 10 14
  let s := quarterRound s 3 7 11 15
  let s := quarterRound s 0 5 10 15
  let s := quarterRound s 1 6 11 12
  let s := quarterRound s 2 7 8 13
  quarterRound s 3 4 9 14

/-- `n` double rounds. -/
def doubleRounds : Nat → Array UInt32 → Array UInt32
  | 0, s => s
  | n + 1, s => doubleRounds n (doubleRound s)

/-- The starting state for a key of eight words, a block counter and a stream number. -/
def initial (key : List UInt32) (counter stream : UInt64) : Array UInt32 :=
  (constants ++ key ++
    [counter.toUInt32, (counter >>> 32).toUInt32, stream.toUInt32, (stream >>> 32).toUInt32]).toArray

def block (rounds : Nat) (key : List UInt32) (counter stream : UInt64) : List UInt32 :=
  let s := initial key counter stream
  let mixed := doubleRounds (rounds / 2) s
  (List.range 16).map fun n => mixed.getD n 0 + s.getD n 0

end TriggerScript.ChaCha
