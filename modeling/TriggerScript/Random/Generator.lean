import TriggerScript.Random.ChaCha
/-!
The random generator behind the random operators: ChaCha with twelve rounds, read as a
stream of 32-bit words.

Words are produced four blocks (sixty-four words) at a time, and handed out in order. A
64-bit draw takes the next two words, low word first, and when only one word is left in
the buffer it takes that one as the low half and the first word of the next buffer as
the high half.

A generator is seeded from one 64-bit number: a permuted congruential generator expands
it into the eight key words, and the counter and stream start at zero.
-/

set_option autoImplicit false
set_option relaxedAutoImplicit false

namespace TriggerScript

/-- A ChaCha12 generator: its key, the counter of the next block, the current buffer of
words and the position of the next word to hand out. -/
structure Generator where
  key : List UInt32
  counter : UInt64
  buffer : Array UInt32
  index : Nat
  deriving Repr

namespace Generator

/-- Words per buffer: four blocks of sixteen. -/
def bufferSize : Nat := 64

/-- One step of the seed expansion: the state advances by a linear congruence and the
output is its permuted high bits. -/
def expandStep (state : UInt64) : UInt64 × UInt32 :=
  let state := state * 6364136223846793005 + 11634580027462260723
  let xorshifted := (((state >>> 18) ^^^ state) >>> 27).toUInt32
  let rot := (state >>> 59).toUInt32
  (state, (xorshifted >>> rot) ||| (xorshifted <<< ((32 - rot) % 32)))

/-- The eight key words that a 64-bit seed expands to. -/
def keyOfSeed (seed : UInt64) : List UInt32 :=
  ((List.range 8).foldl (fun (acc : UInt64 × List UInt32) _ =>
    let (state, w) := expandStep acc.1
    (state, acc.2 ++ [w])) (seed, [])).2

/-- A generator seeded from a 64-bit number, with an empty buffer. -/
def ofSeed (seed : UInt64) : Generator :=
  { key := keyOfSeed seed, counter := 0, buffer := #[], index := bufferSize }

instance : Inhabited Generator := ⟨ofSeed 0⟩

/-- Fills the buffer with the next four blocks. -/
def refill (g : Generator) : Generator :=
  let blocks := (List.range 4).flatMap fun k => ChaCha.block 12 g.key (g.counter + k.toUInt64) 0
  { g with buffer := blocks.toArray, counter := g.counter + 4, index := 0 }

/-- The next 32-bit word. -/
def next32 (g : Generator) : UInt32 × Generator :=
  let g := if g.index ≥ bufferSize then g.refill else g
  (g.buffer.getD g.index 0, { g with index := g.index + 1 })

/-- The next 64-bit word: two words, the low one first. -/
def next64 (g : Generator) : UInt64 × Generator :=
  let join (lo hi : UInt32) : UInt64 := (hi.toUInt64 <<< 32) ||| lo.toUInt64
  if g.index + 1 < bufferSize then
    (join (g.buffer.getD g.index 0) (g.buffer.getD (g.index + 1) 0), { g with index := g.index + 2 })
  else if g.index ≥ bufferSize then
    let g := g.refill
    (join (g.buffer.getD 0 0) (g.buffer.getD 1 0), { g with index := 2 })
  else
    let lo := g.buffer.getD (bufferSize - 1) 0
    let g := g.refill
    (join lo (g.buffer.getD 0 0), { g with index := 1 })

end Generator

end TriggerScript
