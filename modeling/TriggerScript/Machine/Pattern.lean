import TriggerScript.Value.Arithmetic
/-!
Patterns: sixty-four values with an active window, a cursor and a data length.

The window `start..finish` is where the cursor walks: stepping wraps around it or stops
at its ends. The cursor stays inside the window, or at `start` when the window is empty.
The data length `len` is separate from the window: pushing, popping, inserting and
removing treat the first `len` values as a list. A negative position counts back from
the data length; every position is held between 0 and 63.
-/

set_option autoImplicit false
set_option relaxedAutoImplicit false

namespace TriggerScript

/-- A pattern: its values, data length, window, cursor and whether stepping wraps. -/
structure Pattern where
  values : List Int16
  len : Nat
  start : Nat
  finish : Nat
  index : Nat
  wrap : Bool
  deriving DecidableEq, Repr

namespace Pattern

def size : Nat := 64

/-- All zeros, no data, the whole window, the cursor at zero, and wrapping on. -/
def empty : Pattern :=
  { values := List.replicate size 0, len := 0, start := 0, finish := size, index := 0,
    wrap := true }

instance : Inhabited Pattern := ⟨empty⟩

/-- Rebuilds a pattern from stored fields, or nothing if the window, cursor or length
are out of place. -/
def ofParts? (values : List Int16) (len start finish index : Nat) (wrap : Bool) :
    Option Pattern :=
  let inWindow := if start < finish then start ≤ index ∧ index < finish else index = start
  if len > size ∨ start > finish ∨ finish > size ∨ ¬inWindow then none
  else some { values, len, start, finish, index, wrap }

/-- The value at a slot, zero past the end. -/
def valueAt (p : Pattern) (n : Nat) : Int16 := p.values.getD n 0

def slot (p : Pattern) : Nat := min p.index (size - 1)

/-- The slot a position names: negative positions count back from the data length. -/
def position (p : Pattern) (i : Int16) : Nat :=
  let k : Int := if i < 0 then (p.len : Int) + i.toInt else i.toInt
  (max 0 (min (size - 1 : Int) k)).toNat

/-- Puts the cursor back inside the window. -/
def clampIndex (p : Pattern) : Pattern :=
  if p.start ≥ p.finish then { p with index := p.start }
  else { p with index := max p.start (min p.index (p.finish - 1)) }

def get (p : Pattern) : Int16 := p.valueAt p.slot

def set (p : Pattern) (v : Int16) : Pattern := { p with values := p.values.set p.slot v }

def getAt (p : Pattern) (i : Int16) : Int16 := p.valueAt (p.position i)

def setAt (p : Pattern) (i v : Int16) : Pattern :=
  { p with values := p.values.set (p.position i) v }

/-- Moves the cursor `n` places inside the window, wrapping or stopping at the ends. -/
def move (p : Pattern) (n : Int16) : Pattern :=
  if p.start < p.finish then
    let start : Int := p.start
    let finish : Int := p.finish
    let moved : Int := p.index + n.toInt
    let index := if p.wrap then (moved - start) % (finish - start) + start
      else max start (min (finish - 1) moved)
    { p with index := index.toNat }
  else p

def step (p : Pattern) (n : Int16) : Int16 × Pattern :=
  let q := p.move n
  (q.get, q)

/-- Puts the cursor at a position, then back inside the window. -/
def setIndex (p : Pattern) (i : Int16) : Pattern :=
  { p with index := p.position i }.clampIndex

/-- Moves the start of the window; refused when negative or past the end. -/
def setStart (p : Pattern) (s : Int16) : Bool × Pattern :=
  if s < 0 ∨ s.toInt.toNat > p.finish then (false, p)
  else (true, { p with start := s.toInt.toNat }.clampIndex)

/-- Moves the end of the window; refused when negative, before the start, or past the
last slot. -/
def setFinish (p : Pattern) (e : Int16) : Bool × Pattern :=
  if e < 0 ∨ e.toInt.toNat < p.start ∨ e.toInt.toNat > size then (false, p)
  else (true, { p with finish := e.toInt.toNat }.clampIndex)

/-- Sets the data length, held between 0 and 64. -/
def setLen (p : Pattern) (l : Int16) : Pattern :=
  { p with len := (max 0 (min (size : Int) l.toInt)).toNat }

/-- Turns wrapping on or off. -/
def setWrap (p : Pattern) (w : Bool) : Pattern := { p with wrap := w }

/-- Inserts a value at a position no later than the data length; later values move one
slot up and the last one falls off. -/
def insert (p : Pattern) (i v : Int16) : Pattern :=
  let pos := min (p.position i) p.len
  if pos ≥ size then p
  else
    { p with
      values := p.values.take pos ++ [v] ++ (p.values.drop pos).take (size - 1 - pos)
      len := min (p.len + 1) size }

/-- Removes the value at a position inside the data and returns it; later data values
move one slot down and a zero takes the freed slot. Without data it returns zero. -/
def remove (p : Pattern) (i : Int16) : Int16 × Pattern :=
  if p.len = 0 then (0, p)
  else
    let pos := min (p.position i) (p.len - 1)
    let values := p.values.take pos ++ (p.values.drop (pos + 1)).take (p.len - 1 - pos) ++ [0] ++
      p.values.drop p.len
    (p.valueAt pos, { p with values, len := p.len - 1 })

/-- Appends a value after the data, unless all sixty-four slots are data. -/
def push (p : Pattern) (v : Int16) : Pattern :=
  if p.len < size then { p with values := p.values.set p.len v, len := p.len + 1 } else p

/-- Removes the last data value and returns it; the slot keeps its value. Without data
it returns zero. -/
def pop (p : Pattern) : Int16 × Pattern :=
  if p.len = 0 then (0, p) else (p.valueAt (p.len - 1), { p with len := p.len - 1 })

/-- The first slot of the data that holds its least value, zero without data. -/
def minIndex (p : Pattern) : Nat :=
  let data := p.values.take p.len
  (List.range data.length).foldl
    (fun best n => if data.getD n 0 < data.getD best 0 then n else best) 0

/-- The first slot of the data that holds its greatest value, zero without data. -/
def maxIndex (p : Pattern) : Nat :=
  let data := p.values.take p.len
  (List.range data.length).foldl
    (fun best n => if data.getD n 0 > data.getD best 0 then n else best) 0

/-- Puts the cursor back at the start of the window. -/
def rewind (p : Pattern) : Pattern := { p with index := p.start }.clampIndex

end Pattern

end TriggerScript
