import TriggerScript.Checked
import TriggerScript.Machine.Scene
import TriggerScript.Language.Command.Parser
/-!
The checks of the parts of a scene, and of reading a line.

Patterns shift and copy values inside their table of sixty-four and hold the cursor between
the start of the window and its last slot; the turtle steps and turns in 32 bits and reads its
direction from a table of eight; a calibrated reading is scaled in 32 bits; an `EVERY` counter
counts in sixteen; a MIDI clock counts in eight bits and a controller change looks at its
batch; the delay queue numbers its entries in 64 bits and takes the first due one out of its
slot. Reading a line reads its literals: the digits of a hexadecimal or binary literal are its
text after the first byte, and a literal that overflows is placed at its lexeme, which asserts
that its error was placed nowhere before.

Lexing does no checked operation: its positions and counts are sizes of the text.
-/

set_option autoImplicit false
set_option relaxedAutoImplicit false

namespace TriggerScript

open Checked

/-! ### Patterns -/

namespace Pattern

/-- `p.position i`: a negative position is counted back from the data length in 32 bits. -/
def positionChecks (p : Pattern) (i : Int16) : Checked Unit :=
  if i < 0 then discard <| i32 (p.len + i.toInt) else pure ()

/-- `p.clampIndex`: a window that is not empty holds the cursor between its start and its last
slot, one below its end. -/
def clampIndexChecks (p : Pattern) : Checked Unit :=
  if p.start ≥ p.finish then pure ()
  else do
    let last ← sizeSub p.finish 1
    assert (p.start ≤ last)

/-- `p.move n` and `p.step n`: the cursor moved in 32 bits, then wrapped around the window's
width or held between its start and its last slot. -/
def moveChecks (p : Pattern) (n : Int16) : Checked Unit :=
  if p.start < p.finish then do
    let moved ← i32 (p.index + n.toInt)
    if p.wrap then do
      let offset ← i32 (moved - p.start)
      let width ← i32 ((p.finish : Int) - p.start)
      let r ← remEuclid32 offset width
      discard <| i32 (r + p.start)
    else do
      let last ← i32 ((p.finish : Int) - 1)
      assert ((p.start : Int) ≤ last)
  else pure ()

/-- `p.setIndex i`: the position, then the cursor held in the window. -/
def setIndexChecks (p : Pattern) (i : Int16) : Checked Unit := do
  p.positionChecks i
  { p with index := p.position i }.clampIndexChecks

/-- `p.setStart s` holds the cursor in the window it accepts. -/
def setStartChecks (p : Pattern) (s : Int16) : Checked Unit :=
  if s < 0 ∨ s.toInt.toNat > p.finish then pure ()
  else { p with start := s.toInt.toNat }.clampIndexChecks

/-- `p.setFinish e` holds the cursor in the window it accepts. -/
def setFinishChecks (p : Pattern) (e : Int16) : Checked Unit :=
  if e < 0 ∨ e.toInt.toNat < p.start ∨ e.toInt.toNat > size then pure ()
  else { p with finish := e.toInt.toNat }.clampIndexChecks

/-- `p.insert i v`: the values from the position on, up to the last slot, are copied one slot
up, and the value is written at the position. -/
def insertChecks (p : Pattern) (i : Int16) : Checked Unit := do
  p.positionChecks i
  let pos := min (p.position i) p.len
  if pos ≥ size then pure ()
  else do
    copyWithin pos (size - 1) (pos + 1) size
    Checked.index pos size

/-- `p.remove i`: the value at the position is read, the data after it is copied one slot
down, the length goes down by one, and the freed slot is cleared. -/
def removeChecks (p : Pattern) (i : Int16) : Checked Unit :=
  if p.len = 0 then pure ()
  else do
    p.positionChecks i
    let last ← sizeSub p.len 1
    let pos := min (p.position i) last
    Checked.index pos size
    copyWithin (pos + 1) p.len pos size
    let len ← sizeSub p.len 1
    Checked.index len size

/-- `p.pop`: the length goes down by one and the value there is read. -/
def popChecks (p : Pattern) : Checked Unit :=
  if p.len = 0 then pure ()
  else do
    let len ← sizeSub p.len 1
    Checked.index len size

/-- `p.minIndex` and `p.maxIndex` look at the data, the first `len` values. -/
def dataChecks (p : Pattern) : Checked Unit := slice 0 p.len size

/-- A random value of a window that is not empty: a slot drawn from the window, then read. -/
def randomChecks (p : Pattern) (g : Generator) : Checked Unit :=
  if p.start ≥ p.finish then pure ()
  else do
    range p.start p.finish
    Checked.index (g.indexBelow p.start p.finish).1 size

/-- `p.rewind`: the cursor at the start, held in the window. -/
def rewindChecks (p : Pattern) : Checked Unit := { p with index := p.start }.clampIndexChecks

end Pattern

/-! ### The turtle -/

namespace Turtle

/-- `t.delta n`: the heading's step from the table of eight directions, scaled in 32 bits. -/
def deltaChecks (t : Turtle) (n : Int16) : Checked Unit := do
  index t.heading directions.length
  let d := directions.getD t.heading (0, 0)
  let _ ← i32 (d.1 * n.toInt)
  discard <| i32 (d.2 * n.toInt)

/-- A coordinate moved in 32 bits and wrapped around the grid. -/
def wrapCoordChecks (c : Nat) (d : Int) : Checked Unit := do
  let moved ← i32 (c + d)
  discard <| remEuclid32 moved gridSize

/-- A coordinate moved in 32 bits; holding it on the grid cannot stop. -/
def clampCoordChecks (c : Nat) (d : Int) : Checked Unit := discard <| i32 (c + d)

/-- `t.forward n`: the step, then both coordinates wrapped. -/
def forwardChecks (t : Turtle) (n : Int16) : Checked Unit := do
  t.deltaChecks n
  wrapCoordChecks t.x (t.delta n).1
  wrapCoordChecks t.y (t.delta n).2

/-- `t.bump n`: the step, then both coordinates held on the grid. -/
def bumpChecks (t : Turtle) (n : Int16) : Checked Unit := do
  t.deltaChecks n
  clampCoordChecks t.x (t.delta n).1
  clampCoordChecks t.y (t.delta n).2

/-- `t.moveBy dx dy`: both coordinates moved and held on the grid. -/
def moveByChecks (t : Turtle) (dx dy : Int16) : Checked Unit := do
  clampCoordChecks t.x dx.toInt
  clampCoordChecks t.y dy.toInt

/-- Writing the turtle's cell of the grid: its row, then its column. -/
def cellChecks (t : Turtle) : Checked Unit := do
  index t.y gridSize
  index t.x gridSize

/-- `t.setX v` and `t.setY v`: the value taken from zero and held on the grid. -/
def setCoordChecks (v : Int16) : Checked Unit := clampCoordChecks 0 v.toInt

/-- `t.setHeading v`: the value taken modulo eight in 32 bits. -/
def setHeadingChecks (v : Int16) : Checked Unit := discard <| remEuclid32 v.toInt 8

/-- `t.turn n`: the heading turned in 32 bits and taken modulo eight. -/
def turnChecks (t : Turtle) (n : Int16) : Checked Unit := do
  let h ← i32 (t.heading + n.toInt)
  discard <| remEuclid32 h 8

/-- `t.quarterTurn n`: the quarter turned in 32 bits and taken modulo four. -/
def quarterTurnChecks (t : Turtle) (n : Int16) : Checked Unit := do
  let q ← i32 ((t.heading / 2 : Nat) + n.toInt)
  discard <| remEuclid32 q 4

end Turtle

/-! ### Calibration, counters and MIDI -/

namespace Calibration

/-- `scale raw lo hi` with the bounds in order: the reading held between them, its offset
scaled to full scale in 32 bits and divided by the span. -/
def scaleChecks (raw lo hi : Nat) : Checked Unit :=
  if hi ≤ lo then pure ()
  else do
    assert (lo ≤ hi)
    let offset ← i32 ((max lo (min hi raw) : Nat) - (lo : Int))
    let p ← i32 (offset * fullScale)
    let span ← i32 ((hi : Int) - lo)
    discard <| quot32 p span

/-- `c.read which raw`: the reading scaled between the input's bounds. -/
def readChecks (c : Calibration) (which : Special) (raw : Nat) : Checked Unit :=
  match which with
  | .input => scaleChecks raw c.inMin.toNat c.inMax.toNat
  | .param => scaleChecks raw c.paramMin.toNat c.paramMax.toNat

end Calibration

/-- Advancing an `EVERY` counter adds one to its sixteen-bit count. -/
def everyTickChecks (count : Nat) : Checked Unit := discard <| i16 (count + 1)

namespace Midi

/-- `m.receive msg`: a controller change of a bound kind looks for its entry among the batch,
and a clock adds one to the eight-bit clock count. -/
def receiveChecks (m : Midi) : MidiMessage → Checked Unit
  | .controlChange _ _ _ =>
    if (m.binding .controlChange).isSome then slice 0 m.controls.length batchLimit else pure ()
  | .clock => discard <| u8 (m.clockCount + 1)
  | _ => pure ()

end Midi

namespace DelayQueue

/-- `q.schedule …`: a body that finds a free slot takes the next sequence number, and the
number goes on in 64 bits. -/
def scheduleChecks (q : DelayQueue) : Checked Unit :=
  match q.slots.findIdx? Option.isNone with
  | none => pure ()
  | some _ => discard <| u64 (q.nextSeq + 1)

/-- `q.popDueBefore now before` takes the first due entry out of its slot. -/
def popDueBeforeChecks (q : DelayQueue) (now : UInt32) (before : Nat) : Checked Unit :=
  match earliestDue now before 0 q.slots none with
  | none => pure ()
  | some e => index e.1 capacity

end DelayQueue

/-! ### Reading a line -/

/-- Reading a literal's value: the digits of a hexadecimal or binary literal are its text
after the first byte. -/
def Literal.valueChecks : Literal → Checked Unit
  | .decimal _ => pure ()
  | .hex s | .binary s => fromByte s 1

/-- Reading a literal operand: its value is read, and an overflow is placed at the literal's
lexeme, which asserts that the error was placed nowhere before. -/
def Grammar.literalChecks (l : Literal) : Checked Unit := do
  l.valueChecks
  match l.value with
  | .ok _ => pure ()
  | .error e => assert (e.span = Span.none)

/-- A token is read as a literal operand if it is a literal. -/
def Token.literalChecks : Token → Checked Unit
  | .literal lit => Grammar.literalChecks lit
  | _ => pure ()

/-- Parsing lexemes reads their literals; this reads every one, among them each one the
parser reaches. -/
def Command.ofLexemesChecks (ls : List Lexeme) : Checked Unit :=
  forM ls fun l => l.token.literalChecks

/-- Compiling a line reads the literals of its canonical text. -/
def Line.ofTextChecks (s : String) : Checked Unit :=
  Command.ofLexemesChecks (lex (Text.upperAscii (Text.trim s)))

end TriggerScript
