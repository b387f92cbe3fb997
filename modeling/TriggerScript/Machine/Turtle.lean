/-!
The turtle: a cursor on the sixteen-by-sixteen grid with one of eight headings.

Headings run clockwise from 0 (north) to 7. Moving forward wraps around the edges of the
grid; bumping and moving by an offset stop at them. A quarter turn first snaps the
heading back to the cardinal direction at or before it.
-/

set_option autoImplicit false
set_option relaxedAutoImplicit false

namespace TriggerScript

structure Turtle where
  x : Nat
  y : Nat
  heading : Nat
  deriving DecidableEq, Repr

namespace Turtle

def gridSize : Nat := 16

/-- The top-left cell, heading east. -/
def home : Turtle := ⟨0, 0, 2⟩

instance : Inhabited Turtle := ⟨home⟩

/-- The step of each heading, clockwise from north. -/
def directions : List (Int × Int) :=
  [(0, -1), (1, -1), (1, 0), (1, 1), (0, 1), (-1, 1), (-1, 0), (-1, -1)]

/-- A coordinate moved by `d` and wrapped around the grid. -/
def wrapCoord (c : Nat) (d : Int) : Nat := ((c + d) % (gridSize : Int)).toNat

/-- A coordinate moved by `d` and stopped at the edges. -/
def clampCoord (c : Nat) (d : Int) : Nat := (max 0 (min (gridSize - 1 : Int) (c + d))).toNat

/-- Puts the turtle in column `v`, held on the grid. -/
def setX (t : Turtle) (v : Int16) : Turtle := { t with x := clampCoord 0 v.toInt }

/-- Puts the turtle in row `v`, held on the grid. -/
def setY (t : Turtle) (v : Int16) : Turtle := { t with y := clampCoord 0 v.toInt }

/-- Sets the heading, taken modulo eight. -/
def setHeading (t : Turtle) (v : Int16) : Turtle := { t with heading := (v.toInt % 8).toNat }

/-- The offset of `n` steps along the heading. -/
def delta (t : Turtle) (n : Int16) : Int × Int :=
  let (dx, dy) := directions.getD t.heading (0, 0)
  (dx * n.toInt, dy * n.toInt)

/-- Moves `n` cells along the heading, wrapping at the edges. -/
def forward (t : Turtle) (n : Int16) : Turtle :=
  let (dx, dy) := t.delta n
  { t with x := wrapCoord t.x dx, y := wrapCoord t.y dy }

/-- Moves `n` cells along the heading, stopping at the edges. -/
def bump (t : Turtle) (n : Int16) : Turtle :=
  let (dx, dy) := t.delta n
  { t with x := clampCoord t.x dx, y := clampCoord t.y dy }

/-- Moves by an offset, stopping at the edges. -/
def moveBy (t : Turtle) (dx dy : Int16) : Turtle :=
  { t with x := clampCoord t.x dx.toInt, y := clampCoord t.y dy.toInt }

/-- Turns `n` eighths clockwise. -/
def turn (t : Turtle) (n : Int16) : Turtle :=
  { t with heading := (((t.heading : Int) + n.toInt) % 8).toNat }

/-- Turns `n` quarters clockwise from the cardinal heading at or before the current one. -/
def quarterTurn (t : Turtle) (n : Int16) : Turtle :=
  { t with heading := ((((t.heading / 2 : Nat) : Int) + n.toInt) % 4).toNat * 2 }

end Turtle

end TriggerScript
