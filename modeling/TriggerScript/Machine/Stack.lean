import TriggerScript.Error
/-!
Bounded stacks: a last-in first-out store that holds at most its capacity.

A push onto a full stack is refused with `STACK FULL` and the stack's own label as the
detail; the value is dropped and the stack is unchanged.
-/

set_option autoImplicit false
set_option relaxedAutoImplicit false

namespace TriggerScript

/-- A stack of at most `capacity` items, listed from the bottom up. -/
structure BoundedStack (α : Type) where
  capacity : Nat
  /-- The detail of the error for a push onto a full stack. -/
  label : String
  items : List α
  deriving DecidableEq, Repr

namespace BoundedStack

variable {α : Type}

def empty (capacity : Nat) (label : String) : BoundedStack α :=
  { capacity, label, items := [] }

/-- The number of items held. -/
def size (s : BoundedStack α) : Nat := s.items.length

def isEmpty (s : BoundedStack α) : Bool := s.items.isEmpty

/-- Whether the stack holds its capacity or more. -/
def isFull (s : BoundedStack α) : Bool := s.capacity ≤ s.items.length

/-- Adds an item on top, or refuses when the stack is full. -/
def push (s : BoundedStack α) (x : α) : Except Error (BoundedStack α) :=
  if s.isFull then .error (.detailed .stackFull s.label)
  else .ok { s with items := s.items ++ [x] }

/-- Removes the top item, if there is one. -/
def pop (s : BoundedStack α) : Option α × BoundedStack α :=
  match s.items.getLast? with
  | none => (none, s)
  | some x => (some x, { s with items := s.items.dropLast })

def clear (s : BoundedStack α) : BoundedStack α := { s with items := [] }

theorem push_items (s : BoundedStack α) (x : α) (h : s.isFull = false) :
    (s.push x).map BoundedStack.items = .ok (s.items ++ [x]) := by
  simp [push, h, Except.map]

end BoundedStack

end TriggerScript
