import TriggerScript.Language.Command
/-!
The delay queue: commands deferred to a later tick of the clock.

The queue has sixteen slots. Scheduling takes the first free slot and stamps the entry
with a sequence number that grows by one each time; a full queue refuses the entry. Ticks
are unsigned 32-bit and wrap, so "due" compares them by their wrapping difference: `a` is
not after `b` when `b - a`, taken modulo 2³², is below 2³¹. Of the entries due, the one
with the earliest fire tick leaves first, and of equal ticks the one scheduled first.
-/

set_option autoImplicit false
set_option relaxedAutoImplicit false

namespace TriggerScript

/-- Half the range of the tick clock, 2³¹. -/
def Tick.halfRange : Nat := 2147483648

/-- `a` comes no later than `b` on the wrapping tick clock. -/
def Tick.notAfter (a b : UInt32) : Bool := (b - a).toNat < Tick.halfRange

/-- A deferred command: when it fires, its sequence number, the script that owns it, and
the loop index it captured. -/
structure DelayEntry where
  fire : UInt32
  seq : Nat
  script : Nat
  index : Int16
  command : Command
  deriving DecidableEq, Repr, Inhabited

/-- Sixteen slots of deferred commands and the next sequence number. The program keeps that
number in a 64-bit word; each call of the queue raises it by at most one
(`DelayQueue.run_nextSeq_le`), so as a natural number it agrees with the word on every run
of fewer than 2⁶⁴ calls. -/
structure DelayQueue where
  slots : List (Option DelayEntry)
  nextSeq : Nat
  deriving DecidableEq, Repr

namespace DelayQueue

def capacity : Nat := 16

def empty : DelayQueue := ⟨List.replicate capacity none, 0⟩

instance : Inhabited DelayQueue := ⟨empty⟩

/-- The entries held, in slot order. -/
def entries (q : DelayQueue) : List DelayEntry := q.slots.filterMap id

/-- The number of entries held. -/
def size (q : DelayQueue) : Nat := q.entries.length

/-- Whether no entry is held. -/
def isEmpty (q : DelayQueue) : Bool := q.entries.isEmpty

/-- Puts a command into the first free slot, or refuses with `DELAY QUEUE FULL`. -/
def schedule (q : DelayQueue) (script : Nat) (index : Int16) (command : Command)
    (fire : UInt32) : Except Error DelayQueue :=
  match q.slots.findIdx? Option.isNone with
  | none => .error (.bare .delayQueueFull)
  | some n =>
    .ok { slots := q.slots.set n (some { fire, seq := q.nextSeq, script, index, command }),
          nextSeq := q.nextSeq + 1 }

/-- Whether entry `e` leaves before entry `b`: an earlier fire tick, or the same tick and
an earlier sequence number. -/
def precedes (e b : DelayEntry) : Bool :=
  (e.fire != b.fire && Tick.notAfter e.fire b.fire) || (e.fire == b.fire && e.seq < b.seq)

/-- The slot and entry that leaves first among the entries due at `now` and scheduled
before sequence number `before`; slots are scanned from `n` on, after `best`. -/
def earliestDue (now : UInt32) (before : Nat) :
    Nat → List (Option DelayEntry) → Option (Nat × DelayEntry) → Option (Nat × DelayEntry)
  | _, [], best => best
  | n, none :: rest, best => earliestDue now before (n + 1) rest best
  | n, some e :: rest, best =>
    let due := e.seq < before && Tick.notAfter e.fire now
    let wins := match best with
      | none => true
      | some (_, b) => precedes e b
    earliestDue now before (n + 1) rest (if due && wins then some (n, e) else best)

/-- Removes the first entry due at `now` among those scheduled before `before`. -/
def popDueBefore (q : DelayQueue) (now : UInt32) (before : Nat) :
    Option DelayEntry × DelayQueue :=
  match earliestDue now before 0 q.slots none with
  | none => (none, q)
  | some (n, e) => (some e, { q with slots := q.slots.set n none })

def seqLimit : Nat := 18446744073709551615

/-- Removes the first entry due at `now`. -/
def popDue (q : DelayQueue) (now : UInt32) : Option DelayEntry × DelayQueue :=
  q.popDueBefore now seqLimit

def cancelAll (q : DelayQueue) : DelayQueue :=
  { q with slots := q.slots.map fun _ => none }

theorem cancelAll_cancelAll (q : DelayQueue) : q.cancelAll.cancelAll = q.cancelAll := by
  simp only [cancelAll, List.map_map]
  rfl

/-- Frees the slots of every entry that `script` owns. -/
def cancelScript (q : DelayQueue) (script : Nat) : DelayQueue :=
  { q with slots := q.slots.map fun
      | some e => if e.script = script then none else some e
      | none => none }

end DelayQueue

end TriggerScript
