import TriggerScript.Machine.Operators
/-!
The `TIME` clock.

A scene keeps its clock as a 32-bit base tick, a frozen 16-bit value and a running flag:
running, the clock reads the ticks since its base cut to sixteen bits; paused, it reads the
frozen value. `TIME v` moves the base so that the clock reads `v` now, and `TIME.ACT` pauses
or restarts it at the value it reads now.

The rule the clock follows says nothing of bases: it reads the value of the last setting plus
every tick that passed while it ran, cut to sixteen bits (`Stopwatch`). Every scene is such a
stopwatch (`Stopwatch.ofScene`, a new scene being one set to zero at tick zero), and from any
scene every sequence of settings, pauses, restarts and readings, at any ticks, wrapping or
going back, reads what the stopwatch reads (`Stopwatch.Tracks`, kept by each call). The
argument is modular: cutting a 32-bit difference to sixteen bits is subtracting the two ticks
cut to sixteen bits (`clockWord_sub`), so every base the scene derives drops out.
-/

set_option autoImplicit false
set_option relaxedAutoImplicit false

namespace TriggerScript

/-- A call on the `TIME` clock: setting it, switching it on (a value other than zero) or
off, or reading it. -/
inductive ClockCall
  | set (v : Int16)
  | setRunning (v : Int16)
  | read
  deriving DecidableEq, Repr

/-- The clock as its rule describes it: the value of the last setting with every tick since
added, unbounded, whether it runs, and the tick of the last call. -/
structure Stopwatch where
  value : Int
  running : Bool
  last : UInt32
  deriving DecidableEq, Repr

namespace Stopwatch

/-- A new scene's clock: set to zero at tick zero, and running. -/
def fresh : Stopwatch := ⟨0, true, 0⟩

/-- The count at tick `t`: the ticks since the last call, taken modulo 2³², are added while
the clock runs. -/
def countAt (w : Stopwatch) (t : UInt32) : Int :=
  w.value + if w.running then ((t - w.last).toNat : Int) else 0

/-- A call at tick `t`: the clock after it, and what a reading answers, the count cut to
sixteen bits. -/
def call (w : Stopwatch) (t : UInt32) : ClockCall → Stopwatch × Option Int16
  | .set v => (⟨v.toInt, w.running, t⟩, none)
  | .setRunning v => (⟨w.countAt t, v != 0, t⟩, none)
  | .read => (⟨w.countAt t, w.running, t⟩, some (Int16.ofInt (w.countAt t)))

def answers : Stopwatch → List (UInt32 × ClockCall) → List (Option Int16)
  | _, [] => []
  | w, (t, c) :: cs => (w.call t c).2 :: answers (w.call t c).1 cs

/-- The stopwatch a scene's clock is: set at tick zero to what it reads there. -/
def ofScene (s : Scene) : Stopwatch := ⟨(Operators.time s 0).toInt, s.timeAct, 0⟩

/-- The scene's clock is the stopwatch `w`: it runs when `w` runs, and at the tick of the
last call it reads the count of `w`, cut to sixteen bits. -/
def Tracks (w : Stopwatch) (s : Scene) : Prop :=
  s.timeAct = w.running ∧ Operators.time s w.last = Int16.ofInt w.value

end Stopwatch

namespace Machine

/-- The machine with its clock reading `t`. -/
def atTick (st : Machine) (t : UInt32) : Machine :=
  { st with io := { st.io with readings := { st.io.readings with now := t } } }

@[simp] theorem atTick_scene (st : Machine) (t : UInt32) : (st.atTick t).scene = st.scene := rfl

@[simp] theorem atTick_ticks (st : Machine) (t : UInt32) : (st.atTick t).io.ticks = t := rfl

end Machine

namespace ClockCall

open Operators

/-- What a scene does for a call: the `TIME` setter, the `TIME.ACT` setter, or the `TIME`
getter. -/
def act (f : Frame) : ClockCall → Act (Option Int16)
  | .set v => do write .time [] v; return none
  | .setRunning v => do write .timeAct [] v; return none
  | .read => do return some (← Operators.read f .time [])

variable (f : Frame) (st : Machine)

theorem act_set (v : Int16) : ((ClockCall.set v).act f).run st =
    (none, { st with scene := { st.scene with
      timeBase := st.io.ticks - wordOf v, timeFrozen := v } }) := rfl

theorem act_setRunning (v : Int16) : ((ClockCall.setRunning v).act f).run st =
    (none, { st with scene :=
      if v != 0 then
        { st.scene with
          timeAct := true, timeBase := st.io.ticks - wordOf (time st.scene st.io.ticks) }
      else { st.scene with timeAct := false, timeFrozen := time st.scene st.io.ticks } }) := by
  simp only [act, write]
  split <;> rfl

theorem act_read : (ClockCall.read.act f).run st = (some (time st.scene st.io.ticks), st) := rfl

/-- What a sequence of calls run on a machine, each at its tick, answers. -/
def answers (f : Frame) : Machine → List (UInt32 × ClockCall) → List (Option Int16)
  | _, [] => []
  | st, (t, c) :: cs =>
    ((c.act f).run (st.atTick t)).1 :: answers f ((c.act f).run (st.atTick t)).2 cs

end ClockCall

/-! ### Sixteen bits of a 32-bit tick -/

/-- A tick cut to its low sixteen bits, read as signed. -/
def clockWord (x : UInt32) : Int16 := Int16.ofInt (x.toNat : Int)

@[simp] theorem ofInt_toNat_eq_clockWord (x : UInt32) :
    Int16.ofInt (x.toNat : Int) = clockWord x := rfl

theorem clockWord_sub (a b : UInt32) : clockWord (a - b) = clockWord a - clockWord b := by
  have h : ∀ x : UInt32, clockWord x = x.toUInt16.toInt16 := fun x => by
    rw [clockWord, Int16.ofInt_eq_ofNat, ← UInt16.toInt16_ofNat']
    rfl
  rw [h, h, h, UInt32.toUInt16_sub, UInt16.toInt16_sub]

theorem tick_sub_sub (t x : UInt32) : t - (t - x) = x := by grind

theorem ofInt_emod_word (z : Int) : Int16.ofInt (z % 4294967296) = Int16.ofInt z := by
  rw [Int.emod_def, Int16.ofInt_sub, Int16.ofInt_mul]
  have h : Int16.ofInt 4294967296 = 0 := by decide
  rw [h, Int16.zero_mul, Int16.sub_zero]

theorem clockWord_wordOf (v : Int16) : clockWord (Operators.wordOf v) = v := by
  have h : (0 : Int) ≤ v.toInt % 4294967296 := Int.emod_nonneg _ (by decide)
  show Int16.ofInt ((UInt32.ofNat (v.toInt % 4294967296).toNat).toNat : Int) = v
  rw [UInt32.toNat_ofNat', Nat.mod_eq_of_lt, Int.toNat_of_nonneg h, ofInt_emod_word,
    Int16.ofInt_toInt]
  omega

namespace Operators

theorem time_running {s : Scene} (h : s.timeAct = true) (t : UInt32) :
    time s t = clockWord (t - s.timeBase) := by
  simp only [time, h, if_true, clockWord]

theorem time_paused {s : Scene} (h : s.timeAct = false) (t : UInt32) :
    time s t = s.timeFrozen := by
  simp only [time, h]
  rfl

theorem time_after_set (s : Scene) (t : UInt32) (v : Int16) :
    time { s with timeBase := t - wordOf v, timeFrozen := v } t = v := by
  cases hact : s.timeAct with
  | true =>
    simp only [time, if_true, ofInt_toNat_eq_clockWord, tick_sub_sub, clockWord_wordOf]
  | false => simp only [time, Bool.false_eq_true, if_false]

theorem time_after_restart (s : Scene) (t : UInt32) (v : Int16) :
    time { s with timeAct := true, timeBase := t - wordOf v } t = v := by
  simp only [time, if_true, ofInt_toNat_eq_clockWord, tick_sub_sub, clockWord_wordOf]

end Operators

namespace Stopwatch

open Operators

variable {w : Stopwatch} {s : Scene}

theorem Tracks.time_eq (h : w.Tracks s) (t : UInt32) : time s t = Int16.ofInt (w.countAt t) := by
  obtain ⟨hrun, hlast⟩ := h
  cases hact : s.timeAct with
  | true =>
    have hw : w.running = true := hrun ▸ hact
    rw [time_running hact] at hlast ⊢
    simp only [countAt, hw, if_true, Int16.ofInt_add, ofInt_toNat_eq_clockWord, ← hlast,
      clockWord_sub]
    grind
  | false =>
    have hw : w.running = false := hrun ▸ hact
    rw [time_paused hact] at hlast ⊢
    simp only [countAt, hw, Bool.false_eq_true, if_false, Int.add_zero, ← hlast]

theorem tracks_ofScene (s : Scene) : (ofScene s).Tracks s :=
  ⟨rfl, (Int16.ofInt_toInt _).symm⟩

theorem ofScene_withSeed (seed : UInt64) : ofScene (Scene.withSeed seed) = fresh := by
  have h : time (Scene.withSeed seed) 0 = 0 := by
    simp only [time, Scene.withSeed, if_true, ofInt_toNat_eq_clockWord, UInt32.sub_self]
    decide
  simp only [ofScene, h, fresh]
  rfl

theorem Tracks.call {st : Machine} (h : w.Tracks st.scene) (f : Frame) (t : UInt32)
    (c : ClockCall) :
    ((c.act f).run (st.atTick t)).1 = (w.call t c).2 ∧
      (w.call t c).1.Tracks ((c.act f).run (st.atTick t)).2.scene := by
  have hnow := h.time_eq t
  cases c with
  | set v =>
    rw [ClockCall.act_set]
    exact ⟨rfl, h.1, (time_after_set st.scene t v).trans (Int16.ofInt_toInt v).symm⟩
  | setRunning v =>
    rw [ClockCall.act_setRunning, Machine.atTick_scene, Machine.atTick_ticks]
    refine ⟨rfl, ?_⟩
    by_cases hv : (v != 0) = true
    · -- restarting moves the base so that the clock reads, now, what it read
      simp only [hv, if_true]
      exact ⟨hv.symm, (time_after_restart st.scene t _).trans hnow⟩
    · -- pausing freezes the value the clock reads now
      simp only [hv, Bool.false_eq_true, if_false]
      exact ⟨((Bool.not_eq_true _).mp hv).symm, hnow⟩
  | read =>
    rw [ClockCall.act_read]
    exact ⟨congrArg some hnow, h.1, hnow⟩

/-- From a scene tracking the stopwatch, every sequence of calls answers as the stopwatch
does. -/
theorem Tracks.answers {st : Machine} (h : w.Tracks st.scene) (f : Frame)
    (calls : List (UInt32 × ClockCall)) : ClockCall.answers f st calls = w.answers calls := by
  induction calls generalizing st w with
  | nil => rfl
  | cons tc cs ih =>
    obtain ⟨t, c⟩ := tc
    obtain ⟨hanswer, htracks⟩ := h.call f t c
    simp only [ClockCall.answers, Stopwatch.answers, hanswer, ih htracks]

end Stopwatch

/-- `TIME` is a pausable sixteen-bit clock. From every scene, a sequence of `TIME` settings,
`TIME.ACT` switches and `TIME` readings, each at any tick, answers as the stopwatch the scene
is: a reading gives the last setting plus every tick that passed while the clock ran, cut to
sixteen bits; a new scene is a stopwatch set to zero at tick zero and running; and switching
the clock on or off never changes what it reads at that tick. -/
theorem ClockCall.answers_eq_stopwatch (f : Frame) :
    (∀ (st : Machine) (calls : List (UInt32 × ClockCall)),
      ClockCall.answers f st calls = (Stopwatch.ofScene st.scene).answers calls) ∧
    (∀ (seed : UInt64) (io : Io) (calls : List (UInt32 × ClockCall)),
      ClockCall.answers f ⟨Scene.withSeed seed, io⟩ calls = Stopwatch.fresh.answers calls) ∧
    (∀ (st : Machine) (v : Int16),
      Operators.time ((Operators.write .timeAct [] v).run st).2.scene st.io.ticks =
        Operators.time st.scene st.io.ticks) := by
  refine ⟨fun st calls => (Stopwatch.tracks_ofScene st.scene).answers f calls,
    fun seed io calls =>
      Stopwatch.ofScene_withSeed seed ▸ (Stopwatch.tracks_ofScene _).answers f calls,
    fun st v => ?_⟩
  -- a switch is a call like any other: before and after it the clock reads the count there
  have h := Stopwatch.tracks_ofScene st.scene
  obtain ⟨-, -, hafter⟩ := h.call f st.io.ticks (.setRunning v)
  exact hafter.trans (h.time_eq st.io.ticks).symm

example : Stopwatch.fresh.answers [(500, .set 0), (800, .read), (800, .setRunning 0),
    (1000, .read), (1000, .setRunning 1), (1100, .read)] =
    [none, some 300, none, some 300, none, some 400] := by decide

end TriggerScript
