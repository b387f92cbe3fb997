import TriggerScript.Machine.Entry
/-!
What a run does with its `EVERY` counters, as a list of events.

Each `EVERY` and `SKIP` line advances a counter: the one of its script line, or, for a line
outside the scripts, a counter they all share (`Frame.counter`). The events of a run list each
advance in the order the counters see them, with the count read and whether the body ran
(`CounterEvent.tick`), each `OTHER` line with whether its body ran, and where each run in a
fresh frame begins and ends: a script, a stacked or delayed command, a live line.
`Executor.execEvents` and its companions give the events of each function of the executor,
clause for clause, reading the machine each step starts from off the executor itself; the
entry points follow (`Call.events`).

Two laws of event lists say what the counters promise. The ticks of one counter read the
counts the ticks before them left (`Tick.Chain`), so that with a fixed period the `k`-th tick
comes round exactly when the period divides `k` (`Tick.Chain.count_hit`). And each run keeps the
flag of its last `EVERY` or `SKIP`, down when it begins, which each of its `OTHER` lines obeys
(`CounterEvent.scan`).
-/

set_option autoImplicit false
set_option relaxedAutoImplicit false

namespace TriggerScript

/-! ### Counters -/

/-- The counter an `EVERY` or `SKIP` line advances when it runs in frame `f`: the one of its
script line, or `none`, the counter shared by the lines outside the scripts. -/
def Frame.counter (f : Frame) : Option (Nat × Nat) :=
  match f.line with
  | some line =>
    if f.script < Scene.scriptCount ∧ line < Script.maxLines then some (f.script, line) else none
  | none => none

theorem Frame.counter_lt {f : Frame} {i j : Nat} (h : f.counter = some (i, j)) :
    i < Scene.scriptCount ∧ j < Script.maxLines := by
  unfold Frame.counter at h
  split at h
  · split at h
    · cases h
      assumption
    · cases h
  · cases h

namespace Scene

def count (s : Scene) : Option (Nat × Nat) → Nat
  | some (i, j) => (s.every.getD i []).getD j 0
  | none => s.liveEvery

/-- The scene with a counter set to `c`. -/
def setCount (s : Scene) : Option (Nat × Nat) → Nat → Scene
  | some (i, j), c => { s with every := s.every.modify i (·.set j c) }
  | none, c => { s with liveEvery := c }

def CountersShaped (s : Scene) : Prop :=
  ∀ i j, i < scriptCount → j < Script.maxLines → j < (s.every.getD i []).length

variable {s : Scene} {x y : Option (Nat × Nat)} {c : Nat}

theorem getD_modify_self {α : Type} (l : List (List α)) (i : Nat) (g : List α → List α) :
    (l.modify i g).getD i [] = if i < l.length then g (l.getD i []) else [] := by
  by_cases h : i < l.length <;> simp [List.getD_eq_getElem?_getD, h]

theorem count_setCount_self (hs : s.CountersShaped) {i j : Nat}
    (hij : i < scriptCount ∧ j < Script.maxLines) :
    (s.setCount (some (i, j)) c).count (some (i, j)) = c := by
  have hj := hs i j hij.1 hij.2
  have hi : i < s.every.length := by
    refine Nat.lt_of_not_le fun hi => ?_
    rw [List.getD_eq_getElem?_getD, List.getElem?_eq_none hi] at hj
    exact absurd hj (Nat.not_lt_zero j)
  simp only [setCount, count, getD_modify_self, if_pos hi]
  rw [List.getD_eq_getElem?_getD, List.getElem?_set_self hj]
  rfl

theorem count_setCount_of_ne (h : x ≠ y) : (s.setCount x c).count y = s.count y := by
  rcases x with _ | ⟨i, j⟩ <;> rcases y with _ | ⟨i', j'⟩
  · exact absurd rfl h
  · rfl
  · rfl
  · simp only [setCount, count, List.getD_eq_getElem?_getD, List.getElem?_modify]
    by_cases hi : i = i'
    · subst hi
      have hj : j ≠ j' := fun hj => h (by rw [hj])
      cases s.every[i]? with
      | none => rfl
      | some row => simp [List.getElem?_set_ne hj]
    · simp [hi]

theorem CountersShaped.setCount (hs : s.CountersShaped) (x : Option (Nat × Nat)) (c : Nat) :
    (s.setCount x c).CountersShaped := by
  intro i j hi hj
  rcases x with _ | ⟨i', j'⟩
  · exact hs i j hi hj
  · simp only [Scene.setCount, List.getD_eq_getElem?_getD, List.getElem?_modify]
    have := hs i j hi hj
    rw [List.getD_eq_getElem?_getD] at this
    by_cases h : i' = i
    · subst h
      cases hrow : s.every[i']? with
      | none => rw [hrow] at this; simp at this
      | some row => rw [hrow] at this; simpa using this
    · simpa [h] using this

end Scene

namespace Executor

open Act

theorem tickEvery_eq (f : Frame) (n : Int16) :
    tickEvery f n = (do
      let s ← scene
      modifyScene (·.setCount f.counter (everyTick (s.count f.counter) n).1)
      return (everyTick (s.count f.counter) n).2) := by
  rcases f with ⟨script, depth, index, ifElse, everyFired, breaking, _ | line⟩
  · rfl
  · simp only [tickEvery, Frame.counter]
    split <;> rfl

theorem tickEvery_run (f : Frame) (n : Int16) (st : Machine) :
    (tickEvery f n).run st = ((everyTick (st.scene.count f.counter) n).2,
      { st with scene := st.scene.setCount f.counter (everyTick (st.scene.count f.counter) n).1 }) := by
  rw [tickEvery_eq]
  rfl

end Executor

/-! ### Events -/

/-- One execution of an `EVERY` or `SKIP` line, as its counter saw it. -/
structure Tick where
  /-- The line is a `SKIP`. -/
  skip : Bool
  /-- The period its operand gave. -/
  period : Int16
  /-- The count its counter held. -/
  count : Nat
  /-- Its body ran. -/
  ran : Bool
  deriving DecidableEq, Repr

namespace Tick

/-- The counter comes round: the count reaches the period. -/
def hit (t : Tick) : Bool := (everyTick t.count t.period).2

def next (t : Tick) : Nat := (everyTick t.count t.period).1

/-- The body of an `EVERY` runs when its counter comes round, that of a `SKIP` when it does
not. -/
def Lawful (t : Tick) : Prop := t.ran = (t.hit ^^ t.skip)

/-- The ticks of one counter, from count `c` to count `c'`: each read the count the ticks
before it left. -/
def Chain : Nat → List Tick → Nat → Prop
  | c, [], c' => c' = c
  | c, t :: ts, c' => t.count = c ∧ Chain t.next ts c'

theorem chain_append {c c'' : Nat} {ts us : List Tick} :
    Chain c (ts ++ us) c'' ↔ ∃ c', Chain c ts c' ∧ Chain c' us c'' := by
  induction ts generalizing c with
  | nil => exact ⟨fun h => ⟨c, rfl, h⟩, fun ⟨_, hc, h⟩ => hc ▸ h⟩
  | cons t ts ih =>
    simp only [List.cons_append, Chain, ih]
    exact ⟨fun ⟨ht, c', h₁, h₂⟩ => ⟨c', ⟨ht, h₁⟩, h₂⟩, fun ⟨c', ⟨ht, h₁⟩, h₂⟩ => ⟨ht, c', h₁, h₂⟩⟩

end Tick

inductive CounterEvent
  /-- An `EVERY` or `SKIP` line advanced a counter. -/
  | tick (counter : Option (Nat × Nat)) (t : Tick)
  /-- An `OTHER` line ran its body, or did not. -/
  | other (ran : Bool)
  /-- A run in a fresh frame began. -/
  | enter
  /-- The run begun last ended. -/
  | leave
  deriving DecidableEq, Repr

namespace CounterEvent

/-- The ticks of counter `x`, in order. -/
def ticksAt (x : Option (Nat × Nat)) : List CounterEvent → List Tick
  | [] => []
  | .tick y t :: es => if y = x then t :: ticksAt x es else ticksAt x es
  | _ :: es => ticksAt x es

@[simp] theorem ticksAt_append (x : Option (Nat × Nat)) (es es' : List CounterEvent) :
    ticksAt x (es ++ es') = ticksAt x es ++ ticksAt x es' := by
  induction es with
  | nil => rfl
  | cons e es ih =>
    cases e with
    | tick y t => by_cases h : y = x <;> simp [ticksAt, h, ih]
    | other ran => exact ih
    | enter => exact ih
    | leave => exact ih

theorem mem_of_mem_ticksAt {x : Option (Nat × Nat)} {t : Tick} :
    ∀ {es : List CounterEvent}, t ∈ ticksAt x es → CounterEvent.tick x t ∈ es
  | [], h => absurd h List.not_mem_nil
  | .tick y u :: es, h => by
    simp only [ticksAt] at h
    split at h
    · next hy =>
      rcases List.mem_cons.mp h with rfl | h
      · exact hy ▸ List.mem_cons_self
      · exact List.mem_cons_of_mem _ (mem_of_mem_ticksAt h)
    · exact List.mem_cons_of_mem _ (mem_of_mem_ticksAt h)
  | .other _ :: es, h => List.mem_cons_of_mem _ (mem_of_mem_ticksAt h)
  | .enter :: es, h => List.mem_cons_of_mem _ (mem_of_mem_ticksAt h)
  | .leave :: es, h => List.mem_cons_of_mem _ (mem_of_mem_ticksAt h)

/-- Follows the flag of the last `EVERY` or `SKIP` of each run, innermost run first: a run
begins with it down, each tick sets it to whether its body ran, and each `OTHER` line must
have run its body exactly when it is down. `none` when an `OTHER` line did otherwise, or a run
ended that had not begun. -/
def scan : List Bool → List CounterEvent → Option (List Bool)
  | stk, [] => some stk
  | stk, .enter :: es => scan (false :: stk) es
  | _ :: stk, .tick _ t :: es => scan (t.ran :: stk) es
  | b :: stk, .other ran :: es => if ran = !b then scan (b :: stk) es else none
  | _ :: stk, .leave :: es => scan stk es
  | [], _ :: _ => none

theorem scan_append (stk : List Bool) (es es' : List CounterEvent) :
    scan stk (es ++ es') = (scan stk es).bind fun stk' => scan stk' es' := by
  induction es generalizing stk with
  | nil => rfl
  | cons e es ih =>
    cases e <;> rcases stk with _ | ⟨b, stk⟩ <;> simp only [List.cons_append, scan, ih] <;>
      (try rfl)
    split <;> simp only [Option.bind_none]

/-- The events of `m` run from a machine, then those of what follows, from the answer and the
machine `m` leaves. -/
def bind {α : Type} (m : Act α) (T : Machine → List CounterEvent)
    (U : α → Machine → List CounterEvent) : Machine → List CounterEvent :=
  fun st => T st ++ U (m.run st).1 (m.run st).2

def fresh (T : Machine → List CounterEvent) : Machine → List CounterEvent :=
  fun st => .enter :: (T st ++ [.leave])

end CounterEvent

/-! ### The events of a run -/

namespace Executor

open Act Operators CounterEvent

/-- The events of an `EVERY` or `SKIP` line once its operand gave `n` in frame `f`: its tick,
then, when its body runs, the body's events from the frame that records it fired. -/
def tickEvents (m : Modifier) (f : Frame) (n : Int16)
    (body : Frame → Machine → List CounterEvent) : Machine → List CounterEvent :=
  fun st =>
    let r := (tickEvery f n).run st
    let fired := if m == .every then r.1 else !r.1
    .tick f.counter ⟨m == .skip, n, st.scene.count f.counter, fired⟩ ::
      (if fired then body { f with everyFired := fired } r.2 else [])

mutual

def execEvents : Nat → Frame → Command → Machine → List CounterEvent
  | 0, _, _ => fun _ => []
  | fuel + 1, f, c =>
    match c with
    | .nop | .literal _ | .var _ => fun _ => []
    | .op o args => evalOpEvents fuel f o args
    | .set o args value =>
      bind (evalArgs fuel f (args.take 3)) (evalArgsEvents fuel f (args.take 3)) fun (a, f) =>
        bind (exec fuel f value) (execEvents fuel f value) fun (v, f) =>
          setOpEvents fuel f o a (v.getD 0)
    | .store _ value => execEvents fuel f value
    | .modified m args body => execModifierEvents fuel f m args body
    | .seq cs => execSeqEvents fuel f cs none

def execSeqEvents : Nat → Frame → List Command → Option Int16 → Machine → List CounterEvent
  | 0, _, _, _ => fun _ => []
  | _ + 1, _, [], _ => fun _ => []
  | fuel + 1, f, c :: cs, acc =>
    bind (exec fuel f c) (execEvents fuel f c) fun (v, f) =>
      if f.breaking then fun _ => [] else execSeqEvents fuel f cs (if v.isSome then v else acc)

def evalArgsEvents : Nat → Frame → List Command → Machine → List CounterEvent
  | 0, _, _ => fun _ => []
  | _ + 1, _, [] => fun _ => []
  | fuel + 1, f, c :: cs =>
    bind (exec fuel f c) (execEvents fuel f c) fun (_, f) => evalArgsEvents fuel f cs

def evalArgEvents : Nat → Frame → List Command → Nat → Machine → List CounterEvent
  | 0, _, _, _ => fun _ => []
  | fuel + 1, f, args, n =>
    match args[n]? with
    | some c => execEvents fuel f c
    | none => fun _ => []

def evalOpEvents : Nat → Frame → Operator → List Command → Machine → List CounterEvent
  | 0, _, _, _ => fun _ => []
  | fuel + 1, f, o, args =>
    match o.opClass with
    | .control =>
      bind (evalArg fuel f args 0) (evalArgEvents fuel f args 0) fun (c, f) =>
        if c != 0 then evalArgEvents fuel f args 1 else evalArgEvents fuel f args 2
    | .pure => evalArgsEvents fuel f (args.take 3)
    | .effect =>
      bind (evalArgs fuel f (args.take 3)) (evalArgsEvents fuel f (args.take 3)) fun (a, f) =>
        getOpEvents fuel f o a

def getOpEvents : Nat → Frame → Operator → List Int16 → Machine → List CounterEvent
  | 0, _, _, _ => fun _ => []
  | fuel + 1, f, o, _ =>
    match o with
    | .stackAll => bind scene (fun _ => []) fun s => stackAllEvents fuel f.depth s.stack.size
    | .stackPop =>
      bind popStack (fun _ => []) fun e =>
        match e with
        | some e => runStackedEvents fuel f.depth e
        | none => fun _ => []
    | _ => fun _ => []

def setOpEvents : Nat → Frame → Operator → List Int16 → Int16 → Machine → List CounterEvent
  | 0, _, _, _, _ => fun _ => []
  | fuel + 1, f, o, _, v =>
    match o with
    | .script =>
      match channel v Scene.scriptCount with
      | some s => runAtEvents fuel s (f.depth + 1)
      | none => fun _ => []
    | _ => fun _ => []

def stackAllEvents : Nat → Nat → Nat → Machine → List CounterEvent
  | 0, _, _ => fun _ => []
  | _ + 1, _, 0 => fun _ => []
  | fuel + 1, depth, count + 1 =>
    bind popStack (fun _ => []) fun e =>
      match e with
      | none => fun _ => []
      | some e =>
        bind (runStacked fuel depth e) (runStackedEvents fuel depth e) fun _ =>
          stackAllEvents fuel depth count

def runStackedEvents : Nat → Nat → StackEntry → Machine → List CounterEvent
  | 0, _, _ => fun _ => []
  | fuel + 1, depth, e =>
    fresh (execEvents fuel { script := e.script, depth, index := e.index } e.command)

def execModifierEvents : Nat → Frame → Modifier → List Command → Command → Machine →
    List CounterEvent
  | 0, _, _, _, _ => fun _ => []
  | fuel + 1, f, m, args, body =>
    match m with
    | .ifThen =>
      bind (evalArg fuel f args 0) (evalArgEvents fuel f args 0) fun (c, f) =>
        if c != 0 then execEvents fuel { f with ifElse := c == 0 } body else fun _ => []
    | .elif =>
      if f.ifElse then
        bind (evalArg fuel f args 0) (evalArgEvents fuel f args 0) fun (c, f) =>
          if c != 0 then execEvents fuel { f with ifElse := false } body else fun _ => []
      else fun _ => []
    | .orElse => if f.ifElse then execEvents fuel { f with ifElse := false } body else fun _ => []
    | .loop =>
      bind (evalArg fuel f args 0) (evalArgEvents fuel f args 0) fun (a, f) =>
        bind (evalArg fuel f args 1) (evalArgEvents fuel f args 1) fun (b, f) =>
          execLoopEvents fuel f body a.toInt (if a.toInt ≤ b.toInt then 1 else -1)
            ((b.toInt - a.toInt).natAbs + 1)
    | .whileLoop => execWhileEvents fuel f (args.headD .nop) body 0
    | .every | .skip =>
      bind (evalArg fuel f args 0) (evalArgEvents fuel f args 0) fun (n, f) =>
        tickEvents m f n fun g => execEvents fuel g body
    | .other =>
      fun st => .other (!f.everyFired) :: (if !f.everyFired then execEvents fuel f body st else [])
    | .prob =>
      bind (evalArg fuel f args 0) (evalArgEvents fuel f args 0) fun (n, f) =>
        bind scene (fun _ => []) fun s =>
          match s.rng.int32Between 0 99 with
          | (r, g) =>
            bind (modifyScene fun s => { s with rng := g }) (fun _ => []) fun _ =>
              if r < n.toInt then execEvents fuel f body else fun _ => []
    | .delay => evalArgEvents fuel f args 0
    | .delayRepeat =>
      bind (evalArg fuel f args 0) (evalArgEvents fuel f args 0) fun (_, f) =>
        evalArgEvents fuel f args 1
    | .delayRun =>
      bind (evalArg fuel f args 0) (evalArgEvents fuel f args 0) fun (n, f) =>
        bind (evalArg fuel f args 1) (evalArgEvents fuel f args 1) fun (_, f) =>
          if copiesOf n > 0 then execEvents fuel f body else fun _ => []
    | .stack => fun _ => []

def execLoopEvents : Nat → Frame → Command → Int → Int → Nat → Machine → List CounterEvent
  | 0, _, _, _, _, _ => fun _ => []
  | _ + 1, _, _, _, _, 0 => fun _ => []
  | fuel + 1, f, body, i, step, count + 1 =>
    bind (exec fuel { f with index := Int16.ofInt i } body)
        (execEvents fuel { f with index := Int16.ofInt i } body) fun (_, f) =>
      if f.breaking || count == 0 then fun _ => [] else execLoopEvents fuel f body (i + step) step count

def execWhileEvents : Nat → Frame → Command → Command → Nat → Machine → List CounterEvent
  | 0, _, _, _, _ => fun _ => []
  | fuel + 1, f, cond, body, count =>
    if count ≥ Scene.whileLimit then fun _ => []
    else
      bind (exec fuel f cond) (execEvents fuel f cond) fun (c, f) =>
        if c.getD 0 == 0 then fun _ => []
        else
          bind (exec fuel f body) (execEvents fuel f body) fun (_, f) =>
            if f.breaking then fun _ => [] else execWhileEvents fuel f cond body (count + 1)

/-- The events of `runAt`: those of the script's lines, in a fresh frame. -/
def runAtEvents : Nat → Nat → Nat → Machine → List CounterEvent
  | 0, _, _ => fun _ => []
  | fuel + 1, script, depth =>
    if depth ≥ Scene.maxDepth then fun _ => []
    else
      bind scene (fun _ => []) fun s =>
        match s.scripts[script]? with
        | none => fun _ => []
        | some sc =>
          bind ticks (fun _ => []) fun now =>
            bind (modifyScene fun s => { s with lastRun := s.lastRun.set script now })
                (fun _ => []) fun _ =>
              fresh (runLinesEvents fuel { script, depth } (sc.lines.map (·.command)) 0 none)

def runLinesEvents : Nat → Frame → List Command → Nat → Option Int16 → Machine →
    List CounterEvent
  | 0, _, _, _, _ => fun _ => []
  | _ + 1, _, [], _, _ => fun _ => []
  | fuel + 1, f, c :: cs, n, acc =>
    bind (exec fuel { f with line := some n } c) (execEvents fuel { f with line := some n } c)
      fun (v, f) =>
        if f.breaking then fun _ => [] else runLinesEvents fuel f cs (n + 1) (if v.isSome then v else acc)

end

end Executor

/-! ### The events of the entry points -/

/-- The events of running `m x` for each `x` in turn, `E x` giving those of `m x`. -/
def CounterEvent.each {γ α : Type} (m : γ → Act α) (E : γ → Machine → List CounterEvent) :
    List γ → Machine → List CounterEvent
  | [] => fun _ => []
  | x :: xs => CounterEvent.bind (m x) (E x) fun _ => CounterEvent.each m E xs

namespace Machine

open Executor CounterEvent

/-- The events of `run`: those of the script's run. -/
def runEvents (script : Nat) : Machine → List CounterEvent := runAtEvents fuel script 0

/-- The events of `execute`: a line that compiles runs in a fresh frame. -/
def executeEvents (text : String) : Machine → List CounterEvent :=
  match (Line.ofText text).error with
  | some _ => fun _ => []
  | none =>
    fresh (execEvents fuel { script := Scene.liveScript, depth := 0 } (Line.ofText text).command)

/-- The events of `fireDue`: each delayed command fired runs in a fresh frame. -/
def fireDueEvents (now : UInt32) (before : Nat) : Nat → Nat → Machine → List CounterEvent
  | 0, _ => fun _ => []
  | count + 1, fired =>
    bind Act.scene (fun _ => []) fun s =>
      match s.delays.popDueBefore now before with
      | (e, q) =>
        match e with
        | none => fun _ => []
        | some e =>
          bind (Act.modifyScene fun s => { s with delays := q }) (fun _ => []) fun _ =>
            bind (exec fuel { script := e.script, depth := 0, index := e.index } e.command)
              (fresh (execEvents fuel { script := e.script, depth := 0, index := e.index }
                e.command))
              fun _ => fireDueEvents now before count (fired + 1)

def advanceDelaysEvents (now : UInt32) : Machine → List CounterEvent :=
  bind Act.scene (fun _ => []) fun s => fireDueEvents now s.delays.nextSeq s.delays.size 0

/-- The events of `init`: those of INIT's run. -/
def initEvents : Machine → List CounterEvent :=
  bind (Act.modifyScene fun s => { s with initializing := true }) (fun _ => []) fun _ =>
    runEvents Scene.initScript

/-- The events of `trigger`: those of the input's script, when the edge runs it. -/
def triggerEvents (input : Nat) (rising : Bool) : Machine → List CounterEvent :=
  if input ≥ Scene.triggerCount then fun _ => []
  else
    bind Act.scene (fun _ => []) fun s =>
      let n := if s.flip then Scene.triggerCount - 1 - input else input
      if s.mutes.getD n false then fun _ => []
      else if (s.polarity.getD n 0) &&& (if rising then 1 else 2) == 0 then fun _ => []
      else runEvents n

/-- The events of `metroTick`: those of METRO, unless it is empty. -/
def metroTickEvents : Machine → List CounterEvent :=
  bind Act.scene (fun _ => []) fun s =>
    if (s.scripts.getD Scene.metroScript Script.empty).isEmpty then fun _ => []
    else runEvents Scene.metroScript

/-- The events of `midiIn`: those of the script a clock or transport event runs. -/
def midiInEvents (msg : MidiMessage) : Machine → List CounterEvent :=
  bind Act.scene (fun _ => []) fun s =>
    match s.midi.receive msg with
    | (r, m) =>
      bind (Act.modifyScene fun s => { s with midi := m }) (fun _ => []) fun _ =>
        match r with
        | .run script => runEvents script
        | _ => fun _ => []

/-- The events of `midiFlush`: those of each due script in turn. -/
def midiFlushEvents : Machine → List CounterEvent :=
  bind Act.scene (fun _ => []) fun s => each run runEvents s.midi.dueScripts

def dispatchEvents : Input → Machine → List CounterEvent
  | .trigger input rising => triggerEvents input rising
  | .tick now => advanceDelaysEvents now
  | .metro => metroTickEvents
  | .pulseEnd _ => fun _ => []
  | .gridKey _ _ _ => fun _ => []
  | .midi msg => midiInEvents msg
  | .midiFlush => midiFlushEvents

/-- The events of `drain`: those of each input in turn. -/
def drainEvents (inputs : List Input) : Machine → List CounterEvent :=
  each dispatch dispatchEvents inputs

end Machine

end TriggerScript
