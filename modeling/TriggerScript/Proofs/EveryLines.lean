import TriggerScript.Proofs.CounterRuns
import TriggerScript.Proofs.DeferredCommands
import TriggerScript.Proofs.HardwareContract
/-!
`EVERY`, `SKIP` and `OTHER` lines over runs of calls.

Each entry point makes whole runs, accounted for by its events (`Machine.run_runs` and the
like), and so does each call a caller makes (`Call.events`). Over a sequence of calls that
leaves a script alone, the ticks of the counter of one of its `EVERY` or `SKIP` lines read the
counts the ticks before them left, were made by that line, and ran the body as the line says.
-/

set_option autoImplicit false
set_option relaxedAutoImplicit false

namespace TriggerScript

open Act CounterEvent Executor

/-! ### The entry points -/

namespace Machine

variable {scs : List Script} (hscs : ∀ sc ∈ scs, ∀ l ∈ sc.lines, l.command.LineShaped)
include hscs

theorem run_runs (script : Nat) : Runs scs (run script) (runEvents script) := by
  simp only [run]
  refine Runs.congr (T := CounterEvent.bind Act.scene (fun _ => []) fun _ => runEvents script)
    (Runs.tickless_bind Tickless.scene fun _ => ?_) fun _ => rfl
  refine ((tracedAt hscs fuel).runAt script 0).bind_silent fun _ => Runs.tickless ?_
  exact Tickless.bind Tickless.scene fun _ => Tickless.ite (Tickless.pure _) (Tickless.pure _)

theorem execute_runs (text : String) : Runs scs (execute text) (executeEvents text) := by
  simp only [execute, executeEvents]
  rcases (Line.ofText text).error with _ | e
  · have hrun := (tracedAt hscs fuel).exec { script := Scene.liveScript, depth := 0 }
      (Line.ofText text).command trivial
    exact (Runs.fresh hrun).bind_silent fun _ => Runs.tickless (Tickless.pure _)
  · exact Runs.tickless (Tickless.pure _)

theorem fireDue_runs (now : UInt32) (before : Nat) (count fired : Nat) :
    Runs scs (fireDue now before count fired) (fireDueEvents now before count fired) := by
  induction count generalizing fired with
  | zero => simp only [fireDue, fireDueEvents]; exact Runs.tickless (Tickless.pure _)
  | succ count ih =>
    simp only [fireDue, fireDueEvents]
    refine Runs.scene_bind fun s _ => ?_
    rcases s.delays.popDueBefore now before with ⟨_ | e, q⟩
    · exact Runs.tickless (Tickless.pure _)
    · -- a delayed command runs in a fresh frame, outside any script line
      refine Runs.tickless_bind (Tickless.modifyScene fun _ => rfl) fun _ => ?_
      exact Runs.bind (Runs.fresh ((tracedAt hscs fuel).exec _ e.command trivial)) fun _ =>
        ih (fired + 1)

theorem advanceDelays_runs (now : UInt32) :
    Runs scs (advanceDelays now) (advanceDelaysEvents now) := by
  simp only [advanceDelays, advanceDelaysEvents]
  exact Runs.scene_bind fun _ _ => fireDue_runs hscs now _ _ _

theorem init_runs : Runs scs init initEvents := by
  simp only [init, initEvents]
  refine Runs.tickless_bind (Tickless.modifyScene fun _ => rfl) fun _ => ?_
  exact (run_runs hscs _).bind_silent fun _ =>
    Runs.tickless (Tickless.bind (Tickless.modifyScene fun _ => rfl) fun _ => Tickless.pure _)

theorem trigger_runs (input : Nat) (rising : Bool) :
    Runs scs (trigger input rising) (triggerEvents input rising) := by
  simp only [trigger, triggerEvents]
  refine Runs.ite (Runs.tickless (Tickless.pure _)) (Runs.scene_bind fun _ _ => ?_)
  refine Runs.ite (Runs.tickless (Tickless.pure _)) (Runs.ite (Runs.tickless (Tickless.pure _)) ?_)
  exact (run_runs hscs _).bind_silent fun _ => Runs.tickless (Tickless.pure _)

theorem metroTick_runs : Runs scs metroTick metroTickEvents := by
  simp only [metroTick, metroTickEvents]
  refine Runs.scene_bind fun _ _ => Runs.ite (Runs.tickless (Tickless.pure _)) ?_
  exact (run_runs hscs _).bind_silent fun _ => Runs.tickless (Tickless.pure _)

theorem midiIn_runs (msg : MidiMessage) : Runs scs (midiIn msg) (midiInEvents msg) := by
  simp only [midiIn, midiInEvents]
  refine Runs.scene_bind fun s _ => ?_
  rcases s.midi.receive msg with ⟨r, m⟩
  refine Runs.tickless_bind (Tickless.modifyScene fun _ => rfl) fun _ => ?_
  cases r with
  | kept => exact Runs.tickless (Tickless.pure _)
  | dropped => exact Runs.tickless (Tickless.pure _)
  | run script => exact (run_runs hscs script).bind_silent fun _ => Runs.tickless (Tickless.pure _)

theorem midiFlush_runs : Runs scs midiFlush midiFlushEvents := by
  simp only [midiFlush, midiFlushEvents]
  refine Runs.scene_bind fun s _ => ?_
  exact (Runs.forIn_each (run_runs hscs) s.midi.dueScripts).bind_silent fun _ =>
    Runs.tickless (Tickless.bind (Tickless.modifyScene fun _ => rfl) fun _ => Tickless.pure _)

theorem dispatch_runs (input : Input) : Runs scs (dispatch input) (dispatchEvents input) := by
  cases input with
  | trigger input rising =>
    simp only [dispatch, dispatchEvents]
    exact (trigger_runs hscs input rising).bind_silent fun _ => Runs.tickless (Tickless.pure _)
  | tick now =>
    simp only [dispatch, dispatchEvents]
    exact (advanceDelays_runs hscs now).bind_silent fun _ => Runs.tickless (Tickless.pure _)
  | metro =>
    simp only [dispatch, dispatchEvents]
    exact (metroTick_runs hscs).bind_silent fun _ => Runs.tickless (Tickless.pure _)
  | pulseEnd ch =>
    simp only [dispatch, dispatchEvents, pulseEnd]
    refine Runs.tickless (Tickless.ite ?_ (Tickless.pure _))
    exact Tickless.bind Tickless.scene fun _ =>
      Tickless.bind (Tickless.modifyScene fun _ => rfl) fun _ => Tickless.emit _
  | gridKey x y pressed =>
    simp only [dispatch, dispatchEvents, gridPress]
    exact Runs.tickless (Tickless.ite (Tickless.bind (Tickless.modifyScene fun _ => rfl) fun _ =>
      Tickless.emit _) (Tickless.pure _))
  | midi msg => simp only [dispatch, dispatchEvents]; exact midiIn_runs hscs msg
  | midiFlush =>
    simp only [dispatch, dispatchEvents]
    exact (midiFlush_runs hscs).bind_silent fun _ => Runs.tickless (Tickless.pure _)

theorem drain_runs (inputs : List Input) : Runs scs (drain inputs) (drainEvents inputs) := by
  simp only [drain, drainEvents]
  exact (Runs.forIn_each (dispatch_runs hscs) inputs).bind_silent fun _ =>
    Runs.tickless (Tickless.pure _)

end Machine

/-! ### Edits -/

namespace Scene

variable {s s' : Scene}

theorem setDescriptionLine_ok {n : Nat} {text : String} (h : s.setDescriptionLine n text = .ok s') :
    s' = { s with description := s.description.set n text } := by
  unfold setDescriptionLine at h
  split at h
  · cases h
  · split at h
    · cases h
    · split at h
      · cases h
      · cases h
        rfl

theorem CountersShaped.scriptChanged (hs : s.CountersShaped) (k : Nat) (sc : Script) :
    ({ s with scripts := s.scripts.set k sc }.scriptChanged k).CountersShaped := by
  intro i j hi hj
  have hrow := hs i j hi hj
  simp only [Scene.scriptChanged, List.getD_eq_getElem?_getD, List.getElem?_set] at hrow ⊢
  split
  · next hki =>
    subst hki
    have hlen : k < s.every.length := by
      refine Nat.lt_of_not_le fun hle => ?_
      rw [List.getElem?_eq_none hle] at hrow
      exact absurd hrow (Nat.not_lt_zero j)
    simpa [hlen] using hj
  · exact hrow

theorem countersShaped_freshCounters {s : Scene} (h : s.every = freshCounters) : s.CountersShaped := by
  intro i j hi hj
  simp [h, freshCounters, List.getD_eq_getElem?_getD, hi, hj]

theorem getD_replicate_zero (n j : Nat) : (List.replicate n 0).getD j 0 = 0 := by
  rw [List.getD_eq_getElem?_getD, List.getElem?_replicate]
  split <;> rfl

/-- Counters restart at zero: every one in a new scene and after a reset, and those of a script
after it changes. -/
theorem count_restarts (seed : UInt64) (s : Scene) (x : Option (Nat × Nat)) (i j : Nat)
    (sc : Script) :
    (Scene.withSeed seed).count x = 0 ∧ s.resetTransient.count x = 0 ∧
      ({ s with scripts := s.scripts.set i sc }.scriptChanged i).count (some (i, j)) = 0 := by
  have hfresh : ∀ t : Scene, t.every = freshCounters → t.liveEvery = 0 → t.count x = 0 := by
    intro t hevery hlive
    rcases x with _ | ⟨i', j'⟩
    · exact hlive
    · simp only [count, hevery, freshCounters, List.getD_eq_getElem?_getD (l := List.replicate _ _),
        List.getElem?_replicate]
      split
      · exact getD_replicate_zero _ _
      · rfl
  refine ⟨hfresh _ rfl rfl, hfresh _ rfl rfl, ?_⟩
  simp only [scriptChanged, count, List.getD_eq_getElem?_getD (l := s.every.set _ _),
    List.getElem?_set_self']
  cases s.every[i]? with
  | none => rfl
  | some _ => exact getD_replicate_zero _ _

theorem Bounded.count_le (h : s.Bounded) (x : Option (Nat × Nat)) : s.count x ≤ everyMax := by
  rcases x with _ | ⟨i, j⟩
  · exact h.liveEvery
  · simp only [count, List.getD_eq_getElem?_getD]
    cases hrow : s.every[i]? with
    | none => exact Nat.zero_le _
    | some row =>
      rw [Option.getD_some]
      cases hc : row[j]? with
      | none => exact Nat.zero_le _
      | some c => exact h.every row (List.mem_of_getElem? hrow) c (List.mem_of_getElem? hc)

end Scene

/-! ### Runs of one line -/

/-- Events `es` account for line `j` of script `i` from scene `s` to scene `s'`: the line stays
as it was, its counter goes from its count in `s` to its count in `s'` by its ticks, each made by
the line and running the body as the line says, and the events are whole runs. -/
structure LineRun (s s' : Scene) (es : List CounterEvent) (i j : Nat) : Prop where
  script : s'.scripts[i]? = s.scripts[i]?
  chain : Tick.Chain (s.count (some (i, j))) (ticksAt (some (i, j)) es) (s'.count (some (i, j)))
  ticks : ∀ t ∈ ticksAt (some (i, j)) es, t.Lawful ∧ LineTicks s.scripts i j t.skip
  runs : scan [] es = some []

namespace LineRun

variable {s s₁ s₂ : Scene} {es es' : List CounterEvent} {i j : Nat}

theorem quiet (hscript : s₁.scripts[i]? = s.scripts[i]?)
    (hcount : s₁.count (some (i, j)) = s.count (some (i, j))) : LineRun s s₁ [] i j :=
  ⟨hscript, hcount, fun _ h => absurd h List.not_mem_nil, rfl⟩

theorem scriptChanged_other {k : Nat} (hk : k ≠ i) (sc : Script) :
    LineRun s ({ s with scripts := s.scripts.set k sc }.scriptChanged k) [] i j := by
  refine .quiet ?_ ?_
  · simp [Scene.scriptChanged, List.getElem?_set_ne hk]
  · simp [Scene.scriptChanged, Scene.count, List.getElem?_set_ne hk, List.getD_eq_getElem?_getD]

theorem of_whole {io : Io} {st' : Machine} (h : Whole s.scripts ⟨s, io⟩ es st')
    (hs : s.CountersShaped) : LineRun s st'.scene es i j where
  script := by rw [h.accounts.scripts]
  chain := h.accounts.chain hs _
  ticks t ht := by
    obtain ⟨hlawful, hline⟩ := h.accounts.sound _ (mem_of_mem_ticksAt ht)
    exact ⟨hlawful, hline i j rfl⟩
  runs := h.runs []

theorem LineTicks.congr {scs scs' : List Script} {i j : Nat} {skip : Bool}
    (h : scs'[i]? = scs[i]?) (hl : LineTicks scs' i j skip) : LineTicks scs i j skip := by
  obtain ⟨sc, l, args, body, hsc, hrest⟩ := hl
  exact ⟨sc, l, args, body, h ▸ hsc, hrest⟩

theorem trans (h₁ : LineRun s s₁ es i j) (h₂ : LineRun s₁ s₂ es' i j) :
    LineRun s s₂ (es ++ es') i j where
  script := h₂.script.trans h₁.script
  chain := by
    rw [ticksAt_append, Tick.chain_append]
    exact ⟨_, h₁.chain, h₂.chain⟩
  ticks t ht := by
    rw [ticksAt_append, List.mem_append] at ht
    rcases ht with ht | ht
    · exact h₁.ticks t ht
    · obtain ⟨hlawful, hline⟩ := h₂.ticks t ht
      exact ⟨hlawful, LineTicks.congr h₁.script hline⟩
  runs := by rw [scan_append, h₁.runs, Option.bind_some, h₂.runs]

end LineRun

/-! ### Calls -/

namespace Call

/-- The counter events of a call made with the connection `io` on scene `s`: those of the entry
point it makes, none for an edit or a setting. -/
def events (io : Io) (s : Scene) : Call → List CounterEvent
  | .execute text => Machine.executeEvents text ⟨s, io⟩
  | .run script => Machine.runEvents script ⟨s, io⟩
  | .init => Machine.initEvents ⟨s, io⟩
  | .dispatch input => Machine.dispatchEvents input ⟨s, io⟩
  | .drain inputs => Machine.drainEvents inputs ⟨s, io⟩
  | _ => []

/-- The call edits the lines of script `i`, or restarts every counter. -/
def touches (i : Nat) : Call → Bool
  | .editLine script _ _ | .insertLine script _ _ | .deleteLine script _ | .clearScript script =>
    script == i
  | .resetTransient => true
  | _ => false

variable (io : Io) {s : Scene}

theorem entry_whole (hs : s.Stored) {α : Type} {m : Act α} {T : Machine → List CounterEvent}
    (h : (∀ sc ∈ s.scripts, ∀ l ∈ sc.lines, l.command.LineShaped) → Runs s.scripts m T) :
    Whole s.scripts ⟨s, io⟩ (T ⟨s, io⟩) (m.run ⟨s, io⟩).2 :=
  h hs.lineShaped ⟨s, io⟩ rfl

theorem countersShaped (hs : s.Stored) (hc : s.CountersShaped) (c : Call) :
    (c.apply io s).CountersShaped := by
  cases c with
  | execute text =>
    simp only [apply]
    exact (entry_whole io hs (Machine.execute_runs · text)).accounts.shaped hc
  | run script =>
    simp only [apply]
    exact (entry_whole io hs (Machine.run_runs · script)).accounts.shaped hc
  | init => exact (entry_whole io hs Machine.init_runs).accounts.shaped hc
  | dispatch input => exact (entry_whole io hs (Machine.dispatch_runs · input)).accounts.shaped hc
  | drain inputs => exact (entry_whole io hs (Machine.drain_runs · inputs)).accounts.shaped hc
  | editLine script n text | insertLine script n text =>
    simp only [apply]
    split
    · next hp =>
      obtain ⟨sc, rfl⟩ := Scene.placeLine_ok hp
      exact hc.scriptChanged script sc
    · exact hc
  | deleteLine script n =>
    refine holds_getD hc fun _ hd => ?_
    obtain ⟨sc, rfl⟩ := Scene.deleteLine_ok hd
    exact hc.scriptChanged script sc
  | clearScript script =>
    refine holds_getD hc fun _ hd => ?_
    rw [Scene.clearScript_ok hd]
    exact hc.scriptChanged script _
  | resetTransient => exact Scene.countersShaped_freshCounters rfl
  | setDescriptionLine n text =>
    refine holds_getD hc fun _ hd => ?_
    rw [Scene.setDescriptionLine_ok hd]
    exact hc
  | reseed _ | setMute _ _ | setPolarity _ _ | setCalibration _ | setFlip _ | setSlot _
  | setVar _ _ | editPattern _ _ | editMidi _ => exact hc

theorem entry_lineRun (hs : s.Stored) (hc : s.CountersShaped) (i j : Nat) {α : Type} (m : Act α)
    {T : Machine → List CounterEvent}
    (h : (∀ sc ∈ s.scripts, ∀ l ∈ sc.lines, l.command.LineShaped) → Runs s.scripts m T) :
    LineRun s (m.run ⟨s, io⟩).2.scene (T ⟨s, io⟩) i j :=
  .of_whole (entry_whole io hs h) hc

theorem lineRun (hs : s.Stored) (hc : s.CountersShaped) (i j : Nat) (c : Call)
    (htouch : c.touches i = false) : LineRun s (c.apply io s) (c.events io s) i j := by
  cases c with
  | execute text =>
    simp only [apply, events]
    exact entry_lineRun io hs hc i j (Machine.execute text) (Machine.execute_runs · text)
  | run script =>
    simp only [apply, events]
    exact entry_lineRun io hs hc i j (Machine.run script) (Machine.run_runs · script)
  | init => exact entry_lineRun io hs hc i j Machine.init Machine.init_runs
  | dispatch input =>
    exact entry_lineRun io hs hc i j (Machine.dispatch input) (Machine.dispatch_runs · input)
  | drain inputs =>
    exact entry_lineRun io hs hc i j (Machine.drain inputs) (Machine.drain_runs · inputs)
  | editLine script n text | insertLine script n text =>
    have hk : script ≠ i := by simpa [touches] using htouch
    simp only [apply, events]
    split
    · next hp =>
      obtain ⟨sc, rfl⟩ := Scene.placeLine_ok hp
      exact .scriptChanged_other hk sc
    · exact .quiet rfl rfl
  | deleteLine script n =>
    have hk : script ≠ i := by simpa [touches] using htouch
    refine holds_getD (P := fun s' => LineRun s s' [] i j) (.quiet rfl rfl) fun _ hd => ?_
    obtain ⟨sc, rfl⟩ := Scene.deleteLine_ok hd
    exact .scriptChanged_other hk sc
  | clearScript script =>
    have hk : script ≠ i := by simpa [touches] using htouch
    refine holds_getD (P := fun s' => LineRun s s' [] i j) (.quiet rfl rfl) fun _ hd => ?_
    rw [Scene.clearScript_ok hd]
    exact .scriptChanged_other hk _
  | setDescriptionLine n text =>
    refine holds_getD (P := fun s' => LineRun s s' [] i j) (.quiet rfl rfl) fun _ hd => ?_
    rw [Scene.setDescriptionLine_ok hd]
    exact .quiet rfl rfl
  | resetTransient => cases htouch
  | reseed _ | setMute _ _ | setPolarity _ _ | setCalibration _ | setFlip _ | setSlot _
  | setVar _ _ | editPattern _ _ | editMidi _ => exact .quiet rfl rfl

/-- The scene after calls made in turn, each with its own connection. -/
def applyEach : Scene → List (Io × Call) → Scene
  | s, [] => s
  | s, (io, c) :: calls => applyEach (c.apply io s) calls

def eventsEach : Scene → List (Io × Call) → List CounterEvent
  | _, [] => []
  | s, (io, c) :: calls => c.events io s ++ eventsEach (c.apply io s) calls

/-- The ticks of the counter of line `j` of script `i` over calls made in turn, in the order the
counter saw them. -/
def lineTicks (s : Scene) (calls : List (Io × Call)) (i j : Nat) : List Tick :=
  ticksAt (some (i, j)) (eventsEach s calls)

end Call

theorem Scene.Reachable.countersShaped {s : Scene} (h : s.Reachable) : s.CountersShaped := by
  induction h with
  | fresh seed => exact Scene.countersShaped_freshCounters rfl
  | loaded h =>
    obtain ⟨version, f, -, -, rfl, -⟩ := Record.sceneOfImage_inverts h
    exact Scene.countersShaped_freshCounters rfl
  | call io c hs ih => exact Call.countersShaped io hs.stored ih c

theorem Scene.Reachable.lineRun {s : Scene} (h : s.Reachable) (i j : Nat)
    (calls : List (Io × Call)) (hcalls : ∀ p ∈ calls, p.2.touches i = false) :
    LineRun s (Call.applyEach s calls) (Call.eventsEach s calls) i j := by
  induction calls generalizing s with
  | nil => exact .quiet rfl rfl
  | cons p calls ih =>
    obtain ⟨io, c⟩ := p
    have h₁ := Call.lineRun io h.stored h.countersShaped i j c (hcalls _ List.mem_cons_self)
    exact h₁.trans (ih (h.call io c) fun p hp => hcalls p (List.mem_cons_of_mem _ hp))

/-! ### Counting to the period -/

theorem everyTick_below {n : Int16} {p : Nat} (hp : (p : Int) = max 1 n.toInt) {c : Nat}
    (hc : c < p) : everyTick c n = ((c + 1) % p, decide (p ∣ c + 1)) := by
  unfold everyTick
  dsimp only
  rw [← hp]
  by_cases hlast : c + 1 = p
  · rw [if_pos (by omega), hlast, Nat.mod_self]
    simp
  · have hlt : c + 1 < p := by omega
    rw [if_neg (by omega), Nat.mod_eq_of_lt hlt]
    simp [Nat.not_dvd_of_pos_of_lt (Nat.succ_pos c) hlt]

namespace Tick

theorem Chain.count_le : ∀ {ts : List Tick} {c c' : Nat}, Chain c ts c' → c ≤ Scene.everyMax →
    ∀ t ∈ ts, t.count ≤ Scene.everyMax := by
  intro ts
  induction ts with
  | nil => intro _ _ _ _ t ht; exact absurd ht List.not_mem_nil
  | cons t ts ih =>
    intro c c' hchain hc u hu
    obtain ⟨hcount, hrest⟩ := hchain
    rcases List.mem_cons.mp hu with rfl | hu
    · exact hcount ▸ hc
    · exact ih hrest (everyTick_le _ _) u hu

theorem Chain.count_hit {n : Int16} {p : Nat} (hp : (p : Int) = max 1 n.toInt) :
    ∀ {ts : List Tick} {c c' : Nat}, Chain c ts c' → (∀ t ∈ ts, t.period = n) → c < p →
      ∀ k (hk : k < ts.length), ts[k].count = (c + k) % p ∧ (ts[k].hit = true ↔ p ∣ c + k + 1) := by
  intro ts
  induction ts with
  | nil => intro _ _ _ _ _ k hk; exact absurd hk (Nat.not_lt_zero k)
  | cons t ts ih =>
    intro c c' hchain hperiod hc k hk
    obtain ⟨hcount, hrest⟩ := hchain
    have htick : everyTick t.count t.period = ((c + 1) % p, decide (p ∣ c + 1)) := by
      rw [hcount, hperiod t List.mem_cons_self]
      exact everyTick_below hp hc
    cases k with
    | zero =>
      refine ⟨by simpa [Nat.mod_eq_of_lt hc] using hcount, ?_⟩
      simp only [List.getElem_cons_zero, hit, htick, Nat.add_zero, decide_eq_true_eq]
    | succ k =>
      have hnext : t.next = (c + 1) % p := by simp only [next, htick]
      obtain ⟨hk₁, hk₂⟩ := ih (hnext ▸ hrest) (fun u hu => hperiod u (List.mem_cons_of_mem t hu))
        (Nat.mod_lt _ (by omega)) k (by simpa using hk)
      have hmod : ∀ a, ((c + 1) % p + a) % p = (c + 1 + a) % p := fun a => Nat.mod_add_mod _ _ _
      simp only [List.getElem_cons_succ]
      refine ⟨?_, ?_⟩
      · rw [hk₁, hmod, show c + 1 + k = c + (k + 1) by omega]
      · rw [hk₂, Nat.dvd_iff_mod_eq_zero, Nat.dvd_iff_mod_eq_zero, Nat.add_assoc, hmod,
          show c + 1 + (k + 1) = c + (k + 1) + 1 by omega]

end Tick

/-! ### `EVERY`, `SKIP` and `OTHER` -/

/-- **`EVERY`, `SKIP` and `OTHER` lines run their bodies on the right executions.** Let line `j`
of script `i` of a reachable scene be an `EVERY` or a `SKIP` line, and make any calls that leave
script `i` alone. The events of the calls are whole runs, in each of which every `OTHER` line
ran its body exactly when the last `EVERY` or `SKIP` before it in that run had not, or when
there was none (`scan`). Each tick of the line's counter was made by that line, ran the body as
the line says, and read a count below the longest period, so the count never overflows. And if
the counter held zero and the operand gave `n` each time, then, numbering the line's executions
from one in the order they advance its counter, execution `k + 1` runs the body of an `EVERY`
exactly when `max n 1` divides `k + 1`, and that of a `SKIP` exactly when it does not. -/
theorem Scene.Reachable.every_skip_other {s : Scene} (hs : s.Reachable) {i j : Nat} {sc : Script}
    {l : Line} {m : Modifier} {args : List Command} {body : Command}
    (hsc : s.scripts[i]? = some sc) (hl : sc.lines[j]? = some l)
    (hcmd : l.command = .modified m args body) (hm : m = .every ∨ m = .skip)
    (calls : List (Io × Call)) (hcalls : ∀ p ∈ calls, p.2.touches i = false) :
    scan [] (Call.eventsEach s calls) = some [] ∧
    (∀ t ∈ Call.lineTicks s calls i j,
      t.skip = (m == .skip) ∧ t.Lawful ∧ t.count ≤ Scene.everyMax) ∧
    (s.count (some (i, j)) = 0 → ∀ n : Int16, (∀ t ∈ Call.lineTicks s calls i j, t.period = n) →
      ∀ k (hk : k < (Call.lineTicks s calls i j).length),
        ((Call.lineTicks s calls i j)[k].ran = true ↔
          (m = .every ↔ max 1 n.toInt ∣ ((k + 1 : Nat) : Int)))) := by
  have hrun := hs.lineRun i j calls hcalls
  -- each tick of the counter was made by this line, so it is an `EVERY` or a `SKIP` as the line is
  have hline : ∀ t ∈ Call.lineTicks s calls i j, t.skip = (m == .skip) ∧ t.Lawful := by
    intro t ht
    obtain ⟨hlawful, sc', l', args', body', hsc', hl', hcmd'⟩ := hrun.ticks t ht
    obtain rfl := Option.some.inj (hsc.symm.trans hsc')
    obtain rfl := Option.some.inj (hl.symm.trans hl')
    have hm' : m = if t.skip then .skip else .every := (Command.modified.inj (hcmd.symm.trans hcmd')).1
    refine ⟨?_, hlawful⟩
    rw [hm']
    cases t.skip <;> rfl
  have hbound := Tick.Chain.count_le hrun.chain (hs.bounded.count_le _)
  refine ⟨hrun.runs, fun t ht => ⟨(hline t ht).1, (hline t ht).2, hbound t ht⟩, ?_⟩
  intro hzero n hperiod k hk
  obtain ⟨p, hp⟩ : ∃ p : Nat, (p : Int) = max 1 n.toInt :=
    ⟨(max 1 n.toInt).toNat, Int.toNat_of_nonneg (by omega)⟩
  have hchain : Tick.Chain 0 (Call.lineTicks s calls i j) _ := hzero ▸ hrun.chain
  obtain ⟨-, hhit⟩ := Tick.Chain.count_hit hp hchain hperiod (by omega) k hk
  obtain ⟨hskip, hlawful⟩ := hline _ (List.getElem_mem hk)
  have hran : (Call.lineTicks s calls i j)[k].ran = ((Call.lineTicks s calls i j)[k].hit ^^ (m == .skip)) :=
    hskip ▸ hlawful
  have hcomes : (Call.lineTicks s calls i j)[k].hit = true ↔ p ∣ k + 1 := by simpa using hhit
  rw [hran, ← hp, Int.natCast_dvd_natCast, ← hcomes]
  rcases hm with rfl | rfl <;> cases (Call.lineTicks s calls i j)[k].hit <;> decide

/-- A new scene given the first script's line `EV 2: A 1`, run twice. -/
theorem every_line_of_new_scene :
    let s := (Call.insertLine 0 0 "EV 2: A 1").apply Io.silent (Scene.withSeed 0)
    let calls := [(Io.silent, Call.run 0), (Io.silent, Call.run 0)]
    s.scripts[0]? = some ⟨[Line.ofText "EV 2: A 1"]⟩ ∧
    (Line.ofText "EV 2: A 1").command =
      .modified .every [.literal 2] (.store (.global 0) (.literal 1)) ∧
    (∀ p ∈ calls, p.2.touches 0 = false) ∧
    scan [] (Call.eventsEach s calls) = some [] ∧
    (∀ t ∈ Call.lineTicks s calls 0 0,
      t.skip = (Modifier.every == .skip) ∧ t.Lawful ∧ t.count ≤ Scene.everyMax) ∧
    (s.count (some (0, 0)) = 0 → ∀ n : Int16, (∀ t ∈ Call.lineTicks s calls 0 0, t.period = n) →
      ∀ k (hk : k < (Call.lineTicks s calls 0 0).length),
        ((Call.lineTicks s calls 0 0)[k].ran = true ↔
          (Modifier.every = .every ↔ max 1 n.toInt ∣ ((k + 1 : Nat) : Int)))) := by
  intro s calls
  have hline : (Line.ofText "EV 2: A 1").command =
      .modified .every [.literal 2] (.store (.global 0) (.literal 1)) ∧
      (Line.ofText "EV 2: A 1").isStorable = true ∧ (Line.ofText "EV 2: A 1").error = none := by
    decide +kernel
  have hsc : s.scripts[0]? = some ⟨[Line.ofText "EV 2: A 1"]⟩ := by
    have hfirst : (Scene.withSeed 0).scripts[0]? = some Script.empty := rfl
    simp only [s, Call.apply, Scene.placeLine, Scene.script?, hfirst, hline.2.1, hline.2.2]
    rfl
  have hcalls : ∀ p ∈ calls, p.2.touches 0 = false := by simp [calls, Call.touches]
  exact ⟨hsc, hline.1, hcalls, Scene.Reachable.every_skip_other (.call Io.silent _ (.fresh 0)) hsc
    rfl hline.1 (.inl rfl) calls hcalls⟩

/-- A new scene with pattern length four, whose first script's line is
`EV ADD 2 MUL 0 ADD S.POP P.NEXT: A P.I`, with `SCRIPT 1` on the stack. -/
def nestedEveryScene : Scene :=
  (Call.execute "S: SCRIPT 1").apply Io.silent
    ((Call.editLine 0 0 "EV ADD 2 MUL 0 ADD S.POP P.NEXT: A P.I").apply Io.silent
      ((Call.execute "P.L 4").apply Io.silent (Scene.withSeed 0)))

/-- Executions of a line are counted in the order they advance its counter, not the order they
start. Running the first script of `nestedEveryScene`, the line's operand pops `SCRIPT 1`, which
runs the line again, nested: the nested execution, started second, advances the counter first and
does not run its body; the outer execution, started first, advances it second and runs its body,
which sets `A` to the pattern index both `P.NEXT`s left, two. -/
theorem nested_every_line_ticks_first :
    Call.lineTicks nestedEveryScene [(Io.silent, .run 0)] 0 0 =
      [⟨false, 2, 0, false⟩, ⟨false, 2, 1, true⟩] ∧
    ((Call.run 0).apply Io.silent nestedEveryScene).var 0 = 2 := by
  decide +kernel

end TriggerScript
