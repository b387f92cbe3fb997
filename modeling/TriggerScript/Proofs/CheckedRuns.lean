import TriggerScript.Checked.Executor
import TriggerScript.Proofs.CheckedParts
import TriggerScript.Proofs.HardwareContract
import TriggerScript.Proofs.DelayModifiers
/-!
Runs from a sound scene stop nothing while the counters have room.

A scene is sound (`Scene.Sound`) when it is stored and bounded and its MIDI clock is in range.
Every step of a run keeps it (`sound_stable`), by what the library already proves. No step of a run lowers a counter of the
statistics or the sequence number of the delay queue (`grows_moveStable`), so a run whose
counters end in their machine words has them there at every step.

`Refines mc m` says that `mc` is `m` with its checks, and that the checks never stop a run of
`m` from a sound scene whose counters end in their words: `mc` then answers exactly as `m`.
Refinement composes through `bind`, and each primitive step of a run refines its plain
namesake: the checks it makes hold of a sound scene, and a count it raises is in its word
because the end of the run is.
-/

set_option autoImplicit false
set_option relaxedAutoImplicit false

namespace TriggerScript

open Act Checked

/-! ### The sound scenes -/

/-- The invariant under which a run stops nothing. -/
structure Scene.Sound (s : Scene) : Prop where
  stored : s.Stored
  bounded : s.Bounded
  clock : s.midi.ClockRange

theorem Act.Keeps.sound {α : Type} {m : Act α} (h₁ : Keeps Scene.Stored m)
    (h₂ : Keeps Scene.Bounded m) (h₃ : Keeps (fun s => s.midi.ClockRange) m) :
    Keeps Scene.Sound m :=
  fun st hs => ⟨h₁ st hs.stored, h₂ st hs.bounded, h₃ st hs.clock⟩

namespace Executor

variable {I : Scene → Prop} {L : Event → Prop}

theorem LogStable.stable (h : LogStable I L) : Stable I :=
  ⟨h.exhaust.keeps, fun f v => (h.readVar f v).keeps, fun f v x => (h.writeVar f v x).keeps,
    fun f n => (h.tickEvery f n).keeps, fun f body t => (h.defer f body t).keeps,
    fun f body => (h.stackBody f body).keeps, h.popStack.keeps, fun f o a => (h.read f o a).keeps,
    fun o a v => (h.write o a v).keeps, h.abort, h.lastRun, h.rng⟩

theorem sound_stable : Stable Scene.Sound :=
  have h₁ := stored_stable
  have h₂ := LogStable.stable bounded_logStable
  have h₃ := Midi.clockRange_invariant.stable
  ⟨.sound h₁.exhaust h₂.exhaust h₃.exhaust,
    fun f v => .sound (h₁.readVar f v) (h₂.readVar f v) (h₃.readVar f v),
    fun f v x => .sound (h₁.writeVar f v x) (h₂.writeVar f v x) (h₃.writeVar f v x),
    fun f n => .sound (h₁.tickEvery f n) (h₂.tickEvery f n) (h₃.tickEvery f n),
    fun f body t => .sound (h₁.defer f body t) (h₂.defer f body t) (h₃.defer f body t),
    fun f body => .sound (h₁.stackBody f body) (h₂.stackBody f body) (h₃.stackBody f body),
    .sound h₁.popStack h₂.popStack h₃.popStack,
    fun f o a => .sound (h₁.read f o a) (h₂.read f o a) (h₃.read f o a),
    fun o a v => .sound (h₁.write o a v) (h₂.write o a v) (h₃.write o a v),
    fun s hs => ⟨h₁.abort s hs.stored, h₂.abort s hs.bounded, h₃.abort s hs.clock⟩,
    fun s script now hs => ⟨h₁.lastRun s script now hs.stored, h₂.lastRun s script now hs.bounded,
      h₃.lastRun s script now hs.clock⟩,
    fun s g hs => ⟨h₁.rng s g hs.stored, h₂.rng s g hs.bounded, h₃.rng s g hs.clock⟩⟩

end Executor

/-! ### The counters -/

/-- The counters the program keeps in machine words have not passed their words' ends: the
three counts of the statistics in 32 bits, the delay queue's sequence number in 64. -/
structure Scene.CountersFit (s : Scene) : Prop where
  depthAborts : s.stats.depthAborts ≤ 4294967295
  droppedDelays : s.stats.droppedDelays ≤ 4294967295
  droppedStack : s.stats.droppedStack ≤ 4294967295
  nextSeq : s.delays.nextSeq ≤ DelayQueue.seqLimit

/-- No counter of `s` is above its value in `s'`. -/
structure Scene.CountersGrow (s s' : Scene) : Prop where
  depthAborts : s.stats.depthAborts ≤ s'.stats.depthAborts
  droppedDelays : s.stats.droppedDelays ≤ s'.stats.droppedDelays
  droppedStack : s.stats.droppedStack ≤ s'.stats.droppedStack
  nextSeq : s.delays.nextSeq ≤ s'.delays.nextSeq

namespace Scene

variable {s s' s'' : Scene}

theorem CountersGrow.refl (s : Scene) : s.CountersGrow s := ⟨Nat.le_refl _, Nat.le_refl _,
  Nat.le_refl _, Nat.le_refl _⟩

theorem CountersGrow.same (h₁ : s.stats.depthAborts = s'.stats.depthAborts)
    (h₂ : s.stats.droppedDelays = s'.stats.droppedDelays)
    (h₃ : s.stats.droppedStack = s'.stats.droppedStack) (h₄ : s.delays.nextSeq = s'.delays.nextSeq) :
    s.CountersGrow s' :=
  ⟨Nat.le_of_eq h₁, Nat.le_of_eq h₂, Nat.le_of_eq h₃, Nat.le_of_eq h₄⟩

theorem CountersGrow.trans (h₁ : s.CountersGrow s') (h₂ : s'.CountersGrow s'') :
    s.CountersGrow s'' :=
  ⟨Nat.le_trans h₁.depthAborts h₂.depthAborts, Nat.le_trans h₁.droppedDelays h₂.droppedDelays,
    Nat.le_trans h₁.droppedStack h₂.droppedStack, Nat.le_trans h₁.nextSeq h₂.nextSeq⟩

theorem CountersFit.of_grow (h : s.CountersGrow s') (hf : s'.CountersFit) : s.CountersFit :=
  ⟨Nat.le_trans h.depthAborts hf.depthAborts, Nat.le_trans h.droppedDelays hf.droppedDelays,
    Nat.le_trans h.droppedStack hf.droppedStack, Nat.le_trans h.nextSeq hf.nextSeq⟩

end Scene

abbrev Grows (st st' : Machine) : Prop := st.scene.CountersGrow st'.scene

theorem grows_chains : Chains Grows :=
  ⟨fun st => Scene.CountersGrow.refl st.scene, fun h₁ h₂ => Scene.CountersGrow.trans h₁ h₂⟩

theorem Act.Moves.scene_bind {α : Type} {R : Machine → Machine → Prop} {g : Scene → Act α}
    (h : ∀ st : Machine, R st ((g st.scene).run st).2) : Moves R (scene >>= g) := h

theorem DelayQueue.schedule_nextSeq {q q' : DelayQueue} {script : Nat} {index : Int16}
    {command : Command} {fire : UInt32} (h : q.schedule script index command fire = .ok q') :
    q'.nextSeq = q.nextSeq + 1 := by
  unfold DelayQueue.schedule at h
  split at h
  · cases h
  · cases h
    rfl

namespace Executor

/-- No step of a run lowers a counter: a scheduled body raises the sequence number, and a body
dropped or a call cut at the depth limit raises its count. -/
theorem grows_moveStable : MoveStable Grows := by
  refine ⟨grows_chains, Moves.modifyScene fun _ => .same rfl rfl rfl rfl, fun f v => ?readVar,
    fun f v x => ?writeVar, fun f n => ?tickEvery, fun f body t => ?defer,
    fun f body => ?stackBody, ?popStack, fun f o a => ?read, fun o a v => ?write,
    fun st => ?abort, fun _ _ _ => .same rfl rfl rfl rfl, fun _ _ => .same rfl rfl rfl rfl⟩
  case abort => exact ⟨Nat.le_succ _, Nat.le_refl _, Nat.le_refl _, Nat.le_refl _⟩
  case defer =>
    unfold defer
    refine grows_chains.bind grows_chains.ticks fun _ => Moves.scene_bind fun st => ?_
    split
    · next q hok =>
      exact ⟨Nat.le_refl _, Nat.le_refl _, Nat.le_refl _,
        Nat.le_of_eq (DelayQueue.schedule_nextSeq hok).symm |>.trans' (Nat.le_succ _)⟩
    · exact ⟨Nat.le_refl _, Nat.le_succ _, Nat.le_refl _, Nat.le_refl _⟩
  case stackBody =>
    unfold stackBody
    refine Moves.scene_bind fun st => ?_
    split
    · exact .same rfl rfl rfl rfl
    · exact ⟨Nat.le_refl _, Nat.le_refl _, Nat.le_succ _, Nat.le_refl _⟩
  case' readVar => cases v <;> simp only [readVar]
  case' writeVar => cases v <;> simp only [writeVar]
  case' tickEvery => simp only [tickEvery]
  case' popStack => simp only [popStack]
  case' read =>
    unfold Operators.read
    refine grows_chains.bind grows_chains.scene fun s => ?_
    split <;>
      simp only [Operators.kill, Operators.calibrate, Operators.patternRead, Operators.writeCv,
        drawBetween]
  case' write =>
    unfold Operators.write
    split <;> simp only [Operators.patternWrite, Operators.writeCv]
  all_goals
    repeat (first
      | with_reducible exact grows_chains.pure _
      | with_reducible exact grows_chains.scene
      | with_reducible exact grows_chains.get
      | with_reducible exact grows_chains.ticks
      | with_reducible refine grows_chains.bind ?_ fun _ => ?_
      | with_reducible refine grows_chains.forIn_list _ _ _ fun _ _ => ?_
      | with_reducible exact Moves.emit fun st => .refl st.scene
      | with_reducible exact Moves.modifyScene fun _ => .same rfl rfl rfl rfl
      | split
      | exact Moves.modifyScene fun _ => .same rfl rfl rfl rfl)

end Executor

/-! ### Refinement -/

namespace CheckedAct

variable {α β : Type}

/-- `mc` is `m` with its checks, and they stop no run of `m` from a sound scene whose counters
end in their words: from a sound scene `m` keeps the scene sound and lowers no counter, and
`mc` answers as `m` whenever the counters at the end of `m` fit. -/
structure Refines (mc : CheckedAct α) (m : Act α) : Prop where
  keeps : Keeps Scene.Sound m
  grows : ∀ st : Machine, st.scene.Sound → Grows st (m.run st).2
  agrees : ∀ st : Machine, st.scene.Sound → (m.run st).2.scene.CountersFit →
    mc.run st = .ok (m.run st)

/-- `Refines` from the machines whose scene is `s`: what a step does after reading the scene
may depend on it. -/
structure RefinesFrom (s : Scene) (mc : CheckedAct α) (m : Act α) : Prop where
  keeps : ∀ st : Machine, st.scene = s → (m.run st).2.scene.Sound
  grows : ∀ st : Machine, st.scene = s → Grows st (m.run st).2
  agrees : ∀ st : Machine, st.scene = s → (m.run st).2.scene.CountersFit →
    mc.run st = .ok (m.run st)

variable {s : Scene}

theorem Refines.from {mc : CheckedAct α} {m : Act α} (h : Refines mc m) (hs : s.Sound) :
    RefinesFrom s mc m :=
  ⟨fun st e => h.keeps st (e ▸ hs), fun st e => h.grows st (e ▸ hs),
    fun st e => h.agrees st (e ▸ hs)⟩

theorem Refines.of_from {mc : CheckedAct α} {m : Act α}
    (h : ∀ s : Scene, s.Sound → RefinesFrom s mc m) : Refines mc m :=
  ⟨fun st hs => (h st.scene hs).keeps st rfl, fun st hs => (h st.scene hs).grows st rfl,
    fun st hs hfit => (h st.scene hs).agrees st rfl hfit⟩

namespace RefinesFrom

theorem bind {mx : CheckedAct α} {x : Act α} {mg : α → CheckedAct β} {g : α → Act β}
    (hx : RefinesFrom s mx x) (hg : ∀ a, Refines (mg a) (g a)) :
    RefinesFrom s (mx >>= mg) (x >>= g) where
  keeps st e := (hg _).keeps _ (hx.keeps st e)
  grows st e := Scene.CountersGrow.trans (hx.grows st e) ((hg _).grows _ (hx.keeps st e))
  agrees st e hfit := by
    have hmid := hfit.of_grow ((hg (x.run st).1).grows (x.run st).2 (hx.keeps st e))
    rw [StateT.run_bind, hx.agrees st e hmid, ok_bind]
    exact (hg _).agrees _ (hx.keeps st e) hfit

theorem check_bind {c : Checked Unit} {mc : CheckedAct α} {m : Act α} (hc : c = .ok ())
    (h : RefinesFrom s mc m) : RefinesFrom s (check c >>= fun _ => mc) m :=
  ⟨h.keeps, h.grows, fun st e hfit => by
    rw [StateT.run_bind]
    show ((c >>= fun _ => Except.ok ((), st)) >>= fun p => mc.run p.2) = _
    rw [hc, ok_bind, ok_bind]
    exact h.agrees st e hfit⟩

theorem modifyScene {g : Scene → Scene} (hk : (g s).Sound) (hg : s.CountersGrow (g s)) :
    RefinesFrom s (Executor.Checked.modifyScene g) (Act.modifyScene g) :=
  ⟨fun st e => show (g st.scene).Sound from e ▸ hk,
    fun st e => show st.scene.CountersGrow (g st.scene) from e ▸ hg, fun _ _ _ => rfl⟩

end RefinesFrom

namespace Refines

theorem pure (a : α) : Refines (Pure.pure a) (Pure.pure a : Act α) :=
  ⟨Keeps.pure a, fun st _ => grows_chains.pure a st, fun _ _ _ => rfl⟩

theorem bind {mx : CheckedAct α} {x : Act α} {mg : α → CheckedAct β} {g : α → Act β}
    (hx : Refines mx x) (hg : ∀ a, Refines (mg a) (g a)) : Refines (mx >>= mg) (x >>= g) :=
  of_from fun _ hs => (hx.from hs).bind hg

theorem check_bind {c : Checked Unit} {mc : CheckedAct α} {m : Act α} (hc : c = .ok ())
    (h : Refines mc m) : Refines (check c >>= fun _ => mc) m :=
  of_from fun _ hs => (h.from hs).check_bind hc

theorem lift {m : Act α} (hk : Keeps Scene.Sound m) (hg : Moves Grows m) : Refines (lift m) m :=
  ⟨hk, fun st _ => hg st, fun _ _ _ => rfl⟩

/-- A step refines itself with checks that hold from a sound scene when the counters at its
end fit. -/
theorem guarded {checks : Machine → Checked Unit} {m : Act α} (hk : Keeps Scene.Sound m)
    (hg : Moves Grows m)
    (hc : ∀ st : Machine, st.scene.Sound → (m.run st).2.scene.CountersFit → checks st = .ok ()) :
    Refines (guarded checks m) m :=
  ⟨hk, fun st _ => hg st, fun st hs hfit => by
    show (checks st >>= fun _ => Except.ok (m.run st)) = _
    rw [hc st hs hfit, ok_bind]⟩

theorem forIn_list {γ : Type} (xs : List γ) (b : PUnit)
    {bodyc : γ → PUnit → CheckedAct (ForInStep PUnit)} {body : γ → PUnit → Act (ForInStep PUnit)}
    (h : ∀ x b, Refines (bodyc x b) (body x b)) : Refines (forIn xs b bodyc) (forIn xs b body) := by
  induction xs generalizing b with
  | nil => exact pure _
  | cons x xs ih =>
    rw [List.forIn_cons, List.forIn_cons]
    refine bind (h x b) fun r => ?_
    cases r with
    | done b' => exact pure _
    | yield b' => exact ih b'

theorem scene_bind {mg : Scene → CheckedAct α} {g : Scene → Act α}
    (h : ∀ s : Scene, s.Sound → RefinesFrom s (mg s) (g s)) :
    Refines (Executor.Checked.scene >>= mg) (Act.scene >>= g) :=
  ⟨fun st hs => (h st.scene hs).keeps st rfl, fun st hs => (h st.scene hs).grows st rfl,
    fun st hs hfit => (h st.scene hs).agrees st rfl hfit⟩

end Refines

end CheckedAct

end TriggerScript
