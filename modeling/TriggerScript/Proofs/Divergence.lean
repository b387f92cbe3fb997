import TriggerScript.Proofs.RunInvariant
/-!
A run that never ends.

`S.POP` runs the command it takes off the stack at the caller's own depth. When the first
script's only line is `S: SCRIPT 1; S.POP`, the command `SCRIPT 1; S.POP` calls that script,
which stacks the same command again, and then pops it and runs it at the depth it started
from: the run repeats itself, and whatever fuel it is given, some nested call runs out of
it (`stacked_self_call_never_ends`).

The proof follows one round of the loop for every fuel: either a call along the way finds
no fuel, which the count of cut calls records and no later step undoes
(`exhausted_stable`), or the round ends with the command back on top of the stack and the
scene as it was, ready for the next round.
-/

set_option autoImplicit false
set_option relaxedAutoImplicit false

namespace TriggerScript.Executor

open Act

/-- `SCRIPT 1; S.POP`: calls the first script, then runs the command on top of the stack. -/
def callThenPop : Command := .seq [.set .script [] (.literal 1), .op .stackPop []]

/-- The first script's only line stacks `SCRIPT 1; S.POP`, and the stack has room. -/
def SelfCalling (s : Scene) : Prop :=
  (s.scripts[0]?.map fun sc => sc.lines.map (·.command)) =
      some [.modified .stack [] callThenPop] ∧
    s.stack.isFull = false

instance (s : Scene) : Decidable (SelfCalling s) := inferInstanceAs (Decidable (_ ∧ _))

/-- A round may start: the scene calls itself and at least `c` calls were cut. -/
def Ready (c : Nat) (s : Scene) : Prop := SelfCalling s ∧ c ≤ s.stats.exhausted

/-- The first script has stacked its line: the top of the stack is `SCRIPT 1; S.POP`, and
taking it off leaves a scene that calls itself again. -/
def Stacked (s : Scene) : Prop :=
  ∃ e, s.stack.pop.1 = some e ∧ e.command = callThenPop ∧
    SelfCalling { s with stack := s.stack.pop.2 }

section Round

variable {c : Nat}

theorem exhaust_raises {P : Scene → Prop} (h : ∀ s, P s → c ≤ s.stats.exhausted) :
    Triple P exhaust fun _ s => c < s.stats.exhausted :=
  Triple.modifyScene fun s hs => Nat.lt_succ_of_le (h s hs)

theorem raised (n : Nat) : Kept (fun s => c < s.stats.exhausted) n :=
  kept (exhausted_stable (c + 1)) n

theorem stackBody_stacked (g : Frame) :
    Triple (Ready c) (stackBody g callThenPop) fun _ s =>
      Stacked s ∧ c ≤ s.stats.exhausted := by
  simp only [stackBody]
  refine Triple.scene_bind fun s₀ hs₀ => ?_
  have hpush : s₀.stack.push ⟨g.script, g.index, callThenPop⟩ =
      .ok { s₀.stack with items := s₀.stack.items ++ [⟨g.script, g.index, callThenPop⟩] } := by
    simp [BoundedStack.push, hs₀.1.2]
  rw [hpush]
  refine Triple.modifyScene fun s hready => ?_
  obtain ⟨hs, hss⟩ := hready
  subst hss
  have hpop : ({ s.stack with items := s.stack.items ++ [⟨g.script, g.index, callThenPop⟩] } :
      BoundedStack StackEntry).pop = (some ⟨g.script, g.index, callThenPop⟩, s.stack) := by
    simp [BoundedStack.pop]
  refine ⟨⟨⟨g.script, g.index, callThenPop⟩, ?_, rfl, ?_⟩, hs.2⟩
  · simp only [hpop]
  · simp only [hpop]
    exact hs.1

theorem exec_stackLine (t : Nat) (g : Frame) :
    Triple (Ready c) (exec t g (.modified .stack [] callThenPop)) fun r s =>
      c < s.stats.exhausted ∨ (Stacked s ∧ c ≤ s.stats.exhausted) ∧ 2 ≤ t ∧ r.2 = g := by
  rcases t with _ | _ | u
  · simp only [exec]
    exact Triple.bind (exhaust_raises fun _ h => h.2) fun _ => Triple.pure fun _ h => .inl h
  · simp only [exec, execModifier]
    exact Triple.bind (Triple.bind (exhaust_raises fun _ h => h.2) fun _ =>
      Triple.pure fun _ h => h) fun _ => Triple.pure fun _ h => .inl h
  · simp only [exec, execModifier, bind_assoc, pure_bind]
    exact Triple.bind (stackBody_stacked g) fun _ => Triple.pure fun _ h => .inr ⟨h, by omega, rfl⟩

theorem runLines_stackLine (r : Nat) (g : Frame) (hg : g.breaking = false) :
    Triple (Ready c) (runLines r g [.modified .stack [] callThenPop] 0 none) fun _ s =>
      c < s.stats.exhausted ∨ (Stacked s ∧ c ≤ s.stats.exhausted) ∧ 3 ≤ r := by
  cases r with
  | zero =>
    simp only [runLines]
    exact Triple.bind (exhaust_raises fun _ h => h.2) fun _ => Triple.pure fun _ h => .inl h
  | succ t =>
    simp only [runLines]
    refine Triple.bind_pair (exec_stackLine t _) fun v g' => ?_
    refine Triple.or_pre ?_ (Triple.and_pre fun hstacked => ?_)
    · exact Triple.ite (Triple.pure fun _ h => .inl h)
        (((raised t).runLines _ _ _ _).conseq (fun _ h => h) fun _ _ h => .inl h)
    · obtain ⟨ht, hg'⟩ := hstacked
      obtain ⟨u, rfl⟩ : ∃ u, t = u + 2 := ⟨t - 2, by omega⟩
      dsimp only at hg'
      subst hg'
      simp only [hg, Bool.false_eq_true, if_false, runLines]
      exact Triple.pure fun _ h => .inr ⟨h, by omega⟩

theorem runAt_selfCalling (q d : Nat) (hd : d + 1 < Scene.maxDepth) :
    Triple (Ready c) (runAt q 0 (d + 1)) fun _ s =>
      c < s.stats.exhausted ∨ (Stacked s ∧ c ≤ s.stats.exhausted) ∧ 4 ≤ q := by
  cases q with
  | zero =>
    simp only [runAt]
    exact Triple.bind (exhaust_raises fun _ h => h.2) fun _ => Triple.pure fun _ h => .inl h
  | succ r =>
    simp only [runAt, if_neg (Nat.not_le.mpr hd)]
    refine Triple.scene_bind fun s₀ hs₀ => ?_
    obtain ⟨sc, hsc, hlines⟩ := Option.map_eq_some_iff.mp hs₀.1.1
    simp only [hsc]
    refine Triple.bind (Triple.ticks fun _ _ h => h.1) fun _ => ?_
    refine Triple.bind (Keeps.modifyScene fun _ h => h) fun _ => ?_
    rw [hlines]
    exact Triple.bind (runLines_stackLine r _ rfl) fun _ => Triple.pure fun _ h =>
      h.imp_right fun h => ⟨h.1, by omega⟩

/-- `SCRIPT 1`: a cut, or, with six units of fuel, the line on the stack and the frame as it
was. -/
theorem exec_callScript (m : Nat) (f : Frame) (hd : f.depth + 1 < Scene.maxDepth) :
    Triple (Ready c) (exec m f (.set .script [] (.literal 1))) fun r s =>
      c < s.stats.exhausted ∨ (Stacked s ∧ c ≤ s.stats.exhausted) ∧ 6 ≤ m ∧ r.2 = f := by
  rcases m with _ | _ | q
  · simp only [exec]
    exact Triple.bind (exhaust_raises fun _ h => h.2) fun _ => Triple.pure fun _ h => .inl h
  · have hcut : Triple (Ready c) (evalArgs 0 f []) fun _ s => c < s.stats.exhausted := by
      simp only [evalArgs]
      exact Triple.bind (exhaust_raises fun _ h => h.2) fun _ => Keeps.pure _
    simp only [exec, List.take_nil]
    refine Triple.bind_pair hcut fun a f1 => ?_
    refine Triple.bind_pair (Keeps.bind (exhausted_stable (c + 1)).exhaust fun _ => Keeps.pure _)
      fun v f2 => ?_
    exact Triple.bind ((raised 0).setOp _ _ _ _) fun _ => Triple.pure fun _ h => .inl h
  · have hchannel : Operators.channel 1 Scene.scriptCount = some 0 := by decide
    simp only [exec, List.take_nil, evalArgs, pure_bind, Option.getD_some, setOp, hchannel,
      bind_assoc]
    exact Triple.bind (runAt_selfCalling q f.depth hd) fun _ => Triple.pure fun _ h =>
      h.imp_right fun h => ⟨h.1, by omega, rfl⟩

theorem popStack_ready :
    Triple (fun s => Stacked s ∧ c ≤ s.stats.exhausted) popStack fun e s =>
      Ready c s ∧ ∃ x, e = some x ∧ x.command = callThenPop := by
  simp only [popStack]
  refine Triple.scene_bind fun s₀ hs₀ => ?_
  obtain ⟨x, hx, hcmd, hself⟩ := hs₀.1
  rcases hpop : s₀.stack.pop with ⟨e, st⟩
  rw [hpop] at hx hself
  refine Triple.bind (Triple.modifyScene fun s hs => ?_) fun _ => Triple.pure fun _ h => h
  obtain ⟨⟨-, hc⟩, rfl⟩ := hs
  exact ⟨⟨hself, hc⟩, x, hx, hcmd⟩

/-- `S.POP` with the line on the stack runs `SCRIPT 1; S.POP` again at the same depth, four
calls down; if that run is cut, so is this one. -/
theorem exec_popStacked (k : Nat) (f : Frame) (hk : 4 ≤ k)
    (ih : ∀ g : Frame, g.depth = f.depth → g.breaking = false →
      Triple (Ready c) (exec (k - 4) g callThenPop) fun _ s => c < s.stats.exhausted) :
    Triple (fun s => Stacked s ∧ c ≤ s.stats.exhausted) (exec k f (.op .stackPop []))
      fun _ s => c < s.stats.exhausted := by
  obtain ⟨w, rfl⟩ : ∃ w, k = w + 4 := ⟨k - 4, by omega⟩
  have hclass : Operator.stackPop.opClass = .effect := rfl
  simp only [exec, evalOp, hclass, List.take_nil, evalArgs, pure_bind, getOp, bind_assoc]
  refine Triple.bind popStack_ready fun e => Triple.and_pre fun hpopped => ?_
  obtain ⟨x, he, hx⟩ := hpopped
  subst he
  simp only [runStacked, hx, bind_assoc]
  exact Triple.bind (ih { script := x.script, depth := f.depth, index := x.index } rfl rfl)
    fun _ => Triple.pure fun _ h => h

/-- `SCRIPT 1; S.POP` from a scene that calls itself is cut short at every fuel. The
induction is on the fuel: one round takes seven nested calls and ends in the same command
at the same depth with less fuel. -/
theorem exec_callThenPop_cut (N : Nat) : ∀ (c : Nat) (f : Frame),
    f.depth + 1 < Scene.maxDepth → f.breaking = false →
    Triple (Ready c) (exec N f callThenPop) fun _ s => c < s.stats.exhausted := by
  induction N using Nat.strongRecOn with
  | ind N ih =>
  intro c f hd hb
  rcases N with _ | _ | m
  · simp only [exec]
    exact Triple.bind (exhaust_raises fun _ h => h.2) fun _ => Keeps.pure _
  · simp only [exec, callThenPop, execSeq]
    exact Triple.bind (exhaust_raises fun _ h => h.2) fun _ => Keeps.pure _
  · simp only [exec, callThenPop, execSeq]
    refine Triple.bind_pair (exec_callScript m f hd) fun v f1 => ?_
    refine Triple.or_pre ?_ (Triple.and_pre fun hstacked => ?_)
    · -- The call was cut: the rest of the round keeps the count raised.
      exact Triple.ite (Keeps.pure _) ((raised m).execSeq _ _ _)
    · -- The line is on the stack: pop it and run the next round.
      obtain ⟨hm, hf1⟩ := hstacked
      dsimp only at hf1
      subst hf1
      obtain ⟨k, rfl⟩ : ∃ k, m = k + 1 := ⟨m - 1, by omega⟩
      simp only [hb, Bool.false_eq_true, if_false, execSeq]
      refine Triple.bind_pair (exec_popStacked k f1 (by omega) fun g hg hgb =>
        ih (k - 4) (by omega) c g (hg ▸ hd) hgb) fun v' f2 => ?_
      exact Triple.ite (Keeps.pure _) ((raised k).execSeq _ _ _)

end Round

/-- A new scene whose first script holds the one line `S: SCRIPT 1; S.POP`. -/
def selfCallingScene : Scene :=
  ({ Scene.withSeed 0 with
    scripts := (Scene.withSeed 0).scripts.set 0 ⟨[Line.ofText "S: SCRIPT 1; S.POP"]⟩ }).scriptChanged 0

/-- Placing `S: SCRIPT 1; S.POP` as the first script's line of a new scene, and then running
`SCRIPT 1; S.POP` as a live line, never ends: whatever the fuel, some nested call is cut
short. -/
theorem stacked_self_call_never_ends :
    (Scene.withSeed 0).placeLine 0 0 "S: SCRIPT 1; S.POP" true = .ok (selfCallingScene, none) ∧
      ∀ (io : Io) (fuel : Nat), selfCallingScene.stats.exhausted <
        ((exec fuel { script := Scene.liveScript, depth := 0 }
          (Line.ofText "SCRIPT 1; S.POP").command).run ⟨selfCallingScene, io⟩).2.scene.stats.exhausted := by
  have hline : (Line.ofText "S: SCRIPT 1; S.POP").command = .modified .stack [] callThenPop ∧
      (Line.ofText "S: SCRIPT 1; S.POP").isStorable = true ∧
      (Line.ofText "S: SCRIPT 1; S.POP").error = none := by decide +kernel
  have hcall : (Line.ofText "SCRIPT 1; S.POP").command = callThenPop := by decide +kernel
  have hself : SelfCalling selfCallingScene := by decide +kernel
  refine ⟨?_, fun io fuel => ?_⟩
  · have hfirst : (Scene.withSeed 0).scripts[0]? = some Script.empty := rfl
    simp only [Scene.placeLine, Scene.script?, hfirst, hline.2.1, hline.2.2]
    rfl
  · rw [hcall]
    exact exec_callThenPop_cut fuel _ _ (by decide) rfl ⟨_, io⟩ ⟨hself, Nat.le_refl _⟩

end TriggerScript.Executor
