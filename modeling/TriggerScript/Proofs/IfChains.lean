import TriggerScript.Proofs.LineFrame
/-!
`IF` chains.

An `IF` line evaluates its condition and runs its body when the condition holds; `ELIF` and
`ELSE` lines after it take over only while no body of the chain has run. The executor carries the
chain in one flag of the line's frame, set by `IF` when its body did not run and cleared by the
first `ELIF` or `ELSE` that runs its body.

To speak of which conditions are evaluated and which bodies run, `Executor.recordLines` runs
lines as `Executor.runLines` does and records one `ChainStep` per line; forgetting the record
gives back `runLines` itself (`Executor.recordLines_forget`). Each line moves the flag as the
step it records says (`Executor.recordLine_step`), and folding those moves over the steps of a
run started with no chain open is the declarative open chain, `ChainOpen`
(`foldl_after_iff_chainOpen`). So the record of every run obeys the law of chains (`ChainLaw`),
and at most one body of a chain runs (`ChainLaw.oneBranch`,
`Executor.if_chains_run_one_branch`).
-/

set_option autoImplicit false
set_option relaxedAutoImplicit false

namespace TriggerScript

/-- What one line of a run did for its `IF` chain: the line; whether it is a chain line cut short
for want of fuel before it could evaluate anything; the condition it evaluated, if any; and
whether its body ran. Only `IF`, `ELIF` and `ELSE` lines evaluate a condition or run a body
here: the steps of other lines record neither. -/
structure ChainStep where
  line : Command
  cut : Bool
  cond : Option Int16
  ran : Bool
  deriving DecidableEq, Repr

namespace ChainStep

/-- The chain flag after a step, from the flag `b` before it: after an `IF` line the chain is
open when the body did not run; after any other line, when it was open and the body did not
run. -/
def after (t : ChainStep) (b : Bool) : Bool :=
  if t.line.link = .opens then !t.ran else b && !t.ran

/-- What a step not cut short does, given whether a chain is open before it (`o`): an `IF` line
evaluates its condition and runs its body exactly when it holds; an `ELIF` line evaluates its
condition exactly when a chain is open, and runs its body exactly when a chain is open and the
condition holds; an `ELSE` line runs its body exactly when a chain is open; other lines evaluate
and run nothing for a chain. -/
def Lawful (o : Prop) (t : ChainStep) : Prop :=
  match t.line.link with
  | .opens => ∃ v, t.cond = some v ∧ (t.ran = true ↔ v ≠ 0)
  | .continues => (t.cond.isSome = true ↔ o) ∧ (t.ran = true ↔ o ∧ ∃ v, t.cond = some v ∧ v ≠ 0)
  | .closes => t.cond = none ∧ (t.ran = true ↔ o)
  | .outside => t.cond = none ∧ t.ran = false

end ChainStep

/-- Before step `k` of a run a chain is open: an earlier step is an `IF` line, no step since is
another, and no step from it on has run its body. -/
def ChainOpen (ts : List ChainStep) (k : Nat) : Prop :=
  ∃ i < k, (∃ t, ts[i]? = some t ∧ t.line.link = .opens) ∧
    (∀ m t, i < m → m < k → ts[m]? = some t → t.line.link ≠ .opens) ∧
    (∀ m t, i ≤ m → m < k → ts[m]? = some t → t.ran = false)

/-- No step up to `k` was cut short for want of fuel. -/
def Uncut (ts : List ChainStep) (k : Nat) : Prop :=
  ∀ m u, m ≤ k → ts[m]? = some u → u.cut = false

/-- The law of `IF` chains over the steps of a run, up to the first line cut short. -/
def ChainLaw (ts : List ChainStep) : Prop :=
  ∀ k t, ts[k]? = some t → Uncut ts k → t.Lawful (ChainOpen ts k)

/-- At most one body of a chain runs: between two steps whose bodies ran, another `IF` line
started a new chain. -/
def OneBranch (ts : List ChainStep) : Prop :=
  ∀ i j u v, i < j → ts[i]? = some u → ts[j]? = some v → Uncut ts j → u.ran = true →
    v.ran = true → ∃ m w, i < m ∧ m ≤ j ∧ ts[m]? = some w ∧ w.line.link = .opens

/-! ### Open chains -/

section Open

variable {ts : List ChainStep} {k : Nat} {t : ChainStep}

theorem not_chainOpen_zero (ts : List ChainStep) : ¬ ChainOpen ts 0 := by
  rintro ⟨i, hi, -⟩
  exact absurd hi (Nat.not_lt_zero i)

theorem chainOpen_succ_of_opens (ht : ts[k]? = some t) (hopen : t.line.link = .opens) :
    ChainOpen ts (k + 1) ↔ t.ran = false := by
  constructor
  · rintro ⟨i, hi, -, -, hran⟩
    exact hran k t (Nat.le_of_lt_succ hi) (Nat.lt_succ_self k) ht
  · intro hran
    refine ⟨k, Nat.lt_succ_self k, ⟨t, ht, hopen⟩, fun m _ h₁ h₂ _ => absurd h₂ (by omega),
      fun m u h₁ h₂ hu => ?_⟩
    obtain rfl : m = k := by omega
    rw [ht] at hu
    cases hu
    exact hran

theorem chainOpen_succ_of_not_opens (ht : ts[k]? = some t) (hopen : t.line.link ≠ .opens) :
    ChainOpen ts (k + 1) ↔ ChainOpen ts k ∧ t.ran = false := by
  constructor
  · rintro ⟨i, hi, ⟨u, hu, hu_open⟩, hnext, hran⟩
    have hik : i ≠ k := by
      rintro rfl
      rw [ht] at hu
      cases hu
      exact hopen hu_open
    refine ⟨⟨i, by omega, ⟨u, hu, hu_open⟩, fun m w h₁ h₂ => hnext m w h₁ (by omega),
      fun m w h₁ h₂ => hran m w h₁ (by omega)⟩, hran k t (by omega) (Nat.lt_succ_self k) ht⟩
  · rintro ⟨⟨i, hi, hstart, hnext, hran⟩, ht_ran⟩
    refine ⟨i, by omega, hstart, fun m w h₁ h₂ hw => ?_, fun m w h₁ h₂ hw => ?_⟩
    · rcases Nat.lt_or_ge m k with hm | hm
      · exact hnext m w h₁ hm hw
      · obtain rfl : m = k := by omega
        rw [ht] at hw
        cases hw
        exact hopen
    · rcases Nat.lt_or_ge m k with hm | hm
      · exact hran m w h₁ hm hw
      · obtain rfl : m = k := by omega
        rw [ht] at hw
        cases hw
        exact ht_ran

theorem foldl_after_iff_chainOpen : ∀ {k : Nat}, k ≤ ts.length →
    ((ts.take k).foldl (fun b t => t.after b) false = true ↔ ChainOpen ts k)
  | 0, _ => by
    simp only [List.take_zero, List.foldl_nil, Bool.false_eq_true, false_iff]
    exact not_chainOpen_zero ts
  | k + 1, hk => by
    have ht : ts[k]? = some ts[k] := List.getElem?_eq_getElem (by omega)
    rw [List.take_add_one, ht, Option.toList_some, List.foldl_append, List.foldl_cons,
      List.foldl_nil]
    by_cases hopen : ts[k].line.link = .opens
    · rw [chainOpen_succ_of_opens ht hopen]
      simp [ChainStep.after, hopen]
    · rw [chainOpen_succ_of_not_opens ht hopen, ← foldl_after_iff_chainOpen (by omega)]
      simp [ChainStep.after, hopen]

end Open

theorem ChainLaw.oneBranch {ts : List ChainStep} (h : ChainLaw ts) : OneBranch ts := by
  intro i j u v hij hu hv hcut hran_u hran_v
  by_cases hnew : ∃ m w, i < m ∧ m ≤ j ∧ ts[m]? = some w ∧ w.line.link = .opens
  · exact hnew
  exfalso
  have hlaw := h j v hv hcut
  -- the later body ran, so it is an `ELIF` or `ELSE` line with a chain open before it
  have hopen : ChainOpen ts j := by
    cases hl : v.line.link
    · exact hnew ⟨j, v, hij, Nat.le_refl j, hv, hl⟩ |>.elim
    · simp only [ChainStep.Lawful, hl] at hlaw
      exact (hlaw.2.mp hran_v).1
    · simp only [ChainStep.Lawful, hl] at hlaw
      exact hlaw.2.mp hran_v
    · simp only [ChainStep.Lawful, hl] at hlaw
      rw [hlaw.2] at hran_v
      cases hran_v
  -- that chain started at or before the earlier body, whose running would have closed it
  obtain ⟨p, hp, ⟨w, hw, hw_open⟩, -, hran⟩ := hopen
  by_cases hpi : p ≤ i
  · rw [hran i u hpi hij hu] at hran_u
    cases hran_u
  · exact hnew ⟨p, w, by omega, Nat.le_of_lt hp, hw, hw_open⟩

/-! ### The law from a flag -/

/-- The steps of a run from the chain flag `b`: each step before the first one cut short obeys
the law, with a chain open exactly when the flag folded over the steps before it is set. -/
def LawfulFrom (b : Bool) (ts : List ChainStep) : Prop :=
  ∀ k t, ts[k]? = some t → Uncut ts k →
    t.Lawful ((ts.take k).foldl (fun b t => t.after b) b = true)

theorem lawfulFrom_nil (b : Bool) : LawfulFrom b [] := by
  intro k t ht
  simp at ht

theorem lawfulFrom_cons {b : Bool} {t : ChainStep} {ts : List ChainStep}
    (ht : t.cut = false → t.Lawful (b = true) ∧ LawfulFrom (t.after b) ts) :
    LawfulFrom b (t :: ts) := by
  intro k u hu hcut
  obtain ⟨hlaw, hrest⟩ := ht (hcut 0 t (Nat.zero_le k) rfl)
  cases k with
  | zero =>
    obtain rfl : t = u := by simpa using hu
    simpa using hlaw
  | succ k =>
    simp only [List.getElem?_cons_succ] at hu
    simp only [List.take_succ_cons, List.foldl_cons]
    exact hrest k u hu fun m w hm hw => hcut (m + 1) w (by omega) (by simpa using hw)

theorem ChainLaw.of_lawfulFrom {ts : List ChainStep} (h : LawfulFrom false ts) : ChainLaw ts := by
  intro k t ht hcut
  obtain ⟨hk, -⟩ := List.getElem?_eq_some_iff.mp ht
  rw [← foldl_after_iff_chainOpen (Nat.le_of_lt hk)]
  exact h k t ht hcut

namespace Executor

open Act

/-- Runs one line as `exec` does, and records what it did for its `IF` chain. A chain line
reaches the last case only without the fuel to evaluate anything. -/
def recordLine : Nat → Frame → Command → Act (Option Int16 × Frame × ChainStep)
  | fuel + 2, f, .modified .ifThen args body => do
    let (v, f) ← evalArg fuel f args 0
    let f := { f with ifElse := v == 0 }
    if v != 0 then
      let (_, f) ← exec fuel f body
      return (none, f, ⟨.modified .ifThen args body, false, some v, true⟩)
    else return (none, f, ⟨.modified .ifThen args body, false, some v, false⟩)
  | fuel + 2, f, .modified .elif args body => do
    if f.ifElse then
      let (v, f) ← evalArg fuel f args 0
      if v != 0 then
        let (_, f) ← exec fuel { f with ifElse := false } body
        return (none, f, ⟨.modified .elif args body, false, some v, true⟩)
      else return (none, f, ⟨.modified .elif args body, false, some v, false⟩)
    else return (none, f, ⟨.modified .elif args body, false, none, false⟩)
  | fuel + 2, f, .modified .orElse args body => do
    if f.ifElse then
      let (_, f) ← exec fuel { f with ifElse := false } body
      return (none, f, ⟨.modified .orElse args body, false, none, true⟩)
    else return (none, f, ⟨.modified .orElse args body, false, none, false⟩)
  | fuel, f, c => do
    let (v, f) ← exec fuel f c
    return (v, f, ⟨c, c.link != .outside, none, false⟩)

/-- Runs lines as `runLines` does, and records one step for each line run. -/
def recordLines : Nat → Frame → List Command → Nat → Option Int16 →
    Act (Option Int16 × List ChainStep)
  | 0, _, _, _, acc => do exhaust; return (acc, [])
  | _ + 1, _, [], _, acc => return (acc, [])
  | fuel + 1, f, c :: cs, n, acc => do
    let (v, f, t) ← recordLine fuel { f with line := some n } c
    let acc := if v.isSome then v else acc
    if f.breaking then return (acc, [t])
    else
      let (r, ts) ← recordLines fuel f cs (n + 1) acc
      return (r, t :: ts)

theorem recordLine_forget (fuel : Nat) (f : Frame) (c : Command) :
    (fun r => (r.1, r.2.1)) <$> recordLine fuel f c = exec fuel f c := by
  rw [recordLine.eq_def]
  split
  · simp only [exec, execModifier, map_bind, bind_assoc]
    refine bind_congr fun _ => ?_
    split <;> simp
  · simp only [exec, execModifier]
    split
    · simp only [map_bind, bind_assoc]
      refine bind_congr fun _ => ?_
      split <;> simp
    · simp
  · simp only [exec, execModifier]
    split <;> simp
  · simp

theorem recordLines_forget (fuel : Nat) (f : Frame) (cs : List Command) (n : Nat)
    (acc : Option Int16) : Prod.fst <$> recordLines fuel f cs n acc = runLines fuel f cs n acc := by
  induction fuel generalizing f cs n acc with
  | zero => simp [recordLines, runLines]
  | succ fuel ih =>
    cases cs with
    | nil => simp [recordLines, runLines]
    | cons c cs =>
      simp only [recordLines, runLines, ← recordLine_forget, map_bind, bind_map_left]
      refine bind_congr fun _ => ?_
      split <;> simp [← ih]

/-! ### What each line records -/

open TriggerScript.Frame

/-- Every line of a line's shape records a step for itself; unless it was cut short, the step
obeys the law with a chain open exactly when the frame's flag is set, and the frame it hands on
carries the flag the step leaves. -/
theorem recordLine_step (fuel : Nat) (f : Frame) (c : Command) (hc : c.LineShaped) :
    Answers (recordLine fuel f c) fun r => r.2.2.line = c ∧
      (r.2.2.cut = false → r.2.2.Lawful (f.ifElse = true) ∧ r.2.1.ifElse = r.2.2.after f.ifElse) := by
  rw [recordLine.eq_def]
  split
  · next _ _ _ fuel args body =>
    cases hc with
    | plain h => cases h
    | modified hargs hbody _ =>
      refine Answers.bind_pair ((carriesOn fuel).evalArg f args 0 hargs) fun v f₁ h₁ => ?_
      dsimp only
      split
      · next hv =>
        refine Answers.bind_pair ((carriesOn fuel).exec _ body hbody) fun _ f₂ h₂ => ?_
        have hflag : f₂.ifElse = (v == 0) := h₂.ifElse
        refine Answers.pure ⟨rfl, fun _ => ?_⟩
        simp_all [ChainStep.Lawful, ChainStep.after, Command.link]
      · refine Answers.pure ⟨rfl, fun _ => ?_⟩
        simp_all [ChainStep.Lawful, ChainStep.after, Command.link]
  · next _ _ _ fuel args body =>
    cases hc with
    | plain h => cases h
    | modified hargs hbody _ =>
      dsimp only
      split
      · -- an open chain: the condition is evaluated, and the body runs when it holds
        refine Answers.bind_pair ((carriesOn fuel).evalArg f args 0 hargs) fun v f₁ h₁ => ?_
        have hflag₁ : f₁.ifElse = f.ifElse := h₁.ifElse
        split
        · refine Answers.bind_pair ((carriesOn fuel).exec _ body hbody) fun _ f₂ h₂ => ?_
          have hflag : f₂.ifElse = false := h₂.ifElse
          refine Answers.pure ⟨rfl, fun _ => ?_⟩
          simp_all [ChainStep.Lawful, ChainStep.after, Command.link]
        · refine Answers.pure ⟨rfl, fun _ => ?_⟩
          simp_all [ChainStep.Lawful, ChainStep.after, Command.link]
      · refine Answers.pure ⟨rfl, fun _ => ?_⟩
        simp_all [ChainStep.Lawful, ChainStep.after, Command.link]
  · next _ _ _ fuel args body =>
    cases hc with
    | plain h => cases h
    | modified _ hbody _ =>
      dsimp only
      split
      · refine Answers.bind_pair ((carriesOn fuel).exec _ body hbody) fun _ f₂ h₂ => ?_
        have hflag : f₂.ifElse = false := h₂.ifElse
        refine Answers.pure ⟨rfl, fun _ => ?_⟩
        simp_all [ChainStep.Lawful, ChainStep.after, Command.link]
      · refine Answers.pure ⟨rfl, fun _ => ?_⟩
        simp_all [ChainStep.Lawful, ChainStep.after, Command.link]
  · -- any other line, or a chain line without the fuel to start: the chain flag is untouched
    refine Answers.bind_pair (exec_lineAfter _ f _ hc) fun _ f₁ h₁ => ?_
    refine Answers.pure ⟨rfl, fun hcut => ?_⟩
    have hout : c.link = .outside := by simpa using hcut
    have hflag : f₁.ifElse = f.ifElse := h₁.ifElse hout
    simp_all [ChainStep.Lawful, ChainStep.after]

theorem recordLines_trace (fuel : Nat) (f : Frame) (cs : List Command) (n : Nat)
    (acc : Option Int16) (hcs : ∀ c ∈ cs, c.LineShaped) :
    Answers (recordLines fuel f cs n acc) fun r =>
      r.2.map ChainStep.line <+: cs ∧ LawfulFrom f.ifElse r.2 := by
  induction fuel generalizing f cs n acc with
  | zero =>
    simp only [recordLines]
    exact Answers.seq fun _ => Answers.pure ⟨List.nil_prefix, lawfulFrom_nil _⟩
  | succ fuel ih =>
    cases cs with
    | nil => simp only [recordLines]; exact Answers.pure ⟨List.nil_prefix, lawfulFrom_nil _⟩
    | cons c cs =>
      simp only [recordLines]
      refine Answers.bind (recordLine_step fuel _ c (hcs c List.mem_cons_self)) fun r hr => ?_
      obtain ⟨v, f₁, t⟩ := r
      obtain ⟨hline, hlaw⟩ := hr
      dsimp only at hline hlaw ⊢
      refine Answers.ite (Answers.pure ⟨by simp [hline], ?_⟩) ?_
      · exact lawfulFrom_cons fun hcut => ⟨(hlaw hcut).1, lawfulFrom_nil _⟩
      refine Answers.bind_pair (ih f₁ cs (n + 1) _ fun c' hc' => hcs c' (List.mem_cons_of_mem c hc'))
        fun _ ts h => Answers.pure ⟨by simpa [hline] using h.1, ?_⟩
      refine lawfulFrom_cons fun hcut => ⟨(hlaw hcut).1, ?_⟩
      rw [← (hlaw hcut).2]
      exact h.2

end Executor

/-! ### Lines outside any script -/

theorem Command.eq_of_link_continues {c : Command} (h : c.link = .continues) :
    ∃ args body, c = .modified .elif args body := by
  unfold Command.link at h
  split at h <;> first | exact ⟨_, _, rfl⟩ | cases h

theorem Command.eq_of_link_closes {c : Command} (h : c.link = .closes) :
    ∃ args body, c = .modified .orElse args body := by
  unfold Command.link at h
  split at h <;> first | exact ⟨_, _, rfl⟩ | cases h

theorem Line.error_ofText {s : String} (h : (Line.ofText s).command ≠ .nop) :
    (Line.ofText s).error = none := by
  revert h
  unfold Line.ofText
  dsimp only
  split
  · intro _
    rfl
  · intro h
    exact absurd rfl h

/-- A line entered outside any script starts with no chain open, so an `ELIF` or `ELSE` line
there evaluates nothing, runs nothing and leaves the machine as it was. -/
theorem Machine.execute_unopened (text : String)
    (hlink : (Line.ofText text).command.link = .continues ∨
      (Line.ofText text).command.link = .closes) (st : Machine) :
    (Machine.execute text).run st = (.ok none, st) := by
  have hnop : (Line.ofText text).command ≠ .nop := by
    intro h
    rw [h] at hlink
    simp [Command.link] at hlink
  simp only [Machine.execute, Line.error_ofText hnop, Machine.fuel]
  rcases hlink with hlink | hlink
  · obtain ⟨args, body, hc⟩ := Command.eq_of_link_continues hlink
    rw [hc]
    simp only [Executor.exec, Executor.execModifier]
    rfl
  · obtain ⟨args, body, hc⟩ := Command.eq_of_link_closes hlink
    rw [hc]
    simp only [Executor.exec, Executor.execModifier]
    rfl

/-! ### The law of chains -/

/-- **An `IF` chain runs at most one branch, the first that holds.** Recording a run of lines
changes nothing about it. From a frame with no chain open, as every script run starts, the
record holds one step per line run, in order, and obeys the law of chains up to the first line
cut short for want of fuel: an `IF` line runs its body exactly when its condition holds, an
`ELIF` line evaluates its condition only while no earlier body of its chain has run and runs its
body when that condition holds, an `ELSE` line runs its body exactly when no earlier body of its
chain has run, and an `ELIF` or `ELSE` line with no `IF` before it does nothing; so at most one
body of each chain runs. A line outside any script opens no chain, so an `ELIF` or `ELSE` line
there leaves the machine as it was. A command without modifiers, which is how `SCRIPT`, `S.POP`
and `S.ALL` start other runs in frames of their own, hands back its frame's chain flag as it
found it. -/
theorem Executor.if_chains_run_one_branch (fuel : Nat) (f : Frame) (cs : List Command) (n : Nat)
    (acc : Option Int16) (hf : f.ifElse = false) (hcs : ∀ c ∈ cs, c.LineShaped) :
    Prod.fst <$> recordLines fuel f cs n acc = runLines fuel f cs n acc ∧
    Act.Answers (recordLines fuel f cs n acc)
      (fun r => r.2.map ChainStep.line <+: cs ∧ ChainLaw r.2 ∧ OneBranch r.2) ∧
    (∀ text, ((Line.ofText text).command.link = .continues ∨
        (Line.ofText text).command.link = .closes) →
      ∀ st, (Machine.execute text).run st = (.ok none, st)) ∧
    (∀ (k : Nat) (g : Frame) (c : Command), c.hasModifier = false →
      Act.Answers (exec k g c) fun r => r.2.ifElse = g.ifElse) := by
  refine ⟨recordLines_forget fuel f cs n acc, ?_, Machine.execute_unopened,
    fun k g c hc => ((carriesOn k).exec g c hc).imp fun _ h => h.ifElse⟩
  refine (recordLines_trace fuel f cs n acc hcs).imp fun r h => ?_
  have hlaw : ChainLaw r.2 := ChainLaw.of_lawfulFrom (hf ▸ h.2)
  exact ⟨h.1, hlaw, hlaw.oneBranch⟩

/-- A script's first frame, over `IF 0: A` and `ELSE: B`. -/
theorem if_else_lines_run_one_branch :
    ({ script := 0, depth := 0 } : Frame).ifElse = false ∧
    (∀ c ∈ [Command.modified .ifThen [.literal 0] (.var (.global 0)),
        Command.modified .orElse [] (.var (.global 1))], c.LineShaped) ∧
    Prod.fst <$> Executor.recordLines 4 { script := 0, depth := 0 }
        [.modified .ifThen [.literal 0] (.var (.global 0)), .modified .orElse [] (.var (.global 1))]
        0 none =
      Executor.runLines 4 { script := 0, depth := 0 }
        [.modified .ifThen [.literal 0] (.var (.global 0)), .modified .orElse [] (.var (.global 1))]
        0 none ∧
    Act.Answers (Executor.recordLines 4 { script := 0, depth := 0 }
        [.modified .ifThen [.literal 0] (.var (.global 0)), .modified .orElse [] (.var (.global 1))]
        0 none)
      (fun r => r.2.map ChainStep.line <+:
          [.modified .ifThen [.literal 0] (.var (.global 0)), .modified .orElse [] (.var (.global 1))] ∧
        ChainLaw r.2 ∧ OneBranch r.2) ∧
    (∀ text, ((Line.ofText text).command.link = .continues ∨
        (Line.ofText text).command.link = .closes) →
      ∀ st, (Machine.execute text).run st = (.ok none, st)) ∧
    (∀ (k : Nat) (g : Frame) (c : Command), c.hasModifier = false →
      Act.Answers (Executor.exec k g c) fun r => r.2.ifElse = g.ifElse) := by
  have hcs : ∀ c ∈ [Command.modified .ifThen [.literal 0] (.var (.global 0)),
      Command.modified .orElse [] (.var (.global 1))], c.LineShaped := by
    intro c hc
    simp only [List.mem_cons, List.not_mem_nil, or_false] at hc
    rcases hc with rfl | rfl
    · exact .modified rfl rfl nofun
    · exact .modified rfl rfl nofun
  exact ⟨rfl, hcs, Executor.if_chains_run_one_branch 4 _ _ 0 none rfl hcs⟩

end TriggerScript
