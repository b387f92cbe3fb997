import TriggerScript.Proofs.EveryLines
/-!
Editing the lines of a script.

An edit names a script, a line and, for a line placed, its text. It is refused with `NO SUCH
SCRIPT`, `NO SUCH LINE`, `SCRIPT FULL`, `LINE TOO LONG` or `INVALID CHARACTER` before it changes
anything, and a call so refused leaves the scene as it was. Otherwise it changes one script,
replacing, appending, inserting or removing one line or emptying the script; it cancels the
delays that script owns and restarts that script's counters; and it changes nothing else
(`Scene.ScriptReplaced`). A line that does not compile is placed all the same, as its canonical
text with no command, and its error is handed back with the changed scene.

The refusals come from three checks made in order: the script exists, the line can be stored,
and the script has the line and the room (`Scene.placeLine_refused`); every change goes through
one replacement of the script followed by its restart (`Scene.replaced_scriptChanged`).
-/

set_option autoImplicit false
set_option relaxedAutoImplicit false

namespace TriggerScript

open Record

theorem Except.bind_eq_error {ε α β : Type} {x : Except ε α} {f : α → Except ε β} {e : ε}
    (h : (x >>= f) = .error e) : x = .error e ∨ ∃ a, x = .ok a ∧ f a = .error e := by
  cases x with
  | error e' =>
    left
    simpa [bind, Except.bind] using h
  | ok a => exact .inr ⟨a, rfl, h⟩

/-! ### Lines and scripts -/

namespace Line

theorem check_error {t : String} {e : Error} (h : check t = .error e) :
    e.code = .invalidCharacter ∨ e.code = .lineTooLong := by
  unfold check at h
  split at h
  · cases h
    exact .inl rfl
  · split at h
    · cases h
      exact .inr rfl
    · cases h

theorem error_of_not_storable {text : String} (h : (ofText text).isStorable = false) :
    ∃ e, (ofText text).error = some e ∧ (e.code = .invalidCharacter ∨ e.code = .lineTooLong) := by
  unfold isStorable at h
  rw [ofText_text] at h
  split at h
  · cases h
  · rename_i e hcheck
    refine ⟨e, ?_, check_error hcheck⟩
    unfold ofText
    dsimp only
    rw [hcheck]
    rfl

theorem ofText_of_error {text : String} {e : Error} (h : (ofText text).error = some e) :
    ofText text = ⟨Text.upperAscii (Text.trim text), .nop, some e⟩ := by
  revert h
  unfold ofText
  dsimp only
  split
  · intro h
    cases h
  · intro h
    cases h
    rfl

end Line

namespace Script

variable {sc sc' : Script} {n : Nat} {l : Line} {e : Error}

theorem insertLine_error (h : sc.insertLine n l = .error e) :
    e.code = .noSuchLine ∨ e.code = .scriptFull := by
  unfold insertLine at h
  split at h
  · cases h
    exact .inl rfl
  · split at h
    · cases h
      exact .inr rfl
    · cases h

theorem setLine_error (h : sc.setLine n l = .error e) :
    e.code = .noSuchLine ∨ e.code = .scriptFull := by
  unfold setLine at h
  split at h
  · cases h
  · split at h
    · exact insertLine_error h
    · cases h
      exact .inl rfl

theorem deleteLine_error (h : sc.deleteLine n = .error e) : e.code = .noSuchLine := by
  unfold deleteLine at h
  split at h
  · cases h
  · cases h
    rfl

theorem insertLine_ok (h : sc.insertLine n l = .ok sc') :
    n ≤ sc.lines.length ∧ sc.lines.length < maxLines ∧ sc'.lines = sc.lines.insertIdx n l := by
  unfold insertLine at h
  split at h
  · cases h
  · split at h
    · cases h
    · cases h
      exact ⟨by omega, by omega, rfl⟩

theorem setLine_ok (h : sc.setLine n l = .ok sc') :
    (n < sc.lines.length ∧ sc'.lines = sc.lines.set n l) ∨
    (n = sc.lines.length ∧ sc.lines.length < maxLines ∧ sc'.lines = sc.lines ++ [l]) := by
  unfold setLine at h
  split at h
  · cases h
    exact .inl ⟨by omega, rfl⟩
  · split at h
    · rename_i hn
      obtain ⟨-, hroom, hlines⟩ := insertLine_ok h
      rw [hn, List.insertIdx_length_self] at hlines
      exact .inr ⟨hn, hroom, hlines⟩
    · cases h

theorem deleteLine_ok (h : sc.deleteLine n = .ok sc') :
    n < sc.lines.length ∧ sc'.lines = sc.lines.eraseIdx n := by
  unfold deleteLine at h
  split at h
  · cases h
    exact ⟨by omega, rfl⟩
  · cases h

end Script

/-! ### The frame of an edit -/

def Scene.editRefusals : List ErrorCode :=
  [.noSuchScript, .noSuchLine, .scriptFull, .lineTooLong, .invalidCharacter]

namespace Scene

/-- `s'` is `s` with script `n` holding `lines`, every delay owned by script `n` cancelled and
every counter of its lines at zero: every other script, delay and counter, and every other
part of the scene, is as it was. -/
structure ScriptReplaced (s s' : Scene) (n : Nat) (lines : List Line) : Prop where
  script : s'.scripts[n]? = some ⟨lines⟩
  otherScripts : ∀ k, k ≠ n → s'.scripts[k]? = s.scripts[k]?
  slots : ∀ i : Nat, s'.delays.slots[i]? =
    s.delays.slots[i]?.map (Option.filter fun (e : DelayEntry) => e.script != n)
  nextSeq : s'.delays.nextSeq = s.delays.nextSeq
  counters : s'.every[n]? = some (List.replicate Script.maxLines 0)
  otherCounters : ∀ k, k ≠ n → s'.every[k]? = s.every[k]?
  rest : { s' with scripts := s.scripts, delays := s.delays, every := s.every } = s

variable {s s' : Scene} {script n : Nat} {text : String} {insert : Bool} {e : Error}

theorem cancelScript_slot (q : DelayQueue) (n i : Nat) :
    (q.cancelScript n).slots[i]? =
      q.slots[i]?.map (Option.filter fun (e : DelayEntry) => e.script != n) := by
  simp only [DelayQueue.cancelScript, List.getElem?_map]
  congr 1
  funext o
  cases o with
  | none => rfl
  | some d => by_cases hd : d.script = n <;> simp [Option.filter, hd]

theorem Reachable.lt_every_length (hs : s.Reachable) {old : Script}
    (hold : s.scripts[n]? = some old) : n < s.every.length := by
  have hn : n < scriptCount := hs.stored.scripts_length ▸ (List.getElem?_eq_some_iff.mp hold).1
  have hline := hs.countersShaped n 0 hn (by decide)
  by_contra hout
  rw [List.getD_eq_getElem?_getD, List.getElem?_eq_none (by omega)] at hline
  exact absurd hline (Nat.not_lt_zero 0)

theorem replaced_scriptChanged (hs : s.Reachable) {old : Script} (hold : s.scripts[n]? = some old)
    (sc : Script) :
    s.ScriptReplaced ({ s with scripts := s.scripts.set n sc }.scriptChanged n) n sc.lines where
  script := List.getElem?_set_self (List.getElem?_eq_some_iff.mp hold).1
  otherScripts _ hk := List.getElem?_set_ne (Ne.symm hk)
  slots i := cancelScript_slot s.delays n i
  nextSeq := rfl
  counters := List.getElem?_set_self (hs.lt_every_length hold)
  otherCounters _ hk := List.getElem?_set_ne (Ne.symm hk)
  rest := rfl

theorem script?_error (h : s.script? script = .error e) : e.code = .noSuchScript := by
  unfold script? at h
  split at h
  · cases h
  · cases h
    rfl

theorem script?_ok {old : Script} (h : s.script? script = .ok old) : s.scripts[script]? = some old := by
  unfold script? at h
  split at h
  · rename_i hs
    cases h
    exact hs
  · cases h

/-- A placement is refused only for a missing script, a line that cannot be stored, or a line
position or room the script lacks, in that order. -/
theorem placeLine_refused (h : s.placeLine script n text insert = .error e) :
    e.code ∈ editRefusals := by
  unfold placeLine at h
  rcases Except.bind_eq_error h with hscript | ⟨target, -, h⟩
  · simp [editRefusals, script?_error hscript]
  dsimp only at h
  -- the compiled line is only looked at, never computed here
  generalize hline : Line.ofText text = line at h
  split at h
  · -- a line that cannot be stored is refused with the error of its check
    rename_i hstore
    have hns : (Line.ofText text).isStorable = false := by simpa [hline] using hstore
    obtain ⟨e', he', hcode⟩ := Line.error_of_not_storable hns
    rw [hline] at he'
    rcases Except.bind_eq_error h with hthrow | ⟨_, hthrow, -⟩
    · rw [he', Option.getD_some] at hthrow
      cases hthrow
      rcases hcode with hcode | hcode <;> simp [editRefusals, hcode]
    · cases hthrow
  · split at h
    · rcases Except.bind_eq_error h with hplace | ⟨_, -, hpure⟩
      · rcases Script.insertLine_error hplace with hcode | hcode <;> simp [editRefusals, hcode]
      · cases hpure
    · rcases Except.bind_eq_error h with hplace | ⟨_, -, hpure⟩
      · rcases Script.setLine_error hplace with hcode | hcode <;> simp [editRefusals, hcode]
      · cases hpure

/-- A placement that is made replaces the script by one with the line placed, restarts it, and
hands back the line's own error. -/
theorem placeLine_placed (hs : s.Reachable) {err : Option Error}
    (h : s.placeLine script n text insert = .ok (s', err)) :
    err = (Line.ofText text).error ∧ ∃ old changed, s.scripts[script]? = some old ∧
      (if insert then old.insertLine n (Line.ofText text) else old.setLine n (Line.ofText text)) =
        .ok changed ∧ s.ScriptReplaced s' script changed.lines := by
  unfold placeLine at h
  obtain ⟨target, htarget, h⟩ := Reader.bind_eq_ok h
  have hold := script?_ok htarget
  dsimp only at h
  split at h
  · obtain ⟨_, hthrow, -⟩ := Reader.bind_eq_ok h
    cases hthrow
  split at h
  · rename_i hins
    obtain ⟨changed, hchanged, h⟩ := Reader.bind_eq_ok h
    cases h
    refine ⟨rfl, target, changed, hold, ?_, replaced_scriptChanged hs hold changed⟩
    rw [if_pos hins]
    exact hchanged
  · rename_i hins
    obtain ⟨changed, hchanged, h⟩ := Reader.bind_eq_ok h
    cases h
    refine ⟨rfl, target, changed, hold, ?_, replaced_scriptChanged hs hold changed⟩
    rw [if_neg hins]
    exact hchanged

theorem deleteLine_refused (h : s.deleteLine script n = .error e) : e.code ∈ editRefusals := by
  unfold deleteLine at h
  rcases Except.bind_eq_error h with hscript | ⟨target, -, h⟩
  · simp [editRefusals, script?_error hscript]
  rcases Except.bind_eq_error h with hdelete | ⟨_, -, hpure⟩
  · simp [editRefusals, Script.deleteLine_error hdelete]
  · cases hpure

theorem deleteLine_removed (hs : s.Reachable) (h : s.deleteLine script n = .ok s') :
    ∃ old, s.scripts[script]? = some old ∧ n < old.lines.length ∧
      s.ScriptReplaced s' script (old.lines.eraseIdx n) := by
  unfold deleteLine at h
  obtain ⟨target, htarget, h⟩ := Reader.bind_eq_ok h
  obtain ⟨changed, hchanged, h⟩ := Reader.bind_eq_ok h
  cases h
  have hold := script?_ok htarget
  obtain ⟨hn, hlines⟩ := Script.deleteLine_ok hchanged
  exact ⟨target, hold, hn, hlines ▸ replaced_scriptChanged hs hold changed⟩

theorem clearScript_refused (h : s.clearScript script = .error e) : e.code ∈ editRefusals := by
  unfold clearScript at h
  rcases Except.bind_eq_error h with hscript | ⟨_, -, hpure⟩
  · simp [editRefusals, script?_error hscript]
  · cases hpure

theorem clearScript_emptied (hs : s.Reachable) (h : s.clearScript script = .ok s') :
    s.ScriptReplaced s' script [] := by
  unfold clearScript at h
  obtain ⟨target, htarget, h⟩ := Reader.bind_eq_ok h
  cases h
  exact replaced_scriptChanged hs (script?_ok htarget) Script.empty

end Scene

/-! ### Edits as calls -/

/-- **Script edits are atomic and local.** On every reachable scene, editing, inserting or
deleting a line and clearing a script is either refused with `NO SUCH SCRIPT`, `NO SUCH LINE`,
`SCRIPT FULL`, `LINE TOO LONG` or `INVALID CHARACTER`, and the call leaves the scene as it was; or
made, and the call changes the one script named, replacing a line that exists or appending one
past the last into a script with room (editing), inserting a line at or before one past the
last into a script with room (inserting), removing a line that exists (deleting), or emptying it
(clearing), while it cancels exactly the delays that script owns, puts exactly that script's
counters back at zero, and leaves every other script, delay and counter, and every other part of
the scene, as it was. The line placed is the text's compiled line, and its error is handed back;
a line that does not compile is placed as its canonical text with no command. -/
theorem Scene.Reachable.script_edits_atomic_local {s : Scene} (hs : s.Reachable) (io : Io)
    (script n : Nat) (text : String) :
    (∀ e, s.placeLine script n text false = .error e →
      e.code ∈ Scene.editRefusals ∧ (Call.editLine script n text).apply io s = s) ∧
    (∀ e, s.placeLine script n text true = .error e →
      e.code ∈ Scene.editRefusals ∧ (Call.insertLine script n text).apply io s = s) ∧
    (∀ e, s.deleteLine script n = .error e →
      e.code ∈ Scene.editRefusals ∧ (Call.deleteLine script n).apply io s = s) ∧
    (∀ e, s.clearScript script = .error e →
      e.code ∈ Scene.editRefusals ∧ (Call.clearScript script).apply io s = s) ∧
    (∀ s' err, s.placeLine script n text false = .ok (s', err) →
      (Call.editLine script n text).apply io s = s' ∧ err = (Line.ofText text).error ∧
      ∃ old : Script, s.scripts[script]? = some old ∧
        ((n < old.lines.length ∧ s.ScriptReplaced s' script (old.lines.set n (Line.ofText text))) ∨
          (n = old.lines.length ∧ old.lines.length < Script.maxLines ∧
            s.ScriptReplaced s' script (old.lines ++ [Line.ofText text])))) ∧
    (∀ s' err, s.placeLine script n text true = .ok (s', err) →
      (Call.insertLine script n text).apply io s = s' ∧ err = (Line.ofText text).error ∧
      ∃ old : Script, s.scripts[script]? = some old ∧ n ≤ old.lines.length ∧
        old.lines.length < Script.maxLines ∧
        s.ScriptReplaced s' script (old.lines.insertIdx n (Line.ofText text))) ∧
    (∀ s', s.deleteLine script n = .ok s' →
      (Call.deleteLine script n).apply io s = s' ∧
      ∃ old : Script, s.scripts[script]? = some old ∧ n < old.lines.length ∧
        s.ScriptReplaced s' script (old.lines.eraseIdx n)) ∧
    (∀ s', s.clearScript script = .ok s' →
      (Call.clearScript script).apply io s = s' ∧ s.ScriptReplaced s' script []) ∧
    (∀ e, (Line.ofText text).error = some e →
      Line.ofText text = ⟨Text.upperAscii (Text.trim text), .nop, some e⟩) := by
  refine ⟨fun e h => ⟨Scene.placeLine_refused h, by simp only [Call.apply, h]⟩,
    fun e h => ⟨Scene.placeLine_refused h, by simp only [Call.apply, h]⟩,
    fun e h => ⟨Scene.deleteLine_refused h, by simp only [Call.apply, h, Except.toOption,
      Option.getD_none]⟩,
    fun e h => ⟨Scene.clearScript_refused h, by simp only [Call.apply, h, Except.toOption,
      Option.getD_none]⟩, ?_, ?_, ?_,
    fun s' h => ⟨by simp only [Call.apply, h, Except.toOption, Option.getD_some],
      Scene.clearScript_emptied hs h⟩,
    fun e h => Line.ofText_of_error h⟩
  · -- an edit replaces the line or appends it, as the script's own edit says
    intro s' err h
    obtain ⟨herr, old, changed, hold, hchanged, hreplaced⟩ := Scene.placeLine_placed hs h
    rw [if_neg Bool.false_ne_true] at hchanged
    refine ⟨by simp only [Call.apply, h], herr, old, hold, ?_⟩
    rcases Script.setLine_ok hchanged with ⟨hn, hlines⟩ | ⟨hn, hroom, hlines⟩
    · exact .inl ⟨hn, hlines ▸ hreplaced⟩
    · exact .inr ⟨hn, hroom, hlines ▸ hreplaced⟩
  · intro s' err h
    obtain ⟨herr, old, changed, hold, hchanged, hreplaced⟩ := Scene.placeLine_placed hs h
    rw [if_pos rfl] at hchanged
    obtain ⟨hn, hroom, hlines⟩ := Script.insertLine_ok hchanged
    exact ⟨by simp only [Call.apply, h], herr, old, hold, hn, hroom, hlines ▸ hreplaced⟩
  · intro s' h
    exact ⟨by simp only [Call.apply, h, Except.toOption, Option.getD_some],
      Scene.deleteLine_removed hs h⟩

/-- The edits of line 1 of script 1 of the session's scene, which holds the `DEL` line whose
delay is pending, with the text `TR.P 2`: the edit is made and cancels the delay. -/
theorem Scene.session_edits_atomic_local :
    Scene.session.Reachable ∧ Scene.session.delays.entries.length = 1 ∧
    ((Call.editLine 0 1 "TR.P 2").apply Io.silent Scene.session).delays.entries = [] ∧
    (∀ e, Scene.session.placeLine 0 1 "TR.P 2" false = .error e →
      e.code ∈ Scene.editRefusals ∧
        (Call.editLine 0 1 "TR.P 2").apply Io.silent Scene.session = Scene.session) ∧
    (∀ e, Scene.session.placeLine 0 1 "TR.P 2" true = .error e →
      e.code ∈ Scene.editRefusals ∧
        (Call.insertLine 0 1 "TR.P 2").apply Io.silent Scene.session = Scene.session) ∧
    (∀ e, Scene.session.deleteLine 0 1 = .error e →
      e.code ∈ Scene.editRefusals ∧
        (Call.deleteLine 0 1).apply Io.silent Scene.session = Scene.session) ∧
    (∀ e, Scene.session.clearScript 0 = .error e →
      e.code ∈ Scene.editRefusals ∧
        (Call.clearScript 0).apply Io.silent Scene.session = Scene.session) ∧
    (∀ s' err, Scene.session.placeLine 0 1 "TR.P 2" false = .ok (s', err) →
      (Call.editLine 0 1 "TR.P 2").apply Io.silent Scene.session = s' ∧
      err = (Line.ofText "TR.P 2").error ∧
      ∃ old : Script, Scene.session.scripts[0]? = some old ∧
        ((1 < old.lines.length ∧
            Scene.session.ScriptReplaced s' 0 (old.lines.set 1 (Line.ofText "TR.P 2"))) ∨
          (1 = old.lines.length ∧ old.lines.length < Script.maxLines ∧
            Scene.session.ScriptReplaced s' 0 (old.lines ++ [Line.ofText "TR.P 2"])))) ∧
    (∀ s' err, Scene.session.placeLine 0 1 "TR.P 2" true = .ok (s', err) →
      (Call.insertLine 0 1 "TR.P 2").apply Io.silent Scene.session = s' ∧
      err = (Line.ofText "TR.P 2").error ∧
      ∃ old : Script, Scene.session.scripts[0]? = some old ∧ 1 ≤ old.lines.length ∧
        old.lines.length < Script.maxLines ∧
        Scene.session.ScriptReplaced s' 0 (old.lines.insertIdx 1 (Line.ofText "TR.P 2"))) ∧
    (∀ s', Scene.session.deleteLine 0 1 = .ok s' →
      (Call.deleteLine 0 1).apply Io.silent Scene.session = s' ∧
      ∃ old : Script, Scene.session.scripts[0]? = some old ∧ 1 < old.lines.length ∧
        Scene.session.ScriptReplaced s' 0 (old.lines.eraseIdx 1)) ∧
    (∀ s', Scene.session.clearScript 0 = .ok s' →
      (Call.clearScript 0).apply Io.silent Scene.session = s' ∧
      Scene.session.ScriptReplaced s' 0 []) ∧
    (∀ e, (Line.ofText "TR.P 2").error = some e →
      Line.ofText "TR.P 2" = ⟨Text.upperAscii (Text.trim "TR.P 2"), .nop, some e⟩) :=
  ⟨reachable_session, by decide +kernel, by decide +kernel,
    Scene.Reachable.script_edits_atomic_local reachable_session Io.silent 0 1 "TR.P 2"⟩

end TriggerScript
