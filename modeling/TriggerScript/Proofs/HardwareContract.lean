import TriggerScript.Proofs.RequestLog
import TriggerScript.Proofs.RuntimeBounds
import TriggerScript.Proofs.Reachable
/-!
The contract between a scene and its hardware.

The connection expects each request in range: CV values with the channel offset already
added and within full scale, channels among the four outputs, slews and pulse times of at
least a millisecond, metronome periods of at least its least value, bus addresses of seven
bits, and scene slots among the thirty-two (`Event.Lawful`). Every request a bounded scene
makes meets it: operators hold their operands to these ranges before they ask, and the two
requests that repeat a stored setting, a pulse at the output's pulse time and a metronome
update at the stored period, rely on the scene being bounded (`bounded_logStable`).

So a scene reached through the entry points, editors, setters and methods stays stored and
bounded, and every entry point run on it only appends lawful requests to the log; the
readings of `IN` and `PARAM` are within full scale whatever the calibration
(`Scene.Reachable.hardware_contract`).
-/

set_option autoImplicit false
set_option relaxedAutoImplicit false

namespace TriggerScript

/-- The range the hardware connection expects of each request. -/
def Event.Lawful : Event → Prop
  | .cv ch v _ => ch < Scene.outputCount ∧ 0 ≤ v ∧ v ≤ Value.cvMax
  | .cvSlew ch ms => ch < Scene.outputCount ∧ 1 ≤ ms
  | .cvOff ch _ => ch < Scene.outputCount
  | .tr ch _ => ch < Scene.outputCount
  | .trPulse ch ms => ch < Scene.outputCount ∧ 1 ≤ ms
  | .trPulseClear ch => ch < Scene.outputCount
  | .trPulseTime ch ms => ch < Scene.outputCount ∧ 1 ≤ ms
  | .iiTx addr _ => addr ≤ 127
  | .iiRx addr => addr ≤ 127
  | .metro ms _ => Scene.metroMin ≤ ms
  | .loadScene slot => slot < Scene.sceneSlots
  | _ => True

/-! ### Operands held to range -/

namespace Operators

theorem channel_lt {n : Int16} {count ch : Nat} (h : channel n count = some ch) : ch < count := by
  unfold channel at h
  split at h
  · cases h
    omega
  · cases h

theorem position_lt {n : Int16} {count k : Nat} (h : position n count = some k) : k < count := by
  unfold position at h
  split at h
  · cases h
    omega
  · cases h

theorem bank_lt (n : Int16) : bank n < Scene.patternCount := by
  unfold bank Scene.patternCount
  omega

theorem level_le (n : Int16) : level n ≤ Scene.levelMax := by
  unfold level Scene.levelMax
  omega

theorem address_le (z : Int) : (max 0 (min 127 z)).toNat.toUInt8 ≤ 127 := by
  rw [UInt8.le_iff_toNat_le, Nat.toUInt8_eq, UInt8.toNat_ofNat', show (127 : UInt8).toNat = 127 from rfl]
  omega

theorem ofInt_clamp (z : Int) :
    0 ≤ Int16.ofInt (max 0 (min 16383 z)) ∧ Int16.ofInt (max 0 (min 16383 z)) ≤ Value.cvMax := by
  have hmax : Value.cvMax.toInt = 16383 := by decide
  rw [Int16.le_iff_toInt_le, Int16.le_iff_toInt_le, hmax, Int16.toInt_zero,
    Int16.toInt_ofInt_of_le (by omega) (by omega)]
  omega

open Act Scene

theorem writeCv_logs {ch : Nat} (hch : ch < outputCount) (v : Int16) (slew : Bool) :
    Logs Bounded Event.Lawful (writeCv ch v slew) := by
  unfold writeCv
  refine Logs.bind (Logs.modifyScene fun _ hs => hs.withOutputs (hs.outputs.setCv ch (clamp_cvMax v)))
    fun _ => ?_
  exact Logs.bind Logs.scene fun _ => Logs.emit fun _ _ => ⟨hch, ofInt_clamp _⟩

theorem kill_logs : Logs Bounded Event.Lawful kill := by
  unfold kill
  refine Logs.bind (Logs.modifyScene fun _ hs =>
    { hs with delays := hs.delays.cancelAll, stack_size := Nat.zero_le _ }) fun _ => ?_
  refine Logs.bind (Logs.forIn_list _ _ _ fun ch hch _ => ?_) fun _ => Logs.emit fun _ _ => trivial
  exact Logs.bind (Logs.emit fun _ _ => List.mem_range.mp hch) fun _ => Logs.pure _

theorem patternRead_logs (n : Nat) (p : PatternOp) (a : List Int16) :
    Logs Bounded Event.Lawful (patternRead n p a) := by
  unfold patternRead
  refine Logs.bind Logs.scene fun _ => ?_
  split <;> dsimp only <;>
  repeat (first
    | with_reducible exact Logs.pure _
    | with_reducible refine Logs.bind ?_ fun _ => ?_
    | with_reducible refine Logs.modifyScene fun _ hs => ?_
    | exact hs.congr rfl
    | split)

-- Each step is first matched by its head alone; what is left is the range of the value a
-- step writes (`Bounded`) or of the request it makes (`Event.Lawful`).
theorem read_logs (f : Frame) (o : Operator) (a : List Int16) :
    Logs Bounded Event.Lawful (read f o a) := by
  unfold read
  refine Logs.scene_bind fun s₀ hs₀ => ?_
  split <;> simp only [calibrate] <;>
  repeat (first
    | with_reducible exact Logs.pure _
    | with_reducible exact Logs.scene
    | with_reducible exact Logs.get
    | with_reducible exact Logs.ticks
    | with_reducible exact kill_logs
    | with_reducible exact patternRead_logs _ _ _
    | with_reducible refine writeCv_logs ?_ _ _
    | with_reducible refine Logs.drawBetween _ _ fun _ _ hs => ?_
    | with_reducible refine Logs.bind ?_ fun _ => ?_
    | with_reducible refine Logs.modifyScene fun _ hs => ?_
    | with_reducible refine Logs.emit fun _ _ => ?_
    | exact hs.congr rfl
    | with_reducible exact hs.withDelays hs.delays.cancelAll
    | with_reducible exact hs.clearStack
    | with_reducible exact hs.clearGrid
    | with_reducible exact hs.withTurtle Turtle.onGrid_home
    | with_reducible exact hs.withTurtle (hs.turtle.forward _)
    | with_reducible exact hs.withTurtle (hs.turtle.bump _)
    | with_reducible exact hs.withTurtle (hs.turtle.moveBy _ _)
    | with_reducible exact hs.withTurtle (hs.turtle.turn _)
    | with_reducible exact hs.withTurtle (hs.turtle.quarterTurn _)
    | exact channel_lt ‹_›
    | exact ⟨channel_lt ‹_›, hs₀.outputs.trTime_getD (channel_lt ‹_›)⟩
    | exact address_le _
    | exact True.intro
    | split)

theorem write_logs (o : Operator) (a : List Int16) (v : Int16) :
    Logs Bounded Event.Lawful (write o a v) := by
  unfold write
  split <;> simp only [patternWrite] <;>
  repeat (first
    | with_reducible exact Logs.pure _
    | with_reducible exact Logs.ticks
    | with_reducible refine writeCv_logs ?_ _ _
    | with_reducible refine Logs.scene_bind fun _ hs => Logs.emit fun _ _ => ?_
    | with_reducible exact Logs.scene
    | with_reducible refine Logs.bind ?_ fun _ => ?_
    | with_reducible refine Logs.modifyScene fun _ hs => ?_
    | with_reducible refine Logs.emit fun _ _ => ?_
    | exact hs.congr rfl
    | with_reducible exact hs.withOutputs (hs.outputs.setCvSlew _ (le_max_floor _ _))
    | with_reducible exact hs.withOutputs (hs.outputs.setTrTime _ (le_max_floor _ _))
    | with_reducible exact hs.setMetro (le_max_floor _ _)
    | with_reducible exact hs.setBank (bank_lt _)
    | with_reducible exact hs.setGridLed _ _ (level_le _)
    | with_reducible exact hs.withTurtle (hs.turtle.setX _)
    | with_reducible exact hs.withTurtle (hs.turtle.setY _)
    | with_reducible exact hs.withTurtle (hs.turtle.setHeading _)
    | exact hs.metro
    | exact channel_lt ‹_›
    | exact ⟨channel_lt ‹_›, le_max_floor _ _⟩
    | exact position_lt ‹_›
    | exact True.intro
    | split)

end Operators

/-! ### Every step of a run -/

namespace Executor

open Act Scene

theorem bounded_logStable : LogStable Bounded Event.Lawful where
  exhaust := Logs.modifyScene fun _ hs => hs.congr rfl
  readVar f v := by
    cases v <;> simp only [readVar] <;>
    repeat (first
      | with_reducible exact Logs.pure _
      | with_reducible exact Logs.scene
      | with_reducible exact Logs.get
      | with_reducible refine Logs.bind ?_ fun _ => ?_)
  writeVar f v x := by
    cases v <;> simp only [writeVar] <;>
    first
      | exact Logs.pure _
      | exact Logs.bind (Logs.modifyScene fun _ hs => hs.congr rfl) fun _ => Logs.pure _
  tickEvery f n := by
    unfold tickEvery
    refine Logs.scene_bind fun s₀ _ => ?_
    repeat (first
      | with_reducible exact Logs.pure _
      | with_reducible refine Logs.bind ?_ fun _ => ?_
      | exact Logs.modifyScene fun _ hs => hs.setEvery _ _ (everyTick_le _ _)
      | exact Logs.modifyScene fun _ hs => hs.setLiveEvery (everyTick_le _ _)
      | split)
  defer f body t := by
    unfold defer
    refine Logs.bind Logs.ticks fun _ => Logs.scene_bind fun s₀ hs₀ => ?_
    split
    · next q hok => exact Logs.modifyScene fun _ hs => hs.withDelays (hs₀.delays.schedule_ok hok).1
    · exact Logs.modifyScene fun _ hs => hs.congr rfl
  stackBody f body := by
    unfold stackBody
    refine Logs.scene_bind fun s₀ hs₀ => ?_
    split
    · next st hok =>
      obtain ⟨hcap, hsize⟩ := BoundedStack.push_ok hok
      exact Logs.modifyScene fun _ hs =>
        hs.withStack (hcap.trans hs₀.stack_capacity) (hs₀.stack_capacity ▸ hsize)
    · exact Logs.modifyScene fun _ hs => hs.congr rfl
  popStack := by
    unfold popStack
    refine Logs.scene_bind fun s₀ hs₀ => ?_
    obtain ⟨hcap, hsize⟩ := s₀.stack.pop_le
    refine Logs.bind (Logs.modifyScene fun _ hs => ?_) fun _ => Logs.pure _
    exact hs.withStack (hcap.trans hs₀.stack_capacity) (Nat.le_trans hsize hs₀.stack_size)
  read := Operators.read_logs
  write := Operators.write_logs
  abort _ hs := hs.congr rfl
  lastRun _ _ _ hs := hs.congr rfl
  rng _ _ hs := hs.congr rfl

end Executor

/-! ### Entry points -/

namespace Machine

open Act Executor Scene

theorem bounded_logKept (n : Nat) : LogKept Bounded Event.Lawful n := logKept bounded_logStable n

theorem run_logs (script : Nat) : Logs Bounded Event.Lawful (run script) := by
  unfold run
  repeat (first
    | with_reducible exact Logs.pure _
    | with_reducible exact Logs.scene
    | with_reducible exact (bounded_logKept _).runAt _ _
    | with_reducible refine Logs.bind ?_ fun _ => ?_
    | split)

theorem execute_logs (text : String) : Logs Bounded Event.Lawful (execute text) := by
  unfold execute
  dsimp only
  repeat (first
    | with_reducible exact Logs.pure _
    | with_reducible exact (bounded_logKept _).exec _ _
    | with_reducible refine Logs.bind ?_ fun _ => ?_
    | split)

theorem init_logs : Logs Bounded Event.Lawful init := by
  unfold init
  repeat (first
    | with_reducible exact Logs.pure _
    | with_reducible exact run_logs _
    | with_reducible refine Logs.bind ?_ fun _ => ?_
    | exact Logs.modifyScene fun _ hs => hs.congr rfl)

theorem fireDue_logs (now : UInt32) (before count fired : Nat) :
    Logs Bounded Event.Lawful (fireDue now before count fired) := by
  induction count generalizing fired with
  | zero => exact Logs.pure _
  | succ count ih =>
    rw [fireDue]
    refine Logs.scene_bind fun s₀ hs₀ => ?_
    have hq : (s₀.delays.popDueBefore now before).2.Valid := hs₀.delays.popDueBefore
    rcases hpop : s₀.delays.popDueBefore now before with ⟨_ | e, q⟩
    · exact Logs.pure _
    · rw [hpop] at hq
      refine Logs.bind (Logs.modifyScene fun _ hs => hs.withDelays hq) fun _ => ?_
      exact Logs.bind ((bounded_logKept _).exec _ _) fun _ => ih _

theorem midiIn_logs (msg : MidiMessage) : Logs Bounded Event.Lawful (midiIn msg) := by
  unfold midiIn
  refine Logs.scene_bind fun s₀ hs₀ => ?_
  have hm := hs₀.midi.receive msg
  rcases hrec : s₀.midi.receive msg with ⟨r, m⟩
  rw [hrec] at hm
  refine Logs.bind (Logs.modifyScene fun _ hs => hs.withMidi hm) fun _ => ?_
  split
  · exact Logs.bind (run_logs _) fun _ => Logs.pure _
  · exact Logs.pure _

theorem midiFlush_logs : Logs Bounded Event.Lawful midiFlush := by
  unfold midiFlush
  refine Logs.bind Logs.scene fun _ => ?_
  refine Logs.bind (Logs.forIn_list _ _ _ fun _ _ _ =>
    Logs.bind (run_logs _) fun _ => Logs.pure _) fun _ => ?_
  exact Logs.bind (Logs.modifyScene fun _ hs => hs.withMidi (Midi.batched_endBatch _))
    fun _ => Logs.pure _

theorem dispatch_logs (i : Input) : Logs Bounded Event.Lawful (dispatch i) := by
  cases i <;> simp only [dispatch, trigger, metroTick, pulseEnd, gridPress, advanceDelays]
  case midi msg => exact midiIn_logs msg
  case midiFlush => exact Logs.bind midiFlush_logs fun _ => Logs.pure _
  all_goals
    repeat (first
      | with_reducible exact Logs.pure _
      | with_reducible exact Logs.scene
      | with_reducible exact run_logs _
      | with_reducible exact fireDue_logs _ _ _ _
      | with_reducible refine Logs.bind ?_ fun _ => ?_
      | with_reducible refine Logs.modifyScene fun _ hs => ?_
      | with_reducible refine Logs.emit fun _ _ => ?_
      | exact hs.congr rfl
      | exact True.intro
      | assumption
      | split)

theorem drain_logs (inputs : List Input) : Logs Bounded Event.Lawful (drain inputs) :=
  Logs.bind (Logs.forIn_list _ _ _ fun i _ _ => Logs.bind (dispatch_logs i) fun _ => Logs.pure _)
    fun _ => Logs.pure _

end Machine

/-! ### Calls -/

namespace Scene

open Record

variable {s s' : Scene}

theorem Bounded.placeLine (h : s.Bounded) {script n : Nat} {text : String} {insert : Bool}
    {e : Option Error} (hp : s.placeLine script n text insert = .ok (s', e)) : s'.Bounded := by
  unfold Scene.placeLine at hp
  obtain ⟨target, -, hp⟩ := Reader.bind_eq_ok hp
  dsimp only at hp
  split at hp
  · obtain ⟨_, hthrow, -⟩ := Reader.bind_eq_ok hp
    cases hthrow
  split at hp <;>
  · obtain ⟨changed, -, hp⟩ := Reader.bind_eq_ok hp
    cases hp
    refine Bounded.scriptChanged ?_ script
    exact h.congr rfl

theorem Bounded.deleteLine (h : s.Bounded) {script n : Nat} (hd : s.deleteLine script n = .ok s') :
    s'.Bounded := by
  unfold Scene.deleteLine at hd
  obtain ⟨target, -, hd⟩ := Reader.bind_eq_ok hd
  obtain ⟨changed, -, hd⟩ := Reader.bind_eq_ok hd
  cases hd
  refine Bounded.scriptChanged ?_ script
  exact h.congr rfl

theorem Bounded.clearScript (h : s.Bounded) {script : Nat} (hc : s.clearScript script = .ok s') :
    s'.Bounded := by
  unfold Scene.clearScript at hc
  obtain ⟨_, -, hc⟩ := Reader.bind_eq_ok hc
  cases hc
  refine Bounded.scriptChanged ?_ script
  exact h.congr rfl

theorem Bounded.setDescriptionLine (h : s.Bounded) {n : Nat} {text : String}
    (hd : s.setDescriptionLine n text = .ok s') : s'.Bounded := by
  unfold Scene.setDescriptionLine at hd
  split at hd
  · cases hd
  split at hd
  · cases hd
  split at hd
  · cases hd
  cases hd
  exact h.congr rfl

end Scene

theorem MidiEdit.batched {m : Midi} (h : m.Batched) (e : MidiEdit) : (e.apply m).Batched := by
  cases e with
  | bind e script => exact ⟨h.notesOn, h.notesOff, h.controls⟩
  | setClockDiv div => exact ⟨h.notesOn, h.notesOff, h.controls⟩
  | resetClock => exact ⟨h.notesOn, h.notesOff, h.controls⟩
  | receive msg => exact h.receive msg

namespace Call

open Scene

theorem bounded (io : Io) {s : Scene} (hs : s.Bounded) (c : Call) : (c.apply io s).Bounded := by
  cases c with
  | execute text => exact (Machine.execute_logs text).keeps ⟨s, io⟩ hs
  | run script => exact (Machine.run_logs script).keeps ⟨s, io⟩ hs
  | init => exact Machine.init_logs.keeps ⟨s, io⟩ hs
  | dispatch input => exact (Machine.dispatch_logs input).keeps ⟨s, io⟩ hs
  | drain inputs => exact (Machine.drain_logs inputs).keeps ⟨s, io⟩ hs
  | editLine script n text =>
    simp only [Call.apply]
    split
    · next hp => exact hs.placeLine hp
    · exact hs
  | insertLine script n text =>
    simp only [Call.apply]
    split
    · next hp => exact hs.placeLine hp
    · exact hs
  | deleteLine script n => exact holds_getD hs fun _ => hs.deleteLine
  | clearScript script => exact holds_getD hs fun _ => hs.clearScript
  | resetTransient => exact hs.resetTransient
  | reseed seed => exact hs.congr rfl
  | setDescriptionLine n text => exact holds_getD hs fun _ => hs.setDescriptionLine
  | setMute input muted => exact hs.congr rfl
  | setPolarity input p => exact hs.congr rfl
  | setCalibration c => exact hs.congr rfl
  | setFlip flip => exact hs.congr rfl
  | setSlot slot => exact hs.congr rfl
  | setVar n v => exact hs.congr rfl
  | editPattern n e => exact hs.congr rfl
  | editMidi e => exact hs.withMidi (MidiEdit.batched hs.midi e)

end Call

theorem Scene.Reachable.bounded {s : Scene} (h : s.Reachable) : s.Bounded := by
  induction h with
  | fresh seed => exact Scene.bounded_withSeed seed
  | loaded h =>
    obtain ⟨version, f, -, -, rfl, -⟩ := Record.sceneOfImage_inverts h
    exact (Scene.bounded_withSeed 0).congr rfl
  | call io c _ ih => exact Call.bounded io ih c

/-! ### Readings of the analog inputs -/

theorem Calibration.scale_range (raw lo hi : Nat) :
    0 ≤ Calibration.scale raw lo hi ∧ Calibration.scale raw lo hi ≤ Value.cvMax := by
  have hmax : Value.cvMax.toInt = 16383 := by decide
  -- both branches scale onto `0..16383`, which a sixteen-bit value holds as it is
  have hfit : ∀ k : Nat, k ≤ Calibration.fullScale →
      0 ≤ Int16.ofNat k ∧ Int16.ofNat k ≤ Value.cvMax := by
    intro k hk
    unfold Calibration.fullScale at hk
    rw [Int16.le_iff_toInt_le, Int16.le_iff_toInt_le, hmax, Int16.toInt_zero,
      Int16.toInt_ofNat_of_lt (by omega)]
    omega
  unfold Calibration.scale
  split
  · exact hfit _ (Nat.min_le_right _ _)
  · rename_i hlt
    have hspan : max lo (min hi raw) - lo ≤ hi - lo := by omega
    exact hfit _ (Nat.div_le_of_le_mul (Nat.mul_le_mul_right _ hspan))

theorem Calibration.read_range (c : Calibration) (which : Special) (raw : Nat) :
    0 ≤ c.read which raw ∧ c.read which raw ≤ Value.cvMax := by
  cases which with
  | input => exact Calibration.scale_range _ _ _
  | param => exact Calibration.scale_range _ _ _

/-! ### The contract on reachable scenes -/

open Act in
/-- Each entry point run on the scene, whatever the connection reads, appends only lawful
requests to its log, and `IN` and `PARAM` read within full scale. -/
def Scene.MeetsContract (s : Scene) : Prop :=
  ∀ io : Io,
    (∀ text, Appended Event.Lawful ⟨s, io⟩ ((Machine.execute text).run ⟨s, io⟩).2) ∧
    (∀ script, Appended Event.Lawful ⟨s, io⟩ ((Machine.run script).run ⟨s, io⟩).2) ∧
    Appended Event.Lawful ⟨s, io⟩ (Machine.init.run ⟨s, io⟩).2 ∧
    (∀ inputs, Appended Event.Lawful ⟨s, io⟩ ((Machine.drain inputs).run ⟨s, io⟩).2) ∧
    ∀ (f : Frame) (which : Special),
      0 ≤ ((Executor.readVar f (.special which)).run ⟨s, io⟩).1 ∧
        ((Executor.readVar f (.special which)).run ⟨s, io⟩).1 ≤ Value.cvMax

theorem Scene.Bounded.meetsContract {s : Scene} (hs : s.Bounded) : s.MeetsContract := by
  intro io
  refine ⟨fun text => ((Machine.execute_logs text) ⟨s, io⟩ hs).2,
    fun script => ((Machine.run_logs script) ⟨s, io⟩ hs).2, (Machine.init_logs ⟨s, io⟩ hs).2,
    fun inputs => ((Machine.drain_logs inputs) ⟨s, io⟩ hs).2, fun f which => ?_⟩
  exact Calibration.read_range s.calibration which (io.adc which)

/-- **Reachable scenes keep their ranges and the hardware contract.** A scene reached from a
fresh scene or from an image by any calls is stored (scripts, patterns, polarities, MIDI
bindings and divider in range), bounded (bank, turtle, grid, outputs, metronome, MIDI
batches, `EVERY` counters, stack and delays in range), and every entry point run on it
makes only requests the hardware accepts. -/
theorem Scene.Reachable.hardware_contract {s : Scene} (h : s.Reachable) :
    s.Stored ∧ s.Bounded ∧ s.MeetsContract :=
  ⟨h.stored, h.bounded, h.bounded.meetsContract⟩

/-- The session's scene, after edits, runs, a stacked command and a MIDI note, keeps its ranges
and the contract. -/
theorem session_hardware_contract :
    Scene.session.Reachable ∧ Scene.session.stack.size = 1 ∧
      Scene.session.midi.notesOn.length = 1 ∧
      Scene.session.Stored ∧ Scene.session.Bounded ∧ Scene.session.MeetsContract :=
  ⟨Scene.reachable_session, by decide +kernel, by decide +kernel,
    Scene.Reachable.hardware_contract Scene.reachable_session⟩

end TriggerScript
