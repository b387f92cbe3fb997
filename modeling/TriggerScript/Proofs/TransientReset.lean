import TriggerScript.Proofs.Resave
import TriggerScript.Proofs.PatternWindow
import TriggerScript.Proofs.DelayOrder
/-!
Dropping the transient state of a scene.

`Scene.resetTransient` cancels every delay, empties the command stack, sends the turtle home,
restarts every `EVERY` counter and starts new MIDI batches. Of the stored part of the scene it
changes the pattern cursors alone, each put back at the start of its window
(`Scene.persisted_resetTransient`): the cursor is a field of the record. So the scene compares
equal to what it was, and saves to the same record, exactly when every cursor already was at
the start of its window (`Scene.samePersisted_resetTransient_iff`,
`Scene.sceneImage_resetTransient_iff`); a cursor moved by a caller is moved back
(`Scene.reset_moves_pattern_cursor`).
-/

set_option autoImplicit false
set_option relaxedAutoImplicit false

namespace TriggerScript

open Record

/-! ### Rewound patterns in a record -/

namespace Record

theorem length_patternImage_rewind (p : Pattern) :
    (patternImage p.rewind).length = (patternImage p).length := by
  rw [Pattern.rewind_eq]
  simp [patternImage, word16]

theorem patternImage_rewind_eq_iff {p : Pattern} (h : p.Valid) :
    patternImage p.rewind = patternImage p ↔ p.index = p.start := by
  rw [← Pattern.rewind_eq_self_iff]
  constructor
  · intro he
    exact (Reader.pattern_codec.prefix_unique h.rewind h (congrArg (· ++ []) he)).1
  · intro he
    rw [he]

namespace Fields

def rewound (f : Fields) : Fields := { f with patterns := f.patterns.map Pattern.rewind }

theorem image_rewound_iff {version : Nat} {f : Fields} (hf : ∀ p ∈ f.patterns, p.Valid) :
    f.rewound.image version = f.image version ↔ ∀ p ∈ f.patterns, p.index = p.start := by
  simp only [image, rewound, List.append_assoc, List.append_cancel_left_eq, List.append_left_inj,
    List.flatMap_map]
  rw [flatMap_eq_flatMap_iff fun p _ => length_patternImage_rewind p]
  exact forall₂_congr fun p hp => patternImage_rewind_eq_iff (hf p hp)

end Fields

end Record

/-! ### What a reset keeps -/

namespace Scene

theorem persisted_resetTransient (s : Scene) :
    s.resetTransient.persisted = { s.persisted with patterns := s.patterns.map Pattern.rewind } :=
  rfl

theorem ofScene_resetTransient (s : Scene) :
    Fields.ofScene s.resetTransient = (Fields.ofScene s).rewound :=
  rfl

theorem map_rewind_eq_self_iff (ps : List Pattern) :
    ps.map Pattern.rewind = ps ↔ ∀ p ∈ ps, p.index = p.start := by
  induction ps with
  | nil => simp
  | cons p ps ih =>
    simp only [List.map_cons, List.cons.injEq, List.mem_cons, forall_eq_or_imp, ih,
      Pattern.rewind_eq_self_iff]

theorem samePersisted_resetTransient_iff (s : Scene) :
    s.resetTransient.samePersisted s = true ↔ ∀ p ∈ s.patterns, p.index = p.start := by
  rw [samePersisted_iff, persisted_resetTransient, ← map_rewind_eq_self_iff]
  constructor
  · intro h
    exact congrArg Persisted.patterns h
  · intro h
    rw [h]

/-- A stored scene, reset, saves to the same record exactly when every cursor was at the
start. -/
theorem sceneImage_resetTransient_iff {s : Scene} (hs : s.Stored) :
    sceneImage s.resetTransient = sceneImage s ↔ ∀ p ∈ s.patterns, p.index = p.start := by
  rw [sceneImage, sceneImage, sceneBody_eq_image, sceneBody_eq_image, ofScene_resetTransient]
  constructor
  · intro h
    exact (Fields.image_rewound_iff hs.patterns).mp (List.append_cancel_left (sealed_inj h))
  · intro h
    rw [(Fields.image_rewound_iff hs.patterns).mpr h]

end Scene

/-- **A reset keeps the record but the cursors.** For every reachable scene, dropping the
transient state cancels every pending delay, empties the command stack, sends the turtle home,
puts every `EVERY` counter of every line, and the counter of lines outside any script, back at
zero, and empties the MIDI batches. Of what the scene stores it changes only the pattern
cursors, each put back at the start of its window. So the reset scene compares equal to the
scene, and saves to the same record, exactly when every pattern's cursor already was at the
start of its window. -/
theorem Scene.Reachable.reset_keeps_all_but_cursors {s : Scene} (hs : s.Reachable) :
    s.resetTransient.persisted =
      { s.persisted with patterns := s.patterns.map fun p => { p with index := p.start } } ∧
    (s.resetTransient.samePersisted s = true ↔ ∀ p ∈ s.patterns, p.index = p.start) ∧
    (sceneImage s.resetTransient = sceneImage s ↔ ∀ p ∈ s.patterns, p.index = p.start) ∧
    s.resetTransient.delays.entries = [] ∧ s.resetTransient.stack.items = [] ∧
    s.resetTransient.turtle = Turtle.home ∧
    s.resetTransient.every = List.replicate Scene.scriptCount (List.replicate Script.maxLines 0) ∧
    s.resetTransient.liveEvery = 0 ∧
    s.resetTransient.midi = { s.midi with notesOn := [], notesOff := [], controls := [] } := by
  refine ⟨?_, Scene.samePersisted_resetTransient_iff s,
    Scene.sceneImage_resetTransient_iff hs.stored, DelayQueue.entries_cancelAll s.delays, rfl, rfl,
    rfl, rfl, rfl⟩
  have hrewind : Pattern.rewind = fun p : Pattern => { p with index := p.start } :=
    funext Pattern.rewind_eq
  rw [Scene.persisted_resetTransient, hrewind]

/-- The session's scene, reset, keeps its record, its lines included, and drops its pending
delay, its stacked command and its MIDI note. -/
theorem Scene.session_reset_keeps_record :
    Scene.session.Reachable ∧ Scene.session.delays.entries.length = 1 ∧
    Scene.session.stack.size = 1 ∧ Scene.session.midi.notesOn.length = 1 ∧
    Scene.session.resetTransient.persisted =
      { Scene.session.persisted with
        patterns := Scene.session.patterns.map fun p => { p with index := p.start } } ∧
    (Scene.session.resetTransient.samePersisted Scene.session = true ↔
      ∀ p ∈ Scene.session.patterns, p.index = p.start) ∧
    (sceneImage Scene.session.resetTransient = sceneImage Scene.session ↔
      ∀ p ∈ Scene.session.patterns, p.index = p.start) ∧
    Scene.session.resetTransient.delays.entries = [] ∧
    Scene.session.resetTransient.stack.items = [] ∧
    Scene.session.resetTransient.turtle = Turtle.home ∧
    Scene.session.resetTransient.every =
      List.replicate Scene.scriptCount (List.replicate Script.maxLines 0) ∧
    Scene.session.resetTransient.liveEvery = 0 ∧
    Scene.session.resetTransient.midi =
      { Scene.session.midi with notesOn := [], notesOff := [], controls := [] } :=
  ⟨reachable_session, by decide +kernel, by decide +kernel, by decide +kernel,
    Scene.Reachable.reset_keeps_all_but_cursors reachable_session⟩

/-- The scene a caller reaches by moving the cursor of the first pattern to slot 5. -/
def Scene.cursorMoved : Scene := (Scene.withSeed 0).modifyPattern 0 (·.setIndex 5)

/-- A reset moves a moved cursor back: the scene no longer compares equal to what it was, and
saves to another record. -/
theorem Scene.reset_moves_pattern_cursor :
    Scene.cursorMoved.Reachable ∧
    Scene.cursorMoved.resetTransient.samePersisted Scene.cursorMoved = false ∧
    sceneImage Scene.cursorMoved.resetTransient ≠ sceneImage Scene.cursorMoved := by
  have hreach : Scene.cursorMoved.Reachable :=
    .call Io.silent (.editPattern 0 (.setIndex 5)) (.fresh 0)
  have hmoved : ¬ ∀ p ∈ Scene.cursorMoved.patterns, p.index = p.start := by
    intro h
    have hslot : Scene.cursorMoved.patterns[0]? = some (Pattern.empty.setIndex 5) := rfl
    have hfirst : Pattern.empty.setIndex 5 ∈ Scene.cursorMoved.patterns := List.mem_of_getElem? hslot
    exact absurd (h _ hfirst) (by decide)
  refine ⟨hreach, ?_, ?_⟩
  · rw [← Bool.not_eq_true, Scene.samePersisted_resetTransient_iff]
    exact hmoved
  · rw [Ne, Scene.sceneImage_resetTransient_iff hreach.stored]
    exact hmoved

end TriggerScript
