/-!
The Jaro similarity of two words, and the closest of several words to a given one.

Two characters match when they are equal, neither has matched before, and their positions
differ by less than half the longer word's length. Each character of the first word takes
the first character of the second that it matches. With `m` matches and `t` half the
number of places where the matched characters, read in order, differ, the similarity is
the mean of `m / |a|`, `m / |b|` and `(m - t) / m`: one for equal words, zero when
nothing matches. It is computed in double precision, as the mean of the three quotients.

A suggestion is the word most similar to the given one, among those scoring above 0.7;
of equal scores the later word wins.
-/

set_option autoImplicit false
set_option relaxedAutoImplicit false

namespace TriggerScript

namespace Text

/-- The first unmatched position of `b` inside `lo ≤ j < hi` that holds `c`. -/
def firstMatch (b : List Char) (taken : List Bool) (c : Char) (lo hi : Nat) : Option Nat :=
  (List.range hi).find? fun j => lo ≤ j && b.getD j c == c && !taken.getD j true

/-- For each character of `a`, whether it matched, and for each of `b`, whether it was
matched. -/
def matchMarks (a b : List Char) : List Bool × List Bool :=
  let window := max a.length b.length / 2 - 1
  a.zipIdx.foldl
    (fun (marksA, marksB) (c, i) =>
      match firstMatch b marksB c (i - window) (min b.length (i + window + 1)) with
      | some j => (marksA ++ [true], marksB.set j true)
      | none => (marksA ++ [false], marksB))
    ([], List.replicate b.length false)

/-- The characters of a word whose mark is set, in order. -/
def marked (w : List Char) (marks : List Bool) : List Char :=
  (w.zip marks).filterMap fun (c, m) => if m then some c else none

/-- The Jaro similarity of two words. -/
def jaro (a b : List Char) : Float :=
  if a.isEmpty && b.isEmpty then 1
  else if a.isEmpty || b.isEmpty then 0
  else
    let (marksA, marksB) := matchMarks a b
    let common := marked a marksA
    let m := common.length
    if m = 0 then 0
    else
      let t := ((common.zip (marked b marksB)).filter fun (x, y) => x != y).length / 2
      (m.toFloat / a.length.toFloat + m.toFloat / b.length.toFloat +
        (m - t).toFloat / m.toFloat) / 3

/-- The least similarity worth a suggestion. -/
def suggestionFloor : Float := 0.7

/-- The word of `candidates` most similar to `w` above the floor; of equal scores the
later one. -/
def closest (w : String) (candidates : List String) : Option String :=
  candidates.foldl
    (fun best c =>
      let score := jaro w.toList c.toList
      if score > suggestionFloor then
        match best with
        | some (_, top) => if score ≥ top then some (c, score) else best
        | none => some (c, score)
      else best)
    none |>.map (·.1)

end Text

end TriggerScript
