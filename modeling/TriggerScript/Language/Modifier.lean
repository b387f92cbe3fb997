/-!
Modifiers: the words that prefix a line and decide how its body runs.

A modifier takes a fixed number of operands before the pre-separator `:`. The deferring
modifiers hand their body to the delay queue or to the command stack instead of running it
in place.
-/

set_option autoImplicit false
set_option relaxedAutoImplicit false

namespace TriggerScript

inductive Modifier
  | ifThen | elif | orElse | loop | whileLoop | every | skip | other | prob
  | delay | delayRepeat | delayRun | stack
  deriving DecidableEq, Repr, Inhabited

namespace Modifier

/-- Every modifier, in table order. -/
def all : List Modifier :=
  [.ifThen, .elif, .orElse, .loop, .whileLoop, .every, .skip, .other, .prob, .delay,
    .delayRepeat, .delayRun, .stack]

/-- The canonical name first, then the aliases. -/
def names : Modifier → List String
  | .ifThen => ["IF"]
  | .elif => ["ELIF"]
  | .orElse => ["ELSE"]
  | .loop => ["L"]
  | .whileLoop => ["W"]
  | .every => ["EVERY", "EV"]
  | .skip => ["SKIP"]
  | .other => ["OTHER"]
  | .prob => ["PROB"]
  | .delay => ["DEL"]
  | .delayRepeat => ["DEL.X"]
  | .delayRun => ["DEL.R"]
  | .stack => ["S"]

def name (m : Modifier) : String :=
  m.names.headD "?"

def arity : Modifier → Nat
  | .orElse | .other | .stack => 0
  | .ifThen | .elif | .whileLoop | .every | .skip | .prob | .delay => 1
  | .loop | .delayRepeat | .delayRun => 2

/-- The modifiers whose body is kept for later rather than run in place. -/
def defers : Modifier → Bool
  | .delay | .delayRepeat | .delayRun | .stack => true
  | _ => false

end Modifier

end TriggerScript
