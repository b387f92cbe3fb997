import TriggerScript.Console.Session
/-!
A whole run of the console over a list of typed lines: what it prints, its exit status,
and the folder of records it leaves.

The command line is read first. Help and version print on standard output; a fault
prints on standard error and ends the run with status 2. Otherwise the session starts,
takes each line in turn, and ends with status 0 when the lines run out.
-/

set_option autoImplicit false
set_option relaxedAutoImplicit false

namespace TriggerScript

namespace Console

structure Transcript where
  stdout : List String
  stderr : String
  status : Nat
  storage : Storage
  deriving Inhabited

/-- The exit status of a command line the console refuses. -/
def refusedStatus : Nat := 2

/-- Takes typed lines one after another, gathering what they print. -/
def Session.feed (s : Session) : List String → Session × List String
  | [] => (s, [])
  | keys :: rest =>
    let (s, out) := s.enter keys
    let (s, more) := s.feed rest
    (s, out ++ more)

def typedLines (texts : List String) : List String := texts.flatMap (·.splitOn "\n")

/-- Runs the console with a command line, a folder of records and typed text, one line
per line feed. Scenes that start without a seed draw their randomness from `entropy`. -/
def Transcript.ofRun (args : List String) (storage : Storage) (entropy : UInt64)
    (keys : List String) : Transcript :=
  match Invocation.ofArgs args with
  | .help => { stdout := helpLines, stderr := "", status := 0, storage }
  | .version => { stdout := [versionText], stderr := "", status := 0, storage }
  | .fault f => { stdout := [], stderr := f.render, status := refusedStatus, storage }
  | .run o =>
    let (s, out) := Session.start o storage entropy
    let (s, more) := s.feed (typedLines keys)
    { stdout := out ++ more, stderr := "", status := 0, storage := s.storage }

end Console

end TriggerScript
