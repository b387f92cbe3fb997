import TriggerScript.Text.Blank
import TriggerScript.Text.Unsigned
import TriggerScript.Text.Similarity
/-!
The console's command line.

The console takes three options, each with one value: `--dir` (the folder of saved
scenes, `scenes` when not given), `--scene` (a slot loaded at start) and `--seed` (the seed
of the random operators), written `--seed 5` or `--seed=5`. `-h`/`--help` and
`-V`/`--version` print the help or the version and stop.

Arguments are read from the left. A value is checked when the next option is read, or at
the end, so a fault shows up then; the first fault ends the reading:

* an option without its value;
* a value that is not an unsigned number below 2⁶⁴;
* an option given twice;
* an argument that is no option, with the closest option name offered as a tip;
* a value attached to a flag.

A fault is reported in the format of the argument reader: a first line that starts with
`error:`, perhaps a tip and a usage line, and a pointer to `--help`. The usage line of an
unknown argument names the options read so far; that of a value attached to a flag names
the flag and, once an option has been read, the options that take a value as one choice.
-/

set_option autoImplicit false
set_option relaxedAutoImplicit false

namespace TriggerScript

namespace Console

/-- The arguments the console knows. The first three take a value. -/
inductive Flag
  | dir
  | scene
  | seed
  | help
  | version
  deriving DecidableEq, Repr, Inhabited

namespace Flag

/-- Every flag, in the order the help lists them. -/
def all : List Flag := [.dir, .scene, .seed, .help, .version]

def long : Flag → String
  | .dir => "dir"
  | .scene => "scene"
  | .seed => "seed"
  | .help => "help"
  | .version => "version"

/-- The one-letter name, for the two flags that have one. -/
def short? : Flag → Option Char
  | .help => some 'h'
  | .version => some 'V'
  | _ => none

def takesValue : Flag → Bool
  | .dir | .scene | .seed => true
  | .help | .version => false

/-- The flag as messages name it: `--scene <SCENE>` or `--help`. -/
def display (f : Flag) : String :=
  if f.takesValue then "--" ++ f.long ++ " <" ++ Text.upperAscii f.long ++ ">"
  else "--" ++ f.long

def ofLong? (name : String) : Option Flag := all.find? (·.long == name)

def ofShort? (c : Char) : Option Flag := all.find? (·.short? == some c)

end Flag

structure Options where
  dir : String := "scenes"
  scene : Option Nat := none
  seed : Option Nat := none
  deriving DecidableEq, Repr, Inhabited

inductive Fault
  /-- An option came without its value. -/
  | noValue (f : Flag)
  /-- A value is not a number. -/
  | badValue (f : Flag) (value : String) (why : Text.NumberFault)
  /-- An option was given twice. -/
  | repeated (f : Flag)
  /-- An argument is no option; the tip and the options read so far. -/
  | unknown (arg : String) (tip : Option Flag) (seen : List Flag)
  /-- A value was attached to a flag; the options read before it. -/
  | attached (value : String) (f : Flag) (seen : List Flag)
  deriving DecidableEq, Repr

inductive Invocation
  | run (o : Options)
  | help
  | version
  | fault (f : Fault)
  deriving DecidableEq, Repr

def programName : String := "teletype"

/-- The package name and version that `--version` prints. -/
def versionText : String := "teletype-engine 0.1.0"

/-- One line of usage: the options read so far, or `[OPTIONS]` before any. -/
def usage (seen : List Flag) : String :=
  if seen.isEmpty then "Usage: " ++ programName ++ " [OPTIONS]"
  else "Usage: " ++ " ".intercalate (programName :: seen.map Flag.display)

/-- The options that take a value, as one choice: `<--dir <DIR>|--scene <SCENE>|--seed <SEED>>`. -/
def valueChoice : String :=
  "<" ++ "|".intercalate ((Flag.all.filter Flag.takesValue).map Flag.display) ++ ">"

/-- The usage line for a value attached to flag `f`: the flag, followed by the options
that take a value as one choice once any of them has been read. The options read are
not named one by one, as the choice stands for all of them. -/
def attachedUsage (f : Flag) (seen : List Flag) : String :=
  let choice := if seen.any Flag.takesValue then [valueChoice] else []
  "Usage: " ++ " ".intercalate (programName :: f.display :: choice)

def helpLines : List String :=
  [ "Script engine for a programmable trigger and CV sequencer",
    "",
    usage [],
    "",
    "Options:",
    "      --dir <DIR>      Directory holding saved scenes [default: scenes]",
    "      --scene <SCENE>  Scene slot loaded at start",
    "      --seed <SEED>    Seed for the random operators",
    "  -h, --help           Print help",
    "  -V, --version        Print version" ]

/-- The text of a fault, as the argument reader prints it. -/
def Fault.render : Fault → String
  | .noValue f =>
    "error: a value is required for '" ++ f.display ++ "' but none was supplied" ++ moreHelp
  | .badValue f v why =>
    "error: invalid value '" ++ v ++ "' for '" ++ f.display ++ "': " ++ why.message ++ moreHelp
  | .repeated f =>
    "error: the argument '" ++ f.display ++ "' cannot be used multiple times\n\n" ++
      usage [] ++ moreHelp
  | .unknown arg tip seen =>
    let tipText := match tip with
      | some t => "\n\n  tip: a similar argument exists: '--" ++ t.long ++ "'"
      | none => ""
    "error: unexpected argument '" ++ arg ++ "' found" ++ tipText ++ "\n\n" ++ usage seen ++
      moreHelp
  | .attached v f seen =>
    "error: unexpected value '" ++ v ++ "' for '" ++ f.display ++
      "' found; no more were expected\n\n" ++ attachedUsage f seen ++ moreHelp
where
  moreHelp : String := "\n\nFor more information, try '--help'.\n"

structure Given where
  flag : Flag
  value : Option Nat := none
  text : String := ""
  deriving DecidableEq, Repr

/-- The state of reading: the flags read in order, the option whose values are still
being gathered, whether the last option still waits for its value, and whether a `--`
has ended the options. -/
structure Reading where
  given : List Given := []
  pending : Option (Flag × List String) := none
  waiting : Bool := false
  trailing : Bool := false
  deriving Repr, Inhabited

namespace Reading

/-- The flags read so far, in order. -/
def seen (r : Reading) : List Flag := r.given.map (·.flag)

/-- Records an option with its gathered values: it must have one, must not have been read
before, and a number option's value must be a number. A repeated option is dropped from
what was read, and a bad value stays read. -/
def accept (r : Reading) (f : Flag) (values : List String) : Except Fault Reading :=
  match values with
  | [] => if f.takesValue then .error (.noValue f) else .ok r
  | v :: _ =>
    if r.seen.contains f then .error (.repeated f)
    else if f = .dir then .ok { r with given := r.given ++ [{ flag := f, text := v }] }
    else
      match Text.readUnsigned Text.wordBound v with
      | .ok n => .ok { r with given := r.given ++ [{ flag := f, value := some n, text := v }] }
      | .error why => .error (.badValue f v why)

/-- Like `accept`, but the reading left behind when it fails. -/
def acceptLeft (r : Reading) (f : Flag) (values : List String) : Reading :=
  match r.accept f values with
  | .ok r' => r'
  | .error (.repeated _) => { r with given := r.given.filter (·.flag != f) }
  | .error (.badValue _ v _) => { r with given := r.given ++ [{ flag := f, text := v }] }
  | .error _ => r

/-- Checks the option whose values are still being gathered. -/
def settle (r : Reading) : Except Fault Reading :=
  match r.pending with
  | none => .ok r
  | some (f, values) => { r with pending := none }.accept f values

/-- Settles the gathered option where a fault would be ignored. -/
def settleQuietly (r : Reading) : Reading :=
  match r.pending with
  | none => r
  | some (f, values) => { r with pending := none }.acceptLeft f values

/-- Reads a flag named in full, with the value attached to it by `=`, if any. -/
def longFlag (r : Reading) (f : Flag) (attachedValue : Option String) : Except Invocation Reading :=
  if f.takesValue then
    match attachedValue with
    | some v =>
      match r.settle >>= fun r => r.accept f [v] with
      | .ok r => .ok { r with waiting := false }
      | .error e => .error (.fault e)
    | none =>
      match r.settle with
      | .ok r => .ok { r with pending := some (f, []), waiting := true }
      | .error e => .error (.fault e)
  else
    match attachedValue with
    | some v => .error (.fault (.attached v f r.seen))
    | none =>
      match r.settle with
      | .ok _ => .error (if f = .help then .help else .version)
      | .error e => .error (.fault e)

/-- Reads a group of one-letter flags: the first one decides. -/
def shortFlags (r : Reading) (letters : List Char) : Except Invocation Reading :=
  match letters with
  | [] => .ok r
  | c :: _ =>
    match Flag.ofShort? c with
    | some f =>
      match r.settle with
      | .ok _ => .error (if f = .help then .help else .version)
      | .error e => .error (.fault e)
    | none => .error (.fault (.unknown ("-" ++ String.ofList [c]) none []))

/-- Refuses an argument that is no option, offering the closest long name for one that
looks like an option. -/
def unknownLong (r : Reading) (name : String) : Invocation :=
  let r := r.settleQuietly
  let tip := (Text.closest name (Flag.all.map Flag.long)).bind Flag.ofLong?
  let seen := match tip with
    | some t => if r.seen.contains t then r.seen else r.seen ++ [t]
    | none => r.seen
  .fault (.unknown ("--" ++ name) tip seen)

def step (r : Reading) (arg : String) : Except Invocation Reading :=
  let cs := arg.toList
  if r.trailing then .error (.fault (.unknown arg none []))
  else
    match cs with
    | ['-', '-'] => .ok { r with trailing := true }
    | '-' :: '-' :: rest =>
      let name := String.ofList (rest.takeWhile (· != '='))
      let attachedValue := if rest.contains '=' then
          some (String.ofList ((rest.dropWhile (· != '=')).drop 1)) else none
      match Flag.ofLong? name with
      | some f => r.longFlag f attachedValue
      | none => .error (r.unknownLong name)
    | '-' :: c :: rest => r.shortFlags (c :: rest)
    | _ =>
      match r.pending, r.waiting with
      | some (f, values), true => .ok { r with pending := some (f, values ++ [arg]), waiting := false }
      | _, _ => .error (.fault (.unknown arg none []))

def valueOf (r : Reading) (f : Flag) : Option Given := r.given.find? (·.flag == f)

def options (r : Reading) : Options :=
  { dir := ((r.valueOf .dir).map (·.text)).getD "scenes"
    scene := (r.valueOf .scene).bind (·.value)
    seed := (r.valueOf .seed).bind (·.value) }

def readAll (r : Reading) : List String → Invocation
  | [] =>
    match r.settle with
    | .ok r => .run r.options
    | .error e => .fault e
  | arg :: rest =>
    match r.step arg with
    | .ok r => r.readAll rest
    | .error stop => stop

end Reading

/-- Reads a command line, the program name left out. -/
def Invocation.ofArgs (args : List String) : Invocation := Reading.readAll {} args

end Console

end TriggerScript
