import TriggerScript.Console.Transcript
/-!
The console program: reads the command line, the folder of records and typed lines, and
runs a console session on them.

This is the outer layer. It only moves text and bytes between the session and the
outside: the records of the folder are read once at start, each record the session
changes is written back after the line that changed it, and `:clock` runs the session's
clock in real time until the program is interrupted.
-/

set_option autoImplicit false
set_option relaxedAutoImplicit false

namespace TriggerScript

namespace Console

def recordNames : List String :=
  (List.range Scene.sceneSlots).map (fun n => (Slot.scene n).fileName) ++ [Slot.device.fileName]

def pathIn (dir name : String) : String := dir ++ "/" ++ name

/-- Reads one record file: nothing when it is missing, a folder when it cannot be read. -/
def readRecord (dir name : String) : IO (Option Entry) := do
  try
    let bytes ← IO.FS.readBinFile (pathIn dir name)
    return some (.file bytes.toList)
  catch e =>
    match e with
    | .noFileOrDirectory .. => return none
    | _ => return some .folder

def readRecords (dir : String) : IO Storage := do
  let mut entries : List (String × Entry) := []
  for name in recordNames do
    if let some e ← readRecord dir name then
      entries := entries ++ [(name, e)]
  return ⟨entries⟩

/-- Writes back every record that differs between two states of the folder. -/
def writeChanges (dir : String) (before after : Storage) : IO Unit := do
  for (name, e) in after.entries do
    if before.lookup name != some e then
      match e with
      | .file bytes =>
        try
          IO.FS.createDirAll dir
          IO.FS.writeBinFile (pathIn dir name) ⟨bytes.toArray⟩
        catch _ => pure ()
      | .folder => pure ()

def printLines (lines : List String) : IO Unit := do
  let out ← IO.getStdout
  for l in lines do
    out.putStrLn l
  out.flush

/-- A seed from the system's randomness. -/
def freshSeed : IO UInt64 := do
  let bytes ← IO.getRandomBytes 8
  return bytes.toList.foldl (fun acc b => acc * 256 + b.toUInt64) 0

/-- Runs the clock in real time from `base`, ten milliseconds a step, until the program
is interrupted. -/
partial def runClock (dir : String) (s : Session) (startMs : Nat) (base : UInt32) : IO Unit := do
  IO.sleep clockStep.toUInt32
  let elapsed := (← IO.monoMsNow) - startMs
  let (s', out) := s.clockTo (base + elapsed.toUInt32)
  printLines out
  writeChanges dir s.storage s'.storage
  runClock dir s' startMs base

/-- Takes typed lines until the input ends. -/
partial def session (dir : String) (s : Session) : IO Unit := do
  let stdin ← IO.getStdin
  let line ← stdin.getLine
  if line.isEmpty then return
  let keys := String.ofList (line.toList.filter (· != '\n'))
  if s.asksForClock keys then
    runClock dir s (← IO.monoMsNow) s.now
  else
    let (s', out) := s.enter keys
    printLines out
    writeChanges dir s.storage s'.storage
    session dir s'

/-- Reads the command line and runs the console; the answer is the exit status. -/
def runProgram (args : List String) : IO UInt32 := do
  match Invocation.ofArgs args with
  | .help =>
    printLines helpLines
    return 0
  | .version =>
    printLines [versionText]
    return 0
  | .fault f =>
    IO.eprint f.render
    return refusedStatus.toUInt32
  | .run o =>
    let storage ← readRecords o.dir
    let (s, out) := Session.start o storage (← freshSeed)
    printLines out
    writeChanges o.dir storage s.storage
    session o.dir s
    return 0

end Console

end TriggerScript

def main (args : List String) : IO UInt32 := TriggerScript.Console.runProgram args
