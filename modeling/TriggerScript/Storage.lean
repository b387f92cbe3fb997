import TriggerScript.Record.Scene
import TriggerScript.Record.Device
/-!
Storage: records kept one per slot, as named files of a folder.

There are 32 scene slots, stored as `scene_00.bin` to `scene_31.bin`, and the device
slot, stored as `device.bin`; a scene slot past the last is refused. Reading a slot that
was never written is `EMPTY SLOT`. A folder standing where a slot's file should be makes
reading and writing that slot fail as the file system does.
-/

set_option autoImplicit false
set_option relaxedAutoImplicit false

namespace TriggerScript

inductive Slot
  | scene (n : Nat)
  | device
  deriving DecidableEq, Repr, Inhabited

namespace Slot

/-- The slot as a user reads it: `scene 5` or `device`. -/
def render : Slot → String
  | .scene n => s!"scene {n}"
  | .device => "device"

def fileName : Slot → String
  | .scene n => "scene_" ++ (if n < 10 then "0" else "") ++ toString n ++ ".bin"
  | .device => "device.bin"

/-- The slot, unless it is a scene slot past the last. -/
def check (s : Slot) : Except Error Slot :=
  match s with
  | .scene n => if n ≥ Scene.sceneSlots then .error (.bare .invalidSlot) else .ok s
  | .device => .ok s

end Slot

inductive Entry
  | file (bytes : List UInt8)
  | folder
  deriving DecidableEq, Repr, Inhabited

structure Storage where
  entries : List (String × Entry)
  deriving DecidableEq, Repr, Inhabited

namespace Storage

def empty : Storage := ⟨[]⟩

/-- The failure of the file system on a folder where a file is expected. -/
def isFolder : Error := .detailed .storageFailure "IS A DIRECTORY (OS ERROR 21)"

def lookup (st : Storage) (name : String) : Option Entry :=
  (st.entries.find? (·.1 == name)).map (·.2)

/-- Puts an entry under a name, replacing what was there. -/
def put (st : Storage) (name : String) (e : Entry) : Storage :=
  if st.entries.any (·.1 == name) then
    ⟨st.entries.map fun (n, old) => if n == name then (n, e) else (n, old)⟩
  else ⟨st.entries ++ [(name, e)]⟩

def read (st : Storage) (slot : Slot) : Except Error (List UInt8) := do
  let slot ← slot.check
  match st.lookup slot.fileName with
  | none => throw (.bare .emptySlot)
  | some .folder => throw isFolder
  | some (.file bytes) => return bytes

def write (st : Storage) (slot : Slot) (bytes : List UInt8) : Except Error Storage := do
  let slot ← slot.check
  match st.lookup slot.fileName with
  | some .folder => throw isFolder
  | _ => return st.put slot.fileName (.file bytes)

def saveScene (st : Storage) (n : Nat) (s : Scene) : Except Error Storage :=
  st.write (.scene n) (Record.sceneImage s)

/-- Loads the scene of a slot, which then remembers the slot. -/
def loadScene (st : Storage) (n : Nat) : Except Error Scene := do
  let s ← Record.sceneOfImage (← st.read (.scene n))
  return { s with slot := n }

/-- Loads the scene of a slot, or a new scene remembering the slot when it cannot. -/
def loadSceneOrNew (st : Storage) (n : Nat) : Scene :=
  match st.loadScene n with
  | .ok s => s
  | .error _ => { Scene.withSeed 0 with slot := n }

def saveDevice (st : Storage) (flip : Bool) : Except Error Storage :=
  st.write .device (Record.deviceImage flip)

def loadDevice (st : Storage) : Except Error Bool := do
  Record.deviceOfImage (← st.read .device)

/-- Loads the flip setting, or leaves the panel unflipped when it cannot. -/
def loadDeviceOrDefault (st : Storage) : Bool :=
  match st.loadDevice with
  | .ok flip => flip
  | .error _ => false

end Storage

end TriggerScript
