import TriggerScript.Value.Arithmetic
import TriggerScript.Language.Token
/-!
Calibration of the two analog inputs: the raw readings that map to zero and to full
scale.

The bounds are sixteen-bit words. A raw reading is held between the two bounds and scaled
linearly onto `0..16383`. When the bounds are reversed or equal the reading is only held at
full scale.
-/

set_option autoImplicit false
set_option relaxedAutoImplicit false

namespace TriggerScript

/-- Raw bounds of the `IN` and `PARAM` inputs. -/
structure Calibration where
  inMin : UInt16
  inMax : UInt16
  paramMin : UInt16
  paramMax : UInt16
  deriving DecidableEq, Repr

namespace Calibration

def fullScale : Nat := 16383

/-- The full range for both inputs. -/
def default : Calibration := ⟨0, 16383, 0, 16383⟩

instance : Inhabited Calibration := ⟨default⟩

/-- A raw reading scaled between two bounds onto `0..16383`. -/
def scale (raw lo hi : Nat) : Int16 :=
  if hi ≤ lo then Int16.ofNat (min raw fullScale)
  else Int16.ofNat ((max lo (min hi raw) - lo) * fullScale / (hi - lo))

def read (c : Calibration) (which : Special) (raw : Nat) : Int16 :=
  match which with
  | .input => scale raw c.inMin.toNat c.inMax.toNat
  | .param => scale raw c.paramMin.toNat c.paramMax.toNat

/-- Whether every bound is at most full scale, as a stored scene requires. -/
def isValid (c : Calibration) : Bool :=
  c.inMin.toNat ≤ fullScale && c.inMax.toNat ≤ fullScale && c.paramMin.toNat ≤ fullScale &&
    c.paramMax.toNat ≤ fullScale

end Calibration

end TriggerScript
