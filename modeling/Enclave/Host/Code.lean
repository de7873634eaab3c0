import Enclave.Handle
import Enclave.Fault
import Enclave.Word

namespace Enclave.Host

def failure : Int := -1

def noHandle : UInt32 := 0

def handleCode : Except Fault Handle → Option Fault → UInt32 × Option Fault
  | .ok h, last => (h.pack, last)
  | .error e, _ => (noHandle, some e)

def statusCode : Except Fault Unit → Option Fault → Int × Option Fault
  | .ok (), last => (0, last)
  | .error e, _ => (failure, some e)

/-- A position or size. One that is too large for the host counts as a failure. -/
def positionCode : Except Fault Nat → Option Fault → Int × Option Fault
  | .ok n, last =>
    if n ≤ greatestPosition then (n, last) else (failure, some .positionTooLarge)
  | .error e, _ => (failure, some e)

def saturate (n : Nat) : UInt32 :=
  UInt32.ofNat (min n greatestCount)

def countCode : Except Fault Nat → Option Fault → UInt32 × Option Fault
  | .ok n, last => (saturate n, last)
  | .error e, _ => (0, some e)

end Enclave.Host
