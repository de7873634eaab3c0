import Enclave.Limits
import Enclave.Memory.Buffer

namespace Enclave

structure OpenFile where
  name : String
  buffer : Buffer
  position : Nat
  mode : Mode
  deriving DecidableEq, Repr

namespace OpenFile

def size (f : OpenFile) : Nat :=
  f.buffer.size

def contents (f : OpenFile) : Bytes :=
  f.buffer.content

def read (f : OpenFile) (out : Bytes) : Nat × Bytes × OpenFile :=
  let (count, out') := f.buffer.read f.position out
  (count, out', { f with position := f.position + count })

def write (f : OpenFile) (grant : Nat → Bool) (data : Bytes) (budget : Budget) :
    Outcome (OpenFile × Budget) Nat :=
  match f.buffer.write grant f.position data budget with
  | ⟨.error e, buffer, budget'⟩ => ⟨.error e, { f with buffer }, budget'⟩
  | ⟨.ok count, buffer, budget'⟩ =>
    ⟨.ok count, { f with buffer, position := f.position + count }, budget'⟩

def base (f : OpenFile) : Origin → Nat
  | .start => 0
  | .cursor => f.position
  | .finish => f.size

/-- Move the cursor. A target must be within the content, its end included; one that no offset can
hold is told as the nearest that can. -/
def seek (f : OpenFile) (offset : Int) (origin : Origin) : Except Fault (Nat × OpenFile) :=
  let target := f.base origin + offset
  if target < leastOffset ∨ greatestOffset < target then
    .error (.invalidSeek (if offset < 0 then leastOffset else greatestOffset))
  else if target < 0 ∨ f.size < target then .error (.invalidSeek target)
  else .ok (target.toNat, { f with position := target.toNat })

end OpenFile

end Enclave
