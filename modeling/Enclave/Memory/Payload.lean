import Enclave.Memory.Buffer

namespace Enclave

/-- Bytes without a name that cross the host boundary, under a budget of their own. -/
structure Payload where
  buffer : Buffer
  budget : Budget
  deriving DecidableEq, Repr

namespace Payload

variable (grant : Nat → Bool)

def create (size : Nat) (limit : Option Nat) : Except Fault Payload :=
  match Buffer.zeros grant size {} (Budget.ofLimit limit) with
  | ⟨.error e, _⟩ => .error e
  | ⟨.ok buffer, budget⟩ => .ok ⟨buffer, budget⟩

def size (p : Payload) : Nat :=
  p.buffer.size

def capacity (p : Payload) : Nat :=
  p.buffer.capacity

def toBytes (p : Payload) : Bytes :=
  p.buffer.content

def read (p : Payload) (offset : Nat) (out : Bytes) : Nat × Bytes :=
  p.buffer.read offset out

def write (p : Payload) (offset : Nat) (data : Bytes) : Outcome Payload Nat :=
  match p.buffer.write grant offset data p.budget with
  | ⟨result, buffer, budget⟩ => ⟨result, buffer, budget⟩

end Payload

end Enclave
