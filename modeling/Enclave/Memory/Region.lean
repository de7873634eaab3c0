import Enclave.Memory.Budget

namespace Enclave

/-- What a region is asked for. One operation asks at most once for each purpose. -/
inductive Purpose where
  | openName
  | openBuffer
  | growth
  | entryName
  | entryData
  | output
  deriving DecidableEq, Repr

abbrev Allocator := Purpose → Nat → Bool

namespace Budget

variable (b : Budget) (grant : Nat → Bool)

/-- Charge, then ask for a region. A refused region is refunded, and an empty one is never refused. -/
def acquire (charged length : Nat) : Outcome Budget Unit :=
  match b.charge charged with
  | ⟨.error e, b'⟩ => ⟨.error e, b'⟩
  | ⟨.ok (), b'⟩ =>
    if length = 0 ∨ grant length then ⟨.ok (), b'⟩
    else ⟨.error (.outOfMemory charged), b'.refund charged⟩

def extend (current target : Nat) : Outcome Budget Unit :=
  if target ≤ current then ⟨.ok (), b⟩ else b.acquire grant (target - current) target

def lengthen (data : Bytes) (length : Nat) : Outcome (Bytes × Budget) Unit :=
  match b.extend grant data.length length with
  | ⟨.error e, b'⟩ => ⟨.error e, data, b'⟩
  | ⟨.ok (), b'⟩ => ⟨.ok (), data ++ List.replicate (length - data.length) 0, b'⟩

def allocate (length : Nat) : Outcome Budget Bytes :=
  match b.lengthen grant [] length with
  | ⟨.error e, _, b'⟩ => ⟨.error e, b'⟩
  | ⟨.ok (), data, b'⟩ => ⟨.ok data, b'⟩

def copy (data : Bytes) : Outcome Budget Bytes :=
  match b.acquire grant data.length data.length with
  | ⟨.error e, b'⟩ => ⟨.error e, b'⟩
  | ⟨.ok (), b'⟩ => ⟨.ok data, b'⟩

end Budget

/-- A copy of a name. Names are small, and no budget is charged for them. -/
def copyName (grant : Nat → Bool) (name : String) : Except Fault String :=
  if name.utf8ByteSize = 0 ∨ grant name.utf8ByteSize then .ok name
  else .error (.outOfMemory name.utf8ByteSize)

end Enclave
