import Enclave.Memory.Growth
import Enclave.Memory.Region

namespace Enclave

/-- `content` with `data` laid over it from `offset` on. A gap between the two is zero. -/
def overlay (content data : Bytes) (offset : Nat) : Bytes :=
  content.take offset ++ List.replicate (offset - content.length) 0 ++ data ++
    content.drop (offset + data.length)

/-- The content is what can be read; the capacity is what is charged. -/
structure Buffer where
  content : Bytes
  capacity : Nat
  growth : Growth
  deriving DecidableEq, Repr

namespace Buffer

variable (grant : Nat → Bool)

def size (b : Buffer) : Nat :=
  b.content.length

def empty (capacity : Nat) (growth : Growth) (budget : Budget) : Outcome Budget Buffer :=
  match budget.extend grant 0 capacity with
  | ⟨.error e, budget'⟩ => ⟨.error e, budget'⟩
  | ⟨.ok (), budget'⟩ => ⟨.ok ⟨[], capacity, growth⟩, budget'⟩

def zeros (size : Nat) (growth : Growth) (budget : Budget) : Outcome Budget Buffer :=
  match empty grant size growth budget with
  | ⟨.error e, budget'⟩ => ⟨.error e, budget'⟩
  | ⟨.ok b, budget'⟩ => ⟨.ok { b with content := List.replicate size 0 }, budget'⟩

def ofBytes (bytes : Bytes) (growth : Growth) (budget : Budget) : Outcome Budget Buffer :=
  match empty grant (max growth.least bytes.length) growth budget with
  | ⟨.error e, budget'⟩ => ⟨.error e, budget'⟩
  | ⟨.ok b, budget'⟩ => ⟨.ok { b with content := bytes }, budget'⟩

def makeRoom (b : Buffer) (required : Nat) (budget : Budget) : Outcome (Buffer × Budget) Unit :=
  let target := b.growth.capacityFor b.capacity required
  match budget.extend grant b.capacity target with
  | ⟨.error e, budget'⟩ => ⟨.error e, b, budget'⟩
  | ⟨.ok (), budget'⟩ => ⟨.ok (), { b with capacity := target }, budget'⟩

def read (b : Buffer) (offset : Nat) (out : Bytes) : Nat × Bytes :=
  let part := (b.content.drop offset).take out.length
  (part.length, part ++ out.drop part.length)

def write (b : Buffer) (offset : Nat) (data : Bytes) (budget : Budget) :
    Outcome (Buffer × Budget) Nat :=
  let finish := offset + data.length
  if wordLimit ≤ finish then ⟨.error (.outOfMemory largestWord), b, budget⟩
  else
    match (if b.capacity < finish then b.makeRoom grant finish budget else ⟨.ok (), b, budget⟩) with
    | ⟨.error e, b', budget'⟩ => ⟨.error e, b', budget'⟩
    | ⟨.ok (), b', budget'⟩ =>
      ⟨.ok data.length, { b' with content := overlay b'.content data offset }, budget'⟩

def refundTo (b : Buffer) (budget : Budget) : Budget :=
  budget.refund b.capacity

end Buffer

end Enclave
