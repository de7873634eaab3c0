import Enclave.Outcome
import Enclave.Word

namespace Enclave

structure Budget where
  limit : Option Nat
  used : Nat
  deriving DecidableEq, Repr

namespace Budget

def ofLimit (limit : Option Nat) : Budget :=
  ⟨limit, 0⟩

def unlimited : Budget :=
  ofLimit none

def covers (b : Budget) (total : Nat) : Bool :=
  match b.limit with
  | none => true
  | some limit => total ≤ limit

/-- A charge is refused when its total passes the limit or the word. -/
def charge (b : Budget) (n : Nat) : Outcome Budget Unit :=
  if b.used + n < wordLimit ∧ b.covers (b.used + n) then ⟨.ok (), { b with used := b.used + n }⟩
  else ⟨.error (.outOfMemory n), b⟩

def refund (b : Budget) (n : Nat) : Budget :=
  { b with used := b.used - n }

def remaining (b : Budget) : Option Nat :=
  b.limit.map (· - b.used)

end Budget

end Enclave
