import Enclave.Word

namespace Enclave

structure Growth where
  least : Nat := 1024
  deriving DecidableEq, Repr

namespace Growth

/-- The first doubling of a positive `capacity` that reaches `required`; `required` itself when a
doubling on the way leaves the word. -/
def doubleUntil (required capacity : Nat) : Nat :=
  if 0 < capacity ∧ capacity < required then
    if capacity * 2 < wordLimit then doubleUntil required (capacity * 2) else required
  else capacity
termination_by required - capacity

def capacityFor (g : Growth) (current required : Nat) : Nat :=
  if required ≤ current then current
  else doubleUntil required (max (max current g.least) 1)

end Growth

end Enclave
