import Enclave.Fault

namespace Enclave

/-- What an operation answers, and the state that it leaves whether it succeeds or fails. -/
structure Outcome (σ α : Type) where
  result : Except Fault α
  state : σ

end Enclave
