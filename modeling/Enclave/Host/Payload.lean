import Enclave.Memory.Payload

namespace Enclave.Payload

def fetch (p : Payload) (offset length : UInt32) : Bytes :=
  let wanted := min (p.size - offset.toNat) length.toNat
  let (count, out) := p.read offset.toNat (List.replicate wanted 0)
  out.take count

def store (p : Payload) (grant : Nat → Bool) (offset : UInt32) (data : Bytes) : UInt32 × Payload :=
  match p.write grant offset.toNat data with
  | ⟨.ok n, p⟩ => (UInt32.ofNat n, p)
  | ⟨.error _, p⟩ => (0, p)

end Enclave.Payload
