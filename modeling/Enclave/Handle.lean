namespace Enclave

/-- A slot of the file table together with the generation in which it was taken. -/
structure Handle where
  slot : UInt16
  generation : UInt16
  deriving DecidableEq, Repr

namespace Handle

def pack (h : Handle) : UInt32 :=
  h.generation.toUInt32 * 65536 + h.slot.toUInt32

def unpack (raw : UInt32) : Handle :=
  ⟨(raw % 65536).toUInt16, (raw / 65536).toUInt16⟩

theorem unpack_pack (h : Handle) : unpack h.pack = h := by
  obtain ⟨⟨s⟩, ⟨g⟩⟩ := h
  simp only [unpack, pack, mk.injEq]
  constructor <;> apply UInt16.toNat_inj.mp <;> simp <;> omega

theorem pack_unpack (raw : UInt32) : (unpack raw).pack = raw := by
  apply UInt32.toNat_inj.mp
  have := raw.toNat_lt
  simp [unpack, pack]
  omega

end Handle

end Enclave
