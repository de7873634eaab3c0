import Enclave.Memory.Region

namespace Enclave.Budget

variable (b : Budget) (grant : Nat → Bool)

/-- A charge of `n` bytes stays under the limit and within the word. -/
def Admits (n : Nat) : Prop :=
  b.used + n < wordLimit ∧ b.covers (b.used + n)

instance (n : Nat) : Decidable (b.Admits n) :=
  inferInstanceAs (Decidable (_ ∧ _))

def raise (n : Nat) : Budget :=
  { b with used := b.used + n }

@[simp] theorem raise_used (n : Nat) : (b.raise n).used = b.used + n := rfl

@[simp] theorem refund_used (n : Nat) : (b.refund n).used = b.used - n := rfl

@[simp] theorem raise_zero : b.raise 0 = b := rfl

@[simp] theorem refund_raise (n : Nat) : (b.raise n).refund n = b := by
  simp [raise, refund]

theorem admits_iff (n : Nat) : b.Admits n ↔
    b.used + n < wordLimit ∧ ∀ limit, b.limit = some limit → b.used + n ≤ limit := by
  rw [Admits, covers]
  cases b.limit with
  | none => simp
  | some limit => simp

theorem ofLimit_admits (limit n : Nat) :
    (ofLimit (some limit)).Admits n ↔ n < wordLimit ∧ n ≤ limit := by
  rw [admits_iff]
  simp [ofLimit]

theorem Admits.of_le {b : Budget} {m n : Nat} (h : b.Admits n) (hle : m ≤ n) : b.Admits m := by
  rw [admits_iff] at h ⊢
  refine ⟨by omega, fun limit hl => ?_⟩
  have hlimit := h.2 limit hl
  omega

theorem raise_raise (m n : Nat) : (b.raise m).raise n = b.raise (m + n) := by
  rw [raise, raise, raise, Nat.add_assoc]

theorem raise_admits (m n : Nat) : (b.raise m).Admits n ↔ b.Admits (m + n) := by
  rw [Admits, Admits, raise_used, Nat.add_assoc]
  rfl

theorem Admits.raise {b : Budget} {n : Nat} (h : b.Admits n) : (b.raise n).Admits 0 :=
  (b.raise_admits n 0).mpr h

theorem Admits.refund {b : Budget} (n : Nat) (h : b.Admits 0) : (b.refund n).Admits 0 := by
  rw [admits_iff] at h ⊢
  rw [refund_used]
  refine ⟨by omega, fun limit hl => ?_⟩
  have hlimit := h.2 limit hl
  omega

theorem charge_eq (n : Nat) :
    b.charge n = if b.Admits n then ⟨.ok (), b.raise n⟩ else ⟨.error (.outOfMemory n), b⟩ := rfl

theorem acquire_eq (charged length : Nat) :
    b.acquire grant charged length =
      if b.Admits charged ∧ (length = 0 ∨ grant length) then ⟨.ok (), b.raise charged⟩
      else ⟨.error (.outOfMemory charged), b⟩ := by
  rw [acquire, charge_eq]
  by_cases ha : b.Admits charged
  · by_cases hg : length = 0 ∨ grant length
    · simp [ha, hg]
    · simp [ha, hg]
  · simp [ha]

theorem extend_eq (current target : Nat) :
    b.extend grant current target =
      if target ≤ current ∨ b.Admits (target - current) ∧ grant target then
        ⟨.ok (), b.raise (target - current)⟩
      else ⟨.error (.outOfMemory (target - current)), b⟩ := by
  rw [extend, acquire_eq]
  by_cases ht : target ≤ current
  · simp [ht, Nat.sub_eq_zero_of_le ht]
  · have hz : target ≠ 0 := by omega
    simp [ht, hz]

/-- A region is extended at once exactly if it is extended by way of a shorter one, provided that the
shorter is granted where the longer is. -/
theorem extends_through {current middle target : Nat} (hcurrent : current ≤ middle)
    (hmiddle : middle ≤ target) (hgrant : grant target → grant middle) :
    (target ≤ current ∨ b.Admits (target - current) ∧ grant target) ↔
      (middle ≤ current ∨ b.Admits (middle - current) ∧ grant middle) ∧
        (target ≤ middle ∨ (b.raise (middle - current)).Admits (target - middle) ∧
          grant target) := by
  have htotal : middle - current + (target - middle) = target - current := by omega
  rw [raise_admits, htotal]
  constructor
  · rintro (hle | ⟨hadmits, hregion⟩)
    · exact ⟨.inl (Nat.le_trans hmiddle hle), .inl (Nat.le_trans hle hcurrent)⟩
    · exact ⟨.inr ⟨hadmits.of_le (by omega), hgrant hregion⟩, .inr ⟨hadmits, hregion⟩⟩
  · rintro ⟨hfirst, hsecond | hwhole⟩
    · obtain rfl : middle = target := Nat.le_antisymm hmiddle hsecond
      exact hfirst
    · exact .inr hwhole

theorem lengthen_eq (data : Bytes) (length : Nat) :
    b.lengthen grant data length =
      if length ≤ data.length ∨ b.Admits (length - data.length) ∧ grant length then
        ⟨.ok (), data ++ List.replicate (length - data.length) 0, b.raise (length - data.length)⟩
      else ⟨.error (.outOfMemory (length - data.length)), data, b⟩ := by
  rw [lengthen, extend_eq]
  by_cases h : length ≤ data.length ∨ b.Admits (length - data.length) ∧ grant length
  · rw [if_pos h, if_pos h]
  · rw [if_neg h, if_neg h]

theorem allocate_eq (length : Nat) :
    b.allocate grant length =
      if length = 0 ∨ b.Admits length ∧ grant length then
        ⟨.ok (List.replicate length 0), b.raise length⟩
      else ⟨.error (.outOfMemory length), b⟩ := by
  rw [allocate, lengthen_eq]
  simp only [List.length_nil, Nat.le_zero_eq, Nat.sub_zero, List.nil_append]
  by_cases h : length = 0 ∨ b.Admits length ∧ grant length
  · rw [if_pos h, if_pos h]
  · rw [if_neg h, if_neg h]

theorem copy_eq (data : Bytes) :
    b.copy grant data =
      if b.Admits data.length ∧ (data.length = 0 ∨ grant data.length) then
        ⟨.ok data, b.raise data.length⟩
      else ⟨.error (.outOfMemory data.length), b⟩ := by
  rw [copy, acquire_eq]
  by_cases hc : b.Admits data.length ∧ (data.length = 0 ∨ grant data.length)
  · rw [if_pos hc, if_pos hc]
  · rw [if_neg hc, if_neg hc]

end Enclave.Budget
