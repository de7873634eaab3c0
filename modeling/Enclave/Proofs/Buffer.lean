import Enclave.Memory.Buffer
import Enclave.Proofs.Budget
import Enclave.Proofs.Growth

namespace Enclave

theorem overlay_of_le {content : Bytes} {offset : Nat} (h : offset ≤ content.length)
    (data : Bytes) :
    overlay content data offset =
      content.take offset ++ data ++ content.drop (offset + data.length) := by
  rw [overlay, Nat.sub_eq_zero_of_le h, List.replicate_zero, List.append_nil]

theorem overlay_nil (data : Bytes) : overlay [] data 0 = data := by
  simp [overlay]

theorem length_overlay (content data : Bytes) (offset : Nat) :
    (overlay content data offset).length = max content.length (offset + data.length) := by
  simp only [overlay, List.length_append, List.length_take, List.length_replicate,
    List.length_drop]
  omega

theorem take_min_of_drop (content : Bytes) (offset n : Nat) :
    (content.drop offset).take (min (content.length - offset) n) =
      (content.drop offset).take n := by
  rw [← List.length_drop, Nat.min_comm, ← List.take_eq_take_min]

theorem length_front (content : Bytes) (offset : Nat) :
    (content.take offset ++ List.replicate (offset - content.length) 0).length = offset := by
  rw [List.length_append, List.length_take, List.length_replicate]
  omega

theorem overlay_append (content d₁ d₂ : Bytes) (offset : Nat) :
    overlay content (d₁ ++ d₂) offset =
      overlay (overlay content d₁ offset) d₂ (offset + d₁.length) := by
  have hend : offset + d₁.length ≤ (overlay content d₁ offset).length := by
    rw [length_overlay]
    exact Nat.le_max_right _ _
  have hfront : (content.take offset ++ List.replicate (offset - content.length) 0 ++ d₁).length =
      offset + d₁.length := by
    rw [List.length_append, length_front]
  have htake : (overlay content d₁ offset).take (offset + d₁.length) =
      content.take offset ++ List.replicate (offset - content.length) 0 ++ d₁ :=
    List.take_left' hfront
  have hdrop : (overlay content d₁ offset).drop (offset + d₁.length) =
      content.drop (offset + d₁.length) :=
    List.drop_left' hfront
  rw [overlay_of_le hend, htake, ← List.drop_drop, hdrop, List.drop_drop, overlay,
    List.length_append, Nat.add_assoc]
  simp only [List.append_assoc]

namespace Buffer

variable (grant : Nat → Bool)

theorem empty_eq (capacity : Nat) (growth : Growth) (budget : Budget) :
    empty grant capacity growth budget =
      if capacity = 0 ∨ budget.Admits capacity ∧ grant capacity then
        ⟨.ok ⟨[], capacity, growth⟩, budget.raise capacity⟩
      else ⟨.error (.outOfMemory capacity), budget⟩ := by
  rw [empty, Budget.extend_eq, Nat.sub_zero]
  by_cases h : capacity = 0 ∨ budget.Admits capacity ∧ grant capacity
  · rw [if_pos h, if_pos (by simpa using h)]
  · rw [if_neg h, if_neg (by simpa using h)]

theorem ofBytes_eq (bytes : Bytes) (growth : Growth) (budget : Budget) :
    ofBytes grant bytes growth budget =
      if max growth.least bytes.length = 0 ∨
          budget.Admits (max growth.least bytes.length) ∧ grant (max growth.least bytes.length) then
        ⟨.ok ⟨bytes, max growth.least bytes.length, growth⟩,
          budget.raise (max growth.least bytes.length)⟩
      else ⟨.error (.outOfMemory (max growth.least bytes.length)), budget⟩ := by
  rw [ofBytes, empty_eq]
  by_cases h : max growth.least bytes.length = 0 ∨
      budget.Admits (max growth.least bytes.length) ∧ grant (max growth.least bytes.length)
  · rw [if_pos h, if_pos h]
  · rw [if_neg h, if_neg h]

theorem zeros_eq (size : Nat) (growth : Growth) (budget : Budget) :
    zeros grant size growth budget =
      if size = 0 ∨ budget.Admits size ∧ grant size then
        ⟨.ok ⟨List.replicate size 0, size, growth⟩, budget.raise size⟩
      else ⟨.error (.outOfMemory size), budget⟩ := by
  rw [zeros, empty_eq]
  by_cases h : size = 0 ∨ budget.Admits size ∧ grant size
  · rw [if_pos h, if_pos h]
  · rw [if_neg h, if_neg h]

theorem makeRoom_eq (b : Buffer) (required : Nat) (budget : Budget) :
    b.makeRoom grant required budget =
      let target := b.growth.capacityFor b.capacity required
      if target ≤ b.capacity ∨ budget.Admits (target - b.capacity) ∧ grant target then
        ⟨.ok (), { b with capacity := target }, budget.raise (target - b.capacity)⟩
      else ⟨.error (.outOfMemory (target - b.capacity)), b, budget⟩ := by
  simp only [makeRoom, Budget.extend_eq]
  by_cases h : b.growth.capacityFor b.capacity required ≤ b.capacity ∨
      budget.Admits (b.growth.capacityFor b.capacity required - b.capacity) ∧
        grant (b.growth.capacityFor b.capacity required)
  · rw [if_pos h, if_pos h]
  · rw [if_neg h, if_neg h]

def capacityAfter (b : Buffer) (offset : Nat) (data : Bytes) : Nat :=
  b.growth.capacityFor b.capacity (offset + data.length)

def written (b : Buffer) (offset : Nat) (data : Bytes) : Buffer :=
  { b with content := overlay b.content data offset, capacity := b.capacityAfter offset data }

/-- What a write needs to succeed. -/
def Fits (b : Buffer) (offset : Nat) (data : Bytes) (budget : Budget) : Prop :=
  offset + data.length < wordLimit ∧
    (b.capacityAfter offset data ≤ b.capacity ∨
      budget.Admits (b.capacityAfter offset data - b.capacity) ∧
        grant (b.capacityAfter offset data))

instance (b : Buffer) (offset : Nat) (data : Bytes) (budget : Budget) :
    Decidable (b.Fits grant offset data budget) :=
  inferInstanceAs (Decidable (_ ∧ _))

def shortage (b : Buffer) (offset : Nat) (data : Bytes) : Nat :=
  if wordLimit ≤ offset + data.length then largestWord
  else b.capacityAfter offset data - b.capacity

theorem le_capacityAfter (b : Buffer) (offset : Nat) (data : Bytes) :
    b.capacity ≤ b.capacityAfter offset data :=
  b.growth.le_capacityFor _ _

theorem le_capacityAfter_of_write (b : Buffer) (offset : Nat) (data : Bytes) :
    offset + data.length ≤ b.capacityAfter offset data :=
  b.growth.required_le_capacityFor _ _

theorem write_eq (b : Buffer) (offset : Nat) (data : Bytes) (budget : Budget) :
    b.write grant offset data budget =
      if b.Fits grant offset data budget then
        ⟨.ok data.length, b.written offset data,
          budget.raise (b.capacityAfter offset data - b.capacity)⟩
      else ⟨.error (.outOfMemory (b.shortage offset data)), b, budget⟩ := by
  by_cases hw : wordLimit ≤ offset + data.length
  · have hf : ¬ b.Fits grant offset data budget := fun h => by have := h.1; omega
    simp [write, hw, hf, shortage]
  -- Only data that ends past the capacity makes the buffer grow.
  by_cases hc : b.capacity < offset + data.length
  · simp only [write, if_neg hw, if_pos hc, makeRoom, Budget.extend_eq]
    by_cases hg : b.capacityAfter offset data ≤ b.capacity ∨
        budget.Admits (b.capacityAfter offset data - b.capacity) ∧
          grant (b.capacityAfter offset data)
    · have hf : b.Fits grant offset data budget := ⟨Nat.lt_of_not_le hw, hg⟩
      rw [if_pos hf, if_pos (by exact hg)]
      rfl
    · have hf : ¬ b.Fits grant offset data budget := fun h => hg h.2
      rw [if_neg hf, if_neg (by exact hg)]
      simp [shortage, hw, capacityAfter]
  · have hsame : b.capacityAfter offset data = b.capacity :=
      b.growth.capacityFor_of_le (Nat.le_of_not_lt hc)
    have hf : b.Fits grant offset data budget :=
      ⟨Nat.lt_of_not_le hw, .inl (Nat.le_of_eq hsame)⟩
    simp [write, hw, hc, hf, written, hsame]

theorem capacityAfter_append (b : Buffer) (offset : Nat) (d₁ d₂ : Bytes) :
    b.capacityAfter offset (d₁ ++ d₂) =
      (b.written offset d₁).capacityAfter (offset + d₁.length) d₂ := by
  have hpath := b.growth.capacityFor_capacityFor b.capacity (offset + d₁.length)
    (offset + d₁.length + d₂.length)
  rw [Nat.max_eq_right (Nat.le_add_right _ _)] at hpath
  rw [capacityAfter, List.length_append, ← Nat.add_assoc, ← hpath]
  rfl

theorem written_append (b : Buffer) (offset : Nat) (d₁ d₂ : Bytes) :
    b.written offset (d₁ ++ d₂) = (b.written offset d₁).written (offset + d₁.length) d₂ := by
  rw [written, written, overlay_append, capacityAfter_append]
  rfl

theorem grown_append (b : Buffer) (offset : Nat) (d₁ d₂ : Bytes) :
    b.capacityAfter offset (d₁ ++ d₂) - b.capacity =
      b.capacityAfter offset d₁ - b.capacity +
        ((b.written offset d₁).capacityAfter (offset + d₁.length) d₂ -
          (b.written offset d₁).capacity) := by
  have hfirst := b.le_capacityAfter offset d₁
  have hsecond := (b.written offset d₁).le_capacityAfter (offset + d₁.length) d₂
  have hmiddle : (b.written offset d₁).capacity = b.capacityAfter offset d₁ := rfl
  rw [capacityAfter_append]
  omega

variable {grant}

/-- Data fits if its first part does, and then its second. No part is refused a region that is
granted to the whole. -/
theorem fits_append (hgrant : ∀ m n, m ≤ n → grant n → grant m) (b : Buffer) (offset : Nat)
    (d₁ d₂ : Bytes) (budget : Budget) :
    b.Fits grant offset (d₁ ++ d₂) budget ↔
      b.Fits grant offset d₁ budget ∧
        (b.written offset d₁).Fits grant (offset + d₁.length) d₂
          (budget.raise (b.capacityAfter offset d₁ - b.capacity)) := by
  have hsecond := (b.written offset d₁).le_capacityAfter (offset + d₁.length) d₂
  have hextends := budget.extends_through grant (b.le_capacityAfter offset d₁) hsecond
    (hgrant _ _ hsecond)
  rw [Fits, capacityAfter_append, hextends, Fits, Fits, List.length_append, ← Nat.add_assoc]
  constructor
  · rintro ⟨hword, hfirst, hrest⟩
    exact ⟨⟨by omega, hfirst⟩, hword, hrest⟩
  · rintro ⟨⟨-, hfirst⟩, hword, hrest⟩
    exact ⟨hword, hfirst, hrest⟩

end Buffer

end Enclave
