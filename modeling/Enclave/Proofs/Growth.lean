import Enclave.Memory.Growth

namespace Enclave.Growth

theorem le_doubleUntil (required capacity : Nat) :
    capacity ≤ doubleUntil required capacity := by
  fun_induction doubleUntil required capacity with
  | case1 capacity _ _ ih => omega
  | case2 capacity h _ => omega
  | case3 capacity _ => exact Nat.le_refl _

theorem required_le_doubleUntil {required capacity : Nat} (hpos : 0 < capacity) :
    required ≤ doubleUntil required capacity := by
  fun_induction doubleUntil required capacity with
  | case1 capacity _ _ ih => exact ih (by omega)
  | case2 capacity _ _ => exact Nat.le_refl _
  | case3 capacity _ => omega

theorem doubleUntil_of_le {required capacity : Nat} (h : required ≤ capacity) :
    doubleUntil required capacity = capacity := by
  rw [doubleUntil, if_neg fun hlt => Nat.not_lt_of_le h hlt.2]

theorem doubleUntil_lt {required capacity : Nat} (hr : required < wordLimit)
    (hc : capacity < wordLimit) : doubleUntil required capacity < wordLimit := by
  fun_induction doubleUntil required capacity with
  | case1 capacity _ hfits ih => exact ih hfits
  | case2 capacity _ _ => exact hr
  | case3 capacity _ => exact hc

theorem doubleUntil_doubleUntil {required required' : Nat} (h : required ≤ required')
    (capacity : Nat) :
    doubleUntil required' (doubleUntil required capacity) = doubleUntil required' capacity := by
  fun_induction doubleUntil required capacity with
  | case1 capacity hlt hfits ih =>
    rw [ih, doubleUntil.eq_def required' capacity, if_pos ⟨hlt.1, Nat.lt_of_lt_of_le hlt.2 h⟩,
      if_pos hfits]
  | case2 capacity hlt hover =>
    -- A length that no doubling reaches is more than half the word, and is not doubled either.
    have hstart : doubleUntil required' capacity = required' := by
      rw [doubleUntil, if_pos ⟨hlt.1, Nat.lt_of_lt_of_le hlt.2 h⟩, if_neg hover]
    rw [hstart, doubleUntil]
    split
    · exact if_neg (by omega)
    · omega
  | case3 capacity _ => rfl

variable (g : Growth) (current : Nat)

theorem le_capacityFor (required : Nat) : current ≤ g.capacityFor current required := by
  rw [capacityFor]
  split
  · exact Nat.le_refl _
  · have h := le_doubleUntil required (max (max current g.least) 1)
    omega

theorem required_le_capacityFor (required : Nat) :
    required ≤ g.capacityFor current required := by
  rw [capacityFor]
  split
  · assumption
  · exact required_le_doubleUntil (Nat.le_max_right _ _)

theorem capacityFor_of_le {current required : Nat} (h : required ≤ current) :
    g.capacityFor current required = current :=
  if_pos h

theorem capacityFor_of_lt {current required : Nat} (h : current < required) :
    g.capacityFor current required = doubleUntil required (max (max current g.least) 1) :=
  if_neg (Nat.not_le_of_lt h)

theorem capacityFor_lt {g : Growth} {current required : Nat} (hg : g.least < wordLimit)
    (hc : current < wordLimit) (hr : required < wordLimit) :
    g.capacityFor current required < wordLimit := by
  rw [capacityFor]
  split
  · exact hc
  · apply doubleUntil_lt hr
    have hone : 1 < wordLimit := by decide
    omega

/-- The capacity for one length and then for another is the capacity for the longer of them. -/
theorem capacityFor_capacityFor (a b : Nat) :
    g.capacityFor (g.capacityFor current a) b = g.capacityFor current (max a b) := by
  by_cases ha : a ≤ current
  · rw [g.capacityFor_of_le ha]
    by_cases hb : b ≤ current
    · rw [g.capacityFor_of_le hb, g.capacityFor_of_le (Nat.max_le.mpr ⟨ha, hb⟩)]
    · have hab : a ≤ b := Nat.le_trans ha (Nat.le_of_not_le hb)
      rw [Nat.max_eq_right hab]
  · have hmax : current < max a b := Nat.lt_of_lt_of_le (Nat.lt_of_not_le ha) (Nat.le_max_left _ _)
    have hreached := g.capacityFor_of_lt (Nat.lt_of_not_le ha)
    have hreach := g.required_le_capacityFor current a
    rw [g.capacityFor_of_lt hmax, ← doubleUntil_doubleUntil (Nat.le_max_left a b), ← hreached]
    by_cases hb : b ≤ g.capacityFor current a
    · rw [g.capacityFor_of_le hb, doubleUntil_of_le (Nat.max_le.mpr ⟨hreach, hb⟩)]
    · have hab : a ≤ b := Nat.le_trans hreach (Nat.le_of_not_le hb)
      have hstart := le_doubleUntil a (max (max current g.least) 1)
      have hsame : max (max (g.capacityFor current a) g.least) 1 = g.capacityFor current a := by
        omega
      rw [g.capacityFor_of_lt (Nat.lt_of_not_le hb), hsame, Nat.max_eq_right hab]

theorem capacityFor_mono {a b : Nat} (h : a ≤ b) :
    g.capacityFor current a ≤ g.capacityFor current b := by
  have hpath := g.capacityFor_capacityFor current a b
  rw [Nat.max_eq_right h] at hpath
  exact hpath ▸ g.le_capacityFor _ b

end Enclave.Growth
