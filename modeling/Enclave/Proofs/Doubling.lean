import Enclave.Proofs.Layers
import Mathlib.Data.List.Perm.Basic
import Mathlib.Order.Bounds.Basic

namespace Enclave

namespace Growth

/-- The doubling in at most so many rounds, `none` when they do not suffice. -/
def rounds (required : Nat) : Nat → Nat → Option Nat
  | 0, _ => none
  | n + 1, capacity =>
    if capacity < required then
      if capacity * 2 < wordLimit then rounds required n (capacity * 2) else some required
    else some capacity

def base (g : Growth) (current : Nat) : Nat :=
  max (max current g.least) 1

def capacityWithin? (g : Growth) (n current required : Nat) : Option Nat :=
  if required ≤ current then some current else rounds required n (g.base current)

theorem rounds_eq {required capacity : Nat} (hpos : 0 < capacity) (hword : capacity < wordLimit)
    {n : Nat} (hn : wordLimit ≤ capacity * 2 ^ n) :
    rounds required n capacity = some (doubleUntil required capacity) := by
  induction n generalizing capacity with
  | zero =>
    rw [Nat.pow_zero, Nat.mul_one] at hn
    exact absurd hword (Nat.not_lt_of_le hn)
  | succ n ih =>
    rw [rounds, doubleUntil]
    by_cases hlt : capacity < required
    · simp only [if_pos hlt, if_pos (And.intro hpos hlt)]
      by_cases hfits : capacity * 2 < wordLimit
      · have hnext : wordLimit ≤ capacity * 2 * 2 ^ n := by
          rwa [Nat.pow_succ', ← Nat.mul_assoc] at hn
        rw [if_pos hfits, if_pos hfits]
        exact ih (Nat.mul_pos hpos Nat.two_pos) hfits hnext
      · rw [if_neg hfits, if_neg hfits]
    · rw [if_neg hlt, if_neg fun h => hlt h.2]

def doublings (required capacity : Nat) : Set Nat :=
  {n | required ≤ n ∧ ∃ k, n = capacity * 2 ^ k}

theorem isLeast_self {required capacity : Nat} (h : required ≤ capacity) :
    IsLeast (doublings required capacity) capacity := by
  refine ⟨⟨h, 0, (Nat.mul_one _).symm⟩, ?_⟩
  rintro n ⟨-, k, rfl⟩
  exact Nat.le_mul_of_pos_right _ (Nat.two_pow_pos k)

theorem doublings_double {required capacity : Nat} (h : capacity < required) :
    doublings required (capacity * 2) = doublings required capacity := by
  ext n
  constructor
  · rintro ⟨hle, k, rfl⟩
    exact ⟨hle, k + 1, by rw [Nat.pow_succ', ← Nat.mul_assoc]⟩
  · rintro ⟨hle, k, rfl⟩
    cases k with
    | zero => exact absurd hle (Nat.not_le_of_lt (by rwa [Nat.pow_zero, Nat.mul_one]))
    | succ k => exact ⟨hle, k, by rw [Nat.pow_succ', ← Nat.mul_assoc]⟩

/-- The doubling before the least one is too short, so the least one is less than twice as long as
it has to be. -/
theorem exists_isLeast (required : Nat) {capacity : Nat} (hpos : 0 < capacity) :
    ∃ least, IsLeast (doublings required capacity) least ∧
      (least = capacity ∨ least < 2 * required) := by
  by_cases h : required ≤ capacity
  · exact ⟨capacity, isLeast_self h, .inl rfl⟩
  · have hlt : capacity < required := Nat.lt_of_not_le h
    have htwice : 0 < capacity * 2 := Nat.mul_pos hpos Nat.two_pos
    obtain ⟨least, hleast, hbound⟩ := exists_isLeast required htwice
    exact ⟨least, doublings_double hlt ▸ hleast, by omega⟩
termination_by required - capacity

theorem doubleUntil_of_isLeast {required capacity least : Nat} (hpos : 0 < capacity)
    (hword : capacity < wordLimit) (h : IsLeast (doublings required capacity) least) :
    doubleUntil required capacity = if least < wordLimit then least else required := by
  fun_induction doubleUntil required capacity with
  | case1 capacity hlt hfits ih =>
    exact ih (Nat.mul_pos hpos Nat.two_pos) hfits ((doublings_double hlt.2).symm ▸ h)
  | case2 capacity hlt hover =>
    rw [← doublings_double hlt.2] at h
    obtain ⟨⟨-, k, rfl⟩, -⟩ := h
    have hle : capacity * 2 ≤ capacity * 2 * 2 ^ k := Nat.le_mul_of_pos_right _ (Nat.two_pow_pos k)
    rw [if_neg (by omega)]
  | case3 capacity hdone =>
    have hreached : required ≤ capacity := Nat.le_of_not_lt fun hlt => hdone ⟨hpos, hlt⟩
    rw [h.unique (isLeast_self hreached), if_pos hword]

variable {g : Growth} {current required : Nat}

theorem base_pos (g : Growth) (current : Nat) : 0 < g.base current :=
  Nat.le_max_right _ _

theorem base_lt (hg : g.least < wordLimit) (hc : current < wordLimit) :
    g.base current < wordLimit := by
  have hone : 1 < wordLimit := by decide
  rw [base]
  omega

theorem base_of_le (h : max g.least 1 ≤ current) : g.base current = current := by
  rw [base]
  omega

theorem capacityWithin?_eq (hg : g.least < wordLimit) (hc : current < wordLimit)
    (required : Nat) :
    g.capacityWithin? 64 current required = some (g.capacityFor current required) := by
  -- The base is positive, so 64 doublings take it out of the word.
  have hpow : wordLimit = 2 ^ 64 := by decide
  have hn : wordLimit ≤ g.base current * 2 ^ 64 := by
    rw [hpow]
    exact Nat.le_mul_of_pos_left _ (g.base_pos current)
  rw [capacityWithin?]
  by_cases h : required ≤ current
  · rw [if_pos h, g.capacityFor_of_le h]
  · rw [if_neg h, rounds_eq (g.base_pos current) (base_lt hg hc) hn,
      g.capacityFor_of_lt (Nat.lt_of_not_le h), base]

theorem double_le_of_isLeast {least : Nat} (hcurrent : max g.least 1 ≤ current)
    (hlt : current < required) (h : IsLeast (doublings required (g.base current)) least) :
    2 * current ≤ least := by
  rw [base_of_le hcurrent, ← doublings_double hlt] at h
  obtain ⟨⟨-, k, rfl⟩, -⟩ := h
  have hle : current * 2 ≤ current * 2 * 2 ^ k := Nat.le_mul_of_pos_right _ (Nat.two_pow_pos k)
  omega

/-- A region that is long enough keeps its capacity. Any other grows to the least doubling that is
long enough, or to the length itself where a word cannot hold that doubling, so to less than twice
the length unless it is not doubled at all. It takes 64 rounds at most. -/
theorem grows_to_least_doubling (g : Growth) (current required : Nat) (hg : g.least < wordLimit)
    (hc : current < wordLimit) (hr : required < wordLimit) :
    (required ≤ current → g.capacityFor current required = current) ∧
    (current < required →
      ∃ least, IsLeast (doublings required (g.base current)) least ∧
        (g.capacityFor current required = if least < wordLimit then least else required) ∧
        (g.capacityFor current required < 2 * required ∨
          g.capacityFor current required = g.base current) ∧
        (max g.least 1 ≤ current → least < wordLimit →
          2 * current ≤ g.capacityFor current required)) ∧
    max current required ≤ g.capacityFor current required ∧
    g.capacityFor current required < wordLimit ∧
    g.capacityWithin? 64 current required = some (g.capacityFor current required) := by
  refine ⟨g.capacityFor_of_le, fun hlt => ?_, ?_, capacityFor_lt hg hc hr,
    capacityWithin?_eq hg hc required⟩
  · obtain ⟨least, hleast, hbound⟩ := exists_isLeast required (g.base_pos current)
    have hreached : g.capacityFor current required =
        if least < wordLimit then least else required :=
      (g.capacityFor_of_lt hlt).trans
        (doubleUntil_of_isLeast (g.base_pos current) (base_lt hg hc) hleast)
    refine ⟨least, hleast, hreached, ?_, fun hcurrent hfits => ?_⟩
    · rw [hreached]
      split <;> omega
    · rw [hreached, if_pos hfits]
      exact double_le_of_isLeast hcurrent hlt hleast
  · exact Nat.max_le.mpr
      ⟨g.le_capacityFor current required, g.required_le_capacityFor current required⟩

/-- More than half the word has no doubling within it, so the region gets just the length. -/
theorem grows_to_least_doubling_past_word :
    let g : Growth := {}
    let current := 0x8000000000000001
    g.least < wordLimit ∧ current < wordLimit ∧ largestWord < wordLimit ∧
      g.capacityFor current largestWord = largestWord ∧
      ∃ least, IsLeast (doublings largestWord (g.base current)) least ∧ wordLimit ≤ least := by
  intro g current
  have hg : g.least < wordLimit := by decide
  have hc : current < wordLimit := by decide
  have hr : largestWord < wordLimit := by decide
  obtain ⟨-, hgrows, hreach, hword, -⟩ := grows_to_least_doubling g current largestWord hg hc hr
  obtain ⟨least, hleast, -, -, hdouble⟩ := hgrows (by decide)
  have htwice : wordLimit ≤ 2 * current := by decide
  have hlast : wordLimit = largestWord + 1 := by decide
  refine ⟨hg, hc, hr, by omega, least, hleast, Nat.le_of_not_lt fun hfits => ?_⟩
  exact Nat.not_le_of_lt hword (Nat.le_trans htwice (hdouble (by decide) hfits))

end Growth

namespace Buffer

def longest (calls : List Call) : Nat :=
  (calls.map Call.finish).foldr max 0

theorem longest_perm {calls calls' : List Call} (h : calls.Perm calls') :
    longest calls = longest calls' :=
  (h.map Call.finish).foldr_eq 0

theorem capacity_after (s : Buffer × Budget) (steps : List ((Nat → Bool) × Call)) :
    (after s steps).1.capacity =
      s.1.growth.capacityFor s.1.capacity (longest (succeeded s steps)) := by
  rw [after_fst, capacity_layered, longest]

/-- The capacity for one length and then for another is that for the longer of them, and a longer
length never gives a smaller one. So what a run of requests makes of the capacity of a buffer hangs
on the longest of those that succeed, and on nothing else of them. -/
theorem growth_forgets_the_way (g : Growth) :
    (∀ current a b, g.capacityFor (g.capacityFor current a) b = g.capacityFor current (max a b)) ∧
    (∀ current a b, a ≤ b → g.capacityFor current a ≤ g.capacityFor current b) ∧
    ∀ b : Buffer, b.growth = g → ∀ budget steps,
      let calls := succeeded (b, budget) steps
      (after (b, budget) steps).1.capacity = g.capacityFor b.capacity (longest calls) ∧
      ∀ b' : Buffer, b'.growth = g → b'.capacity = b.capacity → ∀ budget' steps',
        let calls' := succeeded (b', budget') steps'
        longest calls' = longest calls ∨ calls'.Perm calls →
          (after (b', budget') steps').1.capacity = (after (b, budget) steps).1.capacity := by
  refine ⟨g.capacityFor_capacityFor, fun current a b => g.capacityFor_mono current, ?_⟩
  intro b hb budget steps calls
  have hcapacity := capacity_after (b, budget) steps
  rw [hb] at hcapacity
  refine ⟨hcapacity, ?_⟩
  intro b' hb' hstart budget' steps' calls' hcalls
  have hlongest : longest calls' = longest calls := hcalls.elim id longest_perm
  rw [hcapacity, capacity_after, hb', hstart, hlongest]

/-- Two ways from ten bytes to room for 25, one of them past a request that is not granted. -/
theorem growth_forgets_the_way_to_25 :
    let b : Buffer := ⟨[], 10, ⟨4⟩⟩
    let all : Nat → Bool := fun _ => true
    let steps := [(all, .reserve 25), (all, .write 3 [7, 8])]
    let steps' := [(all, .write 11 [7]), (fun n => n < 50, .reserve 90), (all, .reserve 25)]
    longest (succeeded (b, .unlimited) steps) = 25 ∧
      longest (succeeded (b, .unlimited) steps') = 25 ∧
      (after (b, .unlimited) steps).1.capacity = 40 ∧
      (after (b, .unlimited) steps').1.capacity = 40 := by
  intro b all steps steps'
  have hlongest : longest (succeeded (b, .unlimited) steps) = 25 := by decide +kernel
  have hlongest' : longest (succeeded (b, .unlimited) steps') = 25 := by decide +kernel
  obtain ⟨-, -, hruns⟩ := growth_forgets_the_way ⟨4⟩
  obtain ⟨hcapacity, hothers⟩ := hruns b rfl .unlimited steps
  rw [hlongest] at hcapacity
  have hsame := hothers b rfl rfl .unlimited steps' (.inl (hlongest'.trans hlongest.symm))
  have hgrown : Growth.capacityFor ⟨4⟩ b.capacity 25 = 40 := by decide +kernel
  rw [hgrown] at hcapacity
  exact ⟨hlongest, hlongest', hcapacity, hsame.trans hcapacity⟩

end Buffer

end Enclave
