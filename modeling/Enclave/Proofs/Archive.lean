import Enclave.Proofs.Budget
import Enclave.Proofs.Lookup
import Enclave.Volume.Archive
import Mathlib.Algebra.GroupWithZero.Nat

namespace Enclave.Archive

def Ordered (entries : List (String × Bytes)) : Prop :=
  entries.Pairwise (·.1 < ·.1)

def measure (w : Bytes → Nat) (entries : List (String × Bytes)) : Nat :=
  (entries.map (w ·.2)).sum

def measureAt (w : Bytes → Nat) (entries : List (String × Bytes)) (name : String) : Nat :=
  ((entries.lookup name).map w).getD 0

theorem lookup_place (name key : String) (data : Bytes) (entries : List (String × Bytes)) :
    (place name data entries).lookup key =
      if key = name then some data else entries.lookup key := by
  induction entries with
  | nil =>
    by_cases hk : key = name
    · simp [place, hk]
    · rw [place, lookup_cons_of_ne hk, if_neg hk]
  | cons entry rest ih =>
    obtain ⟨first, value⟩ := entry
    rw [place]
    split
    · by_cases hk : key = name
      · rw [if_pos hk, hk, List.lookup_cons_self]
      · rw [if_neg hk, lookup_cons_of_ne hk]
    · split
      · next he =>
        subst he
        by_cases hk : key = name
        · rw [if_pos hk, hk, List.lookup_cons_self]
        · rw [if_neg hk, lookup_cons_of_ne hk, lookup_cons_of_ne hk]
      · next hne =>
        by_cases hf : key = first
        · subst hf
          rw [List.lookup_cons_self, List.lookup_cons_self, if_neg (Ne.symm hne)]
        · rw [lookup_cons_of_ne hf, lookup_cons_of_ne hf, ih]

theorem mem_place {name : String} {data : Bytes} {entries : List (String × Bytes)}
    {entry : String × Bytes} (h : entry ∈ place name data entries) :
    entry = (name, data) ∨ entry ∈ entries := by
  induction entries with
  | nil => simpa [place] using h
  | cons head rest ih =>
    rw [place] at h
    split at h
    · exact List.mem_cons.mp h
    · split at h
      · obtain he | hm := List.mem_cons.mp h
        · exact .inl he
        · exact .inr (List.mem_cons_of_mem _ hm)
      · obtain he | hm := List.mem_cons.mp h
        · exact .inr (he ▸ List.mem_cons_self)
        · exact (ih hm).imp_right (List.mem_cons_of_mem _)

theorem lookup_eq_none_of_lt {name : String} {entries : List (String × Bytes)}
    (h : ∀ entry ∈ entries, name < entry.1) : entries.lookup name = none := by
  rw [List.lookup_eq_none_iff]
  intro entry hm
  have hne := String.ne_of_lt (h entry hm)
  simpa using hne

theorem Ordered.place {entries : List (String × Bytes)} (ho : Ordered entries) (name : String)
    (data : Bytes) : Ordered (place name data entries) := by
  induction entries with
  | nil => exact List.pairwise_singleton _ _
  | cons head rest ih =>
    obtain ⟨hh, hr⟩ := List.pairwise_cons.mp ho
    rw [Archive.place]
    split
    · next hlt =>
      refine List.pairwise_cons.mpr ⟨?_, ho⟩
      intro entry hm
      obtain he | hm := List.mem_cons.mp hm
      · exact he ▸ hlt
      · exact String.lt_trans hlt (hh entry hm)
    · next hge =>
      split
      · next he => exact List.pairwise_cons.mpr ⟨fun entry hm => he ▸ hh entry hm, hr⟩
      · next hne =>
        refine List.pairwise_cons.mpr ⟨?_, ih hr⟩
        intro entry hm
        obtain he | hm := mem_place hm
        · have hle : head.1 ≤ name := String.not_lt.mp hge
          have hlt : ¬ name ≤ head.1 := fun h => hne (String.le_antisymm h hle)
          exact he ▸ String.not_le.mp hlt
        · exact hh entry hm

theorem measure_place (w : Bytes → Nat) {entries : List (String × Bytes)} (ho : Ordered entries)
    (name : String) (data : Bytes) :
    measure w (place name data entries) + measureAt w entries name =
      measure w entries + w data := by
  induction entries with
  | nil => simp [place, measure, measureAt]
  | cons head rest ih =>
    obtain ⟨hh, hr⟩ := List.pairwise_cons.mp ho
    obtain ⟨first, value⟩ := head
    rw [place]
    split
    · next hlt =>
      have hn : ((first, value) :: rest).lookup name = none := by
        apply lookup_eq_none_of_lt
        intro entry hm
        obtain he | hm := List.mem_cons.mp hm
        · exact he ▸ hlt
        · exact String.lt_trans hlt (hh entry hm)
      simp only [measureAt, hn, measure, List.map_cons, List.sum_cons, Option.map_none,
        Option.getD_none]
      omega
    · split
      · next he =>
        subst he
        simp only [measureAt, List.lookup_cons_self, measure, List.map_cons, List.sum_cons,
          Option.map_some, Option.getD_some]
        omega
      · next hne =>
        have hs := ih hr
        simp only [measureAt, measure, lookup_cons_of_ne hne, List.map_cons, List.sum_cons] at hs ⊢
        omega

variable (a : Archive) (grant : Allocator)

def sizeOf (name : String) : Nat :=
  measureAt List.length a.entries name

theorem sizeOf_of_some {name : String} {data : Bytes} (h : a.find? name = some data) :
    a.sizeOf name = data.length := by
  rw [find?] at h
  rw [sizeOf, measureAt, h]
  rfl

theorem sizeOf_of_none {name : String} (h : a.find? name = none) : a.sizeOf name = 0 := by
  rw [find?] at h
  rw [sizeOf, measureAt, h]
  rfl

theorem find?_set (name key : String) (data : Bytes) :
    (a.set name data).find? key = if key = name then some data else a.find? key :=
  lookup_place name key data a.entries

theorem usedBytes_set (ho : Ordered a.entries) (name : String) (data : Bytes) :
    (a.set name data).usage.usedBytes + a.sizeOf name = a.usage.usedBytes + data.length :=
  measure_place List.length ho name data

theorem sizeOf_le (ho : Ordered a.entries) (name : String) : a.sizeOf name ≤ a.usage.usedBytes := by
  have h := a.usedBytes_set ho name []
  simp only [List.length_nil] at h
  omega

theorem size_eq_measure : a.size = measure (fun _ => 1) a.entries := by
  simp [size, measure, List.map_const']

theorem size_set (ho : Ordered a.entries) (name : String) (data : Bytes) :
    (a.set name data).size = if (a.find? name).isSome then a.size else a.size + 1 := by
  have h := measure_place (fun _ => 1) ho name data
  rw [size_eq_measure, size_eq_measure, find?]
  cases hl : a.entries.lookup name with
  | none => simp only [measureAt, hl] at h; exact h
  | some old => simp only [measureAt, hl] at h; exact Nat.add_right_cancel h

theorem size_set_le (ho : Ordered a.entries) (hb : a.size ≤ a.maxEntries) {name : String}
    (hroom : a.find? name = none → a.size < a.maxEntries) (data : Bytes) :
    (a.set name data).size ≤ a.maxEntries := by
  rw [a.size_set ho]
  cases hf : a.find? name with
  | none => exact hroom hf
  | some old => exact hb

/-- Why a flush is refused, if it is. Only a new name needs room, and only a new name is copied. -/
def flushRefusal (name : String) (data : Bytes) (budget : Budget) : Option Fault :=
  if a.find? name = none ∧ a.maxEntries ≤ a.size then
    some (.capacityExhausted .entries a.maxEntries)
  else if a.find? name = none ∧ ¬ (name.utf8ByteSize = 0 ∨ grant .entryName name.utf8ByteSize) then
    some (.outOfMemory name.utf8ByteSize)
  else if budget.Admits data.length ∧ (data.length = 0 ∨ grant .entryData data.length) then none
  else some (.outOfMemory data.length)

/-- A flush sets the entry and swaps the charge of the old bytes for that of the new, or changes
nothing. -/
theorem flush_eq (name : String) (data : Bytes) (budget : Budget) :
    a.flush grant name data budget =
      match a.flushRefusal grant name data budget with
      | some e => ⟨.error e, a, budget⟩
      | none => ⟨.ok (), a.set name data, (budget.raise data.length).refund (a.sizeOf name)⟩ := by
  rw [flush, flushRefusal, size]
  cases hf : a.find? name with
  | some old =>
    simp only [Budget.copy_eq, reduceCtorEq, false_and, if_false, a.sizeOf_of_some hf]
    by_cases hc : budget.Admits data.length ∧ (data.length = 0 ∨ grant .entryData data.length)
    · simp only [if_pos hc]
    · simp only [if_neg hc]
  | none =>
    simp only [copyName, Budget.copy_eq, true_and, a.sizeOf_of_none hf]
    by_cases hr : a.maxEntries ≤ a.entries.length
    · simp only [if_pos hr]
    · by_cases hn : name.utf8ByteSize = 0 ∨ grant .entryName name.utf8ByteSize
      · simp only [if_neg hr, if_pos hn, if_neg (not_not.mpr hn)]
        by_cases hc : budget.Admits data.length ∧ (data.length = 0 ∨ grant .entryData data.length)
        · simp only [if_pos hc]
          rfl
        · simp only [if_neg hc]
      · simp only [if_neg hr, if_neg hn, if_pos hn]

theorem flushRefusal_eq_none {name : String} {data : Bytes} {budget : Budget} :
    a.flushRefusal grant name data budget = none ↔
      (a.find? name = none → a.size < a.maxEntries ∧
        (name.utf8ByteSize = 0 ∨ grant .entryName name.utf8ByteSize)) ∧
      budget.Admits data.length ∧ (data.length = 0 ∨ grant .entryData data.length) := by
  rw [flushRefusal]
  split
  · next hfull =>
    exact ⟨nofun, fun h => absurd (h.1 hfull.1).1 (Nat.not_lt.mpr hfull.2)⟩
  · next hroom =>
    split
    · next hname => exact ⟨nofun, fun h => absurd (h.1 hname.1).2 hname.2⟩
    · next hname =>
      have hnew (hf : a.find? name = none) : a.size < a.maxEntries ∧
          (name.utf8ByteSize = 0 ∨ grant .entryName name.utf8ByteSize) :=
        ⟨Nat.lt_of_not_le fun hle => hroom ⟨hf, hle⟩, not_not.mp fun hno => hname ⟨hf, hno⟩⟩
      split
      · next hdata => exact ⟨fun _ => ⟨hnew, hdata⟩, fun _ => rfl⟩
      · next hdata => exact ⟨nofun, fun h => absurd h.2 hdata⟩

theorem flush_cases (name : String) (data : Bytes) (budget : Budget) :
    (a.flush grant name data budget =
        ⟨.ok (), a.set name data, (budget.raise data.length).refund (a.sizeOf name)⟩ ∧
      budget.Admits data.length ∧ (a.find? name = none → a.size < a.maxEntries)) ∨
    ∃ e, a.flush grant name data budget = ⟨.error e, a, budget⟩ := by
  rw [flush_eq]
  cases hr : a.flushRefusal grant name data budget with
  | some e => exact .inr ⟨e, rfl⟩
  | none =>
    obtain ⟨hroom, hadmits, -⟩ := (a.flushRefusal_eq_none grant).mp hr
    exact .inl ⟨rfl, hadmits, fun hf => (hroom hf).1⟩

end Enclave.Archive
