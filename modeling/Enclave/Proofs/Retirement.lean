import Enclave.Proofs.FileTable
import Mathlib.Algebra.Order.Group.Multiset

namespace Enclave.FileTable

inductive Call where
  | insert (file : OpenFile)
  | remove (h : Handle)

def perform (t : FileTable) : Call → FileTable
  | .insert file => (t.insert file).state
  | .remove h => (t.remove h).state

def after (t : FileTable) (calls : List Call) : FileTable :=
  calls.foldl perform t

def taken? (t : FileTable) : Call → Option UInt16
  | .insert file =>
    match (t.insert file).result with
    | .ok h => some h.slot
    | .error _ => none
  | .remove _ => none

def vacated? (t : FileTable) : Call → Option UInt16
  | .insert _ => none
  | .remove h =>
    match (t.remove h).result with
    | .ok _ => some h.slot
    | .error _ => none

def insertions (t : FileTable) : List Call → List UInt16
  | [] => []
  | call :: rest => (t.taken? call).toList ++ (t.perform call).insertions rest

def removals (t : FileTable) : List Call → List UInt16
  | [] => []
  | call :: rest => (t.vacated? call).toList ++ (t.perform call).removals rest

def issued (t : FileTable) : List UInt16 :=
  (List.range t.slots.size).map UInt16.ofNat

def holds (t : FileTable) (index : UInt16) : Bool :=
  (t.slots[index.toNat]?.bind (·.file)).isSome

/-- A slot is in its last generation, holds nothing, and does not wait to be taken again. -/
def spent (t : FileTable) (index : UInt16) : Bool :=
  t.slots[index.toNat]? = some ⟨lastGeneration, none⟩ ∧ index ∉ t.free

def occupied (t : FileTable) : List UInt16 :=
  t.issued.filter t.holds

def retired (t : FileTable) : List UInt16 :=
  t.issued.filter t.spent

variable {t t' : FileTable}

theorem Sound.toNat_ofNat (ht : t.Sound) {i : Nat} (hi : i < t.slots.size) :
    (UInt16.ofNat i).toNat = i := by
  have hsize : t.slots.size ≤ 65536 := ht.size_le
  rw [UInt16.toNat_ofNat']
  exact Nat.mod_eq_of_lt (Nat.lt_of_lt_of_le hi hsize)

theorem Sound.mem_issued (ht : t.Sound) (index : UInt16) :
    index ∈ t.issued ↔ index.toNat < t.slots.size := by
  rw [issued, List.mem_map]
  constructor
  · rintro ⟨i, hi, rfl⟩
    rw [ht.toNat_ofNat (List.mem_range.mp hi)]
    exact List.mem_range.mp hi
  · exact fun hi => ⟨index.toNat, List.mem_range.mpr hi, UInt16.ofNat_toNat⟩

theorem Sound.issued_nodup (ht : t.Sound) : t.issued.Nodup := by
  refine List.Nodup.map_on ?_ List.nodup_range
  intro i hi j hj he
  rw [← ht.toNat_ofNat (List.mem_range.mp hi), he, ht.toNat_ofNat (List.mem_range.mp hj)]

theorem Sound.mem_occupied (ht : t.Sound) (index : UInt16) :
    index ∈ t.occupied ↔ ∃ g file, t.slots[index.toNat]? = some ⟨g, some file⟩ := by
  rw [occupied, List.mem_filter, ht.mem_issued, holds]
  constructor
  · rintro ⟨hi, hh⟩
    obtain ⟨file, hfile⟩ := Option.isSome_iff_exists.mp hh
    obtain ⟨⟨g, _⟩, hs, rfl⟩ := Option.bind_eq_some_iff.mp hfile
    exact ⟨g, file, hs⟩
  · rintro ⟨g, file, hs⟩
    exact ⟨(Array.getElem?_eq_some_iff.mp hs).1, by simp [hs]⟩

theorem Sound.mem_retired (ht : t.Sound) (index : UInt16) :
    index ∈ t.retired ↔
      t.slots[index.toNat]? = some ⟨lastGeneration, none⟩ ∧ index ∉ t.free := by
  rw [retired, List.mem_filter, ht.mem_issued, spent, decide_eq_true_eq]
  exact ⟨And.right, fun h => ⟨(Array.getElem?_eq_some_iff.mp h.1).1, h⟩⟩

theorem Sound.length_occupied (ht : t.Sound) : t.occupied.length = t.opened := by
  have hslots : (List.range t.slots.size).map (t.slots[·]?) = t.slots.toList.map some := by
    apply List.ext_getElem?
    intro i
    by_cases hi : i < t.slots.size
    · simp [hi]
    · simp [hi]
  have hcount : t.occupied.length =
      ((List.range t.slots.size).map (t.slots[·]?)).countP (fun s => (s.bind (·.file)).isSome) := by
    rw [occupied, ← List.countP_eq_length_filter, issued, List.countP_map, List.countP_map]
    refine List.countP_congr fun i hi => ?_
    simp only [Function.comp_apply, holds, ht.toNat_ofNat (List.mem_range.mp hi)]
  have hmeasure : measure (fun _ => 1) t.slots = (openFiles t.slots).length := by
    simp [measure, List.map_const']
  rw [hcount, hslots, ht.opened_eq, hmeasure, openFiles, List.length_filterMap_eq_countP,
    List.countP_map]
  rfl

/-- The generation of slot `index` tells how often the slot has been taken and vacated. -/
inductive Tally (t : FileTable) (index : UInt16) (taken vacated : Nat) : Prop where
  | unissued : t.slots[index.toNat]? = none → taken = 0 → vacated = 0 →
    Tally t index taken vacated
  | occupied (g : UInt16) (file : OpenFile) : t.slots[index.toNat]? = some ⟨g, some file⟩ →
    taken = g.toNat → vacated + 1 = g.toNat → Tally t index taken vacated
  | free (g : UInt16) : t.slots[index.toNat]? = some ⟨g, none⟩ → index ∈ t.free →
    taken + 1 = g.toNat → vacated + 1 = g.toNat → Tally t index taken vacated
  | retired : t.slots[index.toNat]? = some ⟨lastGeneration, none⟩ → index ∉ t.free →
    taken = 65535 → vacated = 65535 → Tally t index taken vacated

def Tallied (t : FileTable) (taken vacated : List UInt16) : Prop :=
  ∀ index, t.Tally index (taken.count index) (vacated.count index)

variable {taken vacated : List UInt16} {h : Handle} {file : OpenFile}

theorem empty_tallied (maxOpen : Nat) : (empty maxOpen).Tallied [] [] :=
  fun _ => .unissued rfl rfl rfl

theorem Tally.congr {index : UInt16} {m n : Nat} (hc : t.Tally index m n)
    (hs : t'.slots[index.toNat]? = t.slots[index.toNat]?)
    (hm : index ∈ t'.free ↔ index ∈ t.free) : t'.Tally index m n := by
  cases hc with
  | unissued hnone htaken hvacated => exact .unissued (hs.trans hnone) htaken hvacated
  | occupied g file hfile htaken hvacated =>
    exact .occupied g file (hs.trans hfile) htaken hvacated
  | free g hg hfree htaken hvacated => exact .free g (hs.trans hg) (hm.mpr hfree) htaken hvacated
  | retired hlast hfree htaken hvacated =>
    exact .retired (hs.trans hlast) (mt hm.mp hfree) htaken hvacated

theorem Tally.of_some {index : UInt16} {m n : Nat} (hc : t.Tally index m n) {g : UInt16}
    (hs : t.slots[index.toNat]? = some ⟨g, some file⟩) : m = g.toNat ∧ n + 1 = g.toNat := by
  cases hc with
  | occupied _ _ hs' htaken hvacated =>
    rw [hs] at hs'
    cases hs'
    exact ⟨htaken, hvacated⟩
  | unissued hs' | free _ hs' | retired hs' =>
    rw [hs] at hs'
    cases hs'

theorem Tally.of_free {index : UInt16} {m n : Nat} (hc : t.Tally index m n) {g : UInt16}
    (hs : t.slots[index.toNat]? = some ⟨g, none⟩) (hm : index ∈ t.free) :
    m + 1 = g.toNat ∧ n + 1 = g.toNat := by
  cases hc with
  | free _ hs' _ htaken hvacated =>
    rw [hs] at hs'
    cases hs'
    exact ⟨htaken, hvacated⟩
  | retired _ hm' => exact absurd hm hm'
  | unissued hs' | occupied _ _ hs' =>
    rw [hs] at hs'
    cases hs'

theorem Tally.of_none {index : UInt16} {m n : Nat} (hc : t.Tally index m n)
    (hs : t.slots[index.toNat]? = none) : m = 0 ∧ n = 0 := by
  cases hc with
  | unissued _ htaken hvacated => exact ⟨htaken, hvacated⟩
  | occupied _ _ hs' | free _ hs' | retired hs' =>
    rw [hs] at hs'
    cases hs'

/-- A slot about to be taken has been vacated as often as it has been taken. -/
theorem Placed.tally (hp : Placed t file h t') (hc : t.Tallied taken vacated) :
    taken.count h.slot + 1 = h.generation.toNat ∧
      vacated.count h.slot + 1 = h.generation.toNat := by
  cases hp with
  | reused index rest g hfree hg => exact (hc index).of_free hg (hfree ▸ List.mem_cons_self)
  | added index _ hsize =>
    obtain ⟨htaken, hvacated⟩ := (hc index).of_none (by simp [hsize])
    rw [htaken, hvacated]
    exact ⟨rfl, rfl⟩

theorem count_snoc_self (l : List UInt16) (index : UInt16) :
    (l ++ [index]).count index = l.count index + 1 := by
  simp

theorem count_snoc_of_ne (l : List UInt16) {index other : UInt16} (hne : index ≠ other) :
    (l ++ [other]).count index = l.count index := by
  simp [Ne.symm hne]

theorem Placed.tallied (hp : Placed t file h t') (ht : t.Sound) (hc : t.Tallied taken vacated) :
    t'.Tallied (taken ++ [h.slot]) vacated := by
  obtain ⟨htaken, hvacated⟩ := hp.tally hc
  obtain ⟨-, hfree⟩ := hp.free_eq ht
  intro index
  by_cases hi : index = h.slot
  · subst hi
    refine .occupied h.generation file ?_ ((count_snoc_self _ _).trans htaken) hvacated
    rw [hp.slots_eq, if_pos rfl]
  · rw [count_snoc_of_ne _ hi]
    refine (hc index).congr ?_ ?_
    · rw [hp.slots_eq, if_neg fun he => hi (UInt16.toNat_inj.mp he)]
    · simp [hfree index, hi]

theorem Tallied.vacate (hc : t.Tallied taken vacated) (ht : t.Sound)
    (hf : t.find? h = some file) : (t.vacate h).Tallied taken (vacated ++ [h.slot]) := by
  obtain ⟨htaken, hvacated⟩ := (hc h.slot).of_some (find?_eq_some.mp hf)
  have hself : (t.vacate h).slots[h.slot.toNat]? = some ⟨nextGeneration h.generation, none⟩ := by
    rw [vacate_slots hf, if_pos rfl]
  intro index
  by_cases hi : index = h.slot
  · subst hi
    rw [count_snoc_self]
    -- The slot waits to be taken again exactly if it has a generation left.
    by_cases hg : h.generation = lastGeneration
    · refine .retired ?_ ?_ (by rw [htaken, hg]; rfl) (by rw [hvacated, hg]; rfl)
      · rw [hself, nextGeneration, if_pos hg, hg]
      · rw [vacate_free, if_pos hg]
        exact ht.slot_not_free hf
    · have hnext := toNat_nextGeneration hg
      refine .free _ hself ?_ (by omega) (by omega)
      rw [vacate_free, if_neg hg]
      exact List.mem_cons_self
  · rw [count_snoc_of_ne _ hi]
    refine (hc index).congr ?_ ?_
    · rw [vacate_slots hf, if_neg fun he => hi (UInt16.toNat_inj.mp he)]
    · rw [vacate_free]
      split
      · rfl
      · simp [hi]

theorem perform_sound (ht : t.Sound) (call : Call) : (t.perform call).Sound := by
  cases call with
  | insert file =>
    obtain ⟨h, t', hi, hp, hroom⟩ | ⟨hi, -⟩ := ht.insert_cases file
    · rw [perform, hi]
      exact hp.sound ht hroom
    · rw [perform, hi]
      exact ht
  | remove h =>
    rw [perform, remove]
    cases hf : t.find? h with
    | none => exact ht
    | some file => exact ht.vacate hf

theorem perform_maxOpen (ht : t.Sound) (call : Call) : (t.perform call).maxOpen = t.maxOpen := by
  cases call with
  | insert file =>
    obtain ⟨h, t', hi, hp, -⟩ | ⟨hi, -⟩ := ht.insert_cases file
    · rw [perform, hi]
      exact hp.maxOpen_eq
    · rw [perform, hi]
  | remove h =>
    rw [perform, remove]
    cases hf : t.find? h with
    | none => rfl
    | some file =>
      dsimp only
      rw [vacate_eq]

theorem perform_tallied (ht : t.Sound) (hc : t.Tallied taken vacated) (call : Call) :
    (t.perform call).Tallied (taken ++ (t.taken? call).toList)
      (vacated ++ (t.vacated? call).toList) := by
  cases call with
  | insert file =>
    rw [perform, taken?, vacated?, Option.toList_none, List.append_nil]
    obtain ⟨h, t', hi, hp, -⟩ | ⟨hi, -⟩ := ht.insert_cases file
    · rw [hi]
      exact hp.tallied ht hc
    · rw [hi]
      simpa using hc
  | remove h =>
    rw [perform, taken?, vacated?, Option.toList_none, List.append_nil, remove]
    cases hf : t.find? h with
    | none => simpa using hc
    | some file => exact hc.vacate ht hf

theorem after_sound (ht : t.Sound) (calls : List Call) : (t.after calls).Sound := by
  induction calls generalizing t with
  | nil => exact ht
  | cons call rest ih => exact ih (perform_sound ht call)

theorem after_maxOpen (ht : t.Sound) (calls : List Call) :
    (t.after calls).maxOpen = t.maxOpen := by
  induction calls generalizing t with
  | nil => rfl
  | cons call rest ih => exact (ih (perform_sound ht call)).trans (perform_maxOpen ht call)

theorem after_tallied (ht : t.Sound) (hc : t.Tallied taken vacated) (calls : List Call) :
    (t.after calls).Tallied (taken ++ t.insertions calls) (vacated ++ t.removals calls) := by
  induction calls generalizing t taken vacated with
  | nil =>
    rw [insertions, removals, List.append_nil, List.append_nil]
    exact hc
  | cons call rest ih =>
    rw [insertions, removals, ← List.append_assoc, ← List.append_assoc]
    exact ih (perform_sound ht call) (perform_tallied ht hc call)

theorem Tallied.of_mem_retired (hc : t.Tallied taken vacated) (ht : t.Sound) {index : UInt16}
    (hm : index ∈ t.retired) : taken.count index = 65535 ∧ vacated.count index = 65535 := by
  obtain ⟨hs, hnot⟩ := (ht.mem_retired index).mp hm
  cases hc index with
  | retired _ _ htaken hvacated => exact ⟨htaken, hvacated⟩
  | free _ _ hm' => exact absurd hm' hnot
  | unissued hs' | occupied _ _ hs' =>
    rw [hs] at hs'
    cases hs'

theorem Tallied.split (hc : t.Tallied taken vacated) (ht : t.Sound) :
    (t.occupied ++ t.free ++ t.retired).Perm t.issued := by
  have hnodup : (t.occupied ++ t.free ++ t.retired).Nodup := by
    refine List.nodup_append.mpr ⟨List.nodup_append.mpr
      ⟨ht.issued_nodup.filter _, ht.free_nodup, ?_⟩, ht.issued_nodup.filter _, ?_⟩
    · intro index ho other hm he
      obtain ⟨g, file, hs⟩ := (ht.mem_occupied index).mp ho
      obtain ⟨g', hs'⟩ := ht.free_vacant other hm
      rw [← he, hs] at hs'
      cases hs'
    · intro index hl other hr he
      obtain ⟨hs', hnot⟩ := (ht.mem_retired other).mp hr
      obtain ho | hm := List.mem_append.mp hl
      · obtain ⟨g, file, hs⟩ := (ht.mem_occupied index).mp ho
        rw [← he, hs] at hs'
        cases hs'
      · exact hnot (he ▸ hm)
  -- The three lists share no slot, so it is left to say that each slot issued is in one of them.
  refine (List.perm_ext_iff_of_nodup hnodup ht.issued_nodup).mpr fun index => ?_
  rw [List.mem_append, List.mem_append, ht.mem_occupied, ht.mem_retired, ht.mem_issued]
  constructor
  · rintro ((⟨g, file, hs⟩ | hm) | ⟨hs, -⟩)
    · exact (Array.getElem?_eq_some_iff.mp hs).1
    · obtain ⟨g, hs⟩ := ht.free_vacant index hm
      exact (Array.getElem?_eq_some_iff.mp hs).1
    · exact (Array.getElem?_eq_some_iff.mp hs).1
  · intro hi
    cases hc index with
    | unissued hs => exact absurd (Array.getElem?_eq_none_iff.mp hs) (Nat.not_le.mpr hi)
    | occupied g file hs => exact .inl (.inl ⟨g, file, hs⟩)
    | free g hs hm => exact .inl (.inr hm)
    | retired hs hm => exact .inr ⟨hs, hm⟩

theorem mul_length_le {l l' : List UInt16} {n : Nat} (hl : l.Nodup)
    (h : ∀ index ∈ l, n ≤ l'.count index) : n * l.length ≤ l'.length := by
  have hle : n • (l : Multiset UInt16) ≤ (l' : Multiset UInt16) := by
    rw [Multiset.le_iff_count]
    intro index
    rw [Multiset.count_nsmul, Multiset.coe_count, Multiset.coe_count]
    by_cases hm : index ∈ l
    · rw [List.count_eq_one_of_mem hl hm, Nat.mul_one]
      exact h index hm
    · rw [List.count_eq_zero_of_not_mem hm]
      exact Nat.zero_le _
  simpa using Multiset.card_le_card hle

theorem Tallied.retired_le (hc : t.Tallied taken vacated) (ht : t.Sound) :
    65535 * t.retired.length ≤ vacated.length :=
  mul_length_le (ht.issued_nodup.filter _) fun _ hm => Nat.le_of_eq (hc.of_mem_retired ht hm).2.symm

theorem insert_of_full {m : Nat} (hm : t.maxOpen = m) (hfull : t.opened = m) (file : OpenFile) :
    (t.insert file).result = .error (.capacityExhausted .openFiles m) := by
  obtain ⟨slots, free, maxOpen, opened⟩ := t
  obtain rfl : maxOpen = m := hm
  obtain rfl : opened = maxOpen := hfull
  simp [insert, ensureRoom]

/-- After every run of a table for `m` files an insertion fails if as many files are open as may be,
and one that fails before that follows 65535 removals for each of the slots that are missing. The
slots issued so far hold a file, wait to be taken again, or are retired, and a retired slot has been
taken and vacated 65535 times. -/
theorem refuses_early_only_when_worn (m : Nat) (calls : List Call) :
    let start := empty m
    let t := start.after calls
    let most := min m mostOpen
    (t.opened = most → ∀ file,
      (t.insert file).result = .error (.capacityExhausted .openFiles most)) ∧
    (∀ file e, (t.insert file).result = .error e → t.opened < most →
      65535 * (65537 - most) ≤ (start.removals calls).length) ∧
    (t.occupied ++ t.free ++ t.retired).Perm t.issued ∧ t.issued.Nodup ∧
    t.occupied.length = t.opened ∧
    (∀ index ∈ t.free, ∃ g, t.slots[index.toNat]? = some ⟨g, none⟩) ∧
    ∀ index ∈ t.retired, (start.insertions calls).count index = 65535 ∧
      (start.removals calls).count index = 65535 := by
  intro start t most
  have hstart : start.Sound := empty_sound m
  have ht : t.Sound := after_sound hstart calls
  have hc : t.Tallied (start.insertions calls) (start.removals calls) :=
    after_tallied hstart (empty_tallied m) calls
  have hmost : t.maxOpen = most := after_maxOpen hstart calls
  have hsplit := hc.split ht
  have hopened := ht.length_occupied
  refine ⟨insert_of_full hmost, ?_, hsplit, ht.issued_nodup, hopened, ht.free_vacant,
    fun index hm => hc.of_mem_retired ht hm⟩
  intro file e he hroom
  obtain ⟨h, t', hi, -⟩ | ⟨-, hfull⟩ := ht.insert_cases file
  · rw [hi] at he
    cases he
  · obtain ⟨hfree, hsize⟩ := hfull.resolve_left (by omega)
    -- No slot waits, so all that hold no file are retired.
    have hlength := hsplit.length_eq
    rw [List.length_append, List.length_append, hfree, hopened, issued, List.length_map,
      List.length_range, hsize, slotLimit, List.length_nil] at hlength
    have hretired : 65537 - most ≤ t.retired.length := by omega
    exact Nat.le_trans (Nat.mul_le_mul_left _ hretired) (hc.retired_le ht)

end Enclave.FileTable
