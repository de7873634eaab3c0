import Enclave.Volume.FileTable
import Mathlib.Algebra.GroupWithZero.Nat

namespace Enclave.FileTable

def openFiles (slots : Array Slot) : List OpenFile :=
  slots.toList.filterMap (·.file)

def measure (w : OpenFile → Nat) (slots : Array Slot) : Nat :=
  ((openFiles slots).map w).sum

def weight (w : OpenFile → Nat) (s : Slot) : Nat :=
  (s.file.map w).getD 0

structure Sound (t : FileTable) : Prop where
  size_le : t.slots.size ≤ slotLimit
  generation_pos : ∀ (i : Nat) (s : Slot), t.slots[i]? = some s → 0 < s.generation.toNat
  free_nodup : t.free.Nodup
  free_vacant : ∀ index ∈ t.free, ∃ g, t.slots[index.toNat]? = some ⟨g, none⟩
  opened_eq : t.opened = measure (fun _ => 1) t.slots
  opened_le : t.opened ≤ t.maxOpen

/-- `h` has been given out: its slot is past its generation, or is in it and not waiting to be
taken again. -/
def Issued (t : FileTable) (h : Handle) : Prop :=
  ∃ s, t.slots[h.slot.toNat]? = some s ∧ 0 < h.generation.toNat ∧
    (h.generation.toNat < s.generation.toNat ∨ h.generation = s.generation ∧ h.slot ∉ t.free)

/-- `t'` is `t` with `file` placed under `h`, in the slot freed last or in one never used. -/
inductive Placed (t : FileTable) (file : OpenFile) : Handle → FileTable → Prop where
  | reused (index : UInt16) (rest : List UInt16) (g : UInt16) :
    t.free = index :: rest → t.slots[index.toNat]? = some ⟨g, none⟩ →
    Placed t file ⟨index, g⟩
      ⟨t.slots.setIfInBounds index.toNat ⟨g, some file⟩, rest, t.maxOpen, t.opened + 1⟩
  | added (index : UInt16) : t.free = [] → t.slots.size = index.toNat →
    Placed t file ⟨index, 1⟩ ⟨t.slots.push ⟨1, some file⟩, [], t.maxOpen, t.opened + 1⟩

theorem sum_set (w : OpenFile → Nat) {l : List Slot} {i : Nat} {s : Slot} (s' : Slot)
    (h : l[i]? = some s) :
    (((l.set i s').filterMap (·.file)).map w).sum + weight w s =
      ((l.filterMap (·.file)).map w).sum + weight w s' := by
  have cons (a : Slot) (l : List Slot) : (((a :: l).filterMap (·.file)).map w).sum =
      weight w a + ((l.filterMap (·.file)).map w).sum := by
    obtain ⟨g, _ | f⟩ := a
    · simp [weight]
    · simp [weight]
  induction l generalizing i with
  | nil => simp at h
  | cons a l ih =>
    cases i with
    | zero =>
      obtain rfl : a = s := by simpa using h
      rw [List.set_cons_zero, cons, cons]
      omega
    | succ i =>
      have hs := ih (by simpa using h)
      rw [List.set_cons_succ, cons, cons]
      omega

theorem measure_set (w : OpenFile → Nat) {slots : Array Slot} {i : Nat} {s : Slot} (s' : Slot)
    (h : slots[i]? = some s) :
    measure w (slots.setIfInBounds i s') + weight w s = measure w slots + weight w s' := by
  have hl : slots.toList[i]? = some s := by simpa using h
  simpa [measure, openFiles] using sum_set w s' hl

theorem measure_push (w : OpenFile → Nat) (slots : Array Slot) (s : Slot) :
    measure w (slots.push s) = measure w slots + weight w s := by
  obtain ⟨g, _ | f⟩ := s
  · simp [measure, openFiles, weight]
  · simp [measure, openFiles, weight]

theorem getElem?_set {slots : Array Slot} {i : Nat} {s : Slot} (s' : Slot)
    (h : slots[i]? = some s) (j : Nat) :
    (slots.setIfInBounds i s')[j]? = if j = i then some s' else slots[j]? := by
  have hi : i < slots.size := (Array.getElem?_eq_some_iff.mp h).1
  rw [Array.getElem?_setIfInBounds]
  by_cases hj : j = i
  · subst hj; simp [hi]
  · simp [hj, Ne.symm hj]

theorem find?_eq_some {t : FileTable} {h : Handle} {file : OpenFile} :
    t.find? h = some file ↔ t.slots[h.slot.toNat]? = some ⟨h.generation, some file⟩ := by
  rw [find?]
  cases hs : t.slots[h.slot.toNat]? with
  | none => simp
  | some s =>
    obtain ⟨g, f⟩ := s
    by_cases hg : g = h.generation
    · simp [hg]
    · simp [hg]

theorem find?_congr {t t' : FileTable} {h : Handle}
    (hs : t'.slots[h.slot.toNat]? = t.slots[h.slot.toNat]?) : t'.find? h = t.find? h := by
  rw [find?, find?, hs]

theorem find?_eq_none_of_vacant {t : FileTable} {h : Handle} {g : UInt16}
    (hs : t.slots[h.slot.toNat]? = some ⟨g, none⟩) : t.find? h = none := by
  rw [find?, hs]
  simp

theorem find?_of_generation_ne {t : FileTable} {h : Handle} {s : Slot}
    (hs : t.slots[h.slot.toNat]? = some s) (hg : h.generation ≠ s.generation) :
    t.find? h = none := by
  rw [find?, hs]
  exact if_neg (Ne.symm hg)

theorem get_ne_invalidHandle (t : FileTable) (h : Handle) :
    t.get h ≠ .error .invalidHandle ↔ t.contains h = true := by
  rw [get, contains]
  cases t.find? h <;> simp

theorem remove_ne_invalidHandle (t : FileTable) (h : Handle) :
    (t.remove h).result ≠ .error .invalidHandle ↔ t.contains h = true := by
  rw [remove, contains]
  cases t.find? h <;> simp

theorem find?_same_slot {t : FileTable} {h h' : Handle} {file : OpenFile}
    (hf : t.find? h = some file) (hs : h'.slot = h.slot) (hg : h'.generation ≠ h.generation) :
    t.find? h' = none :=
  find?_of_generation_ne (by rw [hs]; exact find?_eq_some.mp hf) hg

theorem eq_of_slot_eq {h h' : Handle} (hs : h'.slot = h.slot)
    (hg : h'.generation = h.generation) : h' = h := by
  cases h; cases h'; simp_all

theorem Sound.slot_not_free {t : FileTable} (ht : t.Sound) {h : Handle} {file : OpenFile}
    (hf : t.find? h = some file) : h.slot ∉ t.free := by
  intro hm
  obtain ⟨g, hg⟩ := ht.free_vacant _ hm
  rw [find?_eq_some.mp hf] at hg
  cases hg

theorem Sound.issued_of_find? {t : FileTable} (ht : t.Sound) {h : Handle} {file : OpenFile}
    (hf : t.find? h = some file) : t.Issued h :=
  ⟨_, find?_eq_some.mp hf, ht.generation_pos _ _ (find?_eq_some.mp hf),
    .inr ⟨rfl, ht.slot_not_free hf⟩⟩

theorem empty_sound (maxOpen : Nat) : (empty maxOpen).Sound where
  size_le := Nat.zero_le _
  generation_pos := by simp [empty]
  free_nodup := List.nodup_nil
  free_vacant := by simp [empty]
  opened_eq := rfl
  opened_le := Nat.zero_le _

/-- An insertion fails only when as many files are open as may be, or when no slot is left. -/
theorem Sound.insert_cases {t : FileTable} (ht : t.Sound) (file : OpenFile) :
    (∃ h t', t.insert file = ⟨.ok h, t'⟩ ∧ Placed t file h t' ∧ t.opened < t.maxOpen) ∨
    t.insert file = ⟨.error (.capacityExhausted .openFiles t.maxOpen), t⟩ ∧
      (t.maxOpen ≤ t.opened ∨ t.free = [] ∧ t.slots.size = slotLimit) := by
  have hsize := ht.size_le
  have hvacant := ht.free_vacant
  obtain ⟨slots, free, maxOpen, opened⟩ := t
  by_cases hr : maxOpen ≤ opened
  · exact .inr ⟨by simp [insert, ensureRoom, hr], .inl hr⟩
  cases free with
  | cons index rest =>
    obtain ⟨g, hg⟩ := hvacant index List.mem_cons_self
    have hgen : generationAt slots index = g := by simp only [generationAt, hg]
    refine .inl ⟨⟨index, g⟩, _, ?_, .reused index rest g rfl hg, Nat.lt_of_not_le hr⟩
    simp [insert, ensureRoom, hr, hgen]
  | nil =>
    by_cases hs : slots.size < slotLimit
    · have hi : slots.size = (UInt16.ofNat slots.size).toNat := by
        rw [UInt16.toNat_ofNat', Nat.mod_eq_of_lt (by exact hs)]
      refine .inl ⟨⟨.ofNat slots.size, 1⟩, _, ?_, .added _ rfl hi, Nat.lt_of_not_le hr⟩
      simp [insert, ensureRoom, hr, hs]
    · have hfull : slots.size = slotLimit := Nat.le_antisymm hsize (Nat.le_of_not_lt hs)
      exact .inr ⟨by simp [insert, ensureRoom, hr, hs], .inr ⟨rfl, hfull⟩⟩

namespace Placed

variable {t t' : FileTable} {file : OpenFile} {h : Handle}

theorem slots_eq (hp : Placed t file h t') (i : Nat) :
    t'.slots[i]? = if i = h.slot.toNat then some ⟨h.generation, some file⟩ else t.slots[i]? := by
  cases hp with
  | reused index rest g _ hg => exact getElem?_set _ hg i
  | added index _ hs => rw [Array.getElem?_push, hs]

theorem find?_self (hp : Placed t file h t') : t'.find? h = some file := by
  rw [find?_eq_some, hp.slots_eq, if_pos rfl]

theorem find?_slot (hp : Placed t file h t') {h' : Handle} (hs : h'.slot = h.slot) :
    t.find? h' = none := by
  cases hp with
  | reused index rest g _ hg => exact find?_eq_none_of_vacant (g := g) (by rw [hs]; exact hg)
  | added index _ hsize =>
    have hn : t.slots[h'.slot.toNat]? = none := by simp [hs, hsize]
    rw [find?, hn]

theorem find?_of_ne (hp : Placed t file h t') {h' : Handle} (hne : h' ≠ h) :
    t'.find? h' = t.find? h' := by
  by_cases hs : h'.slot = h.slot
  · rw [hp.find?_slot hs]
    refine find?_of_generation_ne (s := ⟨h.generation, some file⟩) ?_ ?_
    · rw [hp.slots_eq, if_pos (by rw [hs])]
    · exact fun hg => hne (eq_of_slot_eq hs hg)
  · refine find?_congr ?_
    rw [hp.slots_eq, if_neg (fun hi => hs (UInt16.toNat_inj.mp hi))]

theorem find?_eq (hp : Placed t file h t') (h' : Handle) :
    t'.find? h' = if h' = h then some file else t.find? h' := by
  by_cases he : h' = h
  · rw [if_pos he, he, hp.find?_self]
  · rw [if_neg he, hp.find?_of_ne he]

theorem measure_eq (hp : Placed t file h t') (w : OpenFile → Nat) :
    measure w t'.slots = measure w t.slots + w file := by
  cases hp with
  | reused index rest g _ hg =>
    have hm := measure_set w ⟨g, some file⟩ hg
    simpa [weight] using hm
  | added index _ _ => simp [measure_push, weight]

theorem opened_eq (hp : Placed t file h t') : t'.opened = t.opened + 1 := by
  cases hp <;> rfl

theorem maxOpen_eq (hp : Placed t file h t') : t'.maxOpen = t.maxOpen := by
  cases hp <;> rfl

theorem generation_pos (ht : t.Sound) (hp : Placed t file h t') : 0 < h.generation.toNat := by
  cases hp with
  | reused index rest g _ hg => exact ht.generation_pos _ _ hg
  | added index _ _ => exact Nat.one_pos

theorem free_eq (hp : Placed t file h t') (ht : t.Sound) :
    h.slot ∉ t'.free ∧
      ∀ index, index ∈ t.free ↔ index = h.slot ∧ t.free ≠ [] ∨ index ∈ t'.free := by
  cases hp with
  | reused index rest g hfree _ =>
    have hn := ht.free_nodup
    rw [hfree] at hn ⊢
    exact ⟨(List.nodup_cons.mp hn).1, by simp⟩
  | added index hfree _ => simp [hfree]

theorem sound (hp : Placed t file h t') (ht : t.Sound) (hroom : t.opened < t.maxOpen) :
    t'.Sound where
  size_le := by
    cases hp with
    | reused index rest g _ _ => simpa using ht.size_le
    | added index _ hs =>
      have := index.toNat_lt
      simp only [Array.size_push, hs, slotLimit]
      omega
  generation_pos i s hs := by
    rw [hp.slots_eq] at hs
    split at hs
    · cases hs
      exact hp.generation_pos ht
    · exact ht.generation_pos i s hs
  free_nodup := by
    cases hp with
    | reused index rest g hfree _ => exact (List.nodup_cons.mp (hfree ▸ ht.free_nodup)).2
    | added index _ _ => exact List.nodup_nil
  free_vacant index hm := by
    obtain ⟨hnot, hfree⟩ := hp.free_eq ht
    have hne : index ≠ h.slot := fun he => hnot (he ▸ hm)
    rw [hp.slots_eq, if_neg (fun hi => hne (UInt16.toNat_inj.mp hi))]
    exact ht.free_vacant index ((hfree index).mpr (.inr hm))
  opened_eq := by rw [hp.opened_eq, hp.measure_eq, ht.opened_eq]
  opened_le := by rw [hp.opened_eq, hp.maxOpen_eq]; exact hroom

theorem not_issued (hp : Placed t file h t') : ¬ t.Issued h := by
  rintro ⟨s, hs, hpos, hgen⟩
  cases hp with
  | reused index rest g hfree hg =>
    rw [hg] at hs
    cases hs
    obtain hlt | ⟨-, hm⟩ := hgen
    · exact Nat.lt_irrefl _ hlt
    · exact hm (hfree ▸ List.mem_cons_self)
  | added index _ hsize => simp [hsize] at hs

theorem issued_iff (hp : Placed t file h t') (ht : t.Sound) (h' : Handle) :
    t'.Issued h' ↔ t.Issued h' ∨ h' = h := by
  obtain ⟨hnot, hfree⟩ := hp.free_eq ht
  -- In the slot of the new handle the generations decide; no other slot has changed.
  by_cases hs : h'.slot = h.slot
  · have hnew : t'.Issued h' ↔
        0 < h'.generation.toNat ∧ h'.generation.toNat ≤ h.generation.toNat := by
      simp only [Issued, hp.slots_eq, hs, if_pos, Option.some.injEq, exists_eq_left', hnot,
        not_false_eq_true, and_true, ← UInt16.toNat_inj]
      omega
    have hold : t.Issued h' ↔
        0 < h'.generation.toNat ∧ h'.generation.toNat < h.generation.toNat := by
      cases hp with
      | reused index rest g hhead hg => simp [Issued, hs, hg, hhead]
      | added index _ hsize =>
        simp [Issued, hs, hsize]
        omega
    have heq : h' = h ↔ h'.generation.toNat = h.generation.toNat :=
      ⟨fun he => he ▸ rfl, fun hg => eq_of_slot_eq hs (UInt16.toNat_inj.mp hg)⟩
    have hpos := hp.generation_pos ht
    rw [hnew, hold, heq]
    omega
  · have hi : h'.slot.toNat ≠ h.slot.toNat := fun hi => hs (UInt16.toNat_inj.mp hi)
    have hne : h' ≠ h := fun he => hs (he ▸ rfl)
    simp only [Issued, hp.slots_eq, if_neg hi, hfree h'.slot, hs, hne, false_and, false_or,
      or_false]

end Placed

section Replace

variable {t : FileTable} {h : Handle} {old : OpenFile}

theorem replace_slots (hf : t.find? h = some old) (file : OpenFile) (i : Nat) :
    (t.replace h file).slots[i]? =
      if i = h.slot.toNat then some ⟨h.generation, some file⟩ else t.slots[i]? :=
  getElem?_set _ (find?_eq_some.mp hf) i

theorem replace_find? (hf : t.find? h = some old) (file : OpenFile) (h' : Handle) :
    (t.replace h file).find? h' = if h' = h then some file else t.find? h' := by
  by_cases hs : h'.slot = h.slot
  · by_cases hg : h'.generation = h.generation
    · obtain rfl := eq_of_slot_eq hs hg
      rw [if_pos rfl, find?_eq_some, replace_slots hf, if_pos rfl]
    · rw [if_neg (by rintro rfl; exact hg rfl), find?_same_slot hf hs hg]
      refine find?_of_generation_ne (s := ⟨h.generation, some file⟩) ?_ hg
      rw [replace_slots hf, if_pos (by rw [hs])]
  · rw [if_neg (by rintro rfl; exact hs rfl)]
    refine find?_congr ?_
    rw [replace_slots hf, if_neg (fun hi => hs (UInt16.toNat_inj.mp hi))]

theorem replace_find?_self (hf : t.find? h = some old) (file : OpenFile) :
    (t.replace h file).find? h = some file :=
  (replace_find? hf file h).trans (if_pos rfl)

theorem replace_replace (t : FileTable) (h : Handle) (first second : OpenFile) :
    (t.replace h first).replace h second = t.replace h second := by
  simp only [replace, Array.setIfInBounds_setIfInBounds]

theorem replace_measure (hf : t.find? h = some old) (file : OpenFile) (w : OpenFile → Nat) :
    measure w (t.replace h file).slots + w old = measure w t.slots + w file :=
  measure_set w ⟨h.generation, some file⟩ (find?_eq_some.mp hf)

theorem replace_issued (hf : t.find? h = some old) (file : OpenFile) (h' : Handle) :
    (t.replace h file).Issued h' ↔ t.Issued h' := by
  rw [Issued, Issued]
  by_cases hi : h'.slot.toNat = h.slot.toNat
  · rw [replace_slots hf, if_pos hi, hi, find?_eq_some.mp hf]
    simp [replace]
  · rw [replace_slots hf, if_neg hi]
    rfl

theorem Sound.replace (ht : t.Sound) (hf : t.find? h = some old) (file : OpenFile) :
    (t.replace h file).Sound where
  size_le := by simpa [FileTable.replace] using ht.size_le
  generation_pos i s hs := by
    rw [replace_slots hf] at hs
    split at hs
    · cases hs
      have hpos := ht.generation_pos _ _ (find?_eq_some.mp hf)
      exact hpos
    · exact ht.generation_pos i s hs
  free_nodup := ht.free_nodup
  free_vacant index hm := by
    have hne : index.toNat ≠ h.slot.toNat :=
      fun hi => ht.slot_not_free hf (UInt16.toNat_inj.mp hi ▸ hm)
    rw [replace_slots hf, if_neg hne]
    exact ht.free_vacant index hm
  opened_eq := by
    have hm := replace_measure hf file (fun _ => 1)
    have ho := ht.opened_eq
    have : (t.replace h file).opened = t.opened := rfl
    omega
  opened_le := ht.opened_le

theorem replace_self (hf : t.find? h = some old) : t.replace h old = t := by
  have hs : t.slots.setIfInBounds h.slot.toNat ⟨h.generation, some old⟩ = t.slots := by
    apply Array.ext_getElem?
    intro i
    rw [getElem?_set _ (find?_eq_some.mp hf)]
    split
    · next hi => rw [hi, find?_eq_some.mp hf]
    · rfl
  rw [FileTable.replace, hs]

end Replace

section Vacate

variable {t : FileTable} {h : Handle} {file : OpenFile}

def nextGeneration (g : UInt16) : UInt16 :=
  if g = lastGeneration then g else g + 1

theorem toNat_nextGeneration {g : UInt16} (hg : g ≠ lastGeneration) :
    (nextGeneration g).toNat = g.toNat + 1 := by
  have hlt := g.toNat_lt
  have hne : g.toNat ≠ 65535 := fun he => hg (UInt16.toNat_inj.mp he)
  have hfits : g.toNat + (1 : UInt16).toNat < 2 ^ 16 := by
    change g.toNat + 1 < 65536
    omega
  rw [nextGeneration, if_neg hg, UInt16.toNat_add]
  exact Nat.mod_eq_of_lt hfits

theorem le_nextGeneration (g : UInt16) : g.toNat ≤ (nextGeneration g).toNat := by
  by_cases hg : g = lastGeneration
  · have hsame : nextGeneration g = g := if_pos hg
    exact Nat.le_of_eq (congrArg UInt16.toNat hsame.symm)
  · rw [toNat_nextGeneration hg]
    exact Nat.le_succ _

theorem vacate_eq (t : FileTable) (h : Handle) :
    t.vacate h =
      ⟨t.slots.setIfInBounds h.slot.toNat ⟨nextGeneration h.generation, none⟩,
        if h.generation = lastGeneration then t.free else h.slot :: t.free, t.maxOpen,
        t.opened - 1⟩ := by
  rw [vacate, nextGeneration]
  split <;> rfl

theorem vacate_free (t : FileTable) (h : Handle) :
    (t.vacate h).free = if h.generation = lastGeneration then t.free else h.slot :: t.free := by
  rw [vacate_eq]

theorem vacate_slots (hf : t.find? h = some file) (i : Nat) :
    (t.vacate h).slots[i]? =
      if i = h.slot.toNat then some ⟨nextGeneration h.generation, none⟩ else t.slots[i]? := by
  rw [vacate_eq]
  exact getElem?_set _ (find?_eq_some.mp hf) i

theorem vacate_find? (hf : t.find? h = some file) (h' : Handle) :
    (t.vacate h).find? h' = if h' = h then none else t.find? h' := by
  by_cases hs : h'.slot = h.slot
  · have hnone : (t.vacate h).find? h' = none := by
      refine find?_eq_none_of_vacant (g := nextGeneration h.generation) ?_
      rw [vacate_slots hf, if_pos (by rw [hs])]
    rw [hnone]
    split
    · rfl
    · next hne =>
      have hg : h'.generation ≠ h.generation := fun hg => hne (eq_of_slot_eq hs hg)
      rw [find?_same_slot hf hs hg]
  · rw [if_neg (by rintro rfl; exact hs rfl)]
    refine find?_congr ?_
    rw [vacate_slots hf, if_neg (fun hi => hs (UInt16.toNat_inj.mp hi))]

theorem vacate_measure (hf : t.find? h = some file) (w : OpenFile → Nat) :
    measure w (t.vacate h).slots + w file = measure w t.slots := by
  rw [vacate_eq]
  exact measure_set w ⟨nextGeneration h.generation, none⟩ (find?_eq_some.mp hf)

theorem Sound.vacate_issued (ht : t.Sound) (hf : t.find? h = some file) (h' : Handle) :
    (t.vacate h).Issued h' ↔ t.Issued h' := by
  have hfree := ht.slot_not_free hf
  rw [Issued, Issued]
  by_cases hi : h'.slot.toNat = h.slot.toNat
  · have hs : h'.slot = h.slot := UInt16.toNat_inj.mp hi
    rw [vacate_slots hf, if_pos hi, hi, find?_eq_some.mp hf, vacate_free, hs]
    by_cases hg : h.generation = lastGeneration
    · simp [hg, nextGeneration]
    · have hnext := toNat_nextGeneration hg
      rw [if_neg hg]
      simp only [Option.some.injEq, exists_eq_left', List.mem_cons, not_true_eq_false, and_false,
        or_false, hfree, not_false_eq_true, and_true, ← UInt16.toNat_inj]
      omega
  · have hs : h'.slot ≠ h.slot := fun he => hi (he ▸ rfl)
    rw [vacate_slots hf, if_neg hi, vacate_free]
    by_cases hg : h.generation = lastGeneration
    · simp [hg]
    · simp [hg, hs]

theorem Sound.vacate_opened (ht : t.Sound) (hf : t.find? h = some file) :
    (t.vacate h).opened + 1 = t.opened := by
  have hm := vacate_measure hf (fun _ => 1)
  have ho := ht.opened_eq
  have hv : (t.vacate h).opened = t.opened - 1 := by rw [vacate_eq]
  omega

theorem Sound.vacate (ht : t.Sound) (hf : t.find? h = some file) : (t.vacate h).Sound where
  size_le := by
    rw [vacate_eq]
    simpa using ht.size_le
  generation_pos i s hs := by
    rw [vacate_slots hf] at hs
    split at hs
    · cases hs
      exact Nat.lt_of_lt_of_le (ht.generation_pos _ _ (find?_eq_some.mp hf)) (le_nextGeneration _)
    · exact ht.generation_pos i s hs
  free_nodup := by
    rw [vacate_free]
    split
    · exact ht.free_nodup
    · exact List.nodup_cons.mpr ⟨ht.slot_not_free hf, ht.free_nodup⟩
  free_vacant index hm := by
    rw [vacate_slots hf]
    split
    · exact ⟨_, rfl⟩
    · next hne =>
      have hold : index ∈ t.free := by
        rw [vacate_free] at hm
        split at hm
        · exact hm
        · exact (List.mem_cons.mp hm).resolve_left (fun he => hne (he ▸ rfl))
      exact ht.free_vacant index hold
  opened_eq := by
    have hm := vacate_measure hf (fun _ => 1)
    have ho := ht.opened_eq
    have hv := ht.vacate_opened hf
    omega
  opened_le := by
    have hle := ht.opened_le
    rw [vacate_eq]
    exact Nat.le_trans (Nat.sub_le _ _) hle

end Vacate

end Enclave.FileTable
