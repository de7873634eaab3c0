import Enclave.Proofs.Safety

namespace Enclave

namespace Limits

variable {l : Limits}

structure Allows (l : Limits) (name : String) : Prop where
  nonempty : name ≠ ""
  length_le : name.utf8ByteSize ≤ l.maxNameLength
  nulFree : Char.ofNat 0 ∉ name.toList

/-- A total is a word, and within the memory limit if there is one. -/
def Covers (l : Limits) (total : Nat) : Prop :=
  total < wordLimit ∧ ∀ limit, l.memoryLimit = some limit → total ≤ limit

instance (l : Limits) (total : Nat) : Decidable (l.Covers total) :=
  inferInstanceAs (Decidable (_ ∧ ∀ limit ∈ l.memoryLimit, total ≤ limit))

theorem allows_iff {name : String} : l.checkName name = .ok () ↔ l.Allows name := by
  rw [checkName_eq_ok, ne_eq, String.utf8ByteSize_eq_zero_iff]
  exact ⟨fun ⟨hn, hl, hf⟩ => ⟨hn, hl, hf⟩, fun h => ⟨h.nonempty, h.length_le, h.nulFree⟩⟩

end Limits

namespace FileTable

/-- A slot waits to be taken again, or one has never been issued. -/
def HasSlot (t : FileTable) : Prop :=
  t.free ≠ [] ∨ t.slots.size < slotLimit

theorem HasSlot.not_full {t : FileTable} (hs : t.HasSlot) :
    ¬ (t.free = [] ∧ t.slots.size = slotLimit) := by
  rintro ⟨hfree, hsize⟩
  obtain hs | hs := hs
  · exact hs hfree
  · exact Nat.ne_of_lt hs hsize

theorem Sound.insert_ok {t : FileTable} (ht : t.Sound) (hs : t.HasSlot)
    (hroom : t.opened < t.maxOpen) (file : OpenFile) :
    ∃ h, (t.insert file).result = .ok h := by
  obtain ⟨h, t', hi, -⟩ | ⟨-, hfull⟩ := ht.insert_cases file
  · exact ⟨h, by rw [hi]⟩
  · exact absurd (hfull.resolve_left (Nat.not_le_of_lt hroom)) hs.not_full

end FileTable

namespace Volume

structure Obeys (v : Volume) (l : Limits) : Prop where
  safe : v.Safe
  limits_eq : v.limits = l
  maxEntries_eq : v.archive.maxEntries = l.maxEntries
  memoryLimit_eq : v.budget.limit = l.memoryLimit

variable {v v' : Volume} {l : Limits} {cs : List Change} (grant : Allocator)

theorem after_obeys (l : Limits) (steps : List (Allocator × Request)) :
    ((ofLimits l).after steps).Obeys l := by
  obtain ⟨hl, he, hm⟩ := after_limits (ofLimits_sound l) steps
  exact ⟨after_safe (ofLimits_safe l) steps, hl, he, hm⟩

theorem Leads.obeys (hl : Leads v cs v') (hv : v.Obeys l) : v'.Obeys l := by
  obtain ⟨h, he, hm⟩ := hl.limits
  exact ⟨hl.safe hv.safe, h.trans hv.limits_eq, he.trans hv.maxEntries_eq,
    hm.trans hv.memoryLimit_eq⟩

namespace Obeys

theorem sound (hv : v.Obeys l) : v.Sound :=
  hv.safe.sound

theorem admits_iff (hv : v.Obeys l) {n : Nat} : v.budget.Admits n ↔ l.Covers (v.used + n) := by
  rw [Budget.admits_iff, hv.memoryLimit_eq]
  rfl

theorem covers_used (hv : v.Obeys l) : l.Covers v.used := by
  obtain ⟨-, stray, ha⟩ := hv.safe.solvent
  have hnothing : v.budget.Admits 0 := ha.within
  exact hv.admits_iff.mp hnothing

theorem fits_iff (hv : v.Obeys l) (b : Buffer) (offset : Nat) (data : Bytes) :
    b.Fits (grant .growth) offset data v.budget ↔
      offset + data.length < wordLimit ∧
        l.Covers (v.used + (b.capacityAfter offset data - b.capacity)) ∧
        (b.capacity < b.capacityAfter offset data →
          grant .growth (b.capacityAfter offset data)) := by
  rw [Buffer.Fits, hv.admits_iff]
  by_cases hle : b.capacityAfter offset data ≤ b.capacity
  · simp [hle, Nat.not_lt_of_le hle, hv.covers_used]
  · simp [hle, Nat.lt_of_not_le hle]

theorem maxOpen_eq (hv : v.Obeys l) (hl : l.check = .ok ()) : v.files.maxOpen = l.maxOpen := by
  rw [hv.safe.fit.maxOpen_eq, hv.limits_eq]
  exact Nat.min_eq_left (Limits.check_eq_ok.mp hl).2.1

end Obeys

structure Openable (v : Volume) (l : Limits) (name : String) (mode : Mode) : Prop where
  allowed : l.Allows name
  room : v.opened < l.maxOpen
  found : mode.needsEntry → (v.source name mode).isSome
  memory : l.Covers (v.used + v.startCapacity (v.source name mode))
  nameRegion : grant .openName name.utf8ByteSize
  bufferRegion : grant .openBuffer (v.startCapacity (v.source name mode))

theorem prepare_ok_iff (hv : v.Obeys l) (hl : l.check = .ok ()) (name : String) (mode : Mode) :
    (∃ file, (v.prepare grant name mode).result = .ok file) ↔
      v.Openable grant l name mode := by
  -- No file starts without room, so the region of its buffer is always asked for.
  have hpos : v.startCapacity (v.source name mode) ≠ 0 := by
    have hinitial := (Limits.check_eq_ok.mp hl).2.2.2.2
    rw [startCapacity, hv.limits_eq]
    omega
  rw [prepare_eq]
  constructor
  · rintro ⟨file, hfile⟩
    cases hc : v.checkOpen name mode with
    | error e => simp [hc] at hfile
    | ok stored =>
      obtain ⟨hname, hroom, hfound, rfl⟩ := checkOpen_eq_ok.mp hc
      rw [hv.limits_eq, Limits.allows_iff] at hname
      rw [hv.maxOpen_eq hl] at hroom
      simp only [hc, hpos, false_or, String.utf8ByteSize_eq_zero_iff, hname.nonempty] at hfile
      split at hfile
      · next hcopied =>
        split at hfile
        · next hpaid => exact ⟨hname, hroom, hfound, hv.admits_iff.mp hpaid.1, hcopied, hpaid.2⟩
        · cases hfile
      · cases hfile
  · intro ho
    have hc : v.checkOpen name mode = .ok (v.source name mode) := by
      rw [checkOpen_eq_ok, hv.limits_eq, Limits.allows_iff, hv.maxOpen_eq hl]
      exact ⟨ho.allowed, ho.room, ho.found, rfl⟩
    refine ⟨v.startFile name mode (v.source name mode), ?_⟩
    simp only [hc]
    rw [if_pos (.inr ho.nameRegion),
      if_pos (.inr ⟨hv.admits_iff.mpr ho.memory, ho.bufferRegion⟩)]

/-- Where a slot is left, an open fails and changes nothing, or succeeds and places a file. -/
theorem openAs_of_hasSlot (hv : v.Obeys l) (hl : l.check = .ok ()) (hs : v.files.HasSlot)
    (name : String) (mode : Mode) :
    (¬ v.Openable grant l name mode ∧
      ∃ e, v.openAs grant name mode = ⟨.error e, v, [.openFailed name e]⟩) ∨
    v.Openable grant l name mode ∧
      ∃ h v', v.openAs grant name mode = ⟨.ok h, v', [.opened name mode h]⟩ ∧
        Makes v (.placed h (v.startFile name mode (v.source name mode))) v' := by
  have hprepare := prepare_ok_iff grant hv hl name mode
  obtain ⟨h, stored, v', ho, hc, hm, -⟩ | ⟨e, ho, -⟩ | ⟨n, v', -, -, -, -, hfull⟩ :=
    openAs_cases grant hv.sound name mode
  · obtain ⟨-, -, -, rfl⟩ := checkOpen_eq_ok.mp hc
    refine .inr ⟨hprepare.mp ?_, h, v', ho, hm⟩
    rw [openAs, tryOpen] at ho
    generalize v.prepare grant name mode = prepared at ho ⊢
    obtain ⟨_ | file, budget⟩ := prepared
    · cases ho
    · exact ⟨file, rfl⟩
  · refine .inl ⟨fun hopen => ?_, e, ho⟩
    -- What is prepared is placed, since there is room for it in the table.
    obtain ⟨file, hfile⟩ := hprepare.mpr hopen
    have hroom : v.files.opened < v.files.maxOpen := hv.maxOpen_eq hl ▸ hopen.room
    obtain ⟨h, hplaced⟩ := hv.sound.files.insert_ok hs hroom file
    rw [openAs, tryOpen] at ho
    generalize v.prepare grant name mode = prepared at hfile ho
    obtain ⟨result, budget⟩ := prepared
    obtain rfl : result = .ok file := hfile
    dsimp only at ho
    rw [hplaced] at ho
    cases ho
  · exact absurd hfull hs.not_full

end Volume

end Enclave
