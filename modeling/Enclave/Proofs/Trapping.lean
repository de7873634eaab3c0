import Enclave.Proofs.Accounting
import Enclave.Proofs.Fit

namespace Enclave

namespace Checked

def add (m n : Nat) : Option Nat :=
  if m + n < wordLimit then some (m + n) else none

def sub (m n : Nat) : Option Nat :=
  if n ≤ m then some (m - n) else none

def div (m n : Nat) : Option Nat :=
  if n = 0 then none else some (m / n)

/-- The bytes of a region from `start` up to `stop`; a slice that is out of bounds traps. -/
def slice (region : Bytes) (start stop : Nat) : Option Bytes :=
  if start ≤ stop ∧ stop ≤ region.length then some ((region.take stop).drop start) else none

def splice (region : Bytes) (start stop : Nat) (data : Bytes) : Option Bytes :=
  if start ≤ stop ∧ stop ≤ region.length ∧ data.length = stop - start then
    some (region.take start ++ data ++ region.drop stop)
  else none

theorem add_of_lt {m n : Nat} (h : m + n < wordLimit) : add m n = some (m + n) :=
  if_pos h

theorem sub_of_le {m n : Nat} (h : n ≤ m) : sub m n = some (m - n) :=
  if_pos h

theorem div_of_ne_zero {m n : Nat} (h : n ≠ 0) : div m n = some (m / n) :=
  if_neg h

theorem slice_append {data rest : Bytes} {start n : Nat} (h : start + n ≤ data.length) :
    slice (data ++ rest) start (start + n) = some ((data.drop start).take n) := by
  have hle : start + n ≤ (data ++ rest).length := by
    rw [List.length_append]
    exact Nat.le_add_right_of_le h
  rw [slice, if_pos ⟨Nat.le_add_right _ _, hle⟩, List.take_append_of_le_length h, List.drop_take,
    Nat.add_sub_cancel_left]

theorem slice_front (data rest : Bytes) : slice (data ++ rest) 0 data.length = some data := by
  have hs : slice (data ++ rest) 0 (0 + data.length) = some ((data.drop 0).take data.length) :=
    slice_append (Nat.le_of_eq (Nat.zero_add _))
  rwa [Nat.zero_add, List.drop_zero, List.take_length] at hs

theorem splice_of_le {region data : Bytes} {start : Nat}
    (h : start + data.length ≤ region.length) :
    splice region start (start + data.length) data =
      some (region.take start ++ data ++ region.drop (start + data.length)) :=
  if_pos ⟨Nat.le_add_right _ _, h, (Nat.add_sub_cancel_left _ _).symm⟩

theorem splice_front {region data : Bytes} (h : data.length ≤ region.length) :
    splice region 0 data.length data = some (data ++ region.drop data.length) := by
  have hz : 0 + data.length ≤ region.length := Nat.le_trans (Nat.le_of_eq (Nat.zero_add _)) h
  have hs := splice_of_le hz
  rwa [Nat.zero_add, List.take_zero, List.nil_append] at hs

end Checked

namespace Buffer

variable (grant : Nat → Bool)

def region (b : Buffer) : Bytes :=
  (b.content ++ List.replicate (b.capacity - b.size) 0).take b.capacity

def contents? (b : Buffer) : Option Bytes :=
  Checked.slice b.region 0 b.size

def ofBytes? (bytes : Bytes) (growth : Growth) (budget : Budget) :
    Option (Outcome Budget Buffer) :=
  match empty grant (max growth.least bytes.length) growth budget with
  | ⟨.error e, budget'⟩ => some ⟨.error e, budget'⟩
  | ⟨.ok b, budget'⟩ => do
    let region ← Checked.splice b.region 0 bytes.length bytes
    let content ← Checked.slice region 0 bytes.length
    return ⟨.ok { b with content }, budget'⟩

def read? (b : Buffer) (offset : Nat) (out : Bytes) : Option (Nat × Bytes) :=
  if b.size ≤ offset then some (0, out)
  else do
    let left ← Checked.sub b.size offset
    let count := min out.length left
    let stop ← Checked.add offset count
    let part ← Checked.slice b.region offset stop
    let out ← Checked.splice out 0 count part
    return (count, out)

def write? (b : Buffer) (offset : Nat) (data : Bytes) (budget : Budget) :
    Option (Outcome (Buffer × Budget) Nat) :=
  let finish := offset + data.length
  if wordLimit ≤ finish then some ⟨.error (.outOfMemory largestWord), b, budget⟩
  else
    match (if b.capacity < finish then b.makeRoom grant finish budget else ⟨.ok (), b, budget⟩) with
    | ⟨.error e, b', budget'⟩ => some ⟨.error e, b', budget'⟩
    | ⟨.ok (), b', budget'⟩ => do
      let region ← Checked.splice b'.region offset finish data
      let content ← Checked.slice region 0 (max b'.size finish)
      return ⟨.ok data.length, { b' with content }, budget'⟩

variable {b : Buffer}

theorem region_of_le (h : b.size ≤ b.capacity) :
    b.region = b.content ++ List.replicate (b.capacity - b.size) 0 := by
  refine List.take_of_length_le ?_
  rw [List.length_append, List.length_replicate]
  exact Nat.le_of_eq (Nat.add_sub_cancel' h)

theorem length_region (h : b.size ≤ b.capacity) : b.region.length = b.capacity := by
  rw [region_of_le h, List.length_append, List.length_replicate]
  exact Nat.add_sub_cancel' h

/-- A region that `b` may be kept in: as long as its capacity, with its content in front. What lies
beyond the content may be anything. -/
structure KeptIn (b : Buffer) (region : Bytes) : Prop where
  front : ∃ rest, region = b.content ++ rest
  length_eq : region.length = b.capacity

theorem region_keeps (h : b.size ≤ b.capacity) : b.KeptIn b.region :=
  ⟨⟨_, region_of_le h⟩, length_region h⟩

namespace KeptIn

variable {region : Bytes} (hk : b.KeptIn region)
include hk

theorem contents : Checked.slice region 0 b.size = some b.content := by
  obtain ⟨⟨rest, rfl⟩, -⟩ := hk
  exact Checked.slice_front _ _

theorem slice {start n : Nat} (h : start + n ≤ b.size) :
    Checked.slice region start (start + n) = some ((b.content.drop start).take n) := by
  obtain ⟨⟨rest, rfl⟩, -⟩ := hk
  exact Checked.slice_append h

theorem splice {offset : Nat} {data : Bytes} (hoff : offset ≤ b.size)
    (hend : offset + data.length ≤ b.capacity) :
    ∃ region', Checked.splice region offset (offset + data.length) data = some region' ∧
      KeptIn { b with content := overlay b.content data offset } region' := by
  obtain ⟨⟨rest, rfl⟩, hlen⟩ := hk
  refine ⟨_, Checked.splice_of_le (hlen ▸ hend), ?_, ?_⟩
  · refine ⟨rest.drop (offset + data.length - b.size), ?_⟩
    rw [List.take_append_of_le_length hoff, List.drop_append, overlay_of_le hoff,
      List.append_assoc _ (b.content.drop _)]
    rfl
  · simp only [List.length_append, List.length_take, List.length_drop] at hlen ⊢
    omega

end KeptIn

theorem contents?_eq (h : b.size ≤ b.capacity) : b.contents? = some b.content :=
  (region_keeps h).contents

/-- A buffer with more content than capacity has no region for it. -/
example : (⟨[1, 2], 1, {}⟩ : Buffer).contents? = none := by decide

theorem ofBytes?_eq (bytes : Bytes) (growth : Growth) (budget : Budget) :
    ofBytes? grant bytes growth budget = some (ofBytes grant bytes growth budget) := by
  rw [ofBytes?, ofBytes, empty_eq]
  by_cases h : max growth.least bytes.length = 0 ∨
      budget.Admits (max growth.least bytes.length) ∧ grant (max growth.least bytes.length)
  · have hroom : bytes.length ≤
        (⟨[], max growth.least bytes.length, growth⟩ : Buffer).region.length := by
      rw [length_region (Nat.zero_le _)]
      exact Nat.le_max_right _ _
    rw [if_pos h]
    simp only [Checked.splice_front hroom, Checked.slice_front, Option.bind_eq_bind,
      Option.bind_some, Option.pure_def]
  · rw [if_neg h]

theorem read?_eq (hsize : b.size ≤ b.capacity) (hword : b.capacity < wordLimit) (offset : Nat)
    (out : Bytes) : b.read? offset out = some (b.read offset out) := by
  rw [read?, read]
  by_cases hend : b.size ≤ offset
  · have hdrop : b.content.drop offset = [] := List.drop_of_length_le hend
    rw [if_pos hend, hdrop, List.take_nil]
    rfl
  · have hlen : ((b.content.drop offset).take out.length).length =
        min out.length (b.size - offset) := by
      rw [List.length_take, List.length_drop, size]
    -- What is copied ends within the content, so that no slice is out of bounds.
    generalize hc : min out.length (b.size - offset) = count at hlen
    have hcount : offset + count ≤ b.size := by omega
    have hpart : (b.content.drop offset).take count = (b.content.drop offset).take out.length := by
      rw [List.take_eq_take_iff, List.length_drop, ← hc, size]
      omega
    have hslice : Checked.slice b.region offset (offset + count) =
        some ((b.content.drop offset).take out.length) := by
      rw [(region_keeps hsize).slice hcount, hpart]
    have hfits : ((b.content.drop offset).take out.length).length ≤ out.length :=
      List.length_take_le _ _
    have hsplice := Checked.splice_front hfits
    rw [hlen] at hsplice
    simp only [if_neg hend, Checked.sub_of_le (show offset ≤ b.size by omega), hc,
      Checked.add_of_lt (show offset + count < wordLimit by omega), hslice, hsplice, hlen,
      Option.bind_eq_bind, Option.bind_some, Option.pure_def]

theorem makeRoom_of_ok {required : Nat} {budget budget' : Budget} {b' : Buffer}
    (h : (if b.capacity < required then b.makeRoom grant required budget
      else ⟨.ok (), b, budget⟩) = ⟨.ok (), b', budget'⟩) :
    b'.content = b.content ∧ b.capacity ≤ b'.capacity ∧ required ≤ b'.capacity := by
  by_cases hc : b.capacity < required
  · rw [if_pos hc, makeRoom] at h
    generalize budget.extend grant b.capacity (b.growth.capacityFor b.capacity required) =
      extended at h
    obtain ⟨_ | _, _⟩ := extended
    · cases h
    · cases h
      exact ⟨rfl, b.growth.le_capacityFor _ _, b.growth.required_le_capacityFor _ _⟩
  · rw [if_neg hc] at h
    cases h
    exact ⟨rfl, Nat.le_refl _, Nat.le_of_not_lt hc⟩

theorem write?_eq {offset : Nat} (hoff : offset ≤ b.size) (hsize : b.size ≤ b.capacity)
    (data : Bytes) (budget : Budget) :
    b.write? grant offset data budget = some (b.write grant offset data budget) := by
  simp only [write?, write]
  by_cases hw : wordLimit ≤ offset + data.length
  · rw [if_pos hw, if_pos hw]
  · rw [if_neg hw, if_neg hw]
    generalize hroom : (if b.capacity < offset + data.length then
      b.makeRoom grant (offset + data.length) budget else ⟨.ok (), b, budget⟩) = room
    obtain ⟨_ | _, b', budget'⟩ := room
    · rfl
    · -- Room was made, so the data ends within the region.
      obtain ⟨hcontent, hcap, hend⟩ := makeRoom_of_ok grant hroom
      have hsame : b'.size = b.size := congrArg List.length hcontent
      have hlen : (overlay b'.content data offset).length = max b'.size (offset + data.length) :=
        length_overlay _ _ _
      have hsize' : b'.size ≤ b'.capacity := hsame ▸ Nat.le_trans hsize hcap
      obtain ⟨region, hsplice, hkept⟩ := (region_keeps hsize').splice (hsame ▸ hoff) hend
      have hslice : Checked.slice region 0 (max b'.size (offset + data.length)) =
          some (overlay b'.content data offset) := by
        rw [← hlen]
        exact hkept.contents
      simp only [hsplice, hslice, Option.bind_eq_bind, Option.bind_some, Option.pure_def]

end Buffer

namespace OpenFile

def read? (f : OpenFile) (out : Bytes) : Option (Nat × Bytes × OpenFile) := do
  let (count, out) ← f.buffer.read? f.position out
  let position ← Checked.add f.position count
  return (count, out, { f with position })

def write? (f : OpenFile) (grant : Nat → Bool) (data : Bytes) (budget : Budget) :
    Option (Outcome (OpenFile × Budget) Nat) := do
  match ← f.buffer.write? grant f.position data budget with
  | ⟨.error e, buffer, budget⟩ => return ⟨.error e, { f with buffer }, budget⟩
  | ⟨.ok count, buffer, budget⟩ =>
    let position ← Checked.add f.position count
    return ⟨.ok count, { f with buffer, position }, budget⟩

variable {f : OpenFile} {l : Limits}

theorem Fit.read?_eq (h : f.Fit l) (hword : f.buffer.capacity < wordLimit) (out : Bytes) :
    f.read? out = some (f.read out) := by
  have hlen : (f.ahead out.length).length ≤ f.size - f.position := by
    rw [length_ahead]
    exact Nat.min_le_right _ _
  have hend : f.position + (f.ahead out.length).length < wordLimit := by
    have hp := h.position_le
    have hs := h.size_le
    omega
  have hadd := Checked.add_of_lt hend
  rw [read?, Buffer.read?_eq h.size_le hword]
  rw [ahead, contents] at hadd
  simp only [Buffer.read, hadd, Option.bind_eq_bind, Option.bind_some]
  rfl

theorem Fit.write?_eq (h : f.Fit l) (grant : Nat → Bool) (data : Bytes) (budget : Budget) :
    f.write? grant data budget = some (f.write grant data budget) := by
  rw [write?, Buffer.write?_eq grant h.position_le h.size_le, write_eq, Buffer.write_eq]
  by_cases hfit : f.buffer.Fits grant f.position data budget
  · simp only [if_pos hfit, Option.bind_eq_bind, Option.bind_some, Checked.add_of_lt hfit.1]
    rfl
  · simp only [if_neg hfit, Option.bind_eq_bind, Option.bind_some]
    rfl

end OpenFile

namespace FileTable

def insert? (t : FileTable) (file : OpenFile) : Option (Outcome FileTable Handle) :=
  match t.ensureRoom, t with
  | .error e, t => some ⟨.error e, t⟩
  | .ok (), ⟨slots, index :: free, maxOpen, opened⟩ => do
    let slot ← slots[index.toNat]?
    let opened ← Checked.add opened 1
    return ⟨.ok ⟨index, slot.generation⟩,
      ⟨slots.setIfInBounds index.toNat { slot with file := some file }, free, maxOpen, opened⟩⟩
  | .ok (), ⟨slots, [], maxOpen, opened⟩ =>
    if slots.size < slotLimit then do
      let index := UInt16.ofNat slots.size
      let slots := slots.push ⟨1, none⟩
      let slot ← slots[index.toNat]?
      let opened ← Checked.add opened 1
      return ⟨.ok ⟨index, slot.generation⟩,
        ⟨slots.setIfInBounds index.toNat { slot with file := some file }, [], maxOpen, opened⟩⟩
    else some ⟨.error (.capacityExhausted .openFiles maxOpen), ⟨slots, [], maxOpen, opened⟩⟩

def vacate? (t : FileTable) (h : Handle) : Option FileTable := do
  let opened ← Checked.sub t.opened 1
  return { t.vacate h with opened }

variable {t : FileTable}

theorem Sound.insert?_eq (ht : t.Sound) (hmost : t.maxOpen < wordLimit) (file : OpenFile) :
    t.insert? file = some (t.insert file) := by
  have hvacant := ht.free_vacant
  obtain ⟨slots, free, maxOpen, opened⟩ := t
  by_cases hr : maxOpen ≤ opened
  · simp [insert?, insert, ensureRoom, hr]
  have hone : Checked.add opened 1 = some (opened + 1) :=
    Checked.add_of_lt (Nat.lt_of_le_of_lt (Nat.lt_of_not_le hr) hmost)
  cases free with
  | cons index rest =>
    obtain ⟨g, hg⟩ := hvacant index List.mem_cons_self
    simp [insert?, insert, ensureRoom, hr, hone, generationAt, hg]
  | nil =>
    by_cases hs : slots.size < slotLimit
    · have hi : (UInt16.ofNat slots.size).toNat = slots.size := by
        rw [UInt16.toNat_ofNat', Nat.mod_eq_of_lt (by exact hs)]
      have hset : (slots.push ⟨1, none⟩).setIfInBounds slots.size ⟨1, some file⟩ =
          slots.push ⟨1, some file⟩ := by grind
      simp [insert?, insert, ensureRoom, hr, hone, hs, hi, hset]
    · simp [insert?, insert, ensureRoom, hr, hs]

theorem Sound.vacate?_eq (ht : t.Sound) {h : Handle} {file : OpenFile}
    (hf : t.find? h = some file) : t.vacate? h = some (t.vacate h) := by
  have hv := ht.vacate_opened hf
  have hsub : Checked.sub t.opened 1 = some (t.opened - 1) := Checked.sub_of_le (by omega)
  simp only [vacate?, hsub, Option.bind_eq_bind, Option.bind_some, Option.pure_def, vacate_eq]

end FileTable

end Enclave
