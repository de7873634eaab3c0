import Enclave.Proofs.Trapping

namespace Enclave

/-- A buffer as a machine keeps it: a region of the whole capacity, with the content in front. -/
structure Storage where
  region : Bytes
  size : Nat
  growth : Growth

namespace Storage

variable (grant : Nat → Bool) (s : Storage)

def capacity (s : Storage) : Nat :=
  s.region.length

def empty (capacity : Nat) (growth : Growth) (budget : Budget) : Outcome Budget Storage :=
  match budget.allocate grant capacity with
  | ⟨.error e, budget'⟩ => ⟨.error e, budget'⟩
  | ⟨.ok region, budget'⟩ => ⟨.ok ⟨region, 0, growth⟩, budget'⟩

def zeros (size : Nat) (growth : Growth) (budget : Budget) : Outcome Budget Storage :=
  match empty grant size growth budget with
  | ⟨.error e, budget'⟩ => ⟨.error e, budget'⟩
  | ⟨.ok s, budget'⟩ => ⟨.ok { s with size }, budget'⟩

def ofBytes? (bytes : Bytes) (growth : Growth) (budget : Budget) :
    Option (Outcome Budget Storage) :=
  match empty grant (max growth.least bytes.length) growth budget with
  | ⟨.error e, budget'⟩ => some ⟨.error e, budget'⟩
  | ⟨.ok s, budget'⟩ => do
    let region ← Checked.splice s.region 0 bytes.length bytes
    return ⟨.ok { s with region, size := bytes.length }, budget'⟩

def content? : Option Bytes :=
  Checked.slice s.region 0 s.size

def makeRoom (required : Nat) (budget : Budget) : Outcome (Storage × Budget) Unit :=
  match budget.lengthen grant s.region (s.growth.capacityFor s.capacity required) with
  | ⟨result, region, budget'⟩ => ⟨result, { s with region }, budget'⟩

def read? (offset : Nat) (out : Bytes) : Option (Nat × Bytes) :=
  if s.size ≤ offset then some (0, out)
  else do
    let left ← Checked.sub s.size offset
    let count := min out.length left
    let stop ← Checked.add offset count
    let part ← Checked.slice s.region offset stop
    let out ← Checked.splice out 0 count part
    return (count, out)

def write? (offset : Nat) (data : Bytes) (budget : Budget) :
    Option (Outcome (Storage × Budget) Nat) :=
  let finish := offset + data.length
  if wordLimit ≤ finish then some ⟨.error (.outOfMemory largestWord), s, budget⟩
  else
    match (if s.capacity < finish then s.makeRoom grant finish budget else ⟨.ok (), s, budget⟩) with
    | ⟨.error e, s', budget'⟩ => some ⟨.error e, s', budget'⟩
    | ⟨.ok (), s', budget'⟩ => do
      let region ← Checked.splice s'.region offset finish data
      return ⟨.ok data.length, { s' with region, size := max s'.size finish }, budget'⟩

end Storage

namespace Buffer

/-- The storage of a buffer: beyond its content there are zeros. -/
def stored (b : Buffer) : Storage :=
  ⟨b.region, b.size, b.growth⟩

variable (grant : Nat → Bool) {b : Buffer}

theorem region_of_empty (capacity : Nat) (growth : Growth) :
    (⟨[], capacity, growth⟩ : Buffer).region = List.replicate capacity 0 :=
  region_of_le (Nat.zero_le _)

theorem empty_stored (capacity : Nat) (growth : Growth) (budget : Budget) :
    Storage.empty grant capacity growth budget =
      ⟨(empty grant capacity growth budget).result.map stored,
        (empty grant capacity growth budget).state⟩ := by
  rw [Storage.empty, Budget.allocate_eq, empty_eq]
  by_cases h : capacity = 0 ∨ budget.Admits capacity ∧ grant capacity
  · simp only [if_pos h, Except.map, stored, region_of_empty]
    rfl
  · simp only [if_neg h, Except.map]

theorem region_of_zeros (size : Nat) (growth : Growth) :
    (⟨List.replicate size 0, size, growth⟩ : Buffer).region = List.replicate size 0 := by
  have hsize : (⟨List.replicate size 0, size, growth⟩ : Buffer).size = size := List.length_replicate
  rw [region_of_le (Nat.le_of_eq hsize), hsize, Nat.sub_self, List.replicate_zero, List.append_nil]

theorem zeros_stored (size : Nat) (growth : Growth) (budget : Budget) :
    Storage.zeros grant size growth budget =
      ⟨(zeros grant size growth budget).result.map stored,
        (zeros grant size growth budget).state⟩ := by
  rw [Storage.zeros, zeros_eq, empty_stored, empty_eq]
  by_cases h : size = 0 ∨ budget.Admits size ∧ grant size
  · simp only [if_pos h, Except.map, stored, region_of_empty, region_of_zeros, Buffer.size,
      List.length_replicate]
  · simp only [if_neg h, Except.map]

/-- To copy `data` into the region of a buffer is to lay it over its content. A gap before it is made
of the zeros that were there. -/
theorem splice_region (hsize : b.size ≤ b.capacity) {offset : Nat} {data : Bytes}
    (hend : offset + data.length ≤ b.capacity) :
    Checked.splice b.region offset (offset + data.length) data =
      some (region { b with content := overlay b.content data offset }) := by
  have hle : offset + data.length ≤ b.region.length := (length_region hsize).symm ▸ hend
  have hsize' : size { b with content := overlay b.content data offset } ≤ b.capacity := by
    rw [size, length_overlay]
    exact Nat.max_le.mpr ⟨hsize, hend⟩
  have hgap : min (offset - b.size) (b.capacity - b.size) = offset - b.size := by omega
  have hslack : b.capacity - b.size - (offset + data.length - b.size) =
      b.capacity - max b.size (offset + data.length) := by omega
  rw [Checked.splice_of_le hle, region_of_le hsize, region_of_le hsize']
  simp only [size, length_overlay] at hgap hslack ⊢
  simp only [overlay, List.take_append, List.take_replicate, List.drop_append, List.drop_replicate,
    hgap, hslack, List.append_assoc]

theorem ofBytes_stored (bytes : Bytes) (growth : Growth) (budget : Budget) :
    Storage.ofBytes? grant bytes growth budget =
      some ⟨(ofBytes grant bytes growth budget).result.map stored,
        (ofBytes grant bytes growth budget).state⟩ := by
  rw [Storage.ofBytes?, ofBytes, empty_stored, empty_eq]
  by_cases h : max growth.least bytes.length = 0 ∨
      budget.Admits (max growth.least bytes.length) ∧ grant (max growth.least bytes.length)
  · have hroom : 0 + bytes.length ≤ max growth.least bytes.length := by
      rw [Nat.zero_add]
      exact Nat.le_max_right _ _
    have hsplice := splice_region (b := ⟨[], max growth.least bytes.length, growth⟩)
      (Nat.zero_le _) hroom
    rw [Nat.zero_add] at hsplice
    simp only [if_pos h, Except.map, stored, hsplice, overlay_nil, Option.bind_eq_bind,
      Option.bind_some, Option.pure_def]
    rfl
  · simp only [if_neg h, Except.map]

theorem content?_stored (hsize : b.size ≤ b.capacity) : b.stored.content? = some b.content :=
  contents?_eq hsize

theorem read?_stored (hsize : b.size ≤ b.capacity) (hword : b.capacity < wordLimit)
    (offset : Nat) (out : Bytes) : b.stored.read? offset out = some (b.read offset out) :=
  read?_eq hsize hword offset out

theorem region_append (hsize : b.size ≤ b.capacity) {target : Nat} (hle : b.capacity ≤ target) :
    b.region ++ List.replicate (target - b.capacity) 0 = region { b with capacity := target } := by
  have hslack : b.capacity - b.size + (target - b.capacity) = target - b.size := by omega
  have hroom : size { b with capacity := target } ≤ target := Nat.le_trans hsize hle
  rw [region_of_le hsize, region_of_le hroom, List.append_assoc, List.replicate_append_replicate,
    hslack]
  rfl

theorem makeRoom_stored (hsize : b.size ≤ b.capacity) (required : Nat) (budget : Budget) :
    b.stored.makeRoom grant required budget =
      ⟨(b.makeRoom grant required budget).result,
        (b.makeRoom grant required budget).state.1.stored,
        (b.makeRoom grant required budget).state.2⟩ := by
  have hlength : b.region.length = b.capacity := length_region hsize
  have happend := region_append hsize (b.growth.le_capacityFor b.capacity required)
  simp only [Storage.makeRoom, makeRoom, Budget.lengthen, Storage.capacity, stored, hlength]
  obtain ⟨_ | _, budget'⟩ := budget.extend grant b.capacity (b.growth.capacityFor b.capacity required)
  · rfl
  · simp only [happend]
    rfl

theorem write?_stored (hsize : b.size ≤ b.capacity) (offset : Nat) (data : Bytes)
    (budget : Budget) :
    b.stored.write? grant offset data budget =
      some ⟨(b.write grant offset data budget).result,
        (b.write grant offset data budget).state.1.stored,
        (b.write grant offset data budget).state.2⟩ := by
  have hlength : b.stored.capacity = b.capacity := length_region hsize
  have hmakes := makeRoom_stored grant hsize (offset + data.length) budget
  simp only [Storage.write?, write, hlength]
  by_cases hw : wordLimit ≤ offset + data.length
  · simp only [if_pos hw]
  simp only [if_neg hw]
  -- Room is made in the storage as in the buffer, so the two go on from the same place.
  have hroom : (if b.capacity < offset + data.length then
        b.stored.makeRoom grant (offset + data.length) budget else ⟨.ok (), b.stored, budget⟩) =
      let room := if b.capacity < offset + data.length then
        b.makeRoom grant (offset + data.length) budget else ⟨.ok (), b, budget⟩
      ⟨room.result, room.state.1.stored, room.state.2⟩ := by
    by_cases hc : b.capacity < offset + data.length
    · simp only [if_pos hc, hmakes]
    · simp only [if_neg hc]
  rw [hroom]
  generalize hgrown : (if b.capacity < offset + data.length then
    b.makeRoom grant (offset + data.length) budget else ⟨.ok (), b, budget⟩) = room
  obtain ⟨_ | _, b', budget'⟩ := room
  · rfl
  · obtain ⟨hcontent, hcap, hend⟩ := makeRoom_of_ok grant hgrown
    have hsize' : b'.size ≤ b'.capacity := by
      rw [size, hcontent]
      exact Nat.le_trans hsize hcap
    simp only [stored, splice_region hsize' hend, Option.bind_eq_bind, Option.bind_some,
      Option.pure_def, size, length_overlay]

end Buffer

end Enclave
