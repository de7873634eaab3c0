import Enclave.Proofs.Archive
import Enclave.Proofs.Buffer
import Enclave.Proofs.FileTable
import Enclave.Volume.Request

namespace Enclave

/-- A result that is no fault of a kind. It may well be another fault. -/
def Spared {α : Type} (kind : Fault → Bool) (result : Except Fault α) : Prop :=
  ∀ e, result = .error e → ¬ kind e

section Spared

variable {α β : Type} {kind : Fault → Bool} {e : Fault}

instance (result : Except Fault α) : Decidable (Spared kind result) :=
  match result with
  | .ok _ => isTrue nofun
  | .error e => decidable_of_iff (¬ kind e) ⟨fun h _ he => Except.error.inj he ▸ h, fun h => h e rfl⟩

theorem Spared.ok (a : α) : Spared kind (.ok a : Except Fault α) :=
  fun _ he => nomatch he

theorem Spared.elim {p : Prop} (h : Spared kind (.error e : Except Fault α)) (he : kind e) : p :=
  (h e rfl he).elim

theorem Spared.anew (h : Spared kind (.error e : Except Fault α)) :
    Spared kind (.error e : Except Fault β) :=
  fun e' he => h e' (congrArg Except.error (Except.error.inj he))

theorem Spared.of_respond {r : Reply α} {answer : α → Answer}
    (h : Spared kind (r.respond answer).result) : Spared kind r.result := by
  intro e he
  rw [Reply.respond, he] at h
  exact h e rfl

theorem Spared.of_closed {result : Except Fault α} {events : List Event} {closed : Reply Unit}
    (h : Spared kind (match closed with
      | ⟨.error e, v, events'⟩ => (⟨.error e, v, events ++ events'⟩ : Reply α)
      | ⟨.ok (), v, events'⟩ => ⟨result, v, events ++ events'⟩).result) :
    Spared kind closed.result := by
  obtain ⟨e | _, v, events'⟩ := closed
  · exact h.anew
  · exact .ok _

end Spared

namespace OpenFile

def ahead (f : OpenFile) (n : Nat) : Bytes :=
  (f.contents.drop f.position).take n

def advance (f : OpenFile) (n : Nat) : OpenFile :=
  { f with position := f.position + n }

def written (f : OpenFile) (data : Bytes) : OpenFile :=
  { f with
    buffer := f.buffer.written f.position data
    position := f.position + data.length }

/-- Why an access is refused before a byte is moved, if it is. -/
def refusal (f : OpenFile) (required : Access) (elementSize count available : Nat)
    (short : Fault) : Option Fault :=
  if ¬ f.mode.allows required then some (.modeViolation f.mode required)
  else if wordLimit ≤ elementSize * count then some .productOverflow
  else if available < elementSize * count then some short
  else none

theorem refusal_eq_none_iff {f : OpenFile} {required : Access}
    {elementSize count available : Nat} {short : Fault} :
    f.refusal required elementSize count available short = none ↔
      f.mode.allows required ∧ elementSize * count < wordLimit ∧
        elementSize * count ≤ available := by
  rw [refusal]
  by_cases hm : f.mode.allows required
  · by_cases hw : wordLimit ≤ elementSize * count
    · simp [hm, hw, Nat.not_lt_of_le hw]
    · by_cases ha : available < elementSize * count
      · simp [hm, hw, ha, Nat.not_le_of_lt ha]
      · simp [hm, hw, ha, Nat.lt_of_not_le hw, Nat.le_of_not_lt ha]
  · simp [hm]

theorem length_ahead (f : OpenFile) (n : Nat) :
    (f.ahead n).length = min n (f.size - f.position) := by
  rw [ahead, List.length_take, List.length_drop]
  rfl

theorem length_ahead_of_le {f : OpenFile} {n : Nat} (h : n ≤ f.size - f.position) :
    (f.ahead n).length = n := by
  rw [length_ahead]
  exact Nat.min_eq_left h

theorem ahead_left (f : OpenFile) (n : Nat) :
    f.ahead (min (f.size - f.position) n) = f.ahead n :=
  take_min_of_drop f.contents f.position n

theorem read_eq (f : OpenFile) (out : Bytes) :
    f.read out = ((f.ahead out.length).length,
      f.ahead out.length ++ out.drop (f.ahead out.length).length,
      f.advance (f.ahead out.length).length) := rfl

theorem write_eq (f : OpenFile) (grant : Nat → Bool) (data : Bytes) (budget : Budget) :
    f.write grant data budget =
      if f.buffer.Fits grant f.position data budget then
        ⟨.ok data.length, f.written data,
          budget.raise (f.buffer.capacityAfter f.position data - f.buffer.capacity)⟩
      else ⟨.error (.outOfMemory (f.buffer.shortage f.position data)), f, budget⟩ := by
  rw [write, Buffer.write_eq]
  by_cases h : f.buffer.Fits grant f.position data budget
  · rw [if_pos h, if_pos h]
    rfl
  · rw [if_neg h, if_neg h]

theorem seek_ok {f file : OpenFile} {offset : Int} {origin : Origin} {position : Nat}
    (h : f.seek offset origin = .ok (position, file)) :
    file = { f with position } ∧ position ≤ f.size := by
  simp only [seek] at h
  split at h
  · cases h
  · split at h
    · cases h
    · cases h
      exact ⟨rfl, by omega⟩

end OpenFile

namespace FileTable

theorem get_of_some {t : FileTable} {h : Handle} {file : OpenFile} (hf : t.find? h = some file) :
    t.get h = .ok file := by
  rw [get, hf]

theorem get_of_none {t : FileTable} {h : Handle} (hf : t.find? h = none) :
    t.get h = .error .invalidHandle := by
  rw [get, hf]

end FileTable

theorem Limits.checkName_error {l : Limits} {name : String} {e : Fault}
    (h : l.checkName name = .error e) (resource : Resource) (most : Nat) :
    e ≠ .capacityExhausted resource most := by
  rintro rfl
  rw [checkName] at h
  split at h
  · cases h
  · split at h
    · cases h
    · split at h <;> cases h

theorem Limits.check_eq_ok {l : Limits} : l.check = .ok () ↔
    0 < l.maxOpen ∧ l.maxOpen ≤ mostOpen ∧ 0 < l.maxEntries ∧ 0 < l.maxNameLength ∧
      0 < l.initialCapacity := by
  rw [check]
  grind

theorem Mode.parse_error {text : String} {e : Fault} (h : Mode.parse text = .error e)
    (resource : Resource) (most : Nat) : e ≠ .capacityExhausted resource most := by
  rintro rfl
  rw [Mode.parse] at h
  split at h <;> cases h

namespace Volume

variable (v : Volume) (grant : Allocator)

theorem checkOpen_eq (name : String) (mode : Mode) :
    v.checkOpen name mode =
      match v.limits.checkName name, v.files.ensureRoom with
      | .error e, _ => .error e
      | .ok (), .error e => .error e
      | .ok (), .ok () =>
        let stored := if mode.startsFromEntry then v.archive.find? name else none
        if stored.isNone && mode.needsEntry then .error .notFound else .ok stored := by
  rw [checkOpen]
  cases v.limits.checkName name with
  | error e => rfl
  | ok =>
    cases v.files.ensureRoom with
    | error e => rfl
    | ok =>
      simp only [bind, Except.bind, throw, throwThe, MonadExceptOf.throw, pure, Except.pure]

theorem checkOpen_error {v : Volume} {name : String} {mode : Mode}
    (h : v.checkOpen name mode = .error (.capacityExhausted .openFiles v.files.maxOpen)) :
    v.files.maxOpen ≤ v.files.opened := by
  by_cases hroom : v.files.maxOpen ≤ v.files.opened
  · exact hroom
  · rw [checkOpen_eq, FileTable.ensureRoom, if_neg hroom] at h
    cases hn : v.limits.checkName name with
    | error e =>
      rw [hn] at h
      exact absurd (Except.error.inj h) (Limits.checkName_error hn _ _)
    | ok =>
      rw [hn] at h
      dsimp only at h
      generalize (if mode.startsFromEntry then v.archive.find? name else none) = stored at h
      by_cases hm : stored.isNone && mode.needsEntry
      · rw [if_pos hm] at h
        cases h
      · rw [if_neg hm] at h
        cases h

def source (name : String) (mode : Mode) : Option Bytes :=
  if mode.startsFromEntry then v.archive.find? name else none

def startCapacity (stored : Option Bytes) : Nat :=
  max v.limits.initialCapacity (stored.getD []).length

def startFile (name : String) (mode : Mode) (stored : Option Bytes) : OpenFile :=
  ⟨name, ⟨stored.getD [], v.startCapacity stored, v.growth⟩, 0, mode⟩

theorem startBuffer_eq (stored : Option Bytes) :
    v.startBuffer grant stored =
      if v.startCapacity stored = 0 ∨
          v.budget.Admits (v.startCapacity stored) ∧ grant .openBuffer (v.startCapacity stored) then
        ⟨.ok ⟨stored.getD [], v.startCapacity stored, v.growth⟩,
          v.budget.raise (v.startCapacity stored)⟩
      else ⟨.error (.outOfMemory (v.startCapacity stored)), v.budget⟩ := by
  cases stored with
  | some data => exact Buffer.ofBytes_eq _ data v.growth v.budget
  | none =>
    have hc : v.startCapacity none = v.limits.initialCapacity := Nat.max_zero _
    rw [hc]
    exact Buffer.empty_eq _ _ v.growth v.budget

theorem prepare_eq (name : String) (mode : Mode) :
    v.prepare grant name mode =
      match v.checkOpen name mode with
      | .error e => ⟨.error e, v.budget⟩
      | .ok stored =>
        let capacity := v.startCapacity stored
        if name.utf8ByteSize = 0 ∨ grant .openName name.utf8ByteSize then
          if capacity = 0 ∨ v.budget.Admits capacity ∧ grant .openBuffer capacity then
            ⟨.ok (v.startFile name mode stored), v.budget.raise capacity⟩
          else ⟨.error (.outOfMemory capacity), v.budget⟩
        else ⟨.error (.outOfMemory name.utf8ByteSize), v.budget⟩ := by
  rw [prepare]
  cases v.checkOpen name mode with
  | error e => rfl
  | ok stored =>
    simp only [copyName, startBuffer_eq]
    by_cases hn : name.utf8ByteSize = 0 ∨ grant .openName name.utf8ByteSize
    · by_cases hb : v.startCapacity stored = 0 ∨
          v.budget.Admits (v.startCapacity stored) ∧ grant .openBuffer (v.startCapacity stored)
      · simp only [if_pos hn, if_pos hb, startFile]
      · simp only [if_pos hn, if_neg hb]
    · simp only [if_neg hn]

theorem prepare_cases (name : String) (mode : Mode) :
    (∃ stored, v.checkOpen name mode = .ok stored ∧
      (v.startCapacity stored = 0 ∨ v.budget.Admits (v.startCapacity stored)) ∧
      v.prepare grant name mode =
        ⟨.ok (v.startFile name mode stored), v.budget.raise (v.startCapacity stored)⟩) ∨
    ∃ e, v.prepare grant name mode = ⟨.error e, v.budget⟩ ∧
      (e = .capacityExhausted .openFiles v.files.maxOpen → v.files.maxOpen ≤ v.files.opened) := by
  rw [prepare_eq]
  cases hc : v.checkOpen name mode with
  | error e => exact .inr ⟨e, rfl, fun he => checkOpen_error (he ▸ hc)⟩
  | ok stored =>
    dsimp only
    split
    · split
      · next hb => exact .inl ⟨stored, rfl, hb.imp_right And.left, rfl⟩
      · exact .inr ⟨_, rfl, fun he => by cases he⟩
    · exact .inr ⟨_, rfl, fun he => by cases he⟩

theorem openAs_eq_tryOpen (name : String) (mode : Mode) :
    (v.openAs grant name mode).result = (v.tryOpen grant name mode).result ∧
      (v.openAs grant name mode).volume = (v.tryOpen grant name mode).state := by
  rw [openAs]
  generalize v.tryOpen grant name mode = opened
  obtain ⟨_ | h, v'⟩ := opened
  · exact ⟨rfl, rfl⟩
  · exact ⟨rfl, rfl⟩

theorem spared_prepare {v : Volume} {kind : Fault → Bool} {name : String} {mode : Mode}
    (h : Spared kind (v.openAs grant name mode).result) :
    Spared kind (v.prepare grant name mode).result := by
  intro e he
  simp only [openAs, tryOpen] at h
  generalize v.prepare grant name mode = prepared at h he
  obtain ⟨result, budget⟩ := prepared
  obtain rfl : result = .error e := he
  exact h e rfl

theorem drop_take_append_drop (l : Bytes) {m n : Nat} (h : m ≤ n) :
    (l.take n).drop m ++ l.drop n = l.drop m := by
  rw [List.drop_take]
  conv => lhs; rw [← Nat.add_sub_cancel' h, Nat.add_sub_cancel_left, ← List.drop_drop]
  exact List.take_append_drop _ _

variable {v} {h : Handle} {file : OpenFile}

theorem checkAccess_of_some (hf : v.files.find? h = some file) (required : Access)
    (elementSize count available : Nat) (short : Fault) :
    v.checkAccess h required elementSize count available short =
      match file.refusal required elementSize count available short with
      | some e => .error e
      | none => .ok (file, elementSize * count) := by
  simp only [checkAccess, FileTable.get_of_some hf, Mode.check, requestLength, OpenFile.refusal]
  by_cases hm : file.mode.allows required
  · by_cases hw : wordLimit ≤ elementSize * count
    · simp [hm, hw, Nat.not_lt.mpr hw, bind, Except.bind]
    · by_cases ha : available < elementSize * count
      · simp [hm, hw, Nat.lt_of_not_le hw, ha, bind, Except.bind, throw, throwThe,
          MonadExceptOf.throw]
      · simp [hm, hw, Nat.lt_of_not_le hw, ha, bind, Except.bind, pure, Except.pure]
  · simp [hm, bind, Except.bind]

theorem checkAccess_of_none (hf : v.files.find? h = none) (required : Access)
    (elementSize count available : Nat) (short : Fault) :
    v.checkAccess h required elementSize count available short = .error .invalidHandle := by
  simp [checkAccess, FileTable.get_of_none hf, bind, Except.bind]

theorem read_of_none (hf : v.files.find? h = none) (out : Bytes) (elementSize count : Nat) :
    v.read h out elementSize count =
      (⟨.error .invalidHandle, v, [.failed .reading .invalidHandle]⟩, out) := by
  rw [read, checkAccess_of_none hf]

theorem read_of_some (hf : v.files.find? h = some file) (out : Bytes) (elementSize count : Nat) :
    v.read h out elementSize count =
      match file.refusal .read elementSize count out.length .outputTooShort with
      | some e => (⟨.error e, v, [.failed .reading e]⟩, out)
      | none =>
        if elementSize * count = 0 then (⟨.ok 0, v, []⟩, out)
        else
          let part := file.ahead (elementSize * count)
          (⟨.ok (part.length / elementSize),
              { v with files := v.files.replace h (file.advance part.length) }, []⟩,
            part ++ out.drop part.length) := by
  rw [read, checkAccess_of_some hf]
  cases hr : file.refusal .read elementSize count out.length .outputTooShort with
  | some e => rfl
  | none =>
    by_cases hz : elementSize * count = 0
    · simp only [if_pos hz]
    · obtain ⟨_, _, hle⟩ := OpenFile.refusal_eq_none_iff.mp hr
      have hlen : (out.take (elementSize * count)).length = elementSize * count :=
        List.length_take_of_le hle
      have hpart : (file.ahead (elementSize * count)).length ≤ elementSize * count :=
        List.length_take_le _ _
      simp only [if_neg hz, OpenFile.read_eq, hlen, List.append_assoc,
        drop_take_append_drop out hpart]

theorem read_of_unreadable (hf : v.files.find? h = some file) (hmode : ¬ file.mode.canRead)
    (out : Bytes) (elementSize count : Nat) :
    v.read h out elementSize count =
      (⟨.error (.modeViolation file.mode .read), v,
        [.failed .reading (.modeViolation file.mode .read)]⟩, out) := by
  have hrefusal : file.refusal .read elementSize count out.length .outputTooShort =
      some (.modeViolation file.mode .read) :=
    if_pos hmode
  rw [read_of_some hf, hrefusal]

/-- A read that is not refused gets what is ahead of the cursor, even if that is nothing. -/
theorem read_of_not_refused (hf : v.files.find? h = some file) {out : Bytes}
    {elementSize count : Nat}
    (hr : file.refusal .read elementSize count out.length .outputTooShort = none) :
    v.read h out elementSize count =
      let part := file.ahead (elementSize * count)
      (⟨.ok (part.length / elementSize),
          { v with files := v.files.replace h (file.advance part.length) }, []⟩,
        part ++ out.drop part.length) := by
  rw [read_of_some hf, hr]
  by_cases hz : elementSize * count = 0
  · -- Nothing is asked for, so the same file is put back.
    have hnothing : file.ahead 0 = [] := List.take_zero
    have hsame : v.files.replace h (file.advance 0) = v.files := FileTable.replace_self hf
    simp only [hz, hnothing, List.length_nil, Nat.zero_div, hsame, List.drop_zero,
      List.nil_append, if_true]
  · simp only [if_neg hz]

theorem read_ahead (hf : v.files.find? h = some file) (hmode : file.mode.canRead) {n : Nat}
    (hn : n ≤ file.size - file.position) (hword : n < wordLimit) :
    ∃ v', v.read h (List.replicate n 0) 1 n = (⟨.ok n, v', []⟩, file.ahead n) := by
  have hrefusal : file.refusal .read 1 n (List.replicate n (0 : UInt8)).length .outputTooShort =
      none := by
    rw [OpenFile.refusal_eq_none_iff, Nat.one_mul, List.length_replicate]
    exact ⟨hmode, hword, Nat.le_refl _⟩
  have hlen : (file.ahead n).length = n := OpenFile.length_ahead_of_le hn
  have hread := read_of_not_refused hf hrefusal
  simp only [Nat.one_mul, hlen, Nat.div_one, List.drop_replicate, Nat.sub_self,
    List.replicate_zero, List.append_nil] at hread
  exact ⟨_, hread⟩

theorem write_of_none (hf : v.files.find? h = none) (data : Bytes) (elementSize count : Nat) :
    v.write grant h data elementSize count =
      ⟨.error .invalidHandle, v, [.failed .writing .invalidHandle]⟩ := by
  rw [write, checkAccess_of_none hf]

theorem write_of_some (hf : v.files.find? h = some file) (data : Bytes)
    (elementSize count : Nat) :
    v.write grant h data elementSize count =
      match file.refusal .write elementSize count data.length .dataTooShort with
      | some e => ⟨.error e, v, [.failed .writing e]⟩
      | none =>
        if elementSize * count = 0 then ⟨.ok 0, v, []⟩
        else
          let part := data.take (elementSize * count)
          if file.buffer.Fits (grant .growth) file.position part v.budget then
            ⟨.ok (elementSize * count / elementSize),
              { v with
                files := v.files.replace h (file.written part)
                budget := v.budget.raise
                  (file.buffer.capacityAfter file.position part - file.buffer.capacity) }, []⟩
          else
            ⟨.error (.outOfMemory (file.buffer.shortage file.position part)), v,
              [.failed .writing (.outOfMemory (file.buffer.shortage file.position part))]⟩ := by
  rw [write, checkAccess_of_some hf]
  cases hr : file.refusal .write elementSize count data.length .dataTooShort with
  | some e => rfl
  | none =>
    by_cases hz : elementSize * count = 0
    · simp only [if_pos hz]
    · obtain ⟨_, _, hle⟩ := OpenFile.refusal_eq_none_iff.mp hr
      have hlen : (data.take (elementSize * count)).length = elementSize * count :=
        List.length_take_of_le hle
      simp only [if_neg hz, OpenFile.write_eq]
      by_cases hfit : file.buffer.Fits (grant .growth) file.position
          (data.take (elementSize * count)) v.budget
      · simp only [if_pos hfit, hlen]
      · -- The file that a failed write puts back is the one that was there.
        simp only [if_neg hfit, FileTable.replace_self hf]

theorem seek_of_none (hf : v.files.find? h = none) (offset : Int) (origin : Origin) :
    v.seek h offset origin =
      ⟨.error .invalidHandle, v, [.failed .seeking .invalidHandle]⟩ := by
  rw [seek, FileTable.get_of_none hf]
  rfl

theorem seek_of_some (hf : v.files.find? h = some file) (offset : Int) (origin : Origin) :
    v.seek h offset origin =
      match file.seek offset origin with
      | .error e => ⟨.error e, v, [.failed .seeking e]⟩
      | .ok (position, file') =>
        ⟨.ok position, { v with files := v.files.replace h file' }, []⟩ := by
  rw [seek, FileTable.get_of_some hf]
  rfl

theorem tell_volume (v : Volume) (h : Handle) : (v.tell h).volume = v := by
  rw [tell]
  cases v.files.get h <;> rfl

theorem tell_of_some (hf : v.files.find? h = some file) :
    v.tell h = ⟨.ok file.position, v, []⟩ := by
  rw [tell, FileTable.get_of_some hf]

theorem fileLength_of_some (hf : v.files.find? h = some file) :
    v.fileLength h = .ok file.size := by
  rw [fileLength, FileTable.get_of_some hf]
  rfl

theorem fileLength_of_none (hf : v.files.find? h = none) :
    v.fileLength h = .error .invalidHandle := by
  rw [fileLength, FileTable.get_of_none hf]
  rfl

theorem readRest_of_none (hf : v.files.find? h = none) :
    v.readRest grant h = ⟨.error .invalidHandle, v, []⟩ := by
  rw [readRest, fileLength_of_none hf]

theorem readRest_of_some (hf : v.files.find? h = some file) :
    v.readRest grant h =
      let left := file.size - file.position
      if left ≤ 0 ∨ Budget.unlimited.Admits left ∧ grant .output left then
        match v.read h (List.replicate left 0) 1 left with
        | (reply, out) => reply.andThen fun count v' => ⟨.ok (out.take count), v', []⟩
      else ⟨.error (.outOfMemory left), v, []⟩ := by
  simp only [readRest, fileLength_of_some hf, tell_of_some hf, Reply.andThen, Budget.allocate_eq,
    Nat.le_zero_eq]
  by_cases hg : file.size - file.position = 0 ∨
      Budget.unlimited.Admits (file.size - file.position) ∧
        grant .output (file.size - file.position)
  · simp only [if_pos hg, List.nil_append]
  · simp only [if_neg hg, List.nil_append]

end Volume

end Enclave
