import Enclave.Proofs.Saving

namespace Enclave

theorem Mode.startsFromEntry_iff {m : Mode} : m.startsFromEntry ↔ m = .read ∨ m = .readWrite := by
  cases m <;> decide

theorem FileTable.Placed.hasSlot {t t' : FileTable} {file : OpenFile} {h : Handle}
    (hp : Placed t file h t') : t.HasSlot := by
  cases hp with
  | reused index rest g hfree _ => exact .inl fun hnone => by cases hfree.symm.trans hnone
  | added index _ hs => exact .inr (hs ▸ index.toNat_lt)

namespace Volume

variable {v v' : Volume} {l : Limits} {h : Handle} {name : String} {mode : Mode}

def checkRefusal (v : Volume) (l : Limits) (name : String) (mode : Mode) : Option Fault :=
  if name = "" then some .emptyName
  else if l.maxNameLength < name.utf8ByteSize then
    some (.nameTooLong name.utf8ByteSize l.maxNameLength)
  else if Char.ofNat 0 ∈ name.toList then some .nulInName
  else if l.maxOpen ≤ v.opened then some (.capacityExhausted .openFiles l.maxOpen)
  else if mode = .read ∧ v.archive.find? name = none then some .notFound
  else none

theorem lacks_entry_iff (v : Volume) (name : String) (mode : Mode) :
    ((v.source name mode).isNone && mode.needsEntry) = true ↔
      mode = .read ∧ v.archive.find? name = none := by
  rw [Bool.and_eq_true, Option.isNone_iff_eq_none, And.comm]
  cases mode with
  | read => exact and_congr_left fun _ => iff_of_true rfl rfl
  | write | append | readWrite => exact iff_of_false (fun h => nomatch h.1) (fun h => nomatch h.1)

theorem Obeys.checkOpen_result (hv : v.Obeys l) (hl : l.check = .ok ()) (name : String)
    (mode : Mode) :
    v.checkOpen name mode =
      match v.checkRefusal l name mode with
      | some e => .error e
      | none => .ok (v.source name mode) := by
  rw [checkOpen_eq, FileTable.ensureRoom, hv.limits_eq, hv.maxOpen_eq hl, Limits.checkName,
    checkRefusal]
  simp only [String.utf8ByteSize_eq_zero_iff, List.contains_iff_mem]
  by_cases hempty : name = ""
  · simp only [if_pos hempty]
  by_cases hlong : l.maxNameLength < name.utf8ByteSize
  · simp only [if_neg hempty, if_pos hlong]
  by_cases hnul : Char.ofNat 0 ∈ name.toList
  · simp only [if_neg hempty, if_neg hlong, if_pos hnul]
  simp only [if_neg hempty, if_neg hlong, if_neg hnul]
  by_cases hroom : l.maxOpen ≤ v.opened
  · have hroom' : l.maxOpen ≤ v.files.opened := hroom
    simp only [if_pos hroom, if_pos hroom']
  have hroom' : ¬ l.maxOpen ≤ v.files.opened := hroom
  have hlacks := v.lacks_entry_iff name mode
  rw [source] at hlacks ⊢
  by_cases hfound : mode = .read ∧ v.archive.find? name = none
  · simp only [if_neg hroom, if_neg hroom', if_pos hfound, if_pos (hlacks.mpr hfound)]
  · simp only [if_neg hroom, if_neg hroom', if_neg hfound, if_neg (mt hlacks.mp hfound)]

variable (grant : Allocator)

def startContents (v : Volume) (name : String) (mode : Mode) : Bytes :=
  if mode = .read ∨ mode = .readWrite then (v.archive.find? name).getD [] else []

theorem startContents_eq : v.startContents name mode = (v.source name mode).getD [] := by
  rw [startContents, source]
  by_cases hm : mode.startsFromEntry
  · rw [if_pos hm, if_pos (Mode.startsFromEntry_iff.mp hm)]
  · rw [if_neg hm, if_neg (mt Mode.startsFromEntry_iff.mpr hm)]
    rfl

/-- Why an open is refused: the first reason that there is. -/
def openRefusal (v : Volume) (l : Limits) (name : String) (mode : Mode) : Option Fault :=
  let capacity := max l.initialCapacity (v.startContents name mode).length
  match v.checkRefusal l name mode with
  | some e => some e
  | none =>
    if ¬ grant .openName name.utf8ByteSize then some (.outOfMemory name.utf8ByteSize)
    else if ¬ l.Covers (v.used + capacity) ∨ ¬ grant .openBuffer capacity then
      some (.outOfMemory capacity)
    else if v.files.free = [] ∧ v.files.slots.size = slotLimit then
      some (.capacityExhausted .openFiles l.maxOpen)
    else none

theorem Obeys.startCapacity_source (hv : v.Obeys l) :
    v.startCapacity (v.source name mode) =
      max l.initialCapacity (v.startContents name mode).length := by
  rw [startCapacity, hv.limits_eq, startContents_eq]

theorem name_ne_of_checkRefusal (h : v.checkRefusal l name mode = none) : name ≠ "" := by
  rintro rfl
  cases h

theorem Obeys.prepare_result (hv : v.Obeys l) (hl : l.check = .ok ())
    (hr : v.checkRefusal l name mode = none) :
    v.prepare grant name mode =
      let capacity := max l.initialCapacity (v.startContents name mode).length
      if ¬ grant .openName name.utf8ByteSize then
        ⟨.error (.outOfMemory name.utf8ByteSize), v.budget⟩
      else if ¬ l.Covers (v.used + capacity) ∨ ¬ grant .openBuffer capacity then
        ⟨.error (.outOfMemory capacity), v.budget⟩
      else ⟨.ok (v.startFile name mode (v.source name mode)), v.budget.raise capacity⟩ := by
  have hpos : max l.initialCapacity (v.startContents name mode).length ≠ 0 := by
    have hinitial := (Limits.check_eq_ok.mp hl).2.2.2.2
    omega
  rw [prepare_eq, hv.checkOpen_result hl, hr]
  simp only [hv.startCapacity_source, String.utf8ByteSize_eq_zero_iff, name_ne_of_checkRefusal hr,
    hpos, false_or, hv.admits_iff, ← not_and_or, ite_not]

theorem Obeys.openAs_of_prepared (hv : v.Obeys l) (hl : l.check = .ok ()) {stored : Option Bytes}
    (hcheck : v.checkOpen name mode = .ok stored)
    (hprepare : v.prepare grant name mode =
      ⟨.ok (v.startFile name mode stored), v.budget.raise (v.startCapacity stored)⟩)
    (hpay : v.startCapacity stored = 0 ∨ v.budget.Admits (v.startCapacity stored)) :
    if v.files.free = [] ∧ v.files.slots.size = slotLimit then
      (v.openAs grant name mode).result = .error (.capacityExhausted .openFiles l.maxOpen)
    else ∃ h, (v.openAs grant name mode).result = .ok h ∧
      Makes v (.placed h (v.startFile name mode stored)) (v.openAs grant name mode).volume := by
  obtain ⟨-, hroom, -⟩ := checkOpen_eq_ok.mp hcheck
  obtain ⟨h, files, hinsert, hplaced, -⟩ | ⟨hinsert, hfull⟩ :=
    hv.sound.files.insert_cases (v.startFile name mode stored)
  · rw [if_neg hplaced.hasSlot.not_full]
    simp only [openAs, tryOpen, hprepare, hinsert]
    exact ⟨h, rfl, .placed name mode stored h files hcheck hplaced hroom hpay⟩
  · -- Room was checked before anything was asked for, so only the slots can have run out.
    rw [if_pos (hfull.resolve_left (Nat.not_le_of_lt hroom))]
    simp only [openAs, tryOpen, hprepare, hinsert, hv.maxOpen_eq hl]

theorem Obeys.openAs_outcome (hv : v.Obeys l) (hl : l.check = .ok ()) (name : String)
    (mode : Mode) :
    match v.openRefusal grant l name mode with
    | some e => (v.openAs grant name mode).result = .error e
    | none => ∃ h, (v.openAs grant name mode).result = .ok h ∧
        Makes v (.placed h (v.startFile name mode (v.source name mode)))
          (v.openAs grant name mode).volume := by
  have hcheck := hv.checkOpen_result hl name mode
  rw [openRefusal]
  cases hr : v.checkRefusal l name mode with
  | some e =>
    rw [hr] at hcheck
    simp only [openAs, tryOpen, prepare_eq, hcheck]
  | none =>
    rw [hr] at hcheck
    have hprepare := hv.prepare_result grant hl hr
    simp only [← hv.startCapacity_source] at hprepare ⊢
    by_cases hname : grant .openName name.utf8ByteSize
    · by_cases hmemory : ¬ l.Covers (v.used + v.startCapacity (v.source name mode)) ∨
          ¬ grant .openBuffer (v.startCapacity (v.source name mode))
      · simp only [if_neg (not_not.mpr hname), if_pos hmemory] at hprepare ⊢
        simp only [openAs, tryOpen, hprepare]
      · simp only [if_neg (not_not.mpr hname), if_neg hmemory] at hprepare ⊢
        have hcovers := not_not.mp (not_or.mp hmemory).1
        have hplaces := hv.openAs_of_prepared grant hl hcheck hprepare
          (.inr (hv.admits_iff.mpr hcovers))
        -- All that is asked for is granted, so it is the slots that decide.
        by_cases hfull : v.files.free = [] ∧ v.files.slots.size = slotLimit
        · rw [if_pos hfull] at hplaces ⊢
          exact hplaces
        · rw [if_neg hfull] at hplaces ⊢
          exact hplaces
    · simp only [if_pos hname] at hprepare ⊢
      simp only [openAs, tryOpen, hprepare]

/-- What an open does to every reachable volume. It fails for the first reason that there is, or it
gives a handle that named no file before, with a private file under it. The file starts from the entry
of its name if its mode reads, and otherwise empty; its cursor is at zero; and the volume is charged
for its capacity. -/
theorem open_exact {l : Limits} {start : Volume} (hl : create l = .ok start)
    (steps : List (Allocator × Request)) (name : String) (mode : Mode) :
    let v := start.after steps
    let result := (v.openAs grant name mode).result
    let v' := (v.openAs grant name mode).volume
    let contents := v.startContents name mode
    let capacity := max l.initialCapacity contents.length
    (∀ e, v.openRefusal grant l name mode = some e → result = .error e) ∧
    (v.openRefusal grant l name mode = none →
      ∃ h, result = .ok h ∧ v.isOpen h = false ∧
        (∃ file, v'.files.find? h = some file ∧ file.name = name ∧ file.mode = mode ∧
          file.contents = contents ∧ file.size = contents.length ∧ file.position = 0 ∧
          file.buffer.capacity = capacity) ∧
        v'.used = v.used + capacity ∧ v'.opened = v.opened + 1 ∧ v'.archive = v.archive ∧
        ∀ g, g ≠ h → v'.files.find? g = v.files.find? g) := by
  intro v result v' contents capacity
  obtain ⟨hcheck, rfl⟩ := create_eq_ok_iff.mp hl
  have hv : v.Obeys l := after_obeys l steps
  have houtcome := hv.openAs_outcome grant hcheck name mode
  refine ⟨fun e he => ?_, fun hnone => ?_⟩
  · rw [he] at houtcome
    exact houtcome
  · rw [hnone] at houtcome
    obtain ⟨h, hok, hplaced⟩ := houtcome
    have hcapacity : (v.startFile name mode (v.source name mode)).buffer.capacity = capacity :=
      hv.startCapacity_source
    have hcontents : (v.startFile name mode (v.source name mode)).contents = contents :=
      startContents_eq.symm
    refine ⟨h, hok, isOpen_eq_false.mpr hplaced.find?_before_placed, ?_, ?_, ?_, ?_, ?_⟩
    · exact ⟨_, hplaced.find?_placed, rfl, rfl, hcontents, congrArg _ hcontents, rfl, hcapacity⟩
    · rw [hplaced.used_of_placed, hcapacity]
    · exact hplaced.opened_of_placed
    · exact hplaced.archive_of_placed
    · exact fun g hg => (hplaced.find? g).trans (if_neg hg)

/-- An entry of three bytes is opened with room for just them, and a name without an entry is not
found. -/
theorem open_exact_of_entry :
    let grant : Allocator := fun _ _ => true
    let l : Limits := ⟨1, 1, 8, 2, some 7⟩
    let v := (ofLimits l).after [(grant, .save "a" [1, 2, 3])]
    let opened := v.openAs grant "a" .readWrite
    create l = .ok (ofLimits l) ∧ (v.openAs grant "b" .read).result = .error .notFound ∧
      v.used = 3 ∧ opened.volume.used = 6 ∧
      ∃ h file, opened.result = .ok h ∧ opened.volume.files.find? h = some file ∧
        file.contents = [1, 2, 3] ∧ file.buffer.capacity = 3 := by
  intro grant l v opened
  have hl : create l = .ok (ofLimits l) := rfl
  have hmissing : v.openRefusal grant l "b" .read = some .notFound := by decide +kernel
  have hfree : v.openRefusal grant l "a" .readWrite = none := by decide +kernel
  have hstored : v.startContents "a" .readWrite = [1, 2, 3] := by decide +kernel
  have hused : v.used = 3 := by decide +kernel
  obtain ⟨hrefused, -⟩ := open_exact grant hl [(grant, .save "a" [1, 2, 3])] "b" .read
  obtain ⟨-, hplaced⟩ := open_exact grant hl [(grant, .save "a" [1, 2, 3])] "a" .readWrite
  obtain ⟨h, hok, -, ⟨file, hfind, -, -, hcontents, -, -, hcapacity⟩, hcharge, -⟩ := hplaced hfree
  simp only [v, opened] at hstored hused ⊢
  simp only [hstored, hused] at hcontents hcapacity hcharge
  exact ⟨hl, hrefused _ hmissing, hused, hcharge, h, file, hok, hfind, hcontents, hcapacity⟩

end Volume

end Enclave
