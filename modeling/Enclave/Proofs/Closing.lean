import Enclave.Proofs.Admission
import Mathlib.Tactic.MkIffOfInductiveProp

namespace Enclave

namespace Archive

/-- The regions of a flush are granted: a copy of the name if it is new, and one of the bytes if there
are any. -/
structure GrantsFlush (a : Archive) (grant : Allocator) (name : String) (data : Bytes) : Prop where
  name : a.find? name = none → grant .entryName name.utf8ByteSize
  data : data ≠ [] → grant .entryData data.length

variable {a : Archive} {grant : Allocator} {name : String} {data : Bytes} {budget : Budget}

theorem flushRefusal_eq_none_iff (hname : name ≠ "") :
    a.flushRefusal grant name data budget = none ↔
      ((a.find? name).isSome ∨ a.size < a.maxEntries) ∧ budget.Admits data.length ∧
        a.GrantsFlush grant name data := by
  rw [flushRefusal_eq_none, String.utf8ByteSize_eq_zero_iff, List.length_eq_zero_iff]
  simp only [hname, false_or]
  have hdata : (data = [] ∨ grant .entryData data.length = true) ↔
      (data ≠ [] → grant .entryData data.length = true) := by
    rw [ne_eq, Decidable.or_iff_not_imp_left]
  rw [hdata]
  constructor
  · rintro ⟨hnew, hadmits, hgrant⟩
    refine ⟨?_, hadmits, fun hn => (hnew hn).2, hgrant⟩
    cases hf : a.find? name with
    | none => exact .inr (hnew hf).1
    | some old => exact .inl rfl
  · rintro ⟨hroom, hadmits, hgrants⟩
    refine ⟨fun hn => ⟨hroom.resolve_left ?_, hgrants.name hn⟩, hadmits, hgrants.data⟩
    simp [hn]

theorem fault_of_flushRefusal (hname : name ≠ "") {e : Fault}
    (h : a.flushRefusal grant name data budget = some e) :
    e = if a.find? name = none ∧ a.maxEntries ≤ a.size then
        .capacityExhausted .entries a.maxEntries
      else if a.find? name = none ∧ ¬ grant .entryName name.utf8ByteSize then
        .outOfMemory name.utf8ByteSize
      else .outOfMemory data.length := by
  simp only [flushRefusal, String.utf8ByteSize_eq_zero_iff, hname, false_or] at h
  split at h
  · next hfull =>
    rw [if_pos hfull]
    exact (Option.some.inj h).symm
  · next hroom =>
    rw [if_neg hroom]
    split at h
    · next hrefused =>
      rw [if_pos hrefused]
      exact (Option.some.inj h).symm
    · next hcopied =>
      rw [if_neg hcopied]
      split at h
      · cases h
      · exact (Option.some.inj h).symm

end Archive

namespace Volume

variable {v v' : Volume} {l : Limits} {h : Handle} {file : OpenFile} (grant : Allocator)

/-- `v'` has no file under `h`, and besides it the files of `v`. -/
structure Ends (v : Volume) (h : Handle) (v' : Volume) : Prop where
  closed : v'.isOpen h = false
  opened : v'.opened + 1 = v.opened
  others : ∀ g, g ≠ h → v'.files.find? g = v.files.find? g

theorem isOpen_eq_false : v.isOpen h = false ↔ v.files.find? h = none := by
  rw [isOpen, FileTable.contains, Option.isSome_eq_false_iff, Option.isNone_iff_eq_none]

theorem ends_of_vacated (hv : v.Sound) (hf : v.files.find? h = some file)
    (hfiles : v'.files = v.files.vacate h) : v.Ends h v' where
  closed := by rw [isOpen_eq_false, hfiles, FileTable.vacate_find? hf, if_pos rfl]
  opened := by
    rw [opened, opened, hfiles]
    exact hv.files.vacate_opened hf
  others g hg := by rw [hfiles, FileTable.vacate_find? hf, if_neg hg]

namespace Makes

theorem ends_of_dropped (hm : Makes v (.dropped h file) v') (hv : v.Sound) : v.Ends h v' := by
  cases hm with
  | dropped _ _ hf => exact ends_of_vacated hv hf rfl

theorem ends_of_flushed (hm : Makes v (.flushed h file) v') (hv : v.Sound) : v.Ends h v' := by
  cases hm with
  | flushed _ _ hf _ _ _ => exact ends_of_vacated hv hf rfl

theorem archive_of_dropped (hm : Makes v (.dropped h file) v') : v'.archive = v.archive :=
  hm.archive

theorem archive_of_flushed (hm : Makes v (.flushed h file) v') :
    v'.archive = v.archive.set file.name file.contents :=
  hm.archive

theorem used_of_dropped (hm : Makes v (.dropped h file) v') (hv : v.Solvent) :
    v'.used + file.buffer.capacity = v.used := by
  cases hm with
  | dropped _ _ hf =>
    have hle := hv.capacity_le hf file.name
    simp only [used, Buffer.refundTo, Budget.refund_used]
    omega

/-- The bytes replaced are part of what was used before, so both refunds are whole. -/
theorem used_of_flushed (hm : Makes v (.flushed h file) v') (hv : v.Solvent) :
    v'.used + file.buffer.capacity + v.archive.sizeOf file.name = v.used + file.size := by
  cases hm with
  | flushed _ _ hf _ _ _ =>
    have hle := hv.capacity_le hf file.name
    simp only [used, Buffer.refundTo, Budget.refund_used, Budget.raise_used]
    omega

end Makes

theorem close_of_refusal (hf : v.files.find? h = some file) (hm : file.mode.canWrite) :
    match v.archive.flushRefusal grant file.name file.contents v.budget with
    | none => (v.close grant h).result = .ok () ∧
        Makes v (.flushed h file) (v.close grant h).volume
    | some e => (v.close grant h).result = .error e ∧
        Makes v (.dropped h file) (v.close grant h).volume := by
  simp only [close, hf, flushFile, if_pos hm, Archive.flush_eq]
  cases hr : v.archive.flushRefusal grant file.name file.contents v.budget with
  | some e => exact ⟨rfl, .dropped h file hf⟩
  | none =>
    obtain ⟨hroom, hadmits, -⟩ := (v.archive.flushRefusal_eq_none grant).mp hr
    exact ⟨rfl, .flushed h file hf hm hadmits fun hn => (hroom hn).1⟩

theorem close_drops_of_reading (hf : v.files.find? h = some file)
    (hm : file.mode.canWrite = false) : Makes v (.dropped h file) (v.close grant h).volume := by
  obtain ⟨hwrite, -⟩ | ⟨-, hdrop⟩ := close_of_some grant hf
  · rw [hm] at hwrite
    cases hwrite
  · exact hdrop

@[mk_iff]
structure Flushable (v : Volume) (l : Limits) (file : OpenFile) : Prop where
  room : (v.archive.find? file.name).isSome ∨ v.archive.size < l.maxEntries
  memory : l.Covers (v.used + file.size)
  regions : v.archive.GrantsFlush grant file.name file.contents

theorem Obeys.name_ne_empty (hv : v.Obeys l) (hf : v.files.find? h = some file) :
    file.name ≠ "" :=
  (Limits.allows_iff.mp (hv.safe.fit.files h file hf).name_ok).nonempty

theorem Obeys.flushRefusal_eq_none_iff (hv : v.Obeys l) (hf : v.files.find? h = some file) :
    v.archive.flushRefusal grant file.name file.contents v.budget = none ↔
      v.Flushable grant l file := by
  rw [Archive.flushRefusal_eq_none_iff (hv.name_ne_empty hf), hv.admits_iff, hv.maxEntries_eq,
    flushable_iff]
  rfl

theorem Obeys.close_cases (hv : v.Obeys l) (hf : v.files.find? h = some file)
    (hm : file.mode.canWrite) :
    v.Flushable grant l file ∧ (v.close grant h).result = .ok () ∧
        Makes v (.flushed h file) (v.close grant h).volume ∨
      ¬ v.Flushable grant l file ∧
        (∃ e, v.archive.flushRefusal grant file.name file.contents v.budget = some e ∧
          (v.close grant h).result = .error e) ∧
        Makes v (.dropped h file) (v.close grant h).volume := by
  have hclose := close_of_refusal grant hf hm
  have hiff := hv.flushRefusal_eq_none_iff grant hf
  cases hr : v.archive.flushRefusal grant file.name file.contents v.budget with
  | none =>
    rw [hr] at hclose
    exact .inl ⟨hiff.mp hr, hclose⟩
  | some e =>
    rw [hr] at hclose
    refine .inr ⟨fun hflush => ?_, ⟨e, rfl, hclose.1⟩, hclose.2⟩
    cases hr.symm.trans (hiff.mpr hflush)

/-- After every run of a fresh volume, a close of a handle that is not open fails and changes nothing.
That of an open one ends the handle and gives its buffer back, whatever the outcome. A file that can
only be read leaves the entries as they are. One that can be written becomes the entry under its name
exactly when there is room for it; otherwise the close tells what there was no room for, and the
entries stay. -/
theorem close_releases_and_flushes (l : Limits) (steps : List (Allocator × Request))
    (grant : Allocator) (h : Handle) :
    let v := (ofLimits l).after steps
    let result := (v.close grant h).result
    let v' := (v.close grant h).volume
    (v.isOpen h = false → result = .error .invalidHandle ∧ v' = v) ∧
    ∀ file, v.files.find? h = some file →
      v.Ends h v' ∧
      (file.mode = .read →
        result = .ok () ∧ v'.archive = v.archive ∧ v'.used + file.buffer.capacity = v.used) ∧
      (file.mode.canWrite →
        (result = .ok () ↔
          ((v.archive.find? file.name).isSome ∨ v.archive.size < l.maxEntries) ∧
            l.Covers (v.used + file.size) ∧
            v.archive.GrantsFlush grant file.name file.contents) ∧
        (result = .ok () →
          (∀ name, v'.archive.find? name =
            if name = file.name then some file.contents else v.archive.find? name) ∧
          v'.used + file.buffer.capacity + v.archive.sizeOf file.name = v.used + file.size) ∧
        ∀ e, result = .error e →
          e = (if v.archive.find? file.name = none ∧ l.maxEntries ≤ v.archive.size then
              .capacityExhausted .entries l.maxEntries
            else if v.archive.find? file.name = none ∧
                ¬ grant .entryName file.name.utf8ByteSize then
              .outOfMemory file.name.utf8ByteSize
            else .outOfMemory file.size) ∧
          v'.archive = v.archive ∧ v'.used + file.buffer.capacity = v.used) := by
  intro v result v'
  have hv : v.Obeys l := after_obeys l steps
  refine ⟨fun hclosed => ?_, fun file hf => ?_⟩
  · have hclose := close_of_none grant (isOpen_eq_false.mp hclosed)
    exact ⟨congrArg Reply.result hclose, congrArg Reply.volume hclose⟩
  · refine ⟨?_, fun hread => ?_, fun hwrite => ?_⟩
    · -- Flushed or dropped, the file has left its slot.
      obtain ⟨-, -, hflush⟩ | ⟨-, hdrop⟩ := close_of_some grant hf
      · exact hflush.ends_of_flushed hv.sound
      · exact hdrop.ends_of_dropped hv.sound
    · have hmode : file.mode.canWrite = false := by
        rw [hread]
        rfl
      have hdrop := close_drops_of_reading grant hf hmode
      exact ⟨(close_of_reading grant hf hmode).1, hdrop.archive_of_dropped,
        hdrop.used_of_dropped hv.safe.solvent⟩
    · rw [← flushable_iff]
      obtain ⟨hflushable, hok, hflush⟩ | ⟨hrefused, ⟨e, hr, herror⟩, hdrop⟩ :=
        hv.close_cases grant hf hwrite
      · refine ⟨iff_of_true hok hflushable, fun _ => ⟨fun name => ?_, ?_⟩, fun e he => ?_⟩
        · rw [hflush.archive_of_flushed, Archive.find?_set]
        · exact hflush.used_of_flushed hv.safe.solvent
        · cases hok.symm.trans he
      · have hfailed : result ≠ .ok () := fun hok => by cases herror.symm.trans hok
        refine ⟨iff_of_false hfailed hrefused, fun hok => absurd hok hfailed, fun e' he => ?_⟩
        obtain rfl : e = e' := Except.error.inj (herror.symm.trans he)
        have hfault := Archive.fault_of_flushRefusal (hv.name_ne_empty hf) hr
        rw [hv.maxEntries_eq] at hfault
        exact ⟨hfault, hdrop.archive_of_dropped, hdrop.used_of_dropped hv.safe.solvent⟩

/-- A new name is copied before the bytes are, and the allocator may refuse the copy: then the close
fails with the length of the name, though there is room for the entry and its bytes are granted. -/
theorem close_fails_for_want_of_a_name :
    let l : Limits := ⟨1, 1, 8, 16, some 20⟩
    let grant : Allocator := fun purpose _ => decide (purpose ≠ .entryName)
    let v := (ofLimits l).after [(grant, .openAs "log" .write), (grant, .write ⟨0, 1⟩ [7, 8] 1 2)]
    let result := (v.close grant ⟨0, 1⟩).result
    create l = .ok (ofLimits l) ∧
      ∃ file, v.files.find? ⟨0, 1⟩ = some file ∧ file.mode.canWrite ∧
        ¬ (result = .ok () ↔
          ((v.archive.find? file.name).isSome ∨ v.archive.size < l.maxEntries) ∧
            l.Covers (v.used + file.size) ∧ grant .entryData file.size) ∧
        result = .error (.outOfMemory file.name.utf8ByteSize) ∧
        result ≠ .error (.capacityExhausted .entries l.maxEntries) ∧
        result ≠ .error (.outOfMemory file.size) := by
  intro l grant v result
  have hfile : v.files.find? ⟨0, 1⟩ = some ⟨"log", ⟨[7, 8], 16, ⟨16⟩⟩, 2, .write⟩ := by decide
  have hroom : v.archive.size < l.maxEntries := by decide
  have hcovers : l.Covers (v.used + 2) := by decide
  have hresult : result = .error (.outOfMemory "log".utf8ByteSize) := by decide
  refine ⟨rfl, _, hfile, rfl, fun hiff => ?_, hresult, ?_, ?_⟩
  · have hok : result = .ok () := hiff.mpr ⟨.inr hroom, hcovers, rfl⟩
    cases hresult.symm.trans hok
  · rw [hresult]
    decide
  · rw [hresult]
    decide

end Volume

end Enclave
