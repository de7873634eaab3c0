import Enclave.Proofs.Closing

namespace Enclave

namespace Limits

variable {l : Limits} {m n : Nat}

def grown (l : Limits) (n : Nat) : Nat :=
  (Growth.mk l.initialCapacity).capacityFor l.initialCapacity n

theorem le_grown (l : Limits) (n : Nat) : l.initialCapacity ≤ l.grown n :=
  Growth.le_capacityFor _ _ _

theorem Covers.of_le (h : l.Covers n) (hle : m ≤ n) : l.Covers m :=
  ⟨Nat.lt_of_le_of_lt hle h.1, fun limit hl => Nat.le_trans hle (h.2 limit hl)⟩

end Limits

namespace Volume

/-- `v'` has the entries, the open files and the charges of `v`. -/
structure Keeps (v v' : Volume) : Prop where
  archive : v'.archive = v.archive
  files : ∀ g, v'.files.find? g = v.files.find? g
  opened : v'.opened = v.opened
  used : v'.used = v.used

variable {v v' v₁ v₂ : Volume} {l : Limits} {h : Handle} {file : OpenFile} (grant : Allocator)

theorem Keeps.refl (v : Volume) : v.Keeps v :=
  ⟨rfl, fun _ => rfl, rfl, rfl⟩

namespace Makes

theorem archive_of_placed (hm : Makes v (.placed h file) v') : v'.archive = v.archive :=
  hm.archive

theorem opened_of_placed (hm : Makes v (.placed h file) v') : v'.opened = v.opened + 1 := by
  cases hm with
  | placed _ _ _ _ _ _ hp _ _ => exact hp.opened_eq

theorem used_of_placed (hm : Makes v (.placed h file) v') :
    v'.used = v.used + file.buffer.capacity := by
  cases hm with
  | placed _ _ _ _ _ _ _ _ _ => rfl

theorem used_of_wrote {data : Bytes} (hm : Makes v (.wrote h file data) v') :
    v'.used + file.buffer.capacity = v.used + (file.written data).buffer.capacity := by
  cases hm with
  | wrote _ _ _ _ _ _ _ =>
    have hle := file.buffer.le_capacityAfter file.position data
    simp only [used, Budget.raise_used, OpenFile.written, Buffer.written]
    omega

end Makes

namespace Edits

theorem archive (he : v.Edits h v') : v'.archive = v.archive := by
  obtain rfl | ⟨file, ⟨position, hm⟩ | ⟨data, hm⟩⟩ := he
  · rfl
  · exact hm.archive
  · exact hm.archive

theorem opened (he : v.Edits h v') : v'.opened = v.opened := by
  obtain rfl | ⟨file, ⟨position, hm⟩ | ⟨data, hm⟩⟩ := he
  · rfl
  · cases hm with
    | moved _ _ _ _ _ => rfl
  · cases hm with
    | wrote _ _ _ _ _ _ _ => rfl

theorem used {file' : OpenFile} (he : v.Edits h v') (hf : v.files.find? h = some file)
    (hf' : v'.files.find? h = some file') :
    v'.used + file.buffer.capacity = v.used + file'.buffer.capacity := by
  obtain rfl | ⟨edited, ⟨position, hm⟩ | ⟨data, hm⟩⟩ := he
  · obtain rfl := Option.some.inj (hf.symm.trans hf')
    rfl
  · have hfind := (hm.find? h).trans (if_pos rfl)
    obtain rfl := Option.some.inj (hf'.symm.trans hfind)
    cases hm with
    | moved _ _ _ hold _ =>
      obtain rfl := Option.some.inj (hf.symm.trans hold)
      rfl
  · obtain rfl := Option.some.inj (hf'.symm.trans hm.find?_wrote)
    have hused := hm.used_of_wrote
    cases hm with
    | wrote _ _ _ _ hold _ _ =>
      obtain rfl := Option.some.inj (hf.symm.trans hold)
      exact hused

end Edits

/-- A file that is opened, edited and dropped leaves no trace. -/
theorem keeps_of_passing {file' : OpenFile} (hv : v₂.Solvent)
    (hplaced : Makes v (.placed h file) v₁) (he : v₁.Edits h v₂)
    (hf' : v₂.files.find? h = some file') (hdrop : Makes v₂ (.dropped h file') v') :
    v.Keeps v' where
  archive := hdrop.archive_of_dropped.trans (he.archive.trans hplaced.archive_of_placed)
  files := find?_of_passing hplaced he hdrop.find?
  opened := by
    have hends := (hdrop.ends_of_dropped hv.1).opened
    have hopened := hplaced.opened_of_placed
    have hedited := he.opened
    omega
  used := by
    have hdropped := hdrop.used_of_dropped hv
    have hedited := he.used hplaced.find?_placed hf'
    have hpaid := hplaced.used_of_placed
    omega

theorem wrote_nil (hv : v.Safe) (hf : v.files.find? h = some file) (hm : file.mode.canWrite) :
    file.buffer.Fits (grant .growth) file.position [] v.budget ∧
      Makes v (.wrote h file []) v := by
  have hfit := hv.fit.files h file hf
  have hend : file.position ≤ file.buffer.capacity := Nat.le_trans hfit.position_le hfit.size_le
  have hcap : file.buffer.capacityAfter file.position [] = file.buffer.capacity :=
    file.buffer.growth.capacityFor_of_le hend
  have hfits : file.buffer.Fits (grant .growth) file.position [] v.budget :=
    ⟨Nat.lt_of_le_of_lt hend (hv.capacity_lt hf), .inl (Nat.le_of_eq hcap)⟩
  have hwrote := Makes.wrote h file [] (grant .growth) hf hm hfits
  rw [hfit.written_nil, FileTable.replace_self hf, hcap, Nat.sub_self, Budget.raise_zero] at hwrote
  exact ⟨hfits, hwrote⟩

theorem write_whole (hv : v.Safe) (hf : v.files.find? h = some file) (hm : file.mode.canWrite)
    (data : Bytes) :
    (file.buffer.Fits (grant .growth) file.position data v.budget ∧
      (v.write grant h data 1 data.length).result = .ok data.length ∧
      Makes v (.wrote h file data) (v.write grant h data 1 data.length).volume) ∨
    ¬ file.buffer.Fits (grant .growth) file.position data v.budget ∧
      ∃ e, (v.write grant h data 1 data.length).result = .error e ∧
        (v.write grant h data 1 data.length).volume = v := by
  rw [write_of_some grant hf]
  -- Data as long as the word is refused as a product that overflows, and does not fit either.
  by_cases hw : wordLimit ≤ data.length
  · have hrefusal : file.refusal .write 1 data.length data.length .dataTooShort =
        some .productOverflow := by
      simp [OpenFile.refusal, Mode.allows, hm, hw]
    rw [hrefusal]
    refine .inr ⟨fun hfits => ?_, _, rfl, rfl⟩
    have hend := hfits.1
    omega
  · have hrefusal : file.refusal .write 1 data.length data.length .dataTooShort = none := by
      simp [OpenFile.refusal, Mode.allows, hm, hw]
    simp only [hrefusal, Nat.one_mul, List.take_length]
    by_cases hz : data.length = 0
    · obtain rfl := List.length_eq_zero_iff.mp hz
      obtain ⟨hfits, hwrote⟩ := wrote_nil grant hv hf hm
      exact .inl ⟨hfits, rfl, hwrote⟩
    · by_cases hfits : file.buffer.Fits (grant .growth) file.position data v.budget
      · simp only [if_neg hz, if_pos hfits, Nat.div_one]
        exact .inl ⟨hfits, trivial, .wrote h file data (grant .growth) hf hm hfits⟩
      · simp only [if_neg hz, if_neg hfits]
        exact .inr ⟨hfits, _, rfl, trivial⟩

theorem fill_whole (hv : v.Safe) (hf : v.files.find? h = some file) (hm : file.mode.canWrite)
    (data : Bytes) :
    (file.buffer.Fits (grant .growth) file.position data v.budget ∧
      (v.fill grant h data).result = .ok () ∧
      Makes v (.wrote h file data) (v.fill grant h data).volume) ∨
    ¬ file.buffer.Fits (grant .growth) file.position data v.budget ∧
      (∃ e, (v.fill grant h data).result = .error e) ∧
      Makes v (.dropped h file) (v.fill grant h data).volume := by
  have hdrop := (discard_of_some hf).2
  have hwrite := write_whole grant hv hf hm data
  rw [fill]
  generalize v.write grant h data 1 data.length = written at hwrite ⊢
  obtain ⟨result, w, events⟩ := written
  obtain ⟨hfits, rfl, hwrote⟩ | ⟨hfits, e, rfl, rfl⟩ := hwrite
  · exact .inl ⟨hfits, rfl, hwrote⟩
  · dsimp only
    generalize w.discard h = discarded at hdrop ⊢
    obtain ⟨e' | _, w', events'⟩ := discarded
    · exact .inr ⟨hfits, ⟨e', rfl⟩, hdrop⟩
    · exact .inr ⟨hfits, ⟨e, rfl⟩, hdrop⟩

structure GrantsSave (v : Volume) (l : Limits) (name : String) (data : Bytes) : Prop where
  openName : grant .openName name.utf8ByteSize
  openBuffer : grant .openBuffer l.initialCapacity
  growth : l.initialCapacity < l.grown data.length →
    grant .growth (l.grown data.length)
  flush : v.archive.GrantsFlush grant name data

/-- What a save needs besides a slot. At its peak the grown buffer and the new entry are paid for, and
an old entry is not given back yet. -/
@[mk_iff]
structure Savable (v : Volume) (l : Limits) (name : String) (data : Bytes) : Prop where
  allowed : l.Allows name
  room : v.opened < l.maxOpen
  place : (v.archive.find? name).isSome ∨ v.archive.size < l.maxEntries
  memory : l.Covers (v.used + l.grown data.length + data.length)
  regions : v.GrantsSave grant l name data

section Stages

variable {name : String} {data : Bytes} (hv : v.Obeys l)
include hv

theorem Obeys.startCapacity_none : v.startCapacity none = l.initialCapacity := by
  rw [startCapacity, hv.limits_eq]
  exact Nat.max_zero _

theorem Obeys.startFile_written (name : String) (data : Bytes) :
    (v.startFile name .write none).written data =
      ⟨name, ⟨data, l.grown data.length, v.growth⟩, data.length, .write⟩ := by
  have hgrowth : v.growth = ⟨l.initialCapacity⟩ := by rw [growth, hv.limits_eq]
  simp only [startFile, OpenFile.written, Buffer.written, Buffer.capacityAfter, Option.getD_none,
    overlay_nil, Nat.zero_add, hv.startCapacity_none, hgrowth, Limits.grown]

theorem Savable.openable (hs : v.Savable grant l name data) :
    v.Openable grant l name .write where
  allowed := hs.allowed
  room := hs.room
  found := nofun
  memory := by
    have hle := l.le_grown data.length
    have hcap : v.startCapacity (v.source name .write) = l.initialCapacity :=
      hv.startCapacity_none
    rw [hcap]
    exact hs.memory.of_le (by omega)
  nameRegion := hs.regions.openName
  bufferRegion := by
    have hcap : v.startCapacity (v.source name .write) = l.initialCapacity :=
      hv.startCapacity_none
    rw [hcap]
    exact hs.regions.openBuffer

variable (hplaced : Makes v (.placed h (v.startFile name .write none)) v₁)
include hplaced

theorem Obeys.used_opened : v₁.used = v.used + l.initialCapacity := by
  rw [hplaced.used_of_placed, ← hv.startCapacity_none]
  rfl

theorem Obeys.fits_placed_iff :
    (v.startFile name .write none).buffer.Fits (grant .growth) 0 data v₁.budget ↔
      data.length < wordLimit ∧ l.Covers (v.used + l.grown data.length) ∧
        (l.initialCapacity < l.grown data.length → grant .growth (l.grown data.length)) := by
  have hle := l.le_grown data.length
  have hcap : (v.startFile name .write none).buffer.capacity = l.initialCapacity :=
    hv.startCapacity_none
  have hafter : (v.startFile name .write none).buffer.capacityAfter 0 data =
      l.grown data.length :=
    congrArg (·.buffer.capacity) (hv.startFile_written name data)
  have htotal : v₁.used + (l.grown data.length - l.initialCapacity) =
      v.used + l.grown data.length := by
    have hused := hv.used_opened hplaced
    omega
  rw [(hplaced.leads.obeys hv).fits_iff, hcap, hafter, htotal, Nat.zero_add]

theorem Savable.fits (hs : v.Savable grant l name data) :
    (v.startFile name .write none).buffer.Fits (grant .growth) 0 data v₁.budget := by
  have hpeak := hs.memory
  refine (hv.fits_placed_iff grant hplaced).mpr ⟨?_, ?_, hs.regions.growth⟩
  · exact Nat.lt_of_le_of_lt (Nat.le_add_left _ _) hpeak.1
  · exact hpeak.of_le (Nat.le_add_right _ _)

variable (hwrote : Makes v₁ (.wrote h (v.startFile name .write none) data) v₂)
include hwrote

theorem Obeys.used_written : v₂.used = v.used + l.grown data.length := by
  have hused := hwrote.used_of_wrote
  have hopened := hv.used_opened hplaced
  have hcap : (v.startFile name .write none).buffer.capacity = l.initialCapacity :=
    hv.startCapacity_none
  rw [hv.startFile_written, hcap] at hused
  dsimp only at hused
  omega

theorem Obeys.flushable_iff_written :
    v₂.Flushable grant l ((v.startFile name .write none).written data) ↔
      ((v.archive.find? name).isSome ∨ v.archive.size < l.maxEntries) ∧
        l.Covers (v.used + l.grown data.length + data.length) ∧
        v.archive.GrantsFlush grant name data := by
  have harchive : v₂.archive = v.archive := hwrote.archive.trans hplaced.archive_of_placed
  rw [flushable_iff, harchive, hv.used_written hplaced hwrote, hv.startFile_written]
  rfl

theorem Savable.of_stages (hopen : v.Openable grant l name .write)
    (hfits : (v.startFile name .write none).buffer.Fits (grant .growth) 0 data v₁.budget)
    (hflush : v₂.Flushable grant l ((v.startFile name .write none).written data)) :
    v.Savable grant l name data := by
  obtain ⟨hplace, hmemory, hregions⟩ :=
    (hv.flushable_iff_written grant hplaced hwrote).mp hflush
  refine ⟨hopen.allowed, hopen.room, hplace, hmemory, hopen.nameRegion, ?_, ?_, hregions⟩
  · rw [← hv.startCapacity_none]
    exact hopen.bufferRegion
  · exact ((hv.fits_placed_iff grant hplaced).mp hfits).2.2

theorem Obeys.save_effect
    (hflushed : Makes v₂ (.flushed h ((v.startFile name .write none).written data)) v') :
    (∀ key, v'.archive.find? key = if key = name then some data else v.archive.find? key) ∧
      (∀ g, v'.files.find? g = v.files.find? g) ∧ v'.opened = v.opened ∧
      v'.used + v.archive.sizeOf name = v.used + data.length := by
  have hv₂ : v₂.Obeys l := hwrote.leads.obeys (hplaced.leads.obeys hv)
  have harchive : v₂.archive = v.archive := hwrote.archive.trans hplaced.archive_of_placed
  have hedits : v₁.Edits h v₂ := .inr ⟨_, .inr ⟨data, hwrote⟩⟩
  refine ⟨fun key => ?_, find?_of_passing hplaced hedits hflushed.find?, ?_, ?_⟩
  · rw [hflushed.archive_of_flushed, Archive.find?_set, harchive, hv.startFile_written]
    rfl
  · have hopened := hplaced.opened_of_placed
    have hedited := hedits.opened
    have hclosed := (hflushed.ends_of_flushed hv₂.sound).opened
    omega
  · have hused := hflushed.used_of_flushed hv₂.safe.solvent
    have hwritten := hv.used_written hplaced hwrote
    rw [harchive, hv.startFile_written] at hused
    simp only [OpenFile.size, Buffer.size] at hused
    omega

end Stages

/-- A save fails at the open, at the fill or at the close, and leaves no trace, or it passes all
three. -/
theorem Obeys.save_stages (hv : v.Obeys l) (hl : l.check = .ok ()) (hs : v.files.HasSlot)
    (name : String) (data : Bytes) :
    v.Savable grant l name data ∧ (v.save grant name data).result = .ok () ∧
        (∃ h v₁ v₂, Makes v (.placed h (v.startFile name .write none)) v₁ ∧
          Makes v₁ (.wrote h (v.startFile name .write none) data) v₂ ∧
          Makes v₂ (.flushed h ((v.startFile name .write none).written data))
            (v.save grant name data).volume) ∨
      ¬ v.Savable grant l name data ∧ (∃ e, (v.save grant name data).result = .error e) ∧
        v.Keeps (v.save grant name data).volume := by
  obtain ⟨hopen, e, ho⟩ | ⟨hopen, h, v₁, ho, hplaced⟩ :=
    openAs_of_hasSlot grant hv hl hs name .write
  · rw [save, ho]
    exact .inr ⟨fun hs => hopen (hs.openable grant hv), ⟨e, rfl⟩, .refl v⟩
  have hv₁ : v₁.Obeys l := hplaced.leads.obeys hv
  have hfill := fill_whole grant hv₁.safe hplaced.find?_placed rfl data
  rw [save, ho]
  simp only [Reply.andThen]
  generalize v₁.fill grant h data = filled at hfill ⊢
  obtain ⟨result, v₂, events⟩ := filled
  obtain ⟨hfits, rfl, hwrote⟩ | ⟨hfits, ⟨e, rfl⟩, hdrop⟩ := hfill
  · have hv₂ : v₂.Obeys l := hwrote.leads.obeys hv₁
    have hclose := hv₂.close_cases grant hwrote.find?_wrote rfl
    dsimp only at hclose ⊢
    generalize v₂.close grant h = closed at hclose ⊢
    obtain ⟨result', v₃, events'⟩ := closed
    obtain ⟨hflush, rfl, hflushed⟩ | ⟨hflush, ⟨e, -, rfl⟩, hdrop⟩ := hclose
    · exact .inl ⟨.of_stages grant hv hplaced hwrote hopen hfits hflush, rfl, h, v₁, v₂, hplaced,
        hwrote, hflushed⟩
    · -- The fill has paid for what the flush is refused; the drop gives all of it back.
      refine .inr ⟨fun hs => hflush ?_, ⟨e, rfl⟩, ?_⟩
      · exact (hv.flushable_iff_written grant hplaced hwrote).mpr
          ⟨hs.place, hs.memory, hs.regions.flush⟩
      · have hedits : v₁.Edits h v₂ := .inr ⟨_, .inr ⟨data, hwrote⟩⟩
        exact keeps_of_passing hv₂.safe.solvent hplaced hedits hwrote.find?_wrote hdrop
  · exact .inr ⟨fun hs => hfits (hs.fits grant hv hplaced), ⟨e, rfl⟩,
      keeps_of_passing hv₁.safe.solvent hplaced (.inl rfl) hplaced.find?_placed hdrop⟩

/-- After every run of a volume in which a slot is left, a save succeeds exactly when its name is
allowed, one more file may be open, there is room for a new name, and there are memory and regions
for its peak. Then the entry is `data`, and nothing else changes but the charge for the entry. A save
that fails changes nothing. -/
theorem save_all_or_nothing {l : Limits} {start : Volume} (h : create l = .ok start)
    (steps : List (Allocator × Request)) (hslot : (start.after steps).files.HasSlot)
    (grant : Allocator) (name : String) (data : Bytes) :
    let v := start.after steps
    let result := (v.save grant name data).result
    let v' := (v.save grant name data).volume
    (result = .ok () ↔
      l.Allows name ∧ v.opened < l.maxOpen ∧
        ((v.archive.find? name).isSome ∨ v.archive.size < l.maxEntries) ∧
        l.Covers (v.used + l.grown data.length + data.length) ∧
        v.GrantsSave grant l name data) ∧
    (result = .ok () →
      (∀ key, v'.archive.find? key = if key = name then some data else v.archive.find? key) ∧
      (∀ g, v'.files.find? g = v.files.find? g) ∧ v'.opened = v.opened ∧
      v'.used + v.archive.sizeOf name = v.used + data.length) ∧
    ∀ e, result = .error e → v.Keeps v' := by
  intro v result v'
  obtain ⟨hl, rfl⟩ := create_eq_ok_iff.mp h
  have hv : v.Obeys l := after_obeys l steps
  rw [← savable_iff]
  obtain ⟨hsavable, hok, h, v₁, v₂, hplaced, hwrote, hflushed⟩ | ⟨hsavable, ⟨e, herror⟩, hkeeps⟩ :=
    hv.save_stages grant hl hslot name data
  · refine ⟨iff_of_true hok hsavable, fun _ => hv.save_effect hplaced hwrote hflushed,
      fun e he => ?_⟩
    cases hok.symm.trans he
  · have hfailed : result ≠ .ok () := fun hok => by cases herror.symm.trans hok
    exact ⟨iff_of_false hfailed hsavable, fun hok => absurd hok hfailed, fun _ _ => hkeeps⟩

/-- An entry of three bytes is replaced by one of two. The limit is just what the new entry, its
buffer and the old entry take together. -/
theorem save_all_or_nothing_replacing :
    let l : Limits := ⟨1, 1, 8, 16, some 21⟩
    let v := (ofLimits l).after [(fun _ _ => true, .save "a" [1, 2, 3])]
    let reply := v.save (fun _ _ => true) "a" [4, 5]
    create l = .ok (ofLimits l) ∧ v.files.HasSlot ∧ v.used + l.grown 2 + 2 = 21 ∧
      reply.result = .ok () ∧ reply.volume.used = 2 := by
  intro l v reply
  have hc : create l = .ok (ofLimits l) := rfl
  have hslot : v.files.HasSlot := .inl (by decide)
  have hold : v.archive.sizeOf "a" = 3 := by decide
  have hpeak : v.used + l.grown 2 + 2 = 21 := by
    have hused : v.used = 3 := by decide
    rw [hused]
    rfl
  obtain ⟨hiff, hsuccess, -⟩ := save_all_or_nothing hc _ hslot (fun _ _ => true) "a" [4, 5]
  have hname : l.Allows "a" := ⟨by decide, by decide, by decide⟩
  have hcovers : l.Covers (v.used + l.grown 2 + 2) := by
    rw [hpeak]
    exact ⟨by decide, fun limit hl => Nat.le_of_eq (Option.some.inj hl)⟩
  have hok : reply.result = .ok () :=
    hiff.mpr ⟨hname, by decide, .inl (by decide), hcovers, rfl, rfl, fun _ => rfl, fun _ => rfl,
      fun _ => rfl⟩
  obtain ⟨-, -, -, hcharge⟩ := hsuccess hok
  rw [hold] at hcharge
  exact ⟨hc, hslot, hpeak, hok, Nat.add_right_cancel hcharge⟩

end Volume

end Enclave
