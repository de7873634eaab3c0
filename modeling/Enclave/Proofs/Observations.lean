import Enclave.Proofs.Isolation

namespace Enclave

open Fault (isOutOfMemory)

namespace OpenFile

def roomed (f : OpenFile) (capacity : Nat) (growth : Growth) : OpenFile :=
  { f with buffer := ⟨f.contents, capacity, growth⟩ }

theorem eq_roomed {f f' : OpenFile} (h : f'.copy = f.copy) :
    ∃ capacity growth, f' = f.roomed capacity growth := by
  obtain ⟨name, ⟨content, capacity, growth⟩, position, mode⟩ := f
  obtain ⟨name', ⟨content', capacity', growth'⟩, position', mode'⟩ := f'
  obtain ⟨rfl, rfl, rfl, rfl⟩ := Copy.mk.inj h
  exact ⟨capacity', growth', rfl⟩

variable (f : OpenFile) (capacity : Nat) (growth : Growth)

theorem refusal_roomed (required : Access) (elementSize count available : Nat) (short : Fault) :
    (f.roomed capacity growth).refusal required elementSize count available short =
      f.refusal required elementSize count available short := rfl

theorem seek_roomed (offset : Int) (origin : Origin) :
    (f.roomed capacity growth).seek offset origin =
      (f.seek offset origin).map fun moved => (moved.1, moved.2.roomed capacity growth) := by
  have hbase : (f.roomed capacity growth).base origin = f.base origin := by cases origin <;> rfl
  have hsize : (f.roomed capacity growth).size = f.size := rfl
  simp only [seek, hbase, hsize]
  split
  · rfl
  · split
    · rfl
    · rfl

end OpenFile

def Slot.shown (s : Slot) : UInt16 × Option Copy :=
  (s.generation, s.file.map OpenFile.copy)

namespace FileTable

structure Alike (t t' : FileTable) : Prop where
  slots : t'.slots.map Slot.shown = t.slots.map Slot.shown
  free : t'.free = t.free
  maxOpen : t'.maxOpen = t.maxOpen
  opened : t'.opened = t.opened

theorem map_find? (t : FileTable) (h : Handle) :
    (t.find? h).map OpenFile.copy = (t.slots.map Slot.shown)[h.slot.toNat]?.bind fun s =>
      if s.1 = h.generation then s.2 else none := by
  rw [find?, Array.getElem?_map]
  cases t.slots[h.slot.toNat]? with
  | none => rfl
  | some s =>
    simp only [Option.map_some, Option.bind_some, Slot.shown]
    split
    · rfl
    · rfl

theorem generationAt_eq (slots : Array Slot) (index : UInt16) :
    generationAt slots index = (slots.map Slot.shown)[index.toNat]?.elim 0 Prod.fst := by
  rw [generationAt, Array.getElem?_map]
  cases slots[index.toNat]? <;> rfl

namespace Alike

variable {t t' : FileTable} (ha : t.Alike t')
include ha

theorem map_find?_eq (h : Handle) :
    (t'.find? h).map OpenFile.copy = (t.find? h).map OpenFile.copy := by
  rw [map_find?, map_find?, ha.slots]

theorem find?_cases (h : Handle) :
    t.find? h = none ∧ t'.find? h = none ∨
      ∃ f f', t.find? h = some f ∧ t'.find? h = some f' ∧ f'.copy = f.copy := by
  have hfind := ha.map_find?_eq h
  cases hf : t.find? h with
  | none =>
    rw [hf] at hfind
    exact .inl ⟨rfl, Option.map_eq_none_iff.mp hfind⟩
  | some f =>
    rw [hf] at hfind
    obtain ⟨f', hf', hcopy⟩ := Option.map_eq_some_iff.mp hfind
    exact .inr ⟨f, f', rfl, hf', hcopy⟩

theorem size_eq : t'.slots.size = t.slots.size := by
  have hsize := congrArg Array.size ha.slots
  rwa [Array.size_map, Array.size_map] at hsize

theorem generationAt (index : UInt16) :
    FileTable.generationAt t'.slots index = FileTable.generationAt t.slots index := by
  rw [generationAt_eq, generationAt_eq, ha.slots]

theorem ensureRoom : t'.ensureRoom = t.ensureRoom := by
  rw [FileTable.ensureRoom, FileTable.ensureRoom, ha.maxOpen, ha.opened]

theorem set (i : Nat) {s s' : Slot} (hs : s'.shown = s.shown) :
    (t'.slots.setIfInBounds i s').map Slot.shown =
      (t.slots.setIfInBounds i s).map Slot.shown := by
  rw [Array.map_setIfInBounds, Array.map_setIfInBounds, ha.slots, hs]

theorem replace (h : Handle) {f f' : OpenFile} (hf : f'.copy = f.copy) :
    (t.replace h f).Alike (t'.replace h f') where
  slots := ha.set _ (by rw [Slot.shown, Slot.shown, Option.map_some, Option.map_some, hf])
  free := ha.free
  maxOpen := ha.maxOpen
  opened := ha.opened

theorem vacate (h : Handle) : (t.vacate h).Alike (t'.vacate h) := by
  rw [vacate_eq, vacate_eq, ha.free, ha.maxOpen, ha.opened]
  exact ⟨ha.set _ rfl, rfl, rfl, rfl⟩

theorem insert {f f' : OpenFile} (hf : f'.copy = f.copy) :
    (t'.insert f').result = (t.insert f).result ∧
      (t.insert f).state.Alike (t'.insert f').state := by
  have hsize := ha.size_eq
  have hgeneration := ha.generationAt
  have hroom := ha.ensureRoom
  have hset := ha.set
  have hshown (g : UInt16) : (⟨g, some f'⟩ : Slot).shown = (⟨g, some f⟩ : Slot).shown := by
    rw [Slot.shown, Slot.shown, Option.map_some, Option.map_some, hf]
  unfold FileTable.insert
  rw [hroom]
  cases t.ensureRoom with
  | error e => exact ⟨rfl, ha⟩
  | ok =>
    obtain ⟨slots, free, maxOpen, opened⟩ := t
    obtain ⟨slots', free', maxOpen', opened'⟩ := t'
    obtain ⟨hslots, rfl, rfl, rfl⟩ := ha
    cases free' with
    | cons index rest =>
      simp only [hgeneration]
      exact ⟨trivial, hset _ (hshown _), rfl, rfl, rfl⟩
    | nil =>
      simp only at hsize
      simp only [hsize]
      split
      · refine ⟨rfl, ?_, rfl, rfl, rfl⟩
        rw [Array.map_push, Array.map_push, hslots, hshown]
      · exact ⟨rfl, hslots, rfl, rfl, rfl⟩

end Alike

end FileTable

theorem Archive.flush_alike {a : Archive} {grant grant' : Allocator} {name : String} {data : Bytes}
    {budget budget' : Budget}
    (h : Spared isOutOfMemory (a.flush grant name data budget).result)
    (h' : Spared isOutOfMemory (a.flush grant' name data budget').result) :
    (a.flush grant' name data budget').result = (a.flush grant name data budget).result ∧
      (a.flush grant' name data budget').state.1 = (a.flush grant name data budget).state.1 := by
  -- A flush that is not refused memory is refused for room alone, which no budget has a say in.
  have decided {grant : Allocator} {budget : Budget}
      (h : Spared isOutOfMemory (a.flush grant name data budget).result) :
      a.flushRefusal grant name data budget =
        if a.find? name = none ∧ a.maxEntries ≤ a.size then
          some (.capacityExhausted .entries a.maxEntries)
        else none := by
    rw [flush_eq, flushRefusal] at h
    rw [flushRefusal]
    split_ifs at h ⊢
    · rfl
    · exact h.elim rfl
    · rfl
    · exact h.elim rfl
  rw [flush_eq, flush_eq, decided h, decided h']
  split_ifs
  · exact ⟨rfl, rfl⟩
  · exact ⟨rfl, rfl⟩

namespace Volume

/-- Volumes that show the same, and refuse the same names and entries. -/
structure Alike (v v' : Volume) : Prop where
  names : v'.limits.maxNameLength = v.limits.maxNameLength
  archive : v'.archive = v.archive
  files : v.files.Alike v'.files

end Volume

namespace Reply

variable {α β : Type}

structure Alike (r r' : Reply α) : Prop where
  result : r'.result = r.result
  volume : r.volume.Alike r'.volume
  events : r'.events = r.events

theorem Alike.andThen {r r' : Reply α} {next next' : α → Volume → Reply β}
    (h : Spared isOutOfMemory (r.andThen next).result)
    (h' : Spared isOutOfMemory (r'.andThen next').result)
    (hr : Spared isOutOfMemory r.result → Spared isOutOfMemory r'.result → r.Alike r')
    (hnext : ∀ a, r.result = .ok a → r'.result = .ok a → r.volume.Alike r'.volume →
      Spared isOutOfMemory (next a r.volume).result →
        Spared isOutOfMemory (next' a r'.volume).result →
          (next a r.volume).Alike (next' a r'.volume)) :
    (r.andThen next).Alike (r'.andThen next') := by
  -- What is spared a whole is spared its first part.
  have first {γ : Type} {r : Reply α} {next : α → Volume → Reply γ}
      (h : Spared isOutOfMemory (r.andThen next).result) : Spared isOutOfMemory r.result := by
    obtain ⟨e | a, v, events⟩ := r
    · exact h.anew
    · exact .ok a
  obtain ⟨hresult, hvolume, hevents⟩ := hr (first h) (first h')
  obtain ⟨result, v, events⟩ := r
  obtain ⟨result', v', events'⟩ := r'
  obtain rfl : result' = result := hresult
  obtain rfl : events' = events := hevents
  cases result' with
  | error e => exact ⟨rfl, hvolume, rfl⟩
  | ok a =>
    obtain ⟨hresult, hvolume, hevents⟩ := hnext a rfl rfl hvolume h h'
    exact ⟨hresult, hvolume, congrArg (events' ++ ·) hevents⟩

end Reply

namespace Volume

variable {v v' : Volume} (grant grant' : Allocator)

theorem Alike.checkOpen (ha : v.Alike v') (name : String) (mode : Mode) :
    v'.checkOpen name mode = v.checkOpen name mode := by
  have hname : v'.limits.checkName name = v.limits.checkName name := by
    rw [Limits.checkName, Limits.checkName, ha.names]
  rw [checkOpen_eq, checkOpen_eq, hname, ha.files.ensureRoom, ha.archive]

/-- An open that can be paid for prepares the file that a budget without limits would. -/
theorem prepare_afforded {name : String} {mode : Mode}
    (h : Spared isOutOfMemory (v.prepare grant name mode).result) :
    (v.prepare grant name mode).result = (v.checkOpen name mode).map (v.startFile name mode) := by
  rw [prepare_eq] at h ⊢
  cases hc : v.checkOpen name mode with
  | error e => rfl
  | ok stored =>
    simp only [hc] at h ⊢
    split_ifs at h ⊢
    · rfl
    · exact h.elim rfl
    · exact h.elim rfl

theorem Alike.openAs (ha : v.Alike v') {name : String} {mode : Mode}
    (h : Spared isOutOfMemory (v.openAs grant name mode).result)
    (h' : Spared isOutOfMemory (v'.openAs grant' name mode).result) :
    (v.openAs grant name mode).Alike (v'.openAs grant' name mode) := by
  have hp := prepare_afforded grant (spared_prepare grant h)
  have hp' := prepare_afforded grant' (spared_prepare grant' h')
  rw [ha.checkOpen] at hp'
  simp only [Volume.openAs, tryOpen]
  generalize v.prepare grant name mode = prepared at hp ⊢
  generalize v'.prepare grant' name mode = prepared' at hp' ⊢
  obtain ⟨result, budget⟩ := prepared
  obtain ⟨result', budget'⟩ := prepared'
  obtain rfl : result = _ := hp
  obtain rfl : result' = _ := hp'
  cases v.checkOpen name mode with
  | error e => exact ⟨rfl, ⟨ha.names, ha.archive, ha.files⟩, rfl⟩
  | ok stored =>
    have hcopy : (v'.startFile name mode stored).copy = (v.startFile name mode stored).copy := rfl
    obtain ⟨hresult, hfiles⟩ := ha.files.insert hcopy
    simp only [Except.map, hresult]
    cases (v.files.insert (v.startFile name mode stored)).result with
    | error e => exact ⟨rfl, ⟨ha.names, ha.archive, hfiles⟩, rfl⟩
    | ok handle => exact ⟨rfl, ⟨ha.names, ha.archive, hfiles⟩, rfl⟩

theorem Alike.openText (ha : v.Alike v') {name text : String}
    (h : Spared isOutOfMemory (v.openText grant name text).result)
    (h' : Spared isOutOfMemory (v'.openText grant' name text).result) :
    (v.openText grant name text).Alike (v'.openText grant' name text) := by
  rw [Volume.openText] at h h' ⊢
  rw [Volume.openText]
  cases hm : Mode.parse text with
  | error e => exact ⟨rfl, ha, rfl⟩
  | ok mode =>
    rw [hm] at h h'
    exact ha.openAs grant grant' h h'

theorem flushFile_roomed (v : Volume) (f : OpenFile) (capacity : Nat) (growth : Growth) :
    v.flushFile grant (f.roomed capacity growth) = v.flushFile grant f := rfl

theorem closeEvent_roomed (f : OpenFile) (capacity : Nat) (growth : Growth)
    (result : Except Fault Unit) :
    closeEvent (f.roomed capacity growth) result = closeEvent f result := by
  cases result <;> rfl

theorem Alike.flushFile (ha : v.Alike v') {f : OpenFile}
    (h : Spared isOutOfMemory (v.flushFile grant f).result)
    (h' : Spared isOutOfMemory (v'.flushFile grant' f).result) :
    (v'.flushFile grant' f).result = (v.flushFile grant f).result ∧
      (v'.flushFile grant' f).state.1 = (v.flushFile grant f).state.1 := by
  have harchive := ha.archive
  rw [Volume.flushFile] at h h' ⊢
  rw [Volume.flushFile]
  by_cases hm : f.mode.canWrite
  · rw [if_pos hm] at h h'
    rw [if_pos hm, if_pos hm]
    rw [harchive] at h' ⊢
    exact Archive.flush_alike h h'
  · rw [if_neg hm, if_neg hm]
    exact ⟨rfl, harchive⟩

theorem Alike.close (ha : v.Alike v') {handle : Handle}
    (h : Spared isOutOfMemory (v.close grant handle).result)
    (h' : Spared isOutOfMemory (v'.close grant' handle).result) :
    (v.close grant handle).Alike (v'.close grant' handle) := by
  rw [Volume.close] at h h' ⊢
  rw [Volume.close]
  obtain ⟨hf, hf'⟩ | ⟨f, f', hf, hf', hcopy⟩ := ha.files.find?_cases handle
  · rw [hf, hf']
    exact ⟨rfl, ha, rfl⟩
  · obtain ⟨capacity, growth, rfl⟩ := OpenFile.eq_roomed hcopy
    rw [hf] at h ⊢
    rw [hf'] at h' ⊢
    simp only [flushFile_roomed] at h' ⊢
    obtain ⟨hresult, harchive⟩ := ha.flushFile grant grant' h h'
    refine ⟨hresult, ⟨ha.names, harchive, ha.files.vacate handle⟩, ?_⟩
    simp only [hresult, closeEvent_roomed]

theorem Alike.discard (ha : v.Alike v') (handle : Handle) :
    (v.discard handle).Alike (v'.discard handle) := by
  rw [Volume.discard, Volume.discard]
  obtain ⟨hf, hf'⟩ | ⟨f, f', hf, hf', hcopy⟩ := ha.files.find?_cases handle
  · rw [hf, hf']
    exact ⟨rfl, ha, rfl⟩
  · obtain ⟨capacity, growth, rfl⟩ := OpenFile.eq_roomed hcopy
    rw [hf, hf']
    exact ⟨rfl, ⟨ha.names, ha.archive, ha.files.vacate handle⟩, rfl⟩

theorem Alike.read (ha : v.Alike v') (handle : Handle) (out : Bytes) (elementSize count : Nat) :
    (v.read handle out elementSize count).1.Alike (v'.read handle out elementSize count).1 ∧
      (v'.read handle out elementSize count).2 = (v.read handle out elementSize count).2 := by
  obtain ⟨hf, hf'⟩ | ⟨f, f', hf, hf', hcopy⟩ := ha.files.find?_cases handle
  · rw [read_of_none hf, read_of_none hf']
    exact ⟨⟨rfl, ha, rfl⟩, rfl⟩
  · obtain ⟨capacity, growth, rfl⟩ := OpenFile.eq_roomed hcopy
    rw [read_of_some hf, read_of_some hf', OpenFile.refusal_roomed]
    cases f.refusal .read elementSize count out.length .outputTooShort with
    | some e => exact ⟨⟨rfl, ha, rfl⟩, rfl⟩
    | none =>
      by_cases hz : elementSize * count = 0
      · simp only [if_pos hz]
        exact ⟨⟨rfl, ha, rfl⟩, trivial⟩
      · simp only [if_neg hz]
        exact ⟨⟨rfl, ⟨ha.names, ha.archive, ha.files.replace handle rfl⟩, rfl⟩, rfl⟩

theorem Alike.write (ha : v.Alike v') {handle : Handle} {data : Bytes} {elementSize count : Nat}
    (h : Spared isOutOfMemory (v.write grant handle data elementSize count).result)
    (h' : Spared isOutOfMemory (v'.write grant' handle data elementSize count).result) :
    (v.write grant handle data elementSize count).Alike
      (v'.write grant' handle data elementSize count) := by
  obtain ⟨hf, hf'⟩ | ⟨f, f', hf, hf', hcopy⟩ := ha.files.find?_cases handle
  · rw [write_of_none grant hf, write_of_none grant' hf']
    exact ⟨rfl, ha, rfl⟩
  · obtain ⟨capacity, growth, rfl⟩ := OpenFile.eq_roomed hcopy
    rw [write_of_some grant hf] at h ⊢
    rw [write_of_some grant' hf', OpenFile.refusal_roomed] at h' ⊢
    cases hr : f.refusal .write elementSize count data.length .dataTooShort with
    | some e => exact ⟨rfl, ha, rfl⟩
    | none =>
      rw [hr] at h h'
      by_cases hz : elementSize * count = 0
      · simp only [if_pos hz]
        exact ⟨rfl, ha, rfl⟩
      · simp only [if_neg hz] at h h' ⊢
        -- The two buffers grow at different lengths, but neither is refused the memory for it.
        split_ifs at h h' ⊢
        · exact ⟨rfl, ⟨ha.names, ha.archive, ha.files.replace handle rfl⟩, rfl⟩
        · exact h'.elim rfl
        · exact h.elim rfl
        · exact h.elim rfl

theorem Alike.seek (ha : v.Alike v') (handle : Handle) (offset : Int) (origin : Origin) :
    (v.seek handle offset origin).Alike (v'.seek handle offset origin) := by
  obtain ⟨hf, hf'⟩ | ⟨f, f', hf, hf', hcopy⟩ := ha.files.find?_cases handle
  · rw [seek_of_none hf, seek_of_none hf']
    exact ⟨rfl, ha, rfl⟩
  · obtain ⟨capacity, growth, rfl⟩ := OpenFile.eq_roomed hcopy
    rw [seek_of_some hf, seek_of_some hf', OpenFile.seek_roomed]
    cases f.seek offset origin with
    | error e => exact ⟨rfl, ha, rfl⟩
    | ok moved => exact ⟨rfl, ⟨ha.names, ha.archive, ha.files.replace handle rfl⟩, rfl⟩

theorem Alike.tell (ha : v.Alike v') (handle : Handle) :
    (v.tell handle).Alike (v'.tell handle) := by
  rw [Volume.tell, Volume.tell]
  obtain ⟨hf, hf'⟩ | ⟨f, f', hf, hf', hcopy⟩ := ha.files.find?_cases handle
  · rw [FileTable.get_of_none hf, FileTable.get_of_none hf']
    exact ⟨rfl, ha, rfl⟩
  · obtain ⟨capacity, growth, rfl⟩ := OpenFile.eq_roomed hcopy
    rw [FileTable.get_of_some hf, FileTable.get_of_some hf']
    exact ⟨rfl, ha, rfl⟩

theorem Alike.fill (ha : v.Alike v') {handle : Handle} {data : Bytes}
    (h : Spared isOutOfMemory (v.fill grant handle data).result)
    (h' : Spared isOutOfMemory (v'.fill grant' handle data).result) :
    (v.fill grant handle data).Alike (v'.fill grant' handle data) := by
  obtain ⟨hresult, hvolume, hevents⟩ := ha.write grant grant'
    (fun e he => h e (fill_of_error grant he)) (fun e he => h' e (fill_of_error grant' he))
  rw [Volume.fill, Volume.fill]
  generalize v.write grant handle data 1 data.length = written at hresult hvolume hevents ⊢
  generalize v'.write grant' handle data 1 data.length = written' at hresult hvolume hevents ⊢
  obtain ⟨result, w, events⟩ := written
  obtain ⟨result', w', events'⟩ := written'
  obtain rfl : result' = result := hresult
  obtain rfl : events' = events := hevents
  cases result' with
  | ok n => exact ⟨rfl, hvolume, rfl⟩
  | error e =>
    obtain ⟨hresult, hvolume, hevents⟩ := hvolume.discard handle
    dsimp only at hresult hvolume hevents ⊢
    generalize w.discard handle = discarded at hresult hvolume hevents ⊢
    generalize w'.discard handle = discarded' at hresult hvolume hevents ⊢
    obtain ⟨result, u, events⟩ := discarded
    obtain ⟨result', u', events''⟩ := discarded'
    obtain rfl : result' = result := hresult
    obtain rfl : events'' = events := hevents
    cases result' with
    | error e' => exact ⟨rfl, hvolume, rfl⟩
    | ok => exact ⟨rfl, hvolume, rfl⟩

theorem Alike.save (ha : v.Alike v') {name : String} {data : Bytes}
    (h : Spared isOutOfMemory (v.save grant name data).result)
    (h' : Spared isOutOfMemory (v'.save grant' name data).result) :
    (v.save grant name data).Alike (v'.save grant' name data) := by
  refine Reply.Alike.andThen h h' (ha.openAs grant grant') fun handle _ _ hopened h h' => ?_
  refine Reply.Alike.andThen h h' (hopened.fill grant grant') fun _ _ _ hfilled h h' => ?_
  exact hfilled.close grant grant' h h'

theorem Alike.readRest (ha : v.Alike v') {handle : Handle}
    (h : Spared isOutOfMemory (v.readRest grant handle).result)
    (h' : Spared isOutOfMemory (v'.readRest grant' handle).result) :
    (v.readRest grant handle).Alike (v'.readRest grant' handle) := by
  obtain ⟨hf, hf'⟩ | ⟨f, f', hf, hf', hcopy⟩ := ha.files.find?_cases handle
  · rw [readRest_of_none grant hf, readRest_of_none grant' hf']
    exact ⟨rfl, ha, rfl⟩
  · obtain ⟨capacity, growth, rfl⟩ := OpenFile.eq_roomed hcopy
    have hleft : (f.roomed capacity growth).size - (f.roomed capacity growth).position =
      f.size - f.position := rfl
    rw [readRest_of_some grant hf] at h ⊢
    rw [readRest_of_some grant' hf', hleft] at h' ⊢
    generalize f.size - f.position = left at h h' ⊢
    dsimp only at h h' ⊢
    split_ifs at h h' ⊢
    · obtain ⟨hread, hout⟩ := ha.read handle (List.replicate left 0) 1 left
      rw [hout] at h' ⊢
      exact Reply.Alike.andThen h h' (fun _ _ => hread) fun _ _ _ hvolume _ _ =>
        ⟨rfl, hvolume, rfl⟩
    · exact h'.elim rfl
    · exact h.elim rfl
    · exact h.elim rfl

theorem Alike.load (ha : v.Alike v') (hv : v.Sound) (hv' : v'.Sound) {name : String}
    (h : Spared isOutOfMemory (v.load grant name).result)
    (h' : Spared isOutOfMemory (v'.load grant' name).result) :
    (v.load grant name).Alike (v'.load grant' name) := by
  refine Reply.Alike.andThen h h' (ha.openAs grant grant') fun handle ho ho' hopened hrest hrest' => ?_
  obtain ⟨hresult, hvolume, hevents⟩ := hopened.readRest grant grant'
    (fun e he => h e (load_of_error grant hv ho he))
    (fun e he => h' e (load_of_error grant' hv' ho' he))
  generalize (v.openAs grant name .read).volume.readRest grant handle = rest at *
  generalize (v'.openAs grant' name .read).volume.readRest grant' handle = rest' at *
  obtain ⟨result, w, events⟩ := rest
  obtain ⟨result', w', events'⟩ := rest'
  obtain rfl : result' = result := hresult
  obtain rfl : events' = events := hevents
  obtain ⟨hresult, hvolume, hevents⟩ :=
    hvolume.close grant grant' hrest.of_closed hrest'.of_closed
  dsimp only at hresult hvolume hevents ⊢
  generalize w.close grant handle = closed at *
  generalize w'.close grant' handle = closed' at *
  obtain ⟨result, u, events⟩ := closed
  obtain ⟨result'', u', events''⟩ := closed'
  obtain rfl : result'' = result := hresult
  obtain rfl : events'' = events := hevents
  cases result'' with
  | error e => exact ⟨rfl, hvolume, rfl⟩
  | ok => exact ⟨rfl, hvolume, rfl⟩

end Volume

structure View where
  entries : List (String × Bytes)
  copies : Handle → Option Copy

def Volume.view (v : Volume) : View :=
  ⟨v.archive.entries, fun h => (v.files.find? h).map OpenFile.copy⟩

/-- The result of a request, unless it asks for the bytes charged. -/
def Request.visible : Request → Except Fault Answer → Option (Except Fault Answer)
  | .used, _ => none
  | _, result => some result

structure Observation where
  result : Option (Except Fault Answer)
  out : Bytes
  events : List Event
  view : View

namespace Response

def observation (r : Response) (request : Request) : Observation :=
  ⟨request.visible r.result, r.out, r.events, r.volume.view⟩

structure Alike (request : Request) (r r' : Response) : Prop where
  visible : request.visible r'.result = request.visible r.result
  out : r'.out = r.out
  events : r'.events = r.events
  volume : r.volume.Alike r'.volume

theorem Alike.observation {request : Request} {r r' : Response} (ha : Alike request r r') :
    r'.observation request = r.observation request := by
  have hview : r'.volume.view = r.volume.view := by
    rw [Volume.view, Volume.view, ha.volume.archive]
    refine congrArg _ ?_
    funext handle
    exact ha.volume.files.map_find?_eq handle
  rw [Response.observation, Response.observation, ha.visible, ha.out, ha.events, hview]

end Response

theorem Reply.Alike.respond {α : Type} {r r' : Reply α} (ha : r.Alike r') (request : Request)
    (answer : α → Answer) : Response.Alike request (r.respond answer) (r'.respond answer) := by
  have hresult : (r'.respond answer).result = (r.respond answer).result :=
    congrArg (Except.map answer) ha.result
  exact ⟨congrArg _ hresult, rfl, ha.events, ha.volume⟩

namespace Volume

variable {v v' : Volume}

theorem Alike.answer (ha : v.Alike v') {request : Request} {result result' : Except Fault Answer}
    (h : request.visible result' = request.visible result) :
    Response.Alike request (v.answer result) (v'.answer result') :=
  ⟨h, rfl, rfl, ha⟩

theorem Alike.get {α : Type} (ha : v.Alike v') (handle : Handle) {ask : OpenFile → α}
    (hask : ∀ f capacity growth, ask (f.roomed capacity growth) = ask f) :
    (v'.files.get handle).map ask = (v.files.get handle).map ask := by
  obtain ⟨hf, hf'⟩ | ⟨f, f', hf, hf', hcopy⟩ := ha.files.find?_cases handle
  · rw [FileTable.get_of_none hf, FileTable.get_of_none hf']
  · obtain ⟨capacity, growth, rfl⟩ := OpenFile.eq_roomed hcopy
    rw [FileTable.get_of_some hf, FileTable.get_of_some hf', Except.map, Except.map, hask]

theorem Alike.isOpen (ha : v.Alike v') (handle : Handle) :
    v'.isOpen handle = v.isOpen handle := by
  rw [Volume.isOpen, Volume.isOpen, FileTable.contains, FileTable.contains,
    ← Option.isSome_map (f := OpenFile.copy), ha.files.map_find?_eq, Option.isSome_map]

theorem Alike.serve (ha : v.Alike v') (hv : v.Sound) (hv' : v'.Sound) {grant grant' : Allocator}
    {request : Request} (h : Spared isOutOfMemory (v.serve grant request).result)
    (h' : Spared isOutOfMemory (v'.serve grant' request).result) :
    Response.Alike request (v.serve grant request) (v'.serve grant' request) := by
  cases request with
  | openText name text =>
    exact (ha.openText grant grant' h.of_respond h'.of_respond).respond _ _
  | openAs name mode =>
    exact (ha.openAs grant grant' h.of_respond h'.of_respond).respond _ _
  | close handle => exact (ha.close grant grant' h.of_respond h'.of_respond).respond _ _
  | discard handle => exact (ha.discard handle).respond _ _
  | read handle out elementSize count =>
    obtain ⟨hread, hout⟩ := ha.read handle out elementSize count
    obtain ⟨hvisible, -, hevents, hvolume⟩ :=
      hread.respond (.read handle out elementSize count) .number
    exact ⟨hvisible, hout, hevents, hvolume⟩
  | write handle data elementSize count =>
    exact (ha.write grant grant' h.of_respond h'.of_respond).respond _ _
  | seek handle offset origin => exact (ha.seek handle offset origin).respond _ _
  | tell handle => exact (ha.tell handle).respond _ _
  | save name data => exact (ha.save grant grant' h.of_respond h'.of_respond).respond _ _
  | load name => exact (ha.load grant grant' hv hv' h.of_respond h'.of_respond).respond _ _
  | stat name =>
    refine ha.answer ?_
    rw [Volume.stat, Volume.stat, ha.archive]
  | list =>
    refine ha.answer ?_
    rw [Volume.list, Volume.list, ha.archive]
  | isOpen handle =>
    refine ha.answer ?_
    rw [ha.isOpen]
  | mode handle =>
    refine ha.answer ?_
    rw [Volume.mode, Volume.mode, ha.get handle fun _ _ _ => rfl]
  | fileLength handle =>
    refine ha.answer ?_
    rw [Volume.fileLength, Volume.fileLength, ha.get handle fun _ _ _ => rfl]
  | used => exact ha.answer rfl

def observations (v : Volume) : List (Allocator × Request) → List Observation
  | [] => []
  | (grant, request) :: rest =>
    let response := v.serve grant request
    response.observation request :: response.volume.observations rest

theorem Alike.observations (ha : v.Alike v') (hv : v.Sound) (hv' : v'.Sound)
    {steps steps' : List (Allocator × Request)}
    (hsame : steps'.map Prod.snd = steps.map Prod.snd)
    (h : ∀ response ∈ v.run steps, Spared isOutOfMemory response.result)
    (h' : ∀ response ∈ v'.run steps', Spared isOutOfMemory response.result) :
    v'.observations steps' = v.observations steps := by
  induction steps generalizing v v' steps' with
  | nil =>
    obtain rfl := List.map_eq_nil_iff.mp hsame
    rfl
  | cons step rest ih =>
    obtain ⟨grant, request⟩ := step
    obtain ⟨⟨grant', request'⟩, rest', rfl, hrequest, hrest⟩ := List.map_eq_cons_iff.mp hsame
    obtain rfl : request' = request := hrequest
    obtain ⟨hfirst, hlater⟩ := List.forall_mem_cons.mp h
    obtain ⟨hfirst', hlater'⟩ := List.forall_mem_cons.mp h'
    have hserve := ha.serve hv hv' hfirst hfirst'
    have hobserved := ih hserve.volume (serve_sound grant hv request')
      (serve_sound grant' hv' request') hrest hlater hlater'
    rw [Volume.observations, Volume.observations, hserve.observation, hobserved]

/-- The capacity that files start with is not observed. Two runs of the same requests on fresh volumes
whose limits differ only in it show the same results, regions, reports, entries and files at every
step, but for the number of bytes charged, unless one of them runs out of memory; whatever the
allocator grants to either. -/
theorem initial_capacity_unobserved (l : Limits) (capacity : Nat)
    {steps steps' : List (Allocator × Request)} (hsame : steps'.map Prod.snd = steps.map Prod.snd)
    (h : ∀ response ∈ (ofLimits l).run steps, Spared isOutOfMemory response.result)
    (h' : ∀ response ∈ (ofLimits { l with initialCapacity := capacity }).run steps',
      Spared isOutOfMemory response.result) :
    (ofLimits { l with initialCapacity := capacity }).observations steps' =
      (ofLimits l).observations steps := by
  have ha : (ofLimits l).Alike (ofLimits { l with initialCapacity := capacity }) :=
    ⟨rfl, rfl, rfl, rfl, rfl, rfl⟩
  exact ha.observations (ofLimits_sound _) (ofLimits_sound _) hsame h h'

theorem initial_capacity_unobserved_growing :
    let roomy : Limits := ⟨1, 1, 1, 8, none⟩
    let steps : List (Allocator × Request) :=
      [(fun _ _ => true, .openAs "a" .readWrite), (fun _ _ => true, .write ⟨0, 1⟩ [1, 2, 3] 1 3),
        (fun _ _ => true, .seek ⟨0, 1⟩ 0 .start), (fun _ _ => true, .read ⟨0, 1⟩ [9, 9] 1 2)]
    let v := ofLimits roomy
    let v' := ofLimits { roomy with initialCapacity := 1 }
    (∀ response ∈ v.run steps, Spared isOutOfMemory response.result) ∧
      (∀ response ∈ v'.run steps, Spared isOutOfMemory response.result) ∧
      v'.observations steps = v.observations steps ∧
      (v.after steps).used = 8 ∧ (v'.after steps).used = 4 := by
  intro roomy steps v v'
  have hspared : ∀ response ∈ v.run steps, Spared isOutOfMemory response.result := by decide
  have hspared' : ∀ response ∈ v'.run steps, Spared isOutOfMemory response.result := by
    decide +kernel
  have hsame := initial_capacity_unobserved roomy 1 rfl hspared hspared'
  exact ⟨hspared, hspared', hsame, by decide, by decide +kernel⟩

end Volume

end Enclave
