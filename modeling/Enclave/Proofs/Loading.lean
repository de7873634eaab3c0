import Enclave.Proofs.Reports
import Enclave.Proofs.Saving

namespace Enclave

theorem latest_eq_none {log : List (String × Bytes)} {name : String}
    (h : ∀ entry ∈ log, entry.1 ≠ name) : latest log name = none := by
  rw [latest, List.lookup_eq_none_iff]
  intro entry hm
  have hne := h entry (List.mem_reverse.mp hm)
  simpa using hne.symm

namespace Volume

variable {v : Volume} {l : Limits} {name : String} {data : Bytes} (grant : Allocator)

/-- The regions that a load asks for. The last is that of its output, which no budget pays for. -/
structure GrantsLoad (l : Limits) (name : String) (data : Bytes) : Prop where
  openName : grant .openName name.utf8ByteSize
  openBuffer : grant .openBuffer (max l.initialCapacity data.length)
  output : data ≠ [] → grant .output data.length

@[mk_iff]
structure Loadable (v : Volume) (l : Limits) (name : String) (data : Bytes) : Prop where
  allowed : l.Allows name
  room : v.opened < l.maxOpen
  found : v.archive.find? name = some data
  memory : l.Covers (v.used + max l.initialCapacity data.length)
  regions : GrantsLoad grant l name data

theorem Obeys.loadable_iff_openable (hv : v.Obeys l) :
    v.Loadable grant l name data ↔
      v.Openable grant l name .read ∧ v.archive.find? name = some data ∧
        (data.length = 0 ∨ grant .output data.length) := by
  -- The buffer that reads an entry starts with room for all of it.
  have hcap (found : v.source name .read = some data) :
      v.startCapacity (v.source name .read) = max l.initialCapacity data.length := by
    rw [found, startCapacity, hv.limits_eq]
    rfl
  constructor
  · intro h
    have found : v.source name .read = some data := h.found
    refine ⟨⟨h.allowed, h.room, fun _ => ?_, ?_, h.regions.openName, ?_⟩, found, ?_⟩
    · rw [found]
      rfl
    · rw [hcap found]
      exact h.memory
    · rw [hcap found]
      exact h.regions.openBuffer
    · rw [List.length_eq_zero_iff, Decidable.or_iff_not_imp_left]
      exact h.regions.output
  · rintro ⟨ho, found, hout⟩
    have hmemory := ho.memory
    have hbuffer := ho.bufferRegion
    rw [hcap found] at hmemory hbuffer
    rw [List.length_eq_zero_iff, Decidable.or_iff_not_imp_left] at hout
    exact ⟨ho.allowed, ho.room, found, hmemory, ho.nameRegion, hbuffer, hout⟩

theorem load_ok_iff (hv : v.Obeys l) (hl : l.check = .ok ()) (hs : v.files.HasSlot)
    (name : String) (data : Bytes) :
    (v.load grant name).result = .ok data ↔ v.Loadable grant l name data := by
  rw [hv.loadable_iff_openable]
  obtain ⟨hopen, e, ho⟩ | ⟨hopen, h, v₁, ho, -⟩ :=
    openAs_of_hasSlot grant hv hl hs name .read
  · rw [load, ho]
    constructor
    · intro hload
      cases hload
    · intro hload
      exact absurd hload.1 hopen
  · have hok : (v.openAs grant name .read).result = .ok h := by rw [ho]
    obtain ⟨stored, found, -, hresult⟩ := load_of_opened grant hv.safe hok
    rw [hresult, found]
    by_cases hout : stored.length = 0 ∨ grant .output stored.length
    · rw [if_pos hout]
      constructor
      · intro hload
        obtain rfl := Except.ok.inj hload
        exact ⟨hopen, rfl, hout⟩
      · rintro ⟨-, hsame, -⟩
        rw [Option.some.inj hsame]
    · rw [if_neg hout]
      constructor
      · intro hload
        cases hload
      · rintro ⟨-, hsame, hout'⟩
        rw [Option.some.inj hsame] at hout
        exact absurd hout' hout

theorem load_keeps (hv : v.Obeys l) (hl : l.check = .ok ()) (hs : v.files.HasSlot)
    (name : String) : v.Keeps (v.load grant name).volume := by
  obtain ⟨hvolume, e, herror⟩ | ⟨h, file, v₁, v₂, file', hplaced, -, hedits, hf, hdrop⟩ :=
    load_cases grant hv.sound name
  · rw [hvolume]
    obtain ⟨-, e', ho⟩ | ⟨-, h, v₁, ho, -⟩ := openAs_of_hasSlot grant hv hl hs name .read
    · rw [ho]
      exact .refl v
    · rw [ho] at herror
      cases herror
  · have hv₁ : v₁.Solvent := hplaced.leads.solvent hv.safe.solvent
    exact keeps_of_passing (hedits.solvent hv₁) hplaced hedits hf hdrop

theorem find?_of_saved (hv : v.Sound) (hok : (v.save grant name data).result = .ok ())
    {later : List (Allocator × Request)}
    (hlater : ∀ entry ∈ (v.save grant name data).volume.flushes later, entry.1 ≠ name) :
    ((v.save grant name data).volume.after later).archive.find? name = some data := by
  have hsaved : (v.save grant name data).volume.archive = v.archive.setAll [(name, data)] := by
    have hserve := serve_archive grant hv (.save name data)
    rw [flush?, hok] at hserve
    exact hserve
  have hw : (v.save grant name data).volume.Sound := serve_sound grant hv (.save name data)
  rw [after_archive hw, Archive.find?_setAll, latest_eq_none hlater, hsaved, Option.none_or]
  exact (v.archive.find?_set name name data).trans (if_pos rfl)

/-- After every run of a volume in which a slot is left, a load answers exactly the bytes of the entry,
provided that the name is allowed, one more file may be open, and there are memory and regions for
the copies of the entry. It changes nothing, whether it succeeds or fails. What it answers is what was
saved under the name, if nothing has been flushed to it since. -/
theorem load_leaves_no_trace {l : Limits} {start : Volume} (h : create l = .ok start)
    (steps : List (Allocator × Request)) (hslot : (start.after steps).files.HasSlot)
    (grant : Allocator) (name : String) :
    let v := start.after steps
    let result := (v.load grant name).result
    (∀ data, result = .ok data ↔
      l.Allows name ∧ v.opened < l.maxOpen ∧ v.archive.find? name = some data ∧
        l.Covers (v.used + max l.initialCapacity data.length) ∧ GrantsLoad grant l name data) ∧
    v.Keeps (v.load grant name).volume ∧
    ∀ before saving data later, steps = before ++ (saving, .save name data) :: later →
      ((start.after before).save saving name data).result = .ok () →
      (∀ entry ∈ ((start.after before).save saving name data).volume.flushes later,
        entry.1 ≠ name) →
      ∀ bytes, result = .ok bytes → bytes = data := by
  intro v result
  obtain ⟨hl, rfl⟩ := create_eq_ok_iff.mp h
  have hv : v.Obeys l := after_obeys l steps
  have hiff := load_ok_iff grant hv hl hslot name
  refine ⟨fun data => ?_, load_keeps grant hv hl hslot name, ?_⟩
  · rw [← loadable_iff]
    exact hiff data
  · intro before saving data later hsplit hok hlater bytes hbytes
    have hsaved := find?_of_saved saving (after_sound (ofLimits_sound l) before) hok hlater
    have hsame : v = (((ofLimits l).after before).save saving name data).volume.after later := by
      have happend := after_append (ofLimits l) before ((saving, .save name data) :: later)
      rwa [← hsplit] at happend
    rw [← hsame] at hsaved
    exact Option.some.inj (((hiff bytes).mp hbytes).found.symm.trans hsaved)

/-- An entry is loaded while another handle to its name is open. The limit is just what the entry and
the two buffers take together. -/
theorem load_leaves_no_trace_beside_handle :
    let l : Limits := ⟨2, 1, 8, 16, some 35⟩
    let v := (ofLimits l).after
      [(fun _ _ => true, .save "a" [1, 2, 3]), (fun _ _ => true, .openAs "a" .readWrite)]
    let reply := v.load (fun _ _ => true) "a"
    create l = .ok (ofLimits l) ∧ v.files.HasSlot ∧ v.used + max 16 3 = 35 ∧
      reply.result = .ok [1, 2, 3] ∧ v.Keeps reply.volume := by
  intro l v reply
  have hc : create l = .ok (ofLimits l) := rfl
  have hslot : v.files.HasSlot := .inr (by decide)
  have hpeak : v.used + max 16 3 = 35 := by
    have hused : v.used = 19 := by decide
    rw [hused]
    rfl
  obtain ⟨hiff, hkeeps, -⟩ := load_leaves_no_trace hc _ hslot (fun _ _ => true) "a"
  have hname : l.Allows "a" := ⟨by decide, by decide, by decide⟩
  have hcovers : l.Covers (v.used + max 16 3) := by
    rw [hpeak]
    exact ⟨by decide, fun limit hl => Nat.le_of_eq (Option.some.inj hl)⟩
  have hfound : v.archive.find? "a" = some [1, 2, 3] := by decide
  have hok : reply.result = .ok [1, 2, 3] :=
    (hiff [1, 2, 3]).mpr ⟨hname, by decide, hfound, hcovers, rfl, rfl, fun _ => rfl⟩
  exact ⟨hc, hslot, hpeak, hok, hkeeps⟩

end Volume

end Enclave
