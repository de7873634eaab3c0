import Enclave.Proofs.Changes

namespace Enclave

theorem Limits.checkName_eq_ok {l : Limits} {name : String} :
    l.checkName name = .ok () ↔
      name.utf8ByteSize ≠ 0 ∧ name.utf8ByteSize ≤ l.maxNameLength ∧
        Char.ofNat 0 ∉ name.toList := by
  rw [checkName]
  by_cases hz : name.utf8ByteSize = 0
  · simp [hz]
  · by_cases hm : l.maxNameLength < name.utf8ByteSize
    · simp [hz, hm, Nat.not_le.mpr hm]
    · simp [hz, hm, Nat.le_of_not_lt hm]

namespace OpenFile

structure Fit (f : OpenFile) (l : Limits) : Prop where
  position_le : f.position ≤ f.size
  size_le : f.size ≤ f.buffer.capacity
  initial_le : l.initialCapacity ≤ f.buffer.capacity
  name_ok : l.checkName f.name = .ok ()

variable {f : OpenFile} {l : Limits}

theorem Fit.moved (h : f.Fit l) {position : Nat}
    (hp : position = f.position ∨ position ≤ f.size) : { f with position }.Fit l where
  position_le := hp.elim (fun he => he ▸ h.position_le) id
  size_le := h.size_le
  initial_le := h.initial_le
  name_ok := h.name_ok

theorem size_written (f : OpenFile) (data : Bytes) :
    (f.written data).size = max f.size (f.position + data.length) :=
  length_overlay _ _ _

theorem Fit.written (h : f.Fit l) (data : Bytes) : (f.written data).Fit l where
  position_le := by
    rw [size_written]
    exact Nat.le_max_right _ _
  size_le := by
    rw [size_written]
    have hcap := f.buffer.le_capacityAfter f.position data
    have hend := f.buffer.le_capacityAfter_of_write f.position data
    exact Nat.max_le.mpr ⟨Nat.le_trans h.size_le hcap, hend⟩
  initial_le := Nat.le_trans h.initial_le (f.buffer.le_capacityAfter f.position data)
  name_ok := h.name_ok

end OpenFile

namespace Volume

structure Fit (v : Volume) : Prop where
  files : ∀ h file, v.files.find? h = some file → file.Fit v.limits
  names : ∀ name data, v.archive.find? name = some data → v.limits.checkName name = .ok ()
  maxOpen_eq : v.files.maxOpen = min v.limits.maxOpen mostOpen

variable {v v' : Volume} {c : Change} {cs : List Change}

theorem startFile_fit {name : String} {mode : Mode} {stored : Option Bytes}
    (hc : v.checkOpen name mode = .ok stored) :
    (v.startFile name mode stored).Fit v.limits where
  position_le := Nat.zero_le _
  size_le := Nat.le_max_right _ _
  initial_le := Nat.le_max_left _ _
  name_ok := (checkOpen_ok hc).1

theorem Makes.maxOpen (hm : Makes v c v') : v'.files.maxOpen = v.files.maxOpen := by
  cases hm with
  | placed _ _ _ _ _ _ hp _ _ => exact hp.maxOpen_eq
  | flushed h _ _ _ _ _ | dropped h _ _ => rw [FileTable.vacate_eq]
  | _ => rfl

theorem Makes.fit (hm : Makes v c v') (hv : v.Fit) : v'.Fit := by
  refine ⟨fun g file hg => ?_, fun name data hn => ?_, ?_⟩
  · rw [hm.limits.1]
    exact hm.files_keep (fun _ _ _ hc => startFile_fit hc) (fun _ _ hf hp => hf.moved hp)
      (fun _ data hf => hf.written data) hv.files g file hg
  · rw [hm.limits.1]
    cases hm with
    | flushed h file hf _ _ _ =>
      rw [Archive.find?_set] at hn
      by_cases he : name = file.name
      · exact he ▸ (hv.files h file hf).name_ok
      · rw [if_neg he] at hn
        exact hv.names name data hn
    | _ => exact hv.names name data hn
  · rw [hm.maxOpen, hm.limits.1, hv.maxOpen_eq]

theorem Leads.fit (hl : Leads v cs v') (hv : v.Fit) : v'.Fit := by
  induction hl with
  | refl => exact hv
  | step hm _ ih => exact ih (hm.fit hv)

theorem ofLimits_fit (l : Limits) : (ofLimits l).Fit where
  files h file hf := by
    rw [FileTable.find?_eq_some] at hf
    cases hf
  names name data hn := by cases hn
  maxOpen_eq := rfl

theorem serve_fit (grant : Allocator) (hv : v.Sound) (hfit : v.Fit) (request : Request) :
    (v.serve grant request).volume.Fit := by
  obtain ⟨cs, hl, -⟩ := serve_leads grant hv request
  exact hl.fit hfit

theorem after_fit (hv : v.Sound) (hfit : v.Fit) (steps : List (Allocator × Request)) :
    (v.after steps).Fit := by
  refine (after_keeps (fun w => w.Sound ∧ w.Fit) ?_ ⟨hv, hfit⟩ steps).2
  intro w grant request hw
  exact ⟨serve_sound grant hw.1 request, serve_fit grant hw.1 hw.2 request⟩

end Volume

end Enclave
