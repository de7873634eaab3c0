import Enclave.Proofs.ByteOrder
import Enclave.Proofs.Changes

namespace Enclave

def latest (log : List (String × Bytes)) (name : String) : Option Bytes :=
  log.reverse.lookup name

theorem latest_append (log log' : List (String × Bytes)) (name : String) :
    latest (log ++ log') name = (latest log' name).or (latest log name) := by
  rw [latest, List.reverse_append, List.lookup_append]
  rfl

namespace Archive

structure Tells (a : Archive) (content : String → Option Bytes) : Prop where
  find? : ∀ name, a.find? name = content name
  ascending : (a.names.map Text.toBytes).Pairwise (· < ·)
  mem_names : ∀ name, name ∈ a.names ↔ (content name).isSome
  stat : ∀ name, a.stat name =
    match content name with
    | some data => .ok (.regular data.length)
    | none => .error .notFound
  size : a.size = a.names.length
  usage : a.usage =
    ⟨a.names.length, (a.names.map fun name => ((content name).getD []).length).sum⟩

theorem mem_names_iff (a : Archive) (name : String) :
    name ∈ a.names ↔ (a.find? name).isSome := by
  rw [Archive.find?, isSome_lookup_iff, names]

theorem Ordered.lookup_of_mem {entries : List (String × Bytes)} (ho : Ordered entries)
    {entry : String × Bytes} (hm : entry ∈ entries) : entries.lookup entry.1 = some entry.2 := by
  induction entries with
  | nil => cases hm
  | cons first rest ih =>
    obtain ⟨hfirst, hrest⟩ := List.pairwise_cons.mp ho
    obtain he | hm := List.mem_cons.mp hm
    · rw [he]
      exact List.lookup_cons_self
    · have hne : entry.1 ≠ first.1 := (String.ne_of_lt (hfirst entry hm)).symm
      exact (lookup_cons_of_ne hne first.2 rest).trans (ih hrest hm)

theorem Ordered.tells {a : Archive} (ho : Ordered a.entries) : a.Tells a.find? where
  find? _ := rfl
  ascending := by
    rw [List.pairwise_map, names, List.pairwise_map]
    exact ho.imp Text.toBytes_lt
  mem_names := a.mem_names_iff
  stat name := rfl
  size := (List.length_map _).symm
  usage := by
    have hsum : a.entries.map (·.2.length) =
        a.names.map fun name => ((a.find? name).getD []).length := by
      rw [names, List.map_map]
      refine List.map_congr_left fun entry hm => ?_
      have hl := ho.lookup_of_mem hm
      simp only [Function.comp_apply, Archive.find?, hl, Option.getD_some]
    rw [Archive.usage, hsum, names, List.length_map]
    rfl

def setAll (a : Archive) (log : List (String × Bytes)) : Archive :=
  log.foldl (fun a entry => a.set entry.1 entry.2) a

theorem setAll_append (a : Archive) (log log' : List (String × Bytes)) :
    a.setAll (log ++ log') = (a.setAll log).setAll log' :=
  List.foldl_append

theorem find?_setAll (a : Archive) (log : List (String × Bytes)) (name : String) :
    (a.setAll log).find? name = (latest log name).or (a.find? name) := by
  induction log generalizing a with
  | nil => rfl
  | cons entry rest ih =>
    obtain ⟨key, data⟩ := entry
    have hlast : latest [(key, data)] name = if name = key then some data else none := by
      by_cases hk : name = key
      · rw [if_pos hk, hk, latest, List.reverse_singleton, List.lookup_cons_self]
      · rw [if_neg hk, latest, List.reverse_singleton, lookup_cons_of_ne hk]
        rfl
    have happend := latest_append [(key, data)] rest name
    rw [List.singleton_append] at happend
    rw [happend, Option.or_assoc, hlast]
    refine (ih _).trans ?_
    rw [find?_set]
    split <;> rfl

end Archive

namespace Volume

variable {v v' : Volume} {c : Change} {cs : List Change} (grant : Allocator)

/-- What a volume tells of its entries when `content` is under each name. -/
structure Tells (v : Volume) (content : String → Option Bytes) : Prop where
  archive : v.archive.Tells content
  ascending : (v.list.map Text.toBytes).Pairwise (· < ·)
  mem_list : ∀ name, name ∈ v.list ↔ (content name).isSome
  length_list : v.list.length = v.archive.size
  stat_size : ∀ name, (v.stat name).map (·.size) =
    match content name with
    | some data => .ok data.length
    | none => .error .notFound

theorem tells_of_archive {content : String → Option Bytes} (ht : v.archive.Tells content) :
    v.Tells content where
  archive := ht
  ascending := ht.ascending
  mem_list := ht.mem_names
  length_list := ht.size.symm
  stat_size name := by
    rw [stat, ht.stat]
    cases content name with
    | none => rfl
    | some data => rfl

/-- What a run flushes, in the order of the flushes. -/
def flushes (v : Volume) : List (Allocator × Request) → List (String × Bytes)
  | [] => []
  | (grant, request) :: rest =>
    (v.flush? grant request).toList ++ (v.serve grant request).volume.flushes rest

theorem Makes.archive (hm : Makes v c v') : v'.archive = v.archive.setAll c.flush?.toList := by
  cases hm <;> rfl

theorem Leads.archive (hl : Leads v cs v') :
    v'.archive = v.archive.setAll (cs.filterMap Change.flush?) := by
  induction hl with
  | refl => rfl
  | @step v w _ c cs hm _ ih =>
    rw [ih, hm.archive, ← Archive.setAll_append]
    congr 1
    cases hc : c.flush? with
    | none => rw [List.filterMap_cons_none hc]; rfl
    | some entry => rw [List.filterMap_cons_some hc]; rfl

theorem serve_archive (hv : v.Sound) (request : Request) :
    (v.serve grant request).volume.archive =
      v.archive.setAll (v.flush? grant request).toList := by
  obtain ⟨cs, hl, hf, -⟩ := serve_leads grant hv request
  rw [hl.archive, hf]

theorem after_archive (hv : v.Sound) (steps : List (Allocator × Request)) :
    (v.after steps).archive = v.archive.setAll (v.flushes steps) := by
  induction steps generalizing v with
  | nil => rfl
  | cons step rest ih =>
    obtain ⟨grant, request⟩ := step
    rw [flushes, Archive.setAll_append, ← serve_archive grant hv request]
    exact ih (serve_sound grant hv request)

/-- An entry changes only by the close of a file whose mode can write, or by a save, and only when
that succeeds. -/
theorem serve_archive_ne (hv : v.Sound) {request : Request}
    (hne : (v.serve grant request).volume.archive ≠ v.archive) :
    (v.serve grant request).result = .ok .done ∧
      ((∃ h file, request = .close h ∧ v.files.find? h = some file ∧ file.mode.canWrite) ∨
        ∃ name data, request = .save name data) := by
  rw [serve_archive grant hv request] at hne
  have hflush : v.flush? grant request ≠ none := by
    intro hn
    rw [hn] at hne
    exact hne rfl
  cases request with
  | close h =>
    rw [flush?] at hflush
    cases hf : v.files.find? h with
    | none => exact absurd (by rw [hf]) hflush
    | some file =>
      cases hr : (v.close grant h).result with
      | error e => exact absurd (by rw [hf, hr]) hflush
      | ok =>
        by_cases hw : file.mode.canWrite
        · refine ⟨?_, .inl ⟨h, file, rfl, hf, hw⟩⟩
          rw [serve, Reply.respond, hr]
          rfl
        · exact absurd (by simp only [hf, hr, if_neg hw]) hflush
  | save name data =>
    rw [flush?] at hflush
    cases hr : (v.save grant name data).result with
    | error e => exact absurd (by rw [hr]) hflush
    | ok =>
      refine ⟨?_, .inr ⟨name, data, rfl⟩⟩
      rw [serve, Reply.respond, hr]
      rfl
  | _ => exact absurd rfl hflush

/-- After every run of a fresh volume each name has what was flushed to it last, and all that is
told of the entries agrees with this. Nothing but a flush changes an entry, no name disappears, and
there are never more entries than the limit. -/
theorem archive_records_flushes (l : Limits) (steps : List (Allocator × Request)) :
    let start := ofLimits l
    let v := start.after steps
    v.Tells (latest (start.flushes steps)) ∧
      (∀ grant request, (v.serve grant request).volume.archive ≠ v.archive →
        (v.serve grant request).result = .ok .done ∧
          ((∃ h file, request = .close h ∧ v.files.find? h = some file ∧ file.mode.canWrite) ∨
            ∃ name data, request = .save name data)) ∧
      (∀ more, ∀ name ∈ v.list, name ∈ (v.after more).list) ∧
      v.archive.size ≤ l.maxEntries := by
  intro start v
  have hstart : start.Sound := ofLimits_sound l
  have hv : v.Sound := after_sound hstart steps
  have hfind : v.archive.find? = latest (start.flushes steps) := by
    funext name
    -- The archive starts empty, so that all that it holds is in the log.
    have hset := start.archive.find?_setAll (start.flushes steps) name
    rw [← after_archive hstart steps] at hset
    exact hset.trans (Option.or_none)
  refine ⟨?_, ?_, ?_, ?_⟩
  · rw [← hfind]
    exact tells_of_archive hv.ordered.tells
  · exact fun grant request hne => serve_archive_ne grant hv hne
  · intro more name hm
    rw [list, Archive.mem_names_iff] at hm ⊢
    rw [after_archive hv more, Archive.find?_setAll, Option.isSome_or, hm, Bool.or_true]
  · have hmost : v.archive.maxEntries = l.maxEntries := (after_limits hstart steps).2.1
    exact hmost ▸ hv.bounded

end Volume

end Enclave
