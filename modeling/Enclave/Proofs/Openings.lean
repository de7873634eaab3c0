import Enclave.Proofs.Changes
import Mathlib.Data.Set.Card

namespace Enclave

namespace Handle

theorem pack_injective : Function.Injective pack :=
  Function.LeftInverse.injective unpack_pack

theorem pack_ne_zero {h : Handle} (hpos : 0 < h.generation.toNat) : h.pack ≠ 0 := by
  intro hz
  have hh : h = unpack 0 := by rw [← hz, unpack_pack]
  rw [hh] at hpos
  exact absurd hpos (by decide)

instance : Finite Handle :=
  have : Finite UInt32 := Finite.of_injective UInt32.toFin fun _ _ => UInt32.toFin_inj.mp
  Finite.of_injective pack pack_injective

end Handle

structure Opening where
  handle : Handle
  name : String
  mode : Mode
  deriving DecidableEq, Repr

namespace Volume

def opening? : Request → Except Fault Answer → Option Opening
  | .openText name text, .ok (.handle h) => (Mode.ofText? text).map (⟨h, name, ·⟩)
  | .openAs name mode, .ok (.handle h) => some ⟨h, name, mode⟩
  | _, _ => none

def ends (h : Handle) : Request → Bool
  | .close h' => h' = h
  | .discard h' => h' = h
  | _ => false

theorem ends_of_opening {request : Request} {result : Except Fault Answer} {o : Opening}
    (ho : opening? request result = some o) (g : Handle) : ends g request = false := by
  cases request with
  | openText _ _ | openAs _ _ => rfl
  | _ => cases ho

def openings (v : Volume) : List (Allocator × Request) → List Opening
  | [] => []
  | (grant, request) :: rest =>
    let response := v.serve grant request
    (opening? request response.result).toList ++ response.volume.openings rest

/-- The openings of a run whose handles no later request of the run ended. -/
def live (v : Volume) : List (Allocator × Request) → List Opening
  | [] => []
  | (grant, request) :: rest =>
    let response := v.serve grant request
    (opening? request response.result).toList.filter
        (fun o => !rest.any (fun step => ends o.handle step.2)) ++
      response.volume.live rest

def roster (v : Volume) (h : Handle) : Option (String × Mode) :=
  (v.files.find? h).map fun file => (file.name, file.mode)

variable {v v' : Volume} {h : Handle} {file : OpenFile}

theorem roster_of_find? (hf : v.files.find? h = some file) :
    v.roster h = some (file.name, file.mode) := by
  rw [roster, hf]
  rfl

theorem Makes.placed_fresh (hm : Makes v (.placed h file) v') (hv : v.Sound) :
    ¬ v.files.Issued h ∧ v'.files.Issued h := by
  cases hm with
  | placed _ _ _ _ _ _ hp _ _ => exact ⟨hp.not_issued, (hp.issued_iff hv.files h).mpr (.inr rfl)⟩

theorem roster_eq_none (hv : v.Sound) (hn : ¬ v.files.Issued h) : v.roster h = none := by
  cases hf : v.files.find? h with
  | none => rw [roster, hf]; rfl
  | some file => exact absurd (hv.files.issued_of_find? hf) hn

theorem roster_congr (hf : v'.files.find? h = v.files.find? h) : v'.roster h = v.roster h := by
  rw [roster, roster, hf]

theorem roster_of_ended {p : Prop} [Decidable p]
    (hf : v'.files.find? h = if p then none else v.files.find? h) :
    v'.roster h = if p then none else v.roster h := by
  rw [roster, hf]
  split <;> rfl

theorem Makes.placed_roster (hm : Makes v (.placed h file) v') (g : Handle) :
    v'.roster g = if g = h then some (file.name, file.mode) else v.roster g := by
  rw [roster, hm.find?, Change.leaves]
  split <;> rfl

theorem Edits.roster (he : v.Edits h v') (g : Handle) : v'.roster g = v.roster g := by
  by_cases hg : g = h
  · subst hg
    cases hf : v.files.find? g with
    | none =>
      obtain rfl | ⟨file, ⟨position, hm⟩ | ⟨data, hm⟩⟩ := he
      · rfl
      · cases hm with
        | moved _ _ _ hf' _ => rw [hf] at hf'; cases hf'
      · cases hm with
        | wrote _ _ _ _ hf' _ _ => rw [hf] at hf'; cases hf'
    | some file =>
      obtain ⟨file', hf', hname, hmode⟩ := he.find?_self hf
      rw [roster_of_find? hf', roster_of_find? hf, hname, hmode]
  · rw [Volume.roster, Volume.roster, he.find?_of_ne hg]

variable (grant : Allocator)

theorem openAs_roster (hv : v.Sound) (name : String) (mode : Mode) :
    (∃ h, (v.openAs grant name mode).result = .ok h ∧ ¬ v.files.Issued h ∧
      (v.openAs grant name mode).volume.files.Issued h ∧
      ∀ g, (v.openAs grant name mode).volume.roster g =
        if g = h then some (name, mode) else v.roster g) ∨
    (∃ e, (v.openAs grant name mode).result = .error e) ∧
      ∀ g, (v.openAs grant name mode).volume.roster g = v.roster g := by
  obtain ⟨h, stored, v', ho, -, hm, -⟩ | ⟨e, ho, -⟩ | ⟨n, v', ho, hm, -, -⟩ :=
    openAs_cases grant hv name mode
  · rw [ho]
    obtain ⟨hn, hi⟩ := hm.placed_fresh hv
    exact .inl ⟨h, rfl, hn, hi, hm.placed_roster⟩
  · rw [ho]
    exact .inr ⟨⟨e, rfl⟩, fun _ => rfl⟩
  · rw [ho]
    exact .inr ⟨⟨_, rfl⟩, fun g => roster_congr (hm.find? g)⟩

/-- A request opens one new handle, or ends the handles that it names and leaves all others. -/
theorem serve_roster (hv : v.Sound) (request : Request) :
    (∃ o, opening? request (v.serve grant request).result = some o ∧
      ¬ v.files.Issued o.handle ∧ (v.serve grant request).volume.files.Issued o.handle ∧
      ∀ g, (v.serve grant request).volume.roster g =
        if g = o.handle then some (o.name, o.mode) else v.roster g) ∨
    opening? request (v.serve grant request).result = none ∧
      ∀ g, (v.serve grant request).volume.roster g =
        if ends g request then none else v.roster g := by
  cases request with
  | openText name text =>
    simp only [serve, openText, Mode.parse]
    cases ht : Mode.ofText? text with
    | none => exact .inr ⟨rfl, fun _ => rfl⟩
    | some mode =>
      dsimp only
      obtain ⟨h, ho, hn, hi, hr⟩ | ⟨⟨e, ho⟩, hr⟩ := openAs_roster grant hv name mode
      · refine .inl ⟨⟨h, name, mode⟩, ?_, hn, hi, hr⟩
        simp only [Reply.respond, ho, Except.map, opening?, ht, Option.map_some]
      · refine .inr ⟨?_, hr⟩
        simp only [Reply.respond, ho, Except.map, opening?]
  | openAs name mode =>
    obtain ⟨h, ho, hn, hi, hr⟩ | ⟨⟨e, ho⟩, hr⟩ := openAs_roster grant hv name mode
    · refine .inl ⟨⟨h, name, mode⟩, ?_, hn, hi, hr⟩
      simp only [serve, Reply.respond, ho, Except.map, opening?]
    · refine .inr ⟨?_, hr⟩
      simp only [serve, Reply.respond, ho, Except.map, opening?]
  | close h =>
    refine .inr ⟨rfl, fun g => ?_⟩
    simp only [serve, ends, decide_eq_true_eq]
    exact roster_of_ended (close_find? grant h g)
  | discard h =>
    refine .inr ⟨rfl, fun g => ?_⟩
    simp only [serve, ends, decide_eq_true_eq]
    exact roster_of_ended (discard_find? h g)
  | read h out elementSize count =>
    exact .inr ⟨rfl, (v.read_edits h out elementSize count).roster⟩
  | write h data elementSize count =>
    exact .inr ⟨rfl, (v.write_edits grant h data elementSize count).roster⟩
  | seek h offset origin => exact .inr ⟨rfl, (v.seek_edits h offset origin).roster⟩
  -- The file of a save or a load is ended before the request is, so no handle to it is left.
  | save name data => exact .inr ⟨rfl, fun g => roster_congr (save_find? grant hv name data g)⟩
  | load name => exact .inr ⟨rfl, fun g => roster_congr (load_find? grant hv name g)⟩
  | tell h =>
    rw [serve, respond_volume, tell_volume]
    exact .inr ⟨rfl, fun _ => rfl⟩
  | stat _ | isOpen _ | mode _ | fileLength _ | list | used => exact .inr ⟨rfl, fun _ => rfl⟩

theorem serve_issued (hv : v.Sound) (request : Request) (hi : v.files.Issued h) :
    (v.serve grant request).volume.files.Issued h := by
  obtain ⟨cs, hl, -⟩ := serve_leads grant hv request
  exact hl.issued hv hi

theorem openings_fresh (hv : v.Sound) (steps : List (Allocator × Request)) :
    ((v.openings steps).map (·.handle)).Nodup ∧
      ∀ o ∈ v.openings steps, ¬ v.files.Issued o.handle ∧ 0 < o.handle.generation.toNat := by
  induction steps generalizing v with
  | nil => exact ⟨List.nodup_nil, by simp [openings]⟩
  | cons step rest ih =>
    obtain ⟨grant, request⟩ := step
    obtain ⟨hnodup, hrest⟩ := ih (serve_sound grant hv request)
    -- What is given out stays given out, so what is fresh later on is fresh now.
    have hold : ∀ o ∈ (v.serve grant request).volume.openings rest,
        ¬ v.files.Issued o.handle ∧ 0 < o.handle.generation.toNat := fun o ho =>
      ⟨fun hi => (hrest o ho).1 (serve_issued grant hv request hi), (hrest o ho).2⟩
    rw [openings]
    obtain ⟨o, ho, hn, hi, -⟩ | ⟨ho, -⟩ := serve_roster grant hv request
    · have hpos : 0 < o.handle.generation.toNat := by
        obtain ⟨s, -, hpos, -⟩ := hi
        exact hpos
      simp only [ho, Option.toList_some, List.cons_append, List.nil_append, List.map_cons,
        List.nodup_cons, List.mem_cons, forall_eq_or_imp]
      refine ⟨⟨?_, hnodup⟩, ⟨hn, hpos⟩, hold⟩
      intro hm
      obtain ⟨o', ho', he⟩ := List.mem_map.mp hm
      exact (hrest o' ho').1 (he ▸ hi)
    · simp only [ho, Option.toList_none, List.nil_append]
      exact ⟨hnodup, hold⟩

theorem roster_persists (hv : v.Sound) {steps : List (Allocator × Request)}
    {file : String × Mode} (hr : v.roster h = some file)
    (hend : steps.any (fun step => ends h step.2) = false) :
    (v.after steps).roster h = some file := by
  induction steps generalizing v with
  | nil => exact hr
  | cons step rest ih =>
    obtain ⟨grant, request⟩ := step
    rw [List.any_cons, Bool.or_eq_false_iff] at hend
    refine ih (serve_sound grant hv request) ?_ hend.2
    obtain ⟨o, -, hn, -, hs⟩ | ⟨-, hs⟩ := serve_roster grant hv request
    · have hne : h ≠ o.handle := by
        rintro rfl
        rw [roster_eq_none hv hn] at hr
        cases hr
      rw [hs, if_neg hne, hr]
    · have hf : ends h request = false := hend.1
      rw [hs, hf]
      exact hr

theorem roster_of_live (hv : v.Sound) {steps : List (Allocator × Request)} {o : Opening}
    (ho : o ∈ v.live steps) : (v.after steps).roster o.handle = some (o.name, o.mode) := by
  induction steps generalizing v with
  | nil => simp [live] at ho
  | cons step rest ih =>
    obtain ⟨grant, request⟩ := step
    have hv' := serve_sound grant hv request
    rw [live] at ho
    obtain hm | hm := List.mem_append.mp ho
    · obtain ⟨hopen, hend⟩ := List.mem_filter.mp hm
      refine roster_persists hv' ?_ (by simpa using hend)
      obtain ⟨o', ho', -, -, hs⟩ | ⟨hnone, -⟩ := serve_roster grant hv request
      · simp only [ho', Option.toList_some, List.mem_singleton] at hopen
        rw [hs, hopen, if_pos rfl]
      · simp [hnone] at hopen
    · exact ih hv' hm

/-- What is found under a handle after a run was opened in the run and not ended since, or was there
before. -/
theorem live_of_roster (hv : v.Sound) {steps : List (Allocator × Request)}
    {file : String × Mode} (hr : (v.after steps).roster h = some file) :
    (∃ o ∈ v.live steps, o.handle = h) ∨
      v.roster h = some file ∧ steps.any (fun step => ends h step.2) = false := by
  induction steps generalizing v with
  | nil => exact .inr ⟨hr, rfl⟩
  | cons step rest ih =>
    obtain ⟨grant, request⟩ := step
    obtain ⟨o, ho, he⟩ | ⟨hr', hend⟩ := ih (serve_sound grant hv request) hr
    · exact .inl ⟨o, List.mem_append_right _ ho, he⟩
    · obtain ⟨o, ho, -, -, hs⟩ | ⟨-, hs⟩ := serve_roster grant hv request
      · -- An open ends no handle, so what it did not place was there before it.
        rw [hs] at hr'
        by_cases hh : h = o.handle
        · refine .inl ⟨o, List.mem_append_left _ (List.mem_filter.mpr ⟨?_, ?_⟩), hh.symm⟩
          · rw [ho]
            exact List.mem_singleton_self o
          · rw [← hh, hend]
            rfl
        · rw [if_neg hh] at hr'
          refine .inr ⟨hr', ?_⟩
          rw [List.any_cons, ends_of_opening ho, hend]
          rfl
      · rw [hs] at hr'
        by_cases he : ends h request
        · rw [if_pos he] at hr'
          cases hr'
        · rw [if_neg he] at hr'
          refine .inr ⟨hr', ?_⟩
          rw [List.any_cons, Bool.eq_false_of_not_eq_true he, hend]
          rfl

def accepted (v : Volume) : Set Handle :=
  {h | v.isOpen h}

theorem mem_accepted : h ∈ v.accepted ↔ ∃ file, v.roster h = some file := by
  rw [accepted, Set.mem_ofPred_eq, isOpen, FileTable.contains, Volume.roster]
  cases v.files.find? h <;> simp

theorem accepted_congr (hr : ∀ g, v'.roster g = v.roster g) : v'.accepted = v.accepted := by
  ext g
  rw [mem_accepted, mem_accepted, hr]

theorem accepted_insert {file : String × Mode}
    (hr : ∀ g, v'.roster g = if g = h then some file else v.roster g) :
    v'.accepted = insert h v.accepted := by
  ext g
  rw [Set.mem_insert_iff, mem_accepted, mem_accepted, hr]
  by_cases hg : g = h
  · simp [hg]
  · simp [hg]

theorem accepted_remove (hr : ∀ g, v'.roster g = if g = h then none else v.roster g) :
    v'.accepted = v.accepted \ {h} := by
  ext g
  rw [Set.mem_sdiff, Set.mem_singleton_iff, mem_accepted, mem_accepted, hr]
  by_cases hg : g = h
  · simp [hg]
  · simp [hg]

theorem vacated_ncard (hf : v.files.find? h = some file)
    (hfiles : v'.files = v.files.vacate h) (hcount : v.opened = v.accepted.ncard) :
    v'.opened = v'.accepted.ncard := by
  have hmem : h ∈ v.accepted := mem_accepted.mpr ⟨_, roster_of_find? hf⟩
  have hone := Set.ncard_sdiff_singleton_add_one hmem (Set.toFinite _)
  have hopened : v'.opened = v.opened - 1 := by rw [opened, hfiles, FileTable.vacate_eq]; rfl
  have hroster (g : Handle) : v'.roster g = if g = h then none else v.roster g := by
    refine roster_of_ended ?_
    rw [hfiles, FileTable.vacate_find? hf]
  rw [accepted_remove hroster, hopened, hcount]
  omega

theorem Makes.opened_eq_ncard {c : Change} (hm : Makes v c v') (hv : v.Sound)
    (hcount : v.opened = v.accepted.ncard) : v'.opened = v'.accepted.ncard := by
  cases c with
  | stranded n => rw [accepted_congr fun g => roster_congr (hm.find? g)]; cases hm; exact hcount
  | placed h file =>
    have hfresh : h ∉ v.accepted := by
      rw [mem_accepted, roster_eq_none hv (hm.placed_fresh hv).1]
      rintro ⟨_, hr⟩
      cases hr
    rw [accepted_insert hm.placed_roster, Set.ncard_insert_of_notMem hfresh (Set.toFinite _),
      ← hcount]
    cases hm with
    | placed _ _ _ _ _ _ hp _ _ => exact hp.opened_eq
  | moved h file position =>
    rw [accepted_congr (Edits.roster (.inr ⟨file, .inl ⟨position, hm⟩⟩))]
    cases hm
    exact hcount
  | wrote h file data =>
    rw [accepted_congr (Edits.roster (.inr ⟨file, .inr ⟨data, hm⟩⟩))]
    cases hm
    exact hcount
  | flushed h file =>
    cases hm with
    | flushed _ _ hf _ _ _ => exact vacated_ncard hf rfl hcount
  | dropped h file =>
    cases hm with
    | dropped _ _ hf => exact vacated_ncard hf rfl hcount

theorem Leads.opened_eq_ncard {cs : List Change} (hl : Leads v cs v') (hv : v.Sound)
    (hcount : v.opened = v.accepted.ncard) : v'.opened = v'.accepted.ncard := by
  induction hl with
  | refl => exact hcount
  | step hm _ ih => exact ih (hm.sound hv) (hm.opened_eq_ncard hv hcount)

theorem after_opened_eq_ncard (hv : v.Sound) (hcount : v.opened = v.accepted.ncard)
    (steps : List (Allocator × Request)) :
    (v.after steps).opened = (v.after steps).accepted.ncard := by
  induction steps generalizing v with
  | nil => exact hcount
  | cons step rest ih =>
    obtain ⟨cs, hl, -⟩ := serve_leads step.1 hv step.2
    exact ih (hl.sound hv) (hl.opened_eq_ncard hv hcount)

theorem ofLimits_roster (l : Limits) (h : Handle) : (ofLimits l).roster h = none := rfl

theorem ofLimits_opened_eq_ncard (l : Limits) :
    (ofLimits l).opened = (ofLimits l).accepted.ncard := by
  have hnone : (ofLimits l).accepted = ∅ := by
    ext h
    simp [mem_accepted, ofLimits_roster]
  rw [hnone, Set.ncard_empty]
  rfl

theorem mem_accepted_after (l : Limits) (steps : List (Allocator × Request)) (h : Handle) :
    h ∈ ((ofLimits l).after steps).accepted ↔
      ∃ o ∈ (ofLimits l).live steps, o.handle = h := by
  have hv := ofLimits_sound l
  rw [mem_accepted]
  constructor
  · rintro ⟨file, hr⟩
    obtain hlive | ⟨hr', -⟩ := live_of_roster hv hr
    · exact hlive
    · rw [ofLimits_roster] at hr'
      cases hr'
  · rintro ⟨o, ho, rfl⟩
    exact ⟨_, roster_of_live hv ho⟩

theorem isOpen_iff_live (l : Limits) (steps : List (Allocator × Request)) (raw : UInt32) :
    ((ofLimits l).after steps).isOpen (.unpack raw) = true ↔
      ∃ o ∈ (ofLimits l).live steps, o.handle.pack = raw := by
  have hraw (o : Opening) : o.handle = .unpack raw ↔ o.handle.pack = raw := by
    rw [← Handle.pack_injective.eq_iff, Handle.pack_unpack]
  refine (mem_accepted_after l steps (.unpack raw)).trans ?_
  simp only [hraw]

theorem ncard_accepted (v : Volume) :
    {raw : UInt32 | v.isOpen (.unpack raw)}.ncard = v.accepted.ncard := by
  have hset : {raw : UInt32 | v.isOpen (.unpack raw)} = Handle.pack '' v.accepted := by
    ext raw
    constructor
    · exact fun hopen => ⟨.unpack raw, hopen, Handle.pack_unpack raw⟩
    · rintro ⟨h, hopen, rfl⟩
      rw [Set.mem_ofPred_eq, Handle.unpack_pack]
      exact hopen
  rw [hset, Set.ncard_image_of_injective _ Handle.pack_injective]

/-- In every run of a fresh volume no two opens give out the same number and none gives out zero. A
number is accepted exactly if an open gave it out and no close or discard has named it since; it
then leads to a file of the name and the mode of that open. As many numbers are accepted as files
are open. -/
theorem handles_name_openings (l : Limits) (steps : List (Allocator × Request)) :
    let start := ofLimits l
    let v := start.after steps
    ((start.openings steps).map (·.handle.pack)).Nodup ∧
      (∀ o ∈ start.openings steps, o.handle.pack ≠ 0) ∧
      (∀ raw : UInt32,
        (v.isOpen (.unpack raw) = true ↔ ∃ o ∈ start.live steps, o.handle.pack = raw) ∧
        (v.files.get (.unpack raw) ≠ .error .invalidHandle ↔
          ∃ o ∈ start.live steps, o.handle.pack = raw) ∧
        ((v.files.remove (.unpack raw)).result ≠ .error .invalidHandle ↔
          ∃ o ∈ start.live steps, o.handle.pack = raw)) ∧
      (∀ o ∈ start.live steps, ∃ file, v.files.get o.handle = .ok file ∧
        file.name = o.name ∧ file.mode = o.mode) ∧
      v.opened = {raw : UInt32 | v.isOpen (.unpack raw)}.ncard := by
  intro start v
  have hv : start.Sound := ofLimits_sound l
  obtain ⟨hnodup, hfresh⟩ := openings_fresh hv steps
  refine ⟨?_, ?_, ?_, ?_, ?_⟩
  · have hpacked := hnodup.map Handle.pack_injective
    rw [List.map_map] at hpacked
    exact hpacked
  · intro o ho
    exact Handle.pack_ne_zero (hfresh o ho).2
  · intro raw
    have haccept := isOpen_iff_live l steps raw
    exact ⟨haccept, (FileTable.get_ne_invalidHandle _ _).trans haccept,
      (FileTable.remove_ne_invalidHandle _ _).trans haccept⟩
  · intro o ho
    obtain ⟨file, hf, he⟩ := Option.map_eq_some_iff.mp (roster_of_live hv ho)
    obtain ⟨hname, hmode⟩ := Prod.mk.inj he
    exact ⟨file, FileTable.get_of_some hf, hname, hmode⟩
  · rw [ncard_accepted]
    exact after_opened_eq_ncard hv (ofLimits_opened_eq_ncard l) steps

end Volume

end Enclave
