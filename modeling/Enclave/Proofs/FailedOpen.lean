import Enclave.Proofs.Changes

namespace Enclave

def Request.opens : Request → Bool
  | .openText _ _ | .openAs _ _ => true
  | _ => false

theorem Reply.error_of_respond {α : Type} {r : Reply α} {answer : α → Answer} {e : Fault}
    (h : (r.respond answer).result = .error e) : r.result = .error e := by
  obtain ⟨_ | a, v, events⟩ := r
  · cases h
    rfl
  · cases h

namespace Volume

variable {v : Volume} (grant : Allocator)

/-- The fault of an open that is refused a slot although fewer files are open than may be. -/
def SlotRefused (v : Volume) (e : Fault) : Prop :=
  e = .capacityExhausted .openFiles v.files.maxOpen ∧ v.opened < v.files.maxOpen

theorem openAs_of_error (hv : v.Sound) {name : String} {mode : Mode} {e : Fault}
    (he : (v.openAs grant name mode).result = .error e) :
    ((v.openAs grant name mode).volume = v ∧ ¬ v.SlotRefused e) ∨
    v.SlotRefused e ∧ v.files.free = [] ∧ v.files.slots.size = slotLimit ∧
      ∃ n, Makes v (.stranded n) (v.openAs grant name mode).volume := by
  obtain ⟨h, stored, v', ho, -⟩ | ⟨e', ho, hfull, -⟩ | ⟨n, v', ho, hm, -, hroom, hfree, hsize⟩ :=
    openAs_cases grant hv name mode
  · rw [ho] at he
    cases he
  · rw [ho] at he ⊢
    obtain rfl : e' = e := Except.error.inj he
    exact .inl ⟨rfl, fun hr => absurd (hfull hr.1) (Nat.not_le_of_lt hr.2)⟩
  · rw [ho] at he ⊢
    exact .inr ⟨⟨(Except.error.inj he).symm, hroom⟩, hfree, hsize, n, hm⟩

theorem serve_of_error (hv : v.Sound) {request : Request} (hopens : request.opens) {e : Fault}
    (he : (v.serve grant request).result = .error e) :
    ((v.serve grant request).volume = v ∧ ¬ v.SlotRefused e) ∨
    v.SlotRefused e ∧ v.files.free = [] ∧ v.files.slots.size = slotLimit ∧
      ∃ n, Makes v (.stranded n) (v.serve grant request).volume := by
  cases request with
  | openText name text =>
    rw [serve, openText] at he ⊢
    cases hp : Mode.parse text with
    | error e' =>
      rw [hp] at he
      obtain rfl : e' = e := Except.error.inj he
      exact .inl ⟨rfl, fun hr => Mode.parse_error hp _ _ hr.1⟩
    | ok mode =>
      rw [hp] at he
      exact openAs_of_error grant hv (Reply.error_of_respond he)
  | openAs name mode => exact openAs_of_error grant hv (Reply.error_of_respond he)
  | _ => cases hopens

/-- A failed open of a volume leaves the entries, the open files and their handles as they were, and
the charges too, unless it is refused a slot although fewer files are open than may be. Then no slot
is left, and what its buffer was charged for stays used. -/
theorem failed_open_keeps {l : Limits} {start : Volume} (h : create l = .ok start)
    (steps : List (Allocator × Request)) (grant : Allocator) {request : Request}
    (hopens : request.opens) {e : Fault}
    (he : ((start.after steps).serve grant request).result = .error e) :
    let v := start.after steps
    let v' := (v.serve grant request).volume
    v'.archive = v.archive ∧ v'.files = v.files ∧ (v' = v ↔ ¬ v.SlotRefused e) ∧
      (v.SlotRefused e → v.files.free = [] ∧ v.files.slots.size = slotLimit ∧
        v.used + l.initialCapacity ≤ v'.used) := by
  intro v v'
  obtain ⟨rfl, hpos⟩ := create_eq_ok h
  have hv : v.Sound := after_sound (ofLimits_sound l) steps
  have hl : v.limits = l := (after_limits (ofLimits_sound l) steps).1
  obtain ⟨hsame, hn⟩ | ⟨hr, hfree, hsize, n, hm⟩ := serve_of_error grant hv hopens he
  · have hv' : v' = v := hsame
    rw [hv']
    exact ⟨rfl, rfl, iff_of_true rfl hn, fun hr => absurd hr hn⟩
  · -- At least one byte is charged, since no volume is made with an initial capacity of zero.
    have hmakes : Makes v (.stranded n) v' := hm
    clear_value v'
    cases hmakes with
    | stranded _ hle _ =>
      rw [hl] at hle
      refine ⟨rfl, rfl, ?_, fun _ => ⟨hfree, hsize, Nat.add_le_add_left hle _⟩⟩
      have hne : v.used + n ≠ v.used := by omega
      exact ⟨fun hsame => absurd (congrArg used hsame) hne, fun hn => absurd hr hn⟩

/-- As many files are open as may be, so that an open fails before it pays. -/
theorem failed_open_keeps_when_full :
    let l : Limits := ⟨1, 1, 8, 16, none⟩
    let v := (ofLimits l).after [(fun _ _ => true, .openAs "a" .write)]
    let response := v.serve (fun _ _ => true) (.openAs "b" .write)
    create l = .ok (ofLimits l) ∧ (Request.openAs "b" .write).opens ∧
      response.result = .error (.capacityExhausted .openFiles 1) ∧ response.volume = v := by
  intro l v response
  have hc : create l = .ok (ofLimits l) := rfl
  have hopens : (Request.openAs "b" .write).opens := rfl
  have he : response.result = .error (.capacityExhausted .openFiles 1) := rfl
  have hfull : ¬ v.SlotRefused (.capacityExhausted .openFiles 1) :=
    fun hr => absurd hr.2 (Nat.lt_irrefl 1)
  obtain ⟨-, -, hsame, -⟩ := failed_open_keeps hc _ _ hopens he
  exact ⟨hc, hopens, he, hsame.mpr hfull⟩

def granting : Allocator :=
  fun _ _ => true

def oneOpen : Allocator × Request :=
  (granting, .openAs "f" .write)

def cycles (index : UInt16) (n : Nat) : List (Allocator × Request) :=
  (List.range n).flatMap fun i => [oneOpen, (granting, .discard ⟨index, .ofNat (i + 1)⟩)]

/-- Two slots are retired and all others taken, one fewer than may be. -/
def exhausting : List (Allocator × Request) :=
  cycles 0 65535 ++ cycles 1 65535 ++ List.replicate 65534 oneOpen

def emptyFile : OpenFile :=
  ⟨"f", ⟨[], 1, ⟨1⟩⟩, 0, .write⟩

def crowded (slots : Array Slot) (free : List UInt16) (opened : Nat) : Volume :=
  ⟨⟨65535, 1, 1, 1, none⟩, .empty 1, ⟨slots, free, 65535, opened⟩, ⟨none, opened⟩⟩

variable {slots : Array Slot} {free : List UInt16} {opened : Nat}

theorem crowded_prepare (hroom : opened < 65535) :
    (crowded slots free opened).prepare granting "f" .write =
      ⟨.ok emptyFile, ⟨none, opened + 1⟩⟩ := by
  have hcheck : (crowded slots free opened).checkOpen "f" .write = .ok none := by
    have hname : (crowded slots free opened).limits.checkName "f" = .ok () := rfl
    have hensure : (crowded slots free opened).files.ensureRoom = .ok () :=
      if_neg (Nat.not_le_of_lt hroom)
    rw [checkOpen_eq, hname, hensure]
    rfl
  have hcopy : copyName (granting .openName) "f" = .ok "f" := rfl
  have hstart : (crowded slots free opened).startBuffer granting none =
      ⟨.ok ⟨[], 1, ⟨1⟩⟩, ⟨none, opened + 1⟩⟩ := by
    rw [startBuffer_eq]
    refine if_pos (.inr ⟨⟨?_, rfl⟩, rfl⟩)
    change opened + 1 < wordLimit
    rw [wordLimit]
    omega
  rw [prepare, hcheck]
  simp only [hcopy, hstart]
  rfl

theorem crowded_open (hroom : opened < 65535) {result : Except Fault Handle} {files : FileTable}
    (hi : FileTable.insert ⟨slots, free, 65535, opened⟩ emptyFile = ⟨result, files⟩) :
    ((crowded slots free opened).openAs granting "f" .write).result = result ∧
      ((crowded slots free opened).openAs granting "f" .write).volume =
        { crowded slots free opened with files, budget := ⟨none, opened + 1⟩ } := by
  obtain ⟨hresult, hvolume⟩ := openAs_eq_tryOpen (crowded slots free opened) granting "f" .write
  have htry : (crowded slots free opened).tryOpen granting "f" .write =
      ⟨result, { crowded slots free opened with files, budget := ⟨none, opened + 1⟩ }⟩ := by
    rw [tryOpen, crowded_prepare hroom]
    have hfiles : (crowded slots free opened).files.insert emptyFile = ⟨result, files⟩ := hi
    dsimp only
    rw [hfiles]
  rw [hresult, hvolume, htry]
  exact ⟨rfl, rfl⟩

theorem insert_full (hroom : opened < 65535) (hsize : slots.size = slotLimit) :
    FileTable.insert ⟨slots, [], 65535, opened⟩ emptyFile =
      ⟨.error (.capacityExhausted .openFiles 65535), ⟨slots, [], 65535, opened⟩⟩ := by
  simp [FileTable.insert, FileTable.ensureRoom, Nat.not_le_of_lt hroom, hsize]

theorem set_last (slots : Array Slot) (s s' : Slot) :
    (slots.push s).setIfInBounds slots.size s' = slots.push s' := by
  apply Array.ext'
  simp

theorem cycles_succ (index : UInt16) (n : Nat) :
    cycles index (n + 1) =
      cycles index n ++ [oneOpen, (granting, .discard ⟨index, .ofNat (n + 1)⟩)] := by
  rw [cycles, cycles, List.range_succ, List.flatMap_append, List.flatMap_singleton]

section

variable {index : UInt16} (hindex : slots.size = index.toNat)
include hindex

theorem insert_new (hroom : opened < 65535) :
    FileTable.insert ⟨slots, [], 65535, opened⟩ emptyFile =
      ⟨.ok ⟨index, 1⟩, ⟨slots.push ⟨1, some emptyFile⟩, [], 65535, opened + 1⟩⟩ := by
  have hsize : index.toNat < slotLimit := index.toNat_lt
  simp [FileTable.insert, FileTable.ensureRoom, Nat.not_le_of_lt hroom, hindex, hsize]

theorem insert_last (hroom : opened < 65535) (g : UInt16) :
    FileTable.insert ⟨slots.push ⟨g, none⟩, [index], 65535, opened⟩ emptyFile =
      ⟨.ok ⟨index, g⟩, ⟨slots.push ⟨g, some emptyFile⟩, [], 65535, opened + 1⟩⟩ := by
  have hg : FileTable.generationAt (slots.push ⟨g, none⟩) index = g := by
    rw [FileTable.generationAt, ← hindex, Array.getElem?_push_size]
  simp [FileTable.insert, FileTable.ensureRoom, Nat.not_le_of_lt hroom, hg, ← hindex, set_last]

theorem crowded_discard (g : UInt16) :
    ((crowded (slots.push ⟨g, some emptyFile⟩) [] (opened + 1)).discard ⟨index, g⟩).volume =
      crowded (slots.push ⟨FileTable.nextGeneration g, none⟩)
        (if g = lastGeneration then [] else [index]) opened := by
  have hf : (crowded (slots.push ⟨g, some emptyFile⟩) [] (opened + 1)).files.find? ⟨index, g⟩ =
      some emptyFile := by
    rw [FileTable.find?_eq_some]
    change (slots.push ⟨g, some emptyFile⟩)[index.toNat]? = _
    rw [← hindex, Array.getElem?_push_size]
  rw [discard, hf]
  dsimp only
  rw [FileTable.vacate_eq]
  simp only [crowded, ← hindex, set_last]
  rfl

theorem crowded_cycle (hroom : opened < 65535) {used : Array Slot} {g : UInt16}
    (hi : FileTable.insert ⟨used, free, 65535, opened⟩ emptyFile =
      ⟨.ok ⟨index, g⟩, ⟨slots.push ⟨g, some emptyFile⟩, [], 65535, opened + 1⟩⟩) :
    (crowded used free opened).after [oneOpen, (granting, .discard ⟨index, g⟩)] =
      crowded (slots.push ⟨FileTable.nextGeneration g, none⟩)
        (if g = lastGeneration then [] else [index]) opened := by
  obtain ⟨-, hopen⟩ := crowded_open hroom hi
  rw [after_cons, after_cons]
  change ((((crowded used free opened).openAs granting "f" .write).volume).discard
    ⟨index, g⟩).volume = _
  rw [hopen]
  exact crowded_discard hindex g

theorem crowded_cycles (hroom : opened < 65535) {n : Nat} (hn : n < 65535) :
    (crowded slots [] opened).after (cycles index (n + 1)) =
      crowded (slots.push ⟨FileTable.nextGeneration (.ofNat (n + 1)), none⟩)
        (if UInt16.ofNat (n + 1) = lastGeneration then [] else [index]) opened := by
  -- The induction is on the generations used up; the slot waits to be taken again until the last.
  induction n with
  | zero => exact crowded_cycle hindex hroom (insert_new hindex hroom)
  | succ n ih =>
    have hgen : UInt16.ofNat (n + 1) ≠ lastGeneration := by
      intro he
      have ht := congrArg UInt16.toNat he
      rw [UInt16.toNat_ofNat', Nat.mod_eq_of_lt (by omega)] at ht
      change n + 1 = 65535 at ht
      omega
    have hnext : FileTable.nextGeneration (.ofNat (n + 1)) = .ofNat (n + 1 + 1) := by
      rw [FileTable.nextGeneration, if_neg hgen]
      exact (UInt16.ofNat_add (n + 1) 1).symm
    rw [cycles_succ, after_append, ih (by omega), if_neg hgen, hnext]
    exact crowded_cycle hindex hroom (insert_last hindex hroom _)

theorem crowded_retire (hroom : opened < 65535) :
    (crowded slots [] opened).after (cycles index 65535) =
      crowded (slots.push ⟨lastGeneration, none⟩) [] opened :=
  crowded_cycles hindex hroom (Nat.lt_succ_self 65534)

end

theorem crowded_fill (n : Nat) (hroom : opened + n ≤ 65535) (hsize : slots.size + n ≤ slotLimit) :
    ∃ slots', slots'.size = slots.size + n ∧
      (crowded slots [] opened).after (List.replicate n oneOpen) =
        crowded slots' [] (opened + n) := by
  induction n generalizing slots opened with
  | zero => exact ⟨slots, rfl, rfl⟩
  | succ n ih =>
    have hindex : slots.size = (UInt16.ofNat slots.size).toNat := by
      rw [UInt16.toNat_ofNat', Nat.mod_eq_of_lt]
      exact Nat.lt_of_lt_of_le (by omega) hsize
    have hopened : opened < 65535 := by omega
    obtain ⟨-, hopen⟩ := crowded_open hopened (insert_new hindex hopened)
    have hpushed : (slots.push ⟨1, some emptyFile⟩).size = slots.size + 1 := Array.size_push _
    have hroom' : opened + 1 + n ≤ 65535 := by omega
    have hsize' : (slots.push ⟨1, some emptyFile⟩).size + n ≤ slotLimit := by omega
    obtain ⟨slots', hslots', hafter⟩ := ih hroom' hsize'
    refine ⟨slots', by omega, ?_⟩
    rw [List.replicate_succ, after_cons]
    change (((crowded slots [] opened).openAs granting "f" .write).volume).after _ = _
    rw [hopen]
    refine hafter.trans ?_
    rw [Nat.add_assoc, Nat.add_comm 1]

theorem exhausting_after :
    ∃ slots, slots.size = slotLimit ∧
      (ofLimits ⟨65535, 1, 1, 1, none⟩).after exhausting = crowded slots [] 65534 := by
  have hroom : 0 < 65535 := by decide
  have hstart : ofLimits ⟨65535, 1, 1, 1, none⟩ = crowded #[] [] 0 := rfl
  have hfirst : (crowded #[] [] 0).after (cycles 0 65535) =
      crowded #[⟨lastGeneration, none⟩] [] 0 := crowded_retire rfl hroom
  have hsecond : (crowded #[⟨lastGeneration, none⟩] [] 0).after (cycles 1 65535) =
      crowded #[⟨lastGeneration, none⟩, ⟨lastGeneration, none⟩] [] 0 := crowded_retire rfl hroom
  have hroom' : 0 + 65534 ≤ 65535 := by decide
  have hsize : #[(⟨lastGeneration, none⟩ : Slot), ⟨lastGeneration, none⟩].size + 65534 ≤
    slotLimit := Nat.le_refl slotLimit
  obtain ⟨slots, hsize', hfill⟩ := crowded_fill 65534 hroom' hsize
  refine ⟨slots, hsize', ?_⟩
  rw [exhausting, after_append, after_append, hstart, hfirst, hsecond]
  exact hfill

/-- Every slot is issued and none can be taken again, while one file more may be open. An open then
fails, and its byte stays used. -/
theorem failed_open_keeps_charge :
    let v := (ofLimits ⟨65535, 1, 1, 1, none⟩).after exhausting
    create ⟨65535, 1, 1, 1, none⟩ = .ok (ofLimits ⟨65535, 1, 1, 1, none⟩) ∧
      (v.serve granting (.openAs "f" .write)).result =
        .error (.capacityExhausted .openFiles 65535) ∧
      v.used = 65534 ∧ (v.serve granting (.openAs "f" .write)).volume.used = 65535 := by
  intro v
  obtain ⟨slots, hsize, hafter⟩ := exhausting_after
  have hv : v = crowded slots [] 65534 := hafter
  have hroom : 65534 < 65535 := by decide
  obtain ⟨hresult, hvolume⟩ := crowded_open hroom (insert_full hroom hsize)
  clear_value v
  subst hv
  refine ⟨rfl, ?_, rfl, ?_⟩
  · rw [serve, Reply.respond, hresult]
    rfl
  · rw [serve, respond_volume, hvolume]
    rfl

end Volume

end Enclave
