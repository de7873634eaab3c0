import Enclave.Proofs.Operations
import Enclave.Volume.Request

namespace Enclave

/-- The six ways in which a volume changes. Every request is a short sequence of such changes. -/
inductive Change where
  | stranded (charged : Nat)
  | placed (h : Handle) (file : OpenFile)
  | moved (h : Handle) (file : OpenFile) (position : Nat)
  | wrote (h : Handle) (file : OpenFile) (data : Bytes)
  | flushed (h : Handle) (file : OpenFile)
  | dropped (h : Handle) (file : OpenFile)

def Change.flush? : Change → Option (String × Bytes)
  | .flushed _ file => some (file.name, file.contents)
  | _ => none

def Change.stray : Change → Nat
  | .stranded n => n
  | _ => 0

def Change.leaves (c : Change) (g : Handle) (found : Option OpenFile) : Option OpenFile :=
  match c with
  | .stranded _ => found
  | .placed h file => if g = h then some file else found
  | .moved h file position => if g = h then some { file with position } else found
  | .wrote h file data => if g = h then some (file.written data) else found
  | .flushed h _ | .dropped h _ => if g = h then none else found

namespace Volume

structure Sound (v : Volume) : Prop where
  files : v.files.Sound
  ordered : Archive.Ordered v.archive.entries
  bounded : v.archive.size ≤ v.archive.maxEntries

/-- `v` becomes `v'` by one change. A stranded charge pays for a buffer that no file holds. -/
inductive Makes (v : Volume) : Change → Volume → Prop where
  | stranded (n : Nat) : v.limits.initialCapacity ≤ n → n = 0 ∨ v.budget.Admits n →
    Makes v (.stranded n) { v with budget := v.budget.raise n }
  | placed (name : String) (mode : Mode) (stored : Option Bytes) (h : Handle)
      (files : FileTable) : v.checkOpen name mode = .ok stored →
    FileTable.Placed v.files (v.startFile name mode stored) h files →
    v.files.opened < v.files.maxOpen →
    v.startCapacity stored = 0 ∨ v.budget.Admits (v.startCapacity stored) →
    Makes v (.placed h (v.startFile name mode stored))
      { v with files, budget := v.budget.raise (v.startCapacity stored) }
  | moved (h : Handle) (file : OpenFile) (position : Nat) : v.files.find? h = some file →
    position = file.position ∨ position ≤ file.size →
    Makes v (.moved h file position)
      { v with files := v.files.replace h { file with position } }
  | wrote (h : Handle) (file : OpenFile) (data : Bytes) (grant : Nat → Bool) :
    v.files.find? h = some file → file.mode.canWrite →
    file.buffer.Fits grant file.position data v.budget →
    Makes v (.wrote h file data)
      { v with
        files := v.files.replace h (file.written data)
        budget := v.budget.raise
          (file.buffer.capacityAfter file.position data - file.buffer.capacity) }
  | flushed (h : Handle) (file : OpenFile) : v.files.find? h = some file → file.mode.canWrite →
    v.budget.Admits file.size →
    (v.archive.find? file.name = none → v.archive.size < v.archive.maxEntries) →
    Makes v (.flushed h file)
      { v with
        archive := v.archive.set file.name file.contents
        files := v.files.vacate h
        budget := file.buffer.refundTo
          ((v.budget.raise file.size).refund (v.archive.sizeOf file.name)) }
  | dropped (h : Handle) (file : OpenFile) : v.files.find? h = some file →
    Makes v (.dropped h file)
      { v with files := v.files.vacate h, budget := file.buffer.refundTo v.budget }

inductive Leads : Volume → List Change → Volume → Prop where
  | refl (v : Volume) : Leads v [] v
  | step {v v' v'' : Volume} {c : Change} {cs : List Change} :
    Makes v c v' → Leads v' cs v'' → Leads v (c :: cs) v''

variable {v v' : Volume} {c : Change} {cs : List Change}

theorem Makes.leads (h : Makes v c v') : Leads v [c] v' :=
  .step h (.refl v')

theorem Leads.append {v'' : Volume} {ds : List Change} (h : Leads v cs v') (h' : Leads v' ds v'') :
    Leads v (cs ++ ds) v'' := by
  induction h with
  | refl => exact h'
  | step hm _ ih => exact .step hm (ih h')

theorem Makes.sound (h : Makes v c v') (hv : v.Sound) : v'.Sound := by
  obtain ⟨hf, ho, hb⟩ := hv
  cases h with
  | stranded n _ _ => exact ⟨hf, ho, hb⟩
  | placed name mode stored h files _ hp hroom _ => exact ⟨hp.sound hf hroom, ho, hb⟩
  | moved h file position hfind _ => exact ⟨hf.replace hfind _, ho, hb⟩
  | wrote h file data grant hfind _ _ => exact ⟨hf.replace hfind _, ho, hb⟩
  | flushed h file hfind _ _ hroom =>
    exact ⟨hf.vacate hfind, ho.place _ _, v.archive.size_set_le ho hb hroom file.contents⟩
  | dropped h file hfind => exact ⟨hf.vacate hfind, ho, hb⟩

theorem Leads.sound (h : Leads v cs v') (hv : v.Sound) : v'.Sound := by
  induction h with
  | refl => exact hv
  | step hm _ ih => exact ih (hm.sound hv)

theorem Makes.limits (h : Makes v c v') : v'.limits = v.limits ∧
    v'.archive.maxEntries = v.archive.maxEntries ∧ v'.budget.limit = v.budget.limit := by
  cases h <;> exact ⟨rfl, rfl, rfl⟩

theorem Leads.limits (h : Leads v cs v') : v'.limits = v.limits ∧
    v'.archive.maxEntries = v.archive.maxEntries ∧ v'.budget.limit = v.budget.limit := by
  induction h with
  | refl => exact ⟨rfl, rfl, rfl⟩
  | step hm _ ih =>
    obtain ⟨hl, hm, hb⟩ := hm.limits
    exact ⟨ih.1.trans hl, ih.2.1.trans hm, ih.2.2.trans hb⟩

theorem Makes.issued (h : Makes v c v') (hv : v.Sound) {g : Handle} (hg : v.files.Issued g) :
    v'.files.Issued g := by
  cases h with
  | stranded n _ _ => exact hg
  | placed name mode stored h files _ hp _ _ => exact (hp.issued_iff hv.files g).mpr (.inl hg)
  | moved h file position hfind _ => exact (FileTable.replace_issued hfind _ g).mpr hg
  | wrote h file data grant hfind _ _ => exact (FileTable.replace_issued hfind _ g).mpr hg
  | flushed h file hfind _ _ _ => exact (hv.files.vacate_issued hfind g).mpr hg
  | dropped h file hfind => exact (hv.files.vacate_issued hfind g).mpr hg

theorem Leads.issued (h : Leads v cs v') (hv : v.Sound) {g : Handle} (hg : v.files.Issued g) :
    v'.files.Issued g := by
  induction h with
  | refl => exact hg
  | step hm _ ih => exact ih (hm.sound hv) (hm.issued hv hg)

theorem Makes.find? (h : Makes v c v') (g : Handle) :
    v'.files.find? g = c.leaves g (v.files.find? g) := by
  cases h with
  | stranded n _ _ => rfl
  | placed name mode stored h files _ hp _ _ => exact hp.find?_eq g
  | moved h file position hfind _ => exact FileTable.replace_find? hfind _ g
  | wrote h file data grant hfind _ _ => exact FileTable.replace_find? hfind _ g
  | flushed h file hfind _ _ _ => exact FileTable.vacate_find? hfind g
  | dropped h file hfind => exact FileTable.vacate_find? hfind g

/-- What holds of every file that an open can start, and stays true of a file that is moved or
written, is kept by every change. -/
theorem Makes.files_keep {P : OpenFile → Prop} (hm : Makes v c v')
    (hstart : ∀ name mode stored, v.checkOpen name mode = .ok stored →
      P (v.startFile name mode stored))
    (hmoved : ∀ (file : OpenFile) position, P file →
      position = file.position ∨ position ≤ file.size → P { file with position })
    (hwritten : ∀ file data, P file → P (file.written data))
    (hv : ∀ h file, v.files.find? h = some file → P file) (g : Handle) (file : OpenFile)
    (hg : v'.files.find? g = some file) : P file := by
  rw [hm.find? g] at hg
  cases hm with
  | stranded n _ _ => exact hv g file hg
  | placed name mode stored h files hc _ _ _ =>
    simp only [Change.leaves] at hg
    split at hg
    · exact Option.some.inj hg ▸ hstart name mode stored hc
    · exact hv g file hg
  | moved h old position hf hp =>
    simp only [Change.leaves] at hg
    split at hg
    · exact Option.some.inj hg ▸ hmoved old position (hv h old hf) hp
    · exact hv g file hg
  | wrote h old data grant hf _ _ =>
    simp only [Change.leaves] at hg
    split at hg
    · exact Option.some.inj hg ▸ hwritten old data (hv h old hf)
    · exact hv g file hg
  | flushed h old _ _ _ _ | dropped h old _ =>
    simp only [Change.leaves] at hg
    split at hg
    · cases hg
    · exact hv g file hg

variable (grant : Allocator)

def Strands (v : Volume) (name : String) (mode : Mode) : Prop :=
  ∃ file budget e, v.prepare grant name mode = ⟨.ok file, budget⟩ ∧
    (v.files.insert file).result = .error e

theorem checkOpen_eq_ok {name : String} {mode : Mode} {stored : Option Bytes} :
    v.checkOpen name mode = .ok stored ↔
      v.limits.checkName name = .ok () ∧ v.files.opened < v.files.maxOpen ∧
        (mode.needsEntry → (v.source name mode).isSome) ∧ stored = v.source name mode := by
  rw [checkOpen_eq, FileTable.ensureRoom, source]
  cases v.limits.checkName name with
  | error e => simp
  | ok =>
    by_cases hroom : v.files.maxOpen ≤ v.files.opened
    · simp [hroom, Nat.not_lt_of_le hroom]
    · generalize (if mode.startsFromEntry then v.archive.find? name else none) = found
      cases found with
      | some data => simp [hroom, Nat.lt_of_not_le hroom, eq_comm (a := stored)]
      | none =>
        by_cases hm : mode.needsEntry
        · simp [hroom, hm]
        · simp [hroom, Nat.lt_of_not_le hroom, hm, eq_comm (a := stored)]

theorem checkOpen_ok {name : String} {mode : Mode} {stored : Option Bytes}
    (h : v.checkOpen name mode = .ok stored) :
    v.limits.checkName name = .ok () ∧ v.files.opened < v.files.maxOpen ∧
      stored = (if mode.startsFromEntry then v.archive.find? name else none) := by
  obtain ⟨hname, hroom, -, hstored⟩ := checkOpen_eq_ok.mp h
  exact ⟨hname, hroom, hstored⟩

/-- An open places a file, or changes nothing, or pays for a buffer that it then forgets. The last
happens only when every slot is issued and none waits to be taken again. -/
theorem openAs_cases (hv : v.Sound) (name : String) (mode : Mode) :
    (∃ h stored v', v.openAs grant name mode = ⟨.ok h, v', [.opened name mode h]⟩ ∧
      v.checkOpen name mode = .ok stored ∧
      Makes v (.placed h (v.startFile name mode stored)) v' ∧ ¬ v.Strands grant name mode) ∨
    (∃ e, v.openAs grant name mode = ⟨.error e, v, [.openFailed name e]⟩ ∧
      (e = .capacityExhausted .openFiles v.files.maxOpen → v.files.maxOpen ≤ v.files.opened) ∧
      ¬ v.Strands grant name mode) ∨
    ∃ n v', v.openAs grant name mode =
        ⟨.error (.capacityExhausted .openFiles v.files.maxOpen), v',
          [.openFailed name (.capacityExhausted .openFiles v.files.maxOpen)]⟩ ∧
      Makes v (.stranded n) v' ∧ v.Strands grant name mode ∧
      v.files.opened < v.files.maxOpen ∧ v.files.free = [] ∧ v.files.slots.size = slotLimit := by
  obtain ⟨stored, hc, hpay, hp⟩ | ⟨e, hp, he⟩ := v.prepare_cases grant name mode
  · obtain ⟨_, hroom, _⟩ := checkOpen_ok hc
    obtain ⟨h, files, hi, hplaced, _⟩ | ⟨hi, hfull⟩ :=
      hv.files.insert_cases (v.startFile name mode stored)
    · refine .inl ⟨h, stored, _, ?_, hc,
        .placed name mode stored h files hc hplaced hroom hpay, ?_⟩
      · simp only [openAs, tryOpen, hp, hi]
      · rintro ⟨file, budget, e, hp', he⟩
        rw [hp] at hp'
        cases hp'
        rw [hi] at he
        cases he
    · -- Room was checked before the buffer was paid for, so only the slots can have run out.
      have hfull := hfull.resolve_left (Nat.not_le_of_lt hroom)
      refine .inr (.inr ⟨v.startCapacity stored, _, ?_, .stranded _ (Nat.le_max_left _ _) hpay,
        ⟨_, _, _, hp, by rw [hi]⟩, hroom, hfull⟩)
      simp only [openAs, tryOpen, hp, hi]
  · refine .inr (.inl ⟨e, by simp only [openAs, tryOpen, hp], he, ?_⟩)
    rintro ⟨file, budget, e', hp', -⟩
    rw [hp] at hp'
    cases hp'

theorem close_of_none {h : Handle} (hf : v.files.find? h = none) :
    v.close grant h = ⟨.error .invalidHandle, v, [.failed .closing .invalidHandle]⟩ := by
  rw [close, hf]

theorem close_of_some {h : Handle} {file : OpenFile} (hf : v.files.find? h = some file) :
    (file.mode.canWrite ∧ (v.close grant h).result = .ok () ∧
      Makes v (.flushed h file) (v.close grant h).volume) ∨
    ((file.mode.canWrite = true → ∃ e, (v.close grant h).result = .error e) ∧
      Makes v (.dropped h file) (v.close grant h).volume) := by
  simp only [close, hf, flushFile]
  by_cases hm : file.mode.canWrite
  · obtain ⟨he, hadmits, hroom⟩ | ⟨e, he⟩ :=
      v.archive.flush_cases grant file.name file.contents v.budget
    · simp only [if_pos hm, he]
      exact .inl ⟨hm, trivial, .flushed h file hf hm hadmits hroom⟩
    · simp only [if_pos hm, he]
      exact .inr ⟨fun _ => ⟨e, rfl⟩, .dropped h file hf⟩
  · simp only [if_neg hm]
    exact .inr ⟨fun h => absurd h hm, .dropped h file hf⟩

theorem close_of_reading {h : Handle} {file : OpenFile} (hf : v.files.find? h = some file)
    (hmode : file.mode.canWrite = false) :
    (v.close grant h).result = .ok () ∧ (v.close grant h).events = [.closed file.name] := by
  simp [close, hf, flushFile, hmode, closeEvent]

theorem discard_of_none {h : Handle} (hf : v.files.find? h = none) :
    v.discard h = ⟨.error .invalidHandle, v, [.failed .discarding .invalidHandle]⟩ := by
  rw [discard, hf]

theorem discard_of_some {h : Handle} {file : OpenFile} (hf : v.files.find? h = some file) :
    (v.discard h).result = .ok () ∧ Makes v (.dropped h file) (v.discard h).volume := by
  simp only [discard, hf]
  exact ⟨trivial, .dropped h file hf⟩

/-- `v'` is `v` with at most the content and the cursor of the file under `h` changed. -/
def Edits (v : Volume) (h : Handle) (v' : Volume) : Prop :=
  v' = v ∨ ∃ file, (∃ position, Makes v (.moved h file position) v') ∨
    ∃ data, Makes v (.wrote h file data) v'

theorem read_edits (h : Handle) (out : Bytes) (elementSize count : Nat) :
    v.Edits h (v.read h out elementSize count).1.volume := by
  cases hf : v.files.find? h with
  | none =>
    rw [read_of_none hf]
    exact .inl rfl
  | some file =>
    rw [read_of_some hf]
    split
    · exact .inl rfl
    · split
      · exact .inl rfl
      · refine .inr ⟨file, .inl ⟨_, .moved h file _ hf ?_⟩⟩
        rw [OpenFile.length_ahead]
        omega

theorem write_cases {h : Handle} {file : OpenFile} (hf : v.files.find? h = some file)
    (data : Bytes) (elementSize count : Nat) :
    (∃ e, (v.write grant h data elementSize count).result = .error e ∧
      (v.write grant h data elementSize count).volume = v) ∨
    ∃ n, (v.write grant h data elementSize count).result = .ok n ∧
      (elementSize * count = 0 ∧ (v.write grant h data elementSize count).volume = v ∨
        Makes v (.wrote h file (data.take (elementSize * count)))
          (v.write grant h data elementSize count).volume) := by
  rw [write_of_some grant hf]
  cases hr : file.refusal .write elementSize count data.length .dataTooShort with
  | some e => exact .inl ⟨e, rfl, rfl⟩
  | none =>
    by_cases hz : elementSize * count = 0
    · simp only [if_pos hz]
      exact .inr ⟨0, rfl, .inl ⟨hz, trivial⟩⟩
    · by_cases hfit : file.buffer.Fits (grant .growth) file.position
          (data.take (elementSize * count)) v.budget
      · simp only [if_neg hz, if_pos hfit]
        obtain ⟨hm, -, -⟩ := OpenFile.refusal_eq_none_iff.mp hr
        exact .inr ⟨_, rfl, .inr (.wrote h file _ _ hf hm hfit)⟩
      · simp only [if_neg hz, if_neg hfit]
        exact .inl ⟨_, rfl, trivial⟩

theorem write_edits (h : Handle) (data : Bytes) (elementSize count : Nat) :
    v.Edits h (v.write grant h data elementSize count).volume := by
  cases hf : v.files.find? h with
  | none =>
    rw [write_of_none grant hf]
    exact .inl rfl
  | some file =>
    obtain ⟨e, -, hsame⟩ | ⟨n, -, ⟨-, hsame⟩ | hm⟩ := write_cases grant hf data elementSize count
    · exact .inl hsame
    · exact .inl hsame
    · exact .inr ⟨file, .inr ⟨_, hm⟩⟩

theorem seek_edits (h : Handle) (offset : Int) (origin : Origin) :
    v.Edits h (v.seek h offset origin).volume := by
  cases hf : v.files.find? h with
  | none =>
    rw [seek_of_none hf]
    exact .inl rfl
  | some file =>
    rw [seek_of_some hf]
    cases hs : file.seek offset origin with
    | error e => exact .inl rfl
    | ok moved =>
      obtain ⟨position, file'⟩ := moved
      obtain ⟨rfl, hle⟩ := OpenFile.seek_ok hs
      exact .inr ⟨file, .inl ⟨position, .moved h file position hf (.inr hle)⟩⟩

theorem Edits.leads {h : Handle} (he : v.Edits h v') :
    ∃ cs, Leads v cs v' ∧ cs.filterMap Change.flush? = [] ∧ ∀ n, .stranded n ∉ cs := by
  obtain rfl | ⟨file, ⟨position, hm⟩ | ⟨data, hm⟩⟩ := he
  · exact ⟨[], .refl _, rfl, by simp⟩
  · exact ⟨_, hm.leads, rfl, by simp⟩
  · exact ⟨_, hm.leads, rfl, by simp⟩

theorem Edits.find?_self {h : Handle} {file : OpenFile} (he : v.Edits h v')
    (hf : v.files.find? h = some file) :
    ∃ file', v'.files.find? h = some file' ∧ file'.name = file.name ∧ file'.mode = file.mode := by
  obtain rfl | ⟨file', ⟨position, hm⟩ | ⟨data, hm⟩⟩ := he
  · exact ⟨file, hf, rfl, rfl⟩
  · cases hm with
    | moved _ _ _ hf' _ =>
      obtain rfl := Option.some.inj (hf'.symm.trans hf)
      exact ⟨_, FileTable.replace_find?_self hf _, rfl, rfl⟩
  · cases hm with
    | wrote _ _ _ _ hf' _ _ =>
      obtain rfl := Option.some.inj (hf'.symm.trans hf)
      exact ⟨_, FileTable.replace_find?_self hf _, rfl, rfl⟩

theorem Edits.find?_of_ne {h g : Handle} (he : v.Edits h v') (hg : g ≠ h) :
    v'.files.find? g = v.files.find? g := by
  obtain rfl | ⟨file, ⟨position, hm⟩ | ⟨data, hm⟩⟩ := he
  · rfl
  · exact (hm.find? g).trans (if_neg hg)
  · exact (hm.find? g).trans (if_neg hg)

theorem Makes.find?_wrote {h : Handle} {file : OpenFile} {data : Bytes}
    (hm : Makes v (.wrote h file data) v') : v'.files.find? h = some (file.written data) :=
  (hm.find? h).trans (if_pos rfl)

theorem write_fresh {h : Handle} {file : OpenFile} (hf : v.files.find? h = some file)
    (hempty : file.contents = []) (hpos : file.position = 0) (data : Bytes) :
    (∃ e, (v.write grant h data 1 data.length).result = .error e ∧
      (v.write grant h data 1 data.length).volume = v) ∨
    ∃ n file', (v.write grant h data 1 data.length).result = .ok n ∧
      (v.write grant h data 1 data.length).volume.files.find? h = some file' ∧
      file'.name = file.name ∧ file'.mode = file.mode ∧ file'.contents = data := by
  obtain hfail | ⟨n, hok, ⟨hz, hsame⟩ | hm⟩ := write_cases grant hf data 1 data.length
  · exact .inl hfail
  · -- A write of nothing leaves the file empty, as it was.
    have hd : data = [] := List.length_eq_zero_iff.mp (by omega)
    rw [hsame]
    exact .inr ⟨n, file, hok, hf, rfl, rfl, hempty.trans hd.symm⟩
  · refine .inr ⟨n, _, hok, hm.find?_wrote, rfl, rfl, ?_⟩
    rw [OpenFile.contents] at hempty
    simp [OpenFile.contents, OpenFile.written, Buffer.written, overlay, hempty, hpos]

/-- A fill that cannot write fails with the fault of the write: what could not be written can be
discarded, and a handle that is not open is told as such by both. -/
theorem fill_of_error {h : Handle} {data : Bytes} {e : Fault}
    (he : (v.write grant h data 1 data.length).result = .error e) :
    (v.fill grant h data).result = .error e := by
  cases hf : v.files.find? h with
  | none =>
    rw [write_of_none grant hf] at he
    simp only [fill, write_of_none grant hf, discard_of_none hf]
    exact congrArg Except.error (Except.error.inj he)
  | some file =>
    obtain ⟨e', he', hsame⟩ | ⟨n, hok, -⟩ := write_cases grant hf data 1 data.length
    · have hdiscard := (discard_of_some hf).1
      rw [fill]
      generalize v.write grant h data 1 data.length = written at he hsame ⊢
      obtain ⟨result, w, events⟩ := written
      obtain rfl : result = .error e := he
      obtain rfl : w = v := hsame
      dsimp only
      generalize w.discard h = discarded at hdiscard ⊢
      obtain ⟨result', w', events'⟩ := discarded
      obtain rfl : result' = .ok () := hdiscard
      rfl
    · rw [hok] at he
      cases he

theorem fill_cases {h : Handle} {file : OpenFile} (hf : v.files.find? h = some file)
    (hempty : file.contents = []) (hpos : file.position = 0) (data : Bytes) :
    ((v.fill grant h data).result = .ok () ∧ v.Edits h (v.fill grant h data).volume ∧
      ∃ file', (v.fill grant h data).volume.files.find? h = some file' ∧
        file'.name = file.name ∧ file'.mode = file.mode ∧ file'.contents = data) ∨
    (∃ e, (v.fill grant h data).result = .error e) ∧
      Makes v (.dropped h file) (v.fill grant h data).volume := by
  have hedits := v.write_edits grant h data 1 data.length
  have hfresh := write_fresh grant hf hempty hpos data
  rw [fill]
  generalize v.write grant h data 1 data.length = written at hedits hfresh ⊢
  obtain ⟨result, w, events⟩ := written
  obtain ⟨e, rfl, rfl⟩ | ⟨n, file', rfl, hfile⟩ := hfresh
  · have hd := discard_of_some hf
    dsimp only
    generalize w.discard h = discarded at hd ⊢
    obtain ⟨result', w', events'⟩ := discarded
    obtain ⟨rfl, hdrop⟩ := hd
    exact .inr ⟨⟨e, rfl⟩, hdrop⟩
  · exact .inl ⟨rfl, hedits, file', hfile⟩

theorem Makes.find?_placed {h : Handle} {file : OpenFile} (hm : Makes v (.placed h file) v') :
    v'.files.find? h = some file :=
  (hm.find? h).trans (if_pos rfl)

/-- To save is to open, to fill and to close, and only a close that flushes succeeds. -/
theorem save_cases (hv : v.Sound) (name : String) (data : Bytes) :
    ((∃ e, (v.openAs grant name .write).result = .error e ∧
        (v.save grant name data).result = .error e) ∧
      (v.save grant name data).volume = (v.openAs grant name .write).volume) ∨
    ∃ h file v₁ v₂ file', Makes v (.placed h file) v₁ ∧ ¬ v.Strands grant name .write ∧
      v₁.Edits h v₂ ∧ v₂.files.find? h = some file' ∧
      (((v.save grant name data).result = .ok () ∧ file'.name = name ∧ file'.contents = data ∧
          Makes v₂ (.flushed h file') (v.save grant name data).volume) ∨
        (∃ e, (v.save grant name data).result = .error e) ∧
          Makes v₂ (.dropped h file') (v.save grant name data).volume) := by
  obtain ⟨h, stored, v₁, ho, hc, hm, hs⟩ | ⟨e, ho, -, hs⟩ | ⟨n, v₁, ho, hm, hs, _⟩ :=
    openAs_cases grant hv name .write
  · -- A file opened to write starts empty, so that all it has in the end is `data`.
    obtain ⟨-, -, hstored⟩ := checkOpen_ok hc
    obtain rfl : stored = none := hstored
    have hfill := fill_cases grant hm.find?_placed rfl rfl data
    rw [save, ho]
    simp only [Reply.andThen]
    generalize v₁.fill grant h data = filled at hfill ⊢
    obtain ⟨result, v₂, events⟩ := filled
    obtain ⟨rfl, hedits, file', hf', hname, hmode, hcontents⟩ | ⟨⟨e, rfl⟩, hdrop⟩ := hfill
    · refine .inr ⟨h, _, v₁, v₂, file', hm, hs, hedits, hf', ?_⟩
      have hwrite : file'.mode.canWrite := by rw [hmode]; rfl
      have hclose := close_of_some grant hf'
      dsimp only at hclose ⊢
      generalize v₂.close grant h = closed at hclose ⊢
      obtain ⟨result', v₃, events'⟩ := closed
      obtain ⟨-, rfl, hflush⟩ | ⟨herror, hdrop⟩ := hclose
      · exact .inl ⟨rfl, hname, hcontents, hflush⟩
      · exact .inr ⟨herror hwrite, hdrop⟩
    · exact .inr ⟨h, _, v₁, v₁, _, hm, hs, .inl rfl, hm.find?_placed, .inr ⟨⟨e, rfl⟩, hdrop⟩⟩
  · exact .inl ⟨⟨e, by rw [ho], by rw [save, ho]; rfl⟩, by rw [save, ho]; rfl⟩
  · exact .inl ⟨⟨_, by rw [ho], by rw [save, ho]; rfl⟩, by rw [save, ho]; rfl⟩

theorem readRest_edits (h : Handle) : v.Edits h (v.readRest grant h).volume := by
  rw [readRest]
  cases v.fileLength h with
  | error e => exact .inl rfl
  | ok length =>
    have ht := tell_volume v h
    generalize v.tell h = told at ht ⊢
    obtain ⟨result, w, events⟩ := told
    obtain rfl : w = v := ht
    cases result with
    | error e => exact .inl rfl
    | ok position =>
      simp only [Reply.andThen]
      generalize Budget.unlimited.allocate (grant .output) (length - position) = allocated
      obtain ⟨_ | out, _⟩ := allocated
      · exact .inl rfl
      · have hread := w.read_edits h out 1 (length - position)
        dsimp only
        generalize w.read h out 1 (length - position) = read at hread ⊢
        obtain ⟨⟨_ | count, w', events'⟩, out'⟩ := read
        · exact hread
        · exact hread

theorem load_cases (hv : v.Sound) (name : String) :
    (v.load grant name).volume = (v.openAs grant name .read).volume ∧
      (∃ e, (v.openAs grant name .read).result = .error e) ∨
    ∃ h file v₁ v₂ file', Makes v (.placed h file) v₁ ∧ ¬ v.Strands grant name .read ∧
      v₁.Edits h v₂ ∧ v₂.files.find? h = some file' ∧
      Makes v₂ (.dropped h file') (v.load grant name).volume := by
  obtain ⟨h, stored, v₁, ho, hc, hm, hs⟩ | ⟨e, ho, -, hs⟩ | ⟨n, v₁, ho, hm, hs, _⟩ :=
    openAs_cases grant hv name .read
  · have hedits := v₁.readRest_edits grant h
    rw [load, ho]
    simp only [Reply.andThen]
    generalize v₁.readRest grant h = rest at hedits ⊢
    obtain ⟨result, v₂, events⟩ := rest
    obtain ⟨file', hf', -, hmode⟩ := hedits.find?_self hm.find?_placed
    refine .inr ⟨h, _, v₁, v₂, file', hm, hs, hedits, hf', ?_⟩
    -- A file that is opened to be read cannot write, so its close drops it.
    have hclose := close_of_some grant hf'
    generalize v₂.close grant h = closed at hclose ⊢
    obtain ⟨result', v₃, events'⟩ := closed
    obtain ⟨hwrite, -⟩ | ⟨-, hdrop⟩ := hclose
    · rw [hmode] at hwrite
      cases hwrite
    · cases result' <;> exact hdrop
  · exact .inl ⟨by rw [load, ho]; rfl, e, by rw [ho]⟩
  · exact .inl ⟨by rw [load, ho]; rfl, _, by rw [ho]⟩

theorem load_of_error (hv : v.Sound) {name : String} {h : Handle} {e : Fault}
    (ho : (v.openAs grant name .read).result = .ok h)
    (he : ((v.openAs grant name .read).volume.readRest grant h).result = .error e) :
    (v.load grant name).result = .error e := by
  obtain ⟨h', stored, v₁, hopen, -, hm, -⟩ | ⟨e', hopen, -⟩ | ⟨n, v₁, hopen, -⟩ :=
    openAs_cases grant hv name .read
  · have hedits := v₁.readRest_edits grant h'
    rw [hopen] at ho he
    obtain rfl : h' = h := Except.ok.inj ho
    dsimp only at he
    rw [load, hopen]
    simp only [Reply.andThen]
    generalize v₁.readRest grant h' = rest at hedits he ⊢
    obtain ⟨result, v₂, events⟩ := rest
    obtain rfl : result = .error e := he
    obtain ⟨file', hf', -, hmode⟩ := hedits.find?_self hm.find?_placed
    have hclose := (close_of_reading grant hf' (hmode ▸ rfl)).1
    dsimp only at hclose ⊢
    generalize v₂.close grant h' = closed at hclose ⊢
    obtain ⟨result', v₃, events'⟩ := closed
    obtain rfl : result' = .ok () := hclose
    rfl
  · rw [hopen] at ho
    cases ho
  · rw [hopen] at ho
    cases ho

theorem Makes.find?_before_placed {h : Handle} {file : OpenFile}
    (hm : Makes v (.placed h file) v') : v.files.find? h = none := by
  cases hm with
  | placed _ _ _ _ _ _ hp _ _ => exact hp.find?_slot rfl

theorem openAs_find? (hv : v.Sound) (name : String) (mode : Mode) :
    (∃ h file, (v.openAs grant name mode).result = .ok h ∧ v.files.find? h = none ∧
      ∀ g, (v.openAs grant name mode).volume.files.find? g =
        if g = h then some file else v.files.find? g) ∨
    (∃ e, (v.openAs grant name mode).result = .error e) ∧
      ∀ g, (v.openAs grant name mode).volume.files.find? g = v.files.find? g := by
  obtain ⟨h, stored, v', ho, -, hm, -⟩ | ⟨e, ho, -⟩ | ⟨n, v', ho, hm, -⟩ :=
    openAs_cases grant hv name mode
  · rw [ho]
    exact .inl ⟨h, _, rfl, hm.find?_before_placed, hm.find?⟩
  · rw [ho]
    exact .inr ⟨⟨e, rfl⟩, fun _ => rfl⟩
  · rw [ho]
    exact .inr ⟨⟨_, rfl⟩, hm.find?⟩

theorem find?_of_none {h : Handle} (hf : v.files.find? h = none) (g : Handle) :
    v.files.find? g = if h = g then none else v.files.find? g := by
  split
  · next he => rw [← he, hf]
  · rfl

theorem close_find? (h g : Handle) :
    (v.close grant h).volume.files.find? g = if h = g then none else v.files.find? g := by
  cases hf : v.files.find? h with
  | none =>
    rw [close_of_none grant hf]
    exact find?_of_none hf g
  | some file =>
    obtain ⟨-, -, hm⟩ | ⟨-, hm⟩ := close_of_some grant hf
    · simp only [hm.find?, Change.leaves, eq_comm]
    · simp only [hm.find?, Change.leaves, eq_comm]

theorem discard_find? (h g : Handle) :
    (v.discard h).volume.files.find? g = if h = g then none else v.files.find? g := by
  cases hf : v.files.find? h with
  | none =>
    rw [discard_of_none hf]
    exact find?_of_none hf g
  | some file => simp only [(discard_of_some hf).2.find?, Change.leaves, eq_comm]

theorem find?_of_passing {v₁ v₂ : Volume} {h : Handle} {file : OpenFile}
    (hm : Makes v (.placed h file) v₁) (he : v₁.Edits h v₂)
    (hend : ∀ g, v'.files.find? g = if g = h then none else v₂.files.find? g) (g : Handle) :
    v'.files.find? g = v.files.find? g := by
  rw [hend]
  by_cases hg : g = h
  · rw [if_pos hg, hg, hm.find?_before_placed]
  · rw [if_neg hg, he.find?_of_ne hg, hm.find?]
    exact if_neg hg

theorem save_find? (hv : v.Sound) (name : String) (data : Bytes) (g : Handle) :
    (v.save grant name data).volume.files.find? g = v.files.find? g := by
  obtain ⟨⟨e, he, -⟩, hvol⟩ | ⟨h, file, v₁, v₂, file', hm, -, hedits, -, hlast⟩ :=
    save_cases grant hv name data
  · rw [hvol]
    obtain ⟨h, file, ho, -⟩ | ⟨-, hf⟩ := openAs_find? grant hv name .write
    · rw [ho] at he
      cases he
    · exact hf g
  · refine find?_of_passing hm hedits ?_ g
    obtain ⟨-, -, -, hflush⟩ | ⟨-, hdrop⟩ := hlast
    · exact hflush.find?
    · exact hdrop.find?

theorem load_find? (hv : v.Sound) (name : String) (g : Handle) :
    (v.load grant name).volume.files.find? g = v.files.find? g := by
  obtain ⟨hvol, e, he⟩ | ⟨h, file, v₁, v₂, file', hm, -, hedits, -, hdrop⟩ :=
    load_cases grant hv name
  · rw [hvol]
    obtain ⟨h, file, ho, -⟩ | ⟨-, hf⟩ := openAs_find? grant hv name .read
    · rw [ho] at he
      cases he
    · exact hf g
  · exact find?_of_passing hm hedits hdrop.find? g

def target? : Request → Option (String × Mode)
  | .openText name text => (Mode.ofText? text).map (name, ·)
  | .openAs name mode => some (name, mode)
  | .save name _ => some (name, .write)
  | .load name => some (name, .read)
  | _ => none

def StrandsOn (v : Volume) (request : Request) : Prop :=
  match target? request with
  | some (name, mode) => v.Strands grant name mode
  | none => False

/-- The name and the bytes that a request flushes: those of the closed file, if its mode can write
and the close succeeds, or those saved, if the save succeeds. -/
def flush? (v : Volume) : Request → Option (String × Bytes)
  | .close h =>
    match v.files.find? h, (v.close grant h).result with
    | some file, .ok () => if file.mode.canWrite then some (file.name, file.contents) else none
    | _, _ => none
  | .save name data =>
    match (v.save grant name data).result with
    | .ok () => some (name, data)
    | .error _ => none
  | _ => none

theorem openAs_leads (hv : v.Sound) (name : String) (mode : Mode) :
    ∃ cs, Leads v cs (v.openAs grant name mode).volume ∧ cs.filterMap Change.flush? = [] ∧
      ((∃ n, .stranded n ∈ cs) ↔ v.Strands grant name mode) := by
  obtain ⟨h, stored, v', ho, -, hm, hs⟩ | ⟨e, ho, -, hs⟩ | ⟨n, v', ho, hm, hs, -⟩ :=
    openAs_cases grant hv name mode
  · rw [ho]
    exact ⟨_, hm.leads, rfl, by simp [hs]⟩
  · rw [ho]
    exact ⟨[], .refl v, rfl, by simp [hs]⟩
  · rw [ho]
    exact ⟨_, hm.leads, rfl, by simp [hs]⟩

theorem respond_volume {α : Type} (r : Reply α) (answer : α → Answer) :
    (r.respond answer).volume = r.volume := rfl

theorem close_leads {h : Handle} :
    ∃ cs, Leads v cs (v.close grant h).volume ∧
      cs.filterMap Change.flush? = (v.flush? grant (.close h)).toList ∧
      ∀ n, .stranded n ∉ cs := by
  cases hf : v.files.find? h with
  | none =>
    rw [close_of_none grant hf, flush?, hf]
    exact ⟨[], .refl v, rfl, by simp⟩
  | some file =>
    obtain ⟨hwrite, hok, hm⟩ | ⟨herror, hm⟩ := close_of_some grant hf
    · refine ⟨_, hm.leads, ?_, by simp⟩
      simp [flush?, hf, hok, hwrite, Change.flush?]
    · refine ⟨_, hm.leads, ?_, by simp⟩
      by_cases hwrite : file.mode.canWrite
      · obtain ⟨e, he⟩ := herror hwrite
        simp [flush?, hf, he, Change.flush?]
      · cases hr : (v.close grant h).result <;> simp [flush?, hf, hr, hwrite, Change.flush?]

theorem discard_leads (h : Handle) :
    ∃ cs, Leads v cs (v.discard h).volume ∧ cs.filterMap Change.flush? = [] ∧
      ∀ n, .stranded n ∉ cs := by
  cases hf : v.files.find? h with
  | none =>
    rw [discard_of_none hf]
    exact ⟨[], .refl v, rfl, by simp⟩
  | some file => exact ⟨_, (discard_of_some hf).2.leads, rfl, by simp⟩

theorem filterMap_placed (h : Handle) (file : OpenFile) (hf : cs.filterMap Change.flush? = [])
    (c : Change) :
    ([Change.placed h file] ++ (cs ++ [c])).filterMap Change.flush? =
      [c].filterMap Change.flush? := by
  rw [List.filterMap_append, List.filterMap_append, hf]
  rfl

theorem save_leads (hv : v.Sound) (name : String) (data : Bytes) :
    ∃ cs, Leads v cs (v.save grant name data).volume ∧
      cs.filterMap Change.flush? = (v.flush? grant (.save name data)).toList ∧
      ((∃ n, .stranded n ∈ cs) ↔ v.Strands grant name .write) := by
  rw [flush?]
  obtain ⟨⟨e, -, he⟩, hvol⟩ | ⟨h, file, v₁, v₂, file', hm, hs, hedits, -, hlast⟩ :=
    save_cases grant hv name data
  · rw [he, hvol]
    exact openAs_leads grant hv name .write
  · obtain ⟨cs, hl, hf, hn⟩ := hedits.leads
    obtain ⟨hok, hname, hcontents, hflush⟩ | ⟨⟨e, he⟩, hdrop⟩ := hlast
    · refine ⟨_, hm.leads.append (hl.append hflush.leads), ?_, by simp [hs, hn]⟩
      rw [filterMap_placed h file hf, hok, ← hname, ← hcontents]
      rfl
    · refine ⟨_, hm.leads.append (hl.append hdrop.leads), ?_, by simp [hs, hn]⟩
      rw [filterMap_placed h file hf, he]
      rfl

theorem load_leads (hv : v.Sound) (name : String) :
    ∃ cs, Leads v cs (v.load grant name).volume ∧ cs.filterMap Change.flush? = [] ∧
      ((∃ n, .stranded n ∈ cs) ↔ v.Strands grant name .read) := by
  obtain ⟨hvol, -⟩ | ⟨h, file, v₁, v₂, file', hm, hs, hedits, -, hdrop⟩ := load_cases grant hv name
  · rw [hvol]
    exact openAs_leads grant hv name .read
  · obtain ⟨cs, hl, hf, hn⟩ := hedits.leads
    refine ⟨_, hm.leads.append (hl.append hdrop.leads), ?_, by simp [hs, hn]⟩
    rw [filterMap_placed h file hf]
    rfl

/-- Every request is a sequence of changes. It flushes what `flush?` tells and strands a charge
exactly when `StrandsOn` tells so. -/
theorem serve_leads (hv : v.Sound) (request : Request) :
    ∃ cs, Leads v cs (v.serve grant request).volume ∧
      cs.filterMap Change.flush? = (v.flush? grant request).toList ∧
      ((∃ n, .stranded n ∈ cs) ↔ v.StrandsOn grant request) := by
  cases request with
  | openText name text =>
    simp only [serve, openText, respond_volume, Mode.parse, StrandsOn, target?]
    cases Mode.ofText? text with
    | none => exact ⟨[], .refl v, rfl, by simp⟩
    | some mode => exact openAs_leads grant hv name mode
  | openAs name mode => exact openAs_leads grant hv name mode
  | close h =>
    obtain ⟨cs, hl, hf, hs⟩ := close_leads grant (v := v) (h := h)
    exact ⟨cs, hl, hf, by simp [hs, StrandsOn, target?]⟩
  | discard h =>
    obtain ⟨cs, hl, hf, hs⟩ := discard_leads (v := v) h
    exact ⟨cs, hl, hf, by simp [hs, StrandsOn, target?]⟩
  | read h out elementSize count =>
    obtain ⟨cs, hl, hf, hs⟩ := (v.read_edits h out elementSize count).leads
    exact ⟨cs, hl, hf, by simp [hs, StrandsOn, target?]⟩
  | write h data elementSize count =>
    obtain ⟨cs, hl, hf, hs⟩ := (v.write_edits grant h data elementSize count).leads
    exact ⟨cs, hl, hf, by simp [hs, StrandsOn, target?]⟩
  | seek h offset origin =>
    obtain ⟨cs, hl, hf, hs⟩ := (v.seek_edits h offset origin).leads
    exact ⟨cs, hl, hf, by simp [hs, StrandsOn, target?]⟩
  | save name data => exact save_leads grant hv name data
  | load name => exact load_leads grant hv name
  | tell h =>
    rw [serve, respond_volume, tell_volume]
    exact ⟨[], .refl v, rfl, by simp [StrandsOn, target?]⟩
  | stat _ | isOpen _ | mode _ | fileLength _ | list | used =>
    exact ⟨[], .refl v, rfl, by simp [StrandsOn, target?]⟩

theorem ofLimits_sound (l : Limits) : (ofLimits l).Sound :=
  ⟨FileTable.empty_sound l.maxOpen, List.Pairwise.nil, Nat.zero_le _⟩

theorem create_eq_ok_iff {l : Limits} : create l = .ok v ↔ l.check = .ok () ∧ v = ofLimits l := by
  rw [create]
  cases l.check with
  | error e => simp
  | ok => simp [eq_comm]

theorem create_eq_ok {l : Limits} (h : create l = .ok v) :
    v = ofLimits l ∧ 0 < l.initialCapacity := by
  obtain ⟨hl, rfl⟩ := create_eq_ok_iff.mp h
  exact ⟨rfl, (Limits.check_eq_ok.mp hl).2.2.2.2⟩

theorem after_cons (v : Volume) (step : Allocator × Request) (rest : List (Allocator × Request)) :
    v.after (step :: rest) = (v.serve step.1 step.2).volume.after rest := rfl

theorem after_append (v : Volume) (steps more : List (Allocator × Request)) :
    v.after (steps ++ more) = (v.after steps).after more :=
  List.foldl_append

theorem serve_sound (hv : v.Sound) (request : Request) : (v.serve grant request).volume.Sound := by
  obtain ⟨cs, hl, -⟩ := serve_leads grant hv request
  exact hl.sound hv

theorem after_keeps (P : Volume → Prop)
    (hserve : ∀ v grant request, P v → P (v.serve grant request).volume) (hv : P v)
    (steps : List (Allocator × Request)) : P (v.after steps) := by
  induction steps generalizing v with
  | nil => exact hv
  | cons step rest ih => exact ih (hserve v step.1 step.2 hv)

theorem after_sound (hv : v.Sound) (steps : List (Allocator × Request)) :
    (v.after steps).Sound :=
  after_keeps Sound (fun _ grant request hw => serve_sound grant hw request) hv steps

theorem after_limits (hv : v.Sound) (steps : List (Allocator × Request)) :
    (v.after steps).limits = v.limits ∧
      (v.after steps).archive.maxEntries = v.archive.maxEntries ∧
      (v.after steps).budget.limit = v.budget.limit := by
  induction steps generalizing v with
  | nil => exact ⟨rfl, rfl, rfl⟩
  | cons step rest ih =>
    obtain ⟨cs, hl, -⟩ := serve_leads step.1 hv step.2
    obtain ⟨h₁, h₂, h₃⟩ := hl.limits
    obtain ⟨h₁', h₂', h₃'⟩ := ih (hl.sound hv)
    exact ⟨h₁'.trans h₁, h₂'.trans h₂, h₃'.trans h₃⟩

end Volume

end Enclave
