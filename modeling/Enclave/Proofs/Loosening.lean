import Enclave.Proofs.Fit

namespace Enclave

def Fault.refuses : Fault → Bool
  | nameTooLong _ _ | capacityExhausted _ _ | outOfMemory _ => true
  | _ => false

open Fault (refuses)

def Budget.Loosens (limit limit' : Option Nat) : Prop :=
  ∀ m', limit' = some m' → ∃ m, limit = some m ∧ m ≤ m'

/-- What `l` allows, `l'` allows too. -/
structure Limits.Within (l l' : Limits) : Prop where
  maxOpen_le : l.maxOpen ≤ l'.maxOpen
  maxEntries_le : l.maxEntries ≤ l'.maxEntries
  maxNameLength_le : l.maxNameLength ≤ l'.maxNameLength
  initialCapacity_eq : l.initialCapacity = l'.initialCapacity
  memoryLimit_loosens : Budget.Loosens l.memoryLimit l'.memoryLimit

theorem Limits.checkName_of_le {l l' : Limits} (hle : l.maxNameLength ≤ l'.maxNameLength)
    {name : String} (h : Spared refuses (l.checkName name)) :
    l'.checkName name = l.checkName name := by
  rw [checkName] at h
  rw [checkName, checkName]
  by_cases hz : name.utf8ByteSize = 0
  · rw [if_pos hz, if_pos hz]
  · rw [if_neg hz] at h
    by_cases hl : l.maxNameLength < name.utf8ByteSize
    · rw [if_pos hl] at h
      exact h.elim rfl
    · rw [if_neg hz, if_neg hz, if_neg hl, if_neg (by omega)]

namespace Budget

def under (b : Budget) (limit : Option Nat) : Budget :=
  { b with limit }

theorem Admits.under {b : Budget} {limit : Option Nat} {n : Nat} (h : b.Admits n)
    (hle : Loosens b.limit limit) :
    (b.under limit).Admits n := by
  rw [admits_iff] at h ⊢
  refine ⟨h.1, fun m' hm' => ?_⟩
  obtain ⟨m, hm, hmle⟩ := hle m' hm'
  exact Nat.le_trans (h.2 m hm) hmle

end Budget

namespace Archive

def under (a : Archive) (maxEntries : Nat) : Archive :=
  { a with maxEntries }

theorem refuses_of_flushRefusal {a : Archive} {grant : Allocator} {name : String} {data : Bytes}
    {budget : Budget} {e : Fault} (h : a.flushRefusal grant name data budget = some e) :
    e.refuses := by
  rw [flushRefusal] at h
  split at h
  · exact Option.some.inj h ▸ rfl
  · split at h
    · exact Option.some.inj h ▸ rfl
    · split at h
      · cases h
      · exact Option.some.inj h ▸ rfl

theorem flush_under {a : Archive} {grant : Allocator} {name : String} {data : Bytes}
    {budget : Budget} {n : Nat} {limit : Option Nat} (hn : a.maxEntries ≤ n)
    (hle : Budget.Loosens budget.limit limit)
    (h : Spared refuses (a.flush grant name data budget).result) :
    (a.under n).flush grant name data (budget.under limit) =
      ⟨(a.flush grant name data budget).result,
        (a.flush grant name data budget).state.1.under n,
        (a.flush grant name data budget).state.2.under limit⟩ := by
  rw [flush_eq] at h
  cases hr : a.flushRefusal grant name data budget with
  | some e =>
    rw [hr] at h
    exact h.elim (refuses_of_flushRefusal hr)
  | none =>
    obtain ⟨hroom, hadmits, hgrant⟩ := (a.flushRefusal_eq_none grant).mp hr
    have hr' : (a.under n).flushRefusal grant name data (budget.under limit) = none := by
      refine ((a.under n).flushRefusal_eq_none grant).mpr ⟨fun hf => ?_, hadmits.under hle, hgrant⟩
      exact ⟨Nat.lt_of_lt_of_le (hroom hf).1 hn, (hroom hf).2⟩
    rw [flush_eq, flush_eq, hr, hr']
    rfl

end Archive

namespace FileTable

def under (t : FileTable) (maxOpen : Nat) : FileTable :=
  { t with maxOpen }

variable {t : FileTable} {n : Nat}

theorem vacate_under (h : Handle) : (t.under n).vacate h = (t.vacate h).under n := by
  rw [vacate_eq, vacate_eq]
  rfl

theorem ensureRoom_under (hle : t.maxOpen ≤ n) (h : Spared refuses t.ensureRoom) :
    t.ensureRoom = .ok () ∧ (t.under n).ensureRoom = .ok () := by
  by_cases hr : t.maxOpen ≤ t.opened
  · rw [ensureRoom, if_pos hr] at h
    exact h.elim rfl
  · exact ⟨if_neg hr, if_neg fun hno => hr (Nat.le_trans hle hno)⟩

theorem insert_under (hle : t.maxOpen ≤ n) {file : OpenFile}
    (h : Spared refuses (t.insert file).result) :
    (t.under n).insert file = ⟨(t.insert file).result, (t.insert file).state.under n⟩ := by
  have hroom : Spared refuses t.ensureRoom := by
    intro e he
    unfold insert at h
    rw [he] at h
    exact h e rfl
  obtain ⟨hok, hok'⟩ := ensureRoom_under hle hroom
  obtain ⟨slots, free, maxOpen, opened⟩ := t
  cases free with
  | cons index rest =>
    unfold insert
    rw [hok, hok']
    rfl
  | nil =>
    unfold insert at h ⊢
    rw [hok] at h
    rw [hok, hok']
    by_cases hs : slots.size < slotLimit
    · simp only [under, if_pos hs]
    · simp only [if_neg hs] at h
      exact h.elim rfl

end FileTable

namespace Volume

/-- The same files, entries and charges under other limits. -/
def under (v : Volume) (l : Limits) : Volume :=
  ⟨l, v.archive.under l.maxEntries, v.files.under (min l.maxOpen mostOpen),
    v.budget.under l.memoryLimit⟩

/-- What a volume has room for, `l` has room for too. -/
structure Within (v : Volume) (l : Limits) : Prop where
  files : v.files.maxOpen ≤ min l.maxOpen mostOpen
  entries : v.archive.maxEntries ≤ l.maxEntries
  names : v.limits.maxNameLength ≤ l.maxNameLength
  initial : v.limits.initialCapacity = l.initialCapacity
  memory : Budget.Loosens v.budget.limit l.memoryLimit

variable {v v' : Volume} {l : Limits} {c : Change} {cs : List Change}

theorem ofLimits_within {l₀ : Limits} (h : l₀.Within l) : (ofLimits l₀).Within l where
  files := Nat.le_min.mpr ⟨Nat.le_trans (Nat.min_le_left _ _) h.maxOpen_le, Nat.min_le_right _ _⟩
  entries := h.maxEntries_le
  names := h.maxNameLength_le
  initial := h.initialCapacity_eq
  memory := h.memoryLimit_loosens

theorem Makes.within (hm : Makes v c v') (h : v.Within l) : v'.Within l := by
  obtain ⟨hlimits, hentries, hmemory⟩ := hm.limits
  refine ⟨?_, ?_, ?_, ?_, ?_⟩
  · rw [hm.maxOpen]
    exact h.files
  · rw [hentries]
    exact h.entries
  · rw [hlimits]
    exact h.names
  · rw [hlimits]
    exact h.initial
  · rw [hmemory]
    exact h.memory

theorem Leads.within (hl : Leads v cs v') (h : v.Within l) : v'.Within l := by
  induction hl with
  | refl => exact h
  | step hm _ ih => exact ih (hm.within h)

theorem Edits.within {h : Handle} (he : v.Edits h v') (hw : v.Within l) : v'.Within l := by
  obtain ⟨cs, hl, -⟩ := he.leads
  exact hl.within hw

end Volume

namespace Reply

variable {α β : Type} {l : Limits}

def under (r : Reply α) (l : Limits) : Reply α :=
  { r with volume := r.volume.under l }

theorem andThen_under {r r' : Reply α} {next : α → Volume → Reply β}
    (h : Spared refuses (r.andThen next).result) (hr : Spared refuses r.result → r' = r.under l)
    (hnext : ∀ a, r.result = .ok a → Spared refuses (next a r.volume).result →
      next a (r.volume.under l) = (next a r.volume).under l) :
    r'.andThen next = (r.andThen next).under l := by
  obtain ⟨e | a, v, events⟩ := r
  · rw [hr (Spared.anew h)]
    rfl
  · rw [hr (.ok a)]
    simp only [andThen, under] at h ⊢
    rw [hnext a rfl h]
    rfl

end Reply

namespace Volume

variable {v : Volume} {l : Limits} (grant : Allocator)

theorem checkOpen_under (hw : v.Within l) {name : String} {mode : Mode}
    (h : Spared refuses (v.checkOpen name mode)) :
    (v.under l).checkOpen name mode = v.checkOpen name mode := by
  rw [checkOpen_eq] at h
  rw [checkOpen_eq, checkOpen_eq]
  cases hn : v.limits.checkName name with
  | error e =>
    rw [hn] at h
    have hn' : l.checkName name = .error e := by
      rw [Limits.checkName_of_le hw.names, hn]
      rw [hn]
      exact Spared.anew h
    simp only [under, hn']
  | ok =>
    have hn' : l.checkName name = .ok () := by
      rw [Limits.checkName_of_le hw.names, hn]
      rw [hn]
      exact .ok _
    have hroom : Spared refuses v.files.ensureRoom := by
      intro e he
      simp only [hn, he] at h
      exact h e rfl
    obtain ⟨hok, hok'⟩ := FileTable.ensureRoom_under hw.files hroom
    have hok' : (v.under l).files.ensureRoom = .ok () := hok'
    simp only [hok, hok']
    simp only [under, hn']
    rfl

theorem startCapacity_under (hw : v.Within l) (stored : Option Bytes) :
    (v.under l).startCapacity stored = v.startCapacity stored := by
  rw [startCapacity, startCapacity, hw.initial]
  rfl

theorem prepare_under (hw : v.Within l) {name : String} {mode : Mode}
    (h : Spared refuses (v.prepare grant name mode).result) :
    (v.under l).prepare grant name mode =
      ⟨(v.prepare grant name mode).result,
        (v.prepare grant name mode).state.under l.memoryLimit⟩ := by
  rw [prepare_eq] at h
  rw [prepare_eq, prepare_eq]
  cases hc : v.checkOpen name mode with
  | error e =>
    rw [hc] at h
    rw [checkOpen_under hw, hc]
    · rfl
    · rw [hc]
      exact Spared.anew h
  | ok stored =>
    have hc' : (v.under l).checkOpen name mode = .ok stored := by
      rw [checkOpen_under hw, hc]
      rw [hc]
      exact .ok _
    have hfile : (v.under l).startFile name mode stored = v.startFile name mode stored := by
      rw [startFile, startFile, startCapacity_under hw, growth, growth, hw.initial]
      rfl
    simp only [hc, hc', startCapacity_under hw, hfile] at h ⊢
    -- The same is charged, and the allocator is asked for the same regions.
    by_cases hn : name.utf8ByteSize = 0 ∨ grant .openName name.utf8ByteSize
    · by_cases hb : v.startCapacity stored = 0 ∨
          v.budget.Admits (v.startCapacity stored) ∧ grant .openBuffer (v.startCapacity stored)
      · have hb' : v.startCapacity stored = 0 ∨
            (v.under l).budget.Admits (v.startCapacity stored) ∧
              grant .openBuffer (v.startCapacity stored) :=
          hb.imp_right fun hp => ⟨hp.1.under hw.memory, hp.2⟩
        simp only [if_pos hn, if_pos hb, if_pos hb']
        rfl
      · simp only [if_pos hn, if_neg hb] at h
        exact h.elim rfl
    · simp only [if_neg hn] at h
      exact h.elim rfl

theorem openAs_under (hw : v.Within l) {name : String} {mode : Mode}
    (h : Spared refuses (v.openAs grant name mode).result) :
    (v.under l).openAs grant name mode = (v.openAs grant name mode).under l := by
  have hp := prepare_under grant hw (spared_prepare grant h)
  simp only [openAs, tryOpen, hp] at h ⊢
  generalize v.prepare grant name mode = prepared at h ⊢
  obtain ⟨e | file, budget⟩ := prepared
  · rfl
  · have hi : Spared refuses (v.files.insert file).result := by
      intro e he
      simp only [he] at h
      exact h e rfl
    have hinsert : (v.under l).files.insert file = _ := FileTable.insert_under hw.files hi
    simp only [hinsert]
    cases (v.files.insert file).result with
    | error e => rfl
    | ok handle => rfl

theorem openText_under (hw : v.Within l) {name text : String}
    (h : Spared refuses (v.openText grant name text).result) :
    (v.under l).openText grant name text = (v.openText grant name text).under l := by
  rw [openText] at h
  rw [openText, openText]
  cases hm : Mode.parse text with
  | error e => rfl
  | ok mode =>
    rw [hm] at h
    exact openAs_under grant hw h

theorem flushFile_under (hw : v.Within l) {file : OpenFile}
    (h : Spared refuses (v.flushFile grant file).result) :
    (v.under l).flushFile grant file =
      ⟨(v.flushFile grant file).result, (v.flushFile grant file).state.1.under l.maxEntries,
        (v.flushFile grant file).state.2.under l.memoryLimit⟩ := by
  rw [flushFile] at h
  rw [flushFile, flushFile]
  by_cases hm : file.mode.canWrite
  · rw [if_pos hm] at h
    rw [if_pos hm, if_pos hm]
    exact Archive.flush_under hw.entries hw.memory h
  · rw [if_neg hm, if_neg hm]
    rfl

theorem close_under (hw : v.Within l) {handle : Handle}
    (h : Spared refuses (v.close grant handle).result) :
    (v.under l).close grant handle = (v.close grant handle).under l := by
  have hfind : (v.under l).files.find? handle = v.files.find? handle := rfl
  rw [close] at h
  rw [close, close, hfind]
  cases hf : v.files.find? handle with
  | none => rfl
  | some file =>
    rw [hf] at h
    have hflush : (v.under l).flushFile grant file = _ := flushFile_under grant hw h
    have hvacate : (v.under l).files.vacate handle = _ := FileTable.vacate_under handle
    simp only [hflush, hvacate]
    rfl

theorem discard_under (v : Volume) (handle : Handle) :
    (v.under l).discard handle = (v.discard handle).under l := by
  have hfind : (v.under l).files.find? handle = v.files.find? handle := rfl
  rw [discard, discard, hfind]
  cases v.files.find? handle with
  | none => rfl
  | some file =>
    have hvacate : (v.under l).files.vacate handle = _ := FileTable.vacate_under handle
    simp only [hvacate]
    rfl

theorem read_under (v : Volume) (handle : Handle) (out : Bytes) (elementSize count : Nat) :
    (v.under l).read handle out elementSize count =
      ((v.read handle out elementSize count).1.under l,
        (v.read handle out elementSize count).2) := by
  have hcheck : (v.under l).checkAccess handle .read elementSize count out.length .outputTooShort =
    v.checkAccess handle .read elementSize count out.length .outputTooShort := rfl
  rw [read, read, hcheck]
  cases v.checkAccess handle .read elementSize count out.length .outputTooShort with
  | error e => rfl
  | ok access =>
    obtain ⟨file, length⟩ := access
    by_cases hz : length = 0
    · simp only [if_pos hz]
      rfl
    · simp only [if_neg hz]
      rfl

theorem write_under (hw : v.Within l) {handle : Handle} {data : Bytes} {elementSize count : Nat}
    (h : Spared refuses (v.write grant handle data elementSize count).result) :
    (v.under l).write grant handle data elementSize count =
      (v.write grant handle data elementSize count).under l := by
  cases hf : v.files.find? handle with
  | none =>
    have hf' : (v.under l).files.find? handle = none := hf
    rw [write_of_none grant hf, write_of_none grant hf']
    rfl
  | some file =>
    have hf' : (v.under l).files.find? handle = some file := hf
    rw [write_of_some grant hf] at h
    rw [write_of_some grant hf, write_of_some grant hf']
    cases hr : file.refusal .write elementSize count data.length .dataTooShort with
    | some e => rfl
    | none =>
      rw [hr] at h
      by_cases hz : elementSize * count = 0
      · simp only [if_pos hz]
        rfl
      · by_cases hfit : file.buffer.Fits (grant .growth) file.position
            (data.take (elementSize * count)) v.budget
        · have hfit' : file.buffer.Fits (grant .growth) file.position
              (data.take (elementSize * count)) (v.under l).budget :=
            ⟨hfit.1, hfit.2.imp_right fun hp => ⟨hp.1.under hw.memory, hp.2⟩⟩
          simp only [if_neg hz, if_pos hfit, if_pos hfit']
          rfl
        · simp only [if_neg hz, if_neg hfit] at h
          exact h.elim rfl

theorem seek_under (v : Volume) (handle : Handle) (offset : Int) (origin : Origin) :
    (v.under l).seek handle offset origin = (v.seek handle offset origin).under l := by
  have hget : (v.under l).files.get handle = v.files.get handle := rfl
  rw [seek, seek, hget]
  cases (v.files.get handle).bind (·.seek offset origin) with
  | error e => rfl
  | ok moved => rfl

theorem tell_under (v : Volume) (handle : Handle) :
    (v.under l).tell handle = (v.tell handle).under l := by
  have hget : (v.under l).files.get handle = v.files.get handle := rfl
  rw [tell, tell, hget]
  cases v.files.get handle with
  | error e => rfl
  | ok file => rfl

theorem fill_within (hw : v.Within l) (handle : Handle) (data : Bytes) :
    (v.fill grant handle data).volume.Within l := by
  have hw' := (v.write_edits grant handle data 1 data.length).within hw
  rw [fill]
  generalize v.write grant handle data 1 data.length = written at hw' ⊢
  obtain ⟨e | n, w, events⟩ := written
  · obtain ⟨cs, hl, -⟩ := discard_leads (v := w) handle
    have hw'' := hl.within hw'
    dsimp only
    generalize w.discard handle = discarded at hw'' ⊢
    obtain ⟨e' | _, w', events'⟩ := discarded
    · exact hw''
    · exact hw''
  · exact hw'

theorem fill_under (hw : v.Within l) {handle : Handle} {data : Bytes}
    (h : Spared refuses (v.fill grant handle data).result) :
    (v.under l).fill grant handle data = (v.fill grant handle data).under l := by
  have hwrite : Spared refuses (v.write grant handle data 1 data.length).result :=
    fun e he => h e (fill_of_error grant he)
  rw [fill, fill, write_under grant hw hwrite]
  generalize v.write grant handle data 1 data.length = written
  obtain ⟨e | n, w, events⟩ := written
  · simp only [Reply.under, discard_under]
    generalize w.discard handle = discarded
    obtain ⟨e' | _, w', events'⟩ := discarded
    · rfl
    · rfl
  · rfl

theorem openAs_within (hv : v.Sound) (hw : v.Within l) (name : String) (mode : Mode) :
    (v.openAs grant name mode).volume.Within l := by
  obtain ⟨cs, hl, -⟩ := openAs_leads grant hv name mode
  exact hl.within hw

theorem save_under (hv : v.Sound) (hw : v.Within l) {name : String} {data : Bytes}
    (h : Spared refuses (v.save grant name data).result) :
    (v.under l).save grant name data = (v.save grant name data).under l := by
  refine Reply.andThen_under h (openAs_under grant hw) fun handle _ hrest => ?_
  have hopened := openAs_within grant hv hw name .write
  refine Reply.andThen_under hrest (fill_under grant hopened) fun _ _ hclose => ?_
  exact close_under grant (fill_within grant hopened handle data) hclose

theorem readRest_under (v : Volume) (handle : Handle) :
    (v.under l).readRest grant handle = (v.readRest grant handle).under l := by
  have hlength : (v.under l).fileLength handle = v.fileLength handle := rfl
  rw [readRest, readRest, hlength]
  cases v.fileLength handle with
  | error e => rfl
  | ok length =>
    simp only [tell_under]
    generalize v.tell handle = told
    obtain ⟨e | position, w, events⟩ := told
    · rfl
    · simp only [Reply.andThen, Reply.under]
      generalize Budget.unlimited.allocate (grant .output) (length - position) = allocated
      obtain ⟨e | out, -⟩ := allocated
      · rfl
      · simp only [read_under]
        generalize w.read handle out 1 (length - position) = done
        obtain ⟨⟨e | count, w', events'⟩, out'⟩ := done
        · rfl
        · rfl

theorem load_under (hv : v.Sound) (hw : v.Within l) {name : String}
    (h : Spared refuses (v.load grant name).result) :
    (v.under l).load grant name = (v.load grant name).under l := by
  refine Reply.andThen_under h (openAs_under grant hw) fun handle _ hrest => ?_
  have hopened := openAs_within grant hv hw name .read
  have hread := ((v.openAs grant name .read).volume.readRest_edits grant handle).within hopened
  rw [readRest_under]
  generalize (v.openAs grant name .read).volume.readRest grant handle = rest at hread hrest ⊢
  obtain ⟨result, w, events⟩ := rest
  simp only [Reply.under, close_under grant hread hrest.of_closed]
  generalize w.close grant handle = closed
  obtain ⟨e | _, w', events'⟩ := closed
  · rfl
  · rfl

end Volume

namespace Response

def under (r : Response) (l : Limits) : Response :=
  { r with volume := r.volume.under l }

end Response

theorem Reply.respond_under {α : Type} {r r' : Reply α} {l : Limits} {answer : α → Answer}
    (h : Spared refuses (r.respond answer).result) (hr : Spared refuses r.result → r' = r.under l) :
    r'.respond answer = (r.respond answer).under l := by
  rw [hr h.of_respond]
  rfl

namespace Volume

variable {v : Volume} {l : Limits}

theorem serve_under (grant : Allocator) (hv : v.Sound) (hw : v.Within l) {request : Request}
    (h : Spared refuses (v.serve grant request).result) :
    (v.under l).serve grant request = (v.serve grant request).under l := by
  cases request with
  | openText name text => exact Reply.respond_under h (openText_under grant hw)
  | openAs name mode => exact Reply.respond_under h (openAs_under grant hw)
  | close handle => exact Reply.respond_under h (close_under grant hw)
  | discard handle => exact Reply.respond_under h fun _ => discard_under v handle
  | read handle out elementSize count =>
    simp only [serve, read_under]
    rfl
  | write handle data elementSize count => exact Reply.respond_under h (write_under grant hw)
  | seek handle offset origin => exact Reply.respond_under h fun _ => seek_under v handle _ _
  | tell handle => exact Reply.respond_under h fun _ => tell_under v handle
  | save name data => exact Reply.respond_under h (save_under grant hv hw)
  | load name => exact Reply.respond_under h (load_under grant hv hw)
  | stat _ | isOpen _ | mode _ | fileLength _ | list | used => rfl

theorem run_under (hv : v.Sound) (hw : v.Within l) {steps : List (Allocator × Request)}
    (h : ∀ response ∈ v.run steps, Spared refuses response.result) :
    (v.under l).run steps = (v.run steps).map (·.under l) ∧
      (v.under l).after steps = (v.after steps).under l := by
  induction steps generalizing v with
  | nil => exact ⟨rfl, rfl⟩
  | cons step rest ih =>
    obtain ⟨grant, request⟩ := step
    obtain ⟨hfirst, hrest⟩ := List.forall_mem_cons.mp h
    have hserve := serve_under grant hv hw hfirst
    obtain ⟨cs, hl, -⟩ := serve_leads grant hv request
    obtain ⟨hrun, hafter⟩ := ih (hl.sound hv) (hl.within hw) hrest
    rw [run, run, after_cons, after_cons, hserve, List.map_cons]
    exact ⟨congrArg _ hrun, hafter⟩

/-- Limits only refuse. A run in which no name is too long, no table full and no allocation denied
has the same results, regions and reports under every looser limits, and leaves the same entries,
open files and charges. -/
theorem looser_limits_agree {l l' : Limits} (hl : l.Within l') {steps : List (Allocator × Request)}
    (h : ∀ response ∈ (ofLimits l).run steps, Spared refuses response.result) :
    ((ofLimits l').run steps).map (fun r => (r.result, r.out, r.events)) =
        ((ofLimits l).run steps).map (fun r => (r.result, r.out, r.events)) ∧
      let v := (ofLimits l).after steps
      let v' := (ofLimits l').after steps
      v'.archive.entries = v.archive.entries ∧ v'.files.slots = v.files.slots ∧
        v'.files.free = v.files.free ∧ (∀ handle, v'.files.find? handle = v.files.find? handle) ∧
        v'.opened = v.opened ∧ v'.used = v.used := by
  have hsame : (ofLimits l).under l' = ofLimits l' := rfl
  obtain ⟨hrun, hafter⟩ := run_under (ofLimits_sound l) (ofLimits_within hl) h
  rw [hsame] at hrun hafter
  refine ⟨?_, ?_⟩
  · rw [hrun, List.map_map]
    rfl
  · simp only [hafter]
    exact ⟨rfl, rfl, rfl, fun _ => rfl, rfl, rfl⟩

theorem looser_limits_agree_appending :
    let tight : Limits := ⟨1, 1, 1, 2, some 8⟩
    let loose : Limits := ⟨4, 2, 3, 2, none⟩
    let steps : List (Allocator × Request) :=
      [(fun _ _ => true, .save "a" [1, 2]), (fun _ _ => true, .openAs "b" .read),
        (fun _ _ => true, .openAs "a" .append), (fun _ _ => true, .write ⟨0, 2⟩ [3] 1 1),
        (fun _ _ => true, .close ⟨0, 2⟩), (fun _ _ => true, .load "a")]
    tight.Within loose ∧
      (∀ response ∈ (ofLimits tight).run steps, Spared refuses response.result) ∧
      ((ofLimits loose).after steps).archive.entries = [("a", [3])] ∧
      ((ofLimits loose).after steps).used = 1 := by
  intro tight loose steps
  have hwithin : tight.Within loose := ⟨by decide, by decide, by decide, rfl, nofun⟩
  have hfree : ∀ response ∈ (ofLimits tight).run steps, Spared refuses response.result := by decide
  obtain ⟨-, hentries, -, -, -, -, hused⟩ := looser_limits_agree hwithin hfree
  exact ⟨hwithin, hfree, hentries.trans (by decide), hused.trans (by decide)⟩

end Volume

end Enclave
