import Enclave.Proofs.Changes
import Enclave.Proofs.Movements

namespace Enclave.Volume

/-- The capacities of the open files and the lengths of the entries. -/
def held (v : Volume) : Nat :=
  FileTable.measure (·.buffer.capacity) v.files.slots + v.archive.usage.usedBytes

/-- No request of a run opens a file that is paid for and then refused a slot. -/
def NeverStrands (v : Volume) : List (Allocator × Request) → Prop
  | [] => True
  | (grant, request) :: rest =>
    ¬ v.StrandsOn grant request ∧ (v.serve grant request).volume.NeverStrands rest

/-- What is used is what is held and `stray` bytes more, and it keeps the limit. -/
structure Accounted (v : Volume) (stray : Nat) : Prop where
  balance : v.used = v.held + stray
  within : v.budget.used < wordLimit ∧ v.budget.covers v.budget.used

variable {v v' : Volume} {c : Change} {cs : List Change} {stray : Nat}

theorem within_raise {b : Budget} {n : Nat} (h : b.used < wordLimit ∧ b.covers b.used)
    (hn : n = 0 ∨ b.Admits n) :
    (b.raise n).used < wordLimit ∧ (b.raise n).covers (b.raise n).used := by
  obtain rfl | ha := hn
  · exact h
  · exact ha

theorem within_refund {b : Budget} (n : Nat) (h : b.used < wordLimit ∧ b.covers b.used) :
    (b.refund n).used < wordLimit ∧ (b.refund n).covers (b.refund n).used := by
  obtain ⟨limit, used⟩ := b
  refine ⟨Nat.lt_of_le_of_lt (Nat.sub_le _ _) h.1, ?_⟩
  cases limit with
  | none => rfl
  | some limit =>
    have hle : used ≤ limit := by simpa [Budget.covers] using h.2
    have hsub : used - n ≤ limit := by omega
    simpa [Budget.covers, Budget.refund] using hsub

theorem Makes.accounted (hm : Makes v c v') (hv : v.Sound) (ha : v.Accounted stray) :
    v'.Accounted (stray + c.stray) := by
  obtain ⟨hb, hw⟩ := ha
  simp only [used, held] at hb
  cases hm with
  | stranded n _ hn =>
    refine ⟨?_, within_raise hw hn⟩
    simp only [used, held, Budget.raise_used, Change.stray]
    omega
  | placed name mode stored h files _ hp _ hn =>
    refine ⟨?_, within_raise hw hn⟩
    have hs := hp.measure_eq (·.buffer.capacity)
    simp only [startFile] at hs
    simp only [used, held, Budget.raise_used, Change.stray]
    omega
  | moved h file position hf _ =>
    refine ⟨?_, hw⟩
    have hs := FileTable.replace_measure hf { file with position } (·.buffer.capacity)
    simp only [used, held, Change.stray]
    simp only at hs
    omega
  | wrote h file data grant hf _ hfit =>
    have hle := file.buffer.le_capacityAfter file.position data
    refine ⟨?_, within_raise hw ?_⟩
    · have hs := FileTable.replace_measure hf (file.written data) (·.buffer.capacity)
      simp only [OpenFile.written, Buffer.written] at hs
      simp only [used, held, Budget.raise_used, Change.stray, OpenFile.written, Buffer.written]
      omega
    · exact hfit.2.imp (fun h => by omega) And.left
  | flushed h file hf _ hn _ =>
    -- Both refunds are of bytes that are held, so that neither subtraction is cut short.
    refine ⟨?_, within_refund _ (within_refund _ (within_raise hw (.inr hn)))⟩
    have hs := FileTable.vacate_measure hf (·.buffer.capacity)
    have he := v.archive.usedBytes_set hv.ordered file.name file.contents
    have hle := v.archive.sizeOf_le hv.ordered file.name
    simp only [used, held, Buffer.refundTo, Budget.refund_used, Budget.raise_used, Change.stray,
      OpenFile.size, OpenFile.contents, Buffer.size] at he ⊢
    omega
  | dropped h file hf =>
    refine ⟨?_, within_refund _ hw⟩
    have hs := FileTable.vacate_measure hf (·.buffer.capacity)
    simp only [used, held, Buffer.refundTo, Budget.refund_used, Change.stray]
    omega

theorem Leads.accounted (hl : Leads v cs v') (hv : v.Sound) (ha : v.Accounted stray) :
    v'.Accounted (stray + (cs.map Change.stray).sum) := by
  induction hl generalizing stray with
  | refl => exact ha
  | step hm _ ih =>
    have hs := ih (hm.sound hv) (hm.accounted hv ha)
    rwa [List.map_cons, List.sum_cons, ← Nat.add_assoc]

theorem Leads.stray_eq_zero (hl : Leads v cs v') (hpos : 0 < v.limits.initialCapacity) :
    (cs.map Change.stray).sum = 0 ↔ ¬ ∃ n, .stranded n ∈ cs := by
  induction hl with
  | refl => simp
  | @step v w _ c cs hm _ ih =>
    rw [hm.limits.1] at ih
    have hc : c.stray = 0 ↔ ∀ n, c ≠ .stranded n := by
      cases hm with
      | stranded n hle _ =>
        have hn : n ≠ 0 := by omega
        simp [Change.stray, hn]
      | _ => simp [Change.stray]
    rw [List.map_cons, List.sum_cons, Nat.add_eq_zero_iff, ih hpos, hc]
    constructor
    · rintro ⟨hne, hno⟩ ⟨n, hmem⟩
      obtain he | hmem := List.mem_cons.mp hmem
      · exact hne n he.symm
      · exact hno ⟨n, hmem⟩
    · intro hno
      exact ⟨fun n he => hno ⟨n, he ▸ List.mem_cons_self⟩,
        fun ⟨n, hmem⟩ => hno ⟨n, List.mem_cons_of_mem _ hmem⟩⟩

theorem serve_accounted (grant : Allocator) (hv : v.Sound) (ha : v.Accounted stray)
    (hpos : 0 < v.limits.initialCapacity) (request : Request) :
    ∃ more, (v.serve grant request).volume.Accounted (stray + more) ∧
      (v.serve grant request).volume.limits = v.limits ∧
      (more = 0 ↔ ¬ v.StrandsOn grant request) := by
  obtain ⟨cs, hl, -, hs⟩ := serve_leads grant hv request
  exact ⟨_, hl.accounted hv ha, hl.limits.1, (hl.stray_eq_zero hpos).trans (not_congr hs)⟩

theorem after_accounted (hv : v.Sound) (ha : v.Accounted stray)
    (hpos : 0 < v.limits.initialCapacity) (steps : List (Allocator × Request)) :
    ∃ more, (v.after steps).Accounted (stray + more) ∧ (more = 0 ↔ v.NeverStrands steps) := by
  -- Stray bytes are never given back, so the run has none exactly if no request has any.
  induction steps generalizing v stray with
  | nil => exact ⟨0, ha, by simp [NeverStrands]⟩
  | cons step rest ih =>
    obtain ⟨m, hm, hl, hz⟩ := serve_accounted step.1 hv ha hpos step.2
    obtain ⟨n, hn, hzn⟩ := ih (serve_sound step.1 hv step.2) hm (hl ▸ hpos)
    rw [Nat.add_assoc] at hn
    refine ⟨m + n, hn, ?_⟩
    rw [Nat.add_eq_zero_iff, hz, hzn]
    rfl

theorem empty_state (grant : Nat → Bool) (capacity : Nat) (growth : Growth) (budget : Budget) :
    (Buffer.empty grant capacity growth budget).state = (budget.extend grant 0 capacity).state := by
  rw [Buffer.empty]
  split <;> simp_all

theorem startBuffer_replay (v : Volume) (grant : Allocator) (stored : Option Bytes) :
    v.budget.replay (v.startMoves grant stored) = some (v.startBuffer grant stored).state := by
  cases stored with
  | none => simp only [startMoves, startBuffer, empty_state, Budget.extend_replay]
  | some data =>
    have hs : (v.startBuffer grant (some data)).state =
        (v.budget.extend (grant .openBuffer) 0 (max v.growth.least data.length)).state := by
      rw [startBuffer, ← empty_state _ _ v.growth]
      simp only [Buffer.ofBytes]
      split <;> simp_all
    rw [hs, startMoves, Budget.extend_replay]

theorem prepare_replay (v : Volume) (grant : Allocator) (name : String) (mode : Mode) :
    v.budget.replay (v.openMoves grant name mode) = some (v.prepare grant name mode).state := by
  rw [openMoves, prepare]
  cases v.checkOpen name mode with
  | error e => rfl
  | ok stored =>
    cases copyName (grant .openName) name with
    | error e => rfl
    | ok copied =>
      have hr := v.startBuffer_replay grant stored
      dsimp only
      generalize v.startBuffer grant stored = started at hr ⊢
      obtain ⟨_ | buffer, budget⟩ := started <;> exact hr

theorem open_replay (v : Volume) (grant : Allocator) (name : String) (mode : Mode) :
    v.budget.replay (v.openMoves grant name mode) =
      some (v.openAs grant name mode).volume.budget := by
  rw [prepare_replay, openAs, tryOpen]
  generalize v.prepare grant name mode = prepared
  obtain ⟨_ | file, budget⟩ := prepared
  · rfl
  · dsimp only
    generalize v.files.insert file = placed
    obtain ⟨_ | h, files⟩ := placed <;> rfl

theorem flush_replay (a : Archive) (grant : Allocator) (name : String) (data : Bytes)
    (budget : Budget) (h : a.sizeOf name ≤ budget.used) :
    budget.replay (a.flushMoves grant name data budget) =
      some (a.flush grant name data budget).state.2 := by
  have hc := budget.copy_replay (grant .entryData) data
  rw [Archive.flushMoves, Archive.flush]
  cases hf : a.find? name with
  | some old =>
    have hold : old.length ≤ budget.used := a.sizeOf_of_some hf ▸ h
    -- The copy is charged first, which leaves enough to give the old bytes back.
    have hused : budget.used ≤ (budget.copy (grant .entryData) data).state.used := by
      rw [Budget.copy_eq]
      split
      · exact Nat.le_add_right _ _
      · exact Nat.le_refl _
    dsimp only
    generalize budget.copy (grant .entryData) data = copied at hc hused ⊢
    obtain ⟨_ | data', budget'⟩ := copied
    · exact hc
    · rw [Budget.replay_append_of_eq _ hc, Budget.replay_refund _ (Nat.le_trans hold hused)]
  | none =>
    dsimp only
    split
    · rfl
    · cases copyName (grant .entryName) name with
      | error e => rfl
      | ok key =>
        dsimp only
        generalize budget.copy (grant .entryData) data = copied at hc ⊢
        obtain ⟨_ | data', budget'⟩ := copied
        · exact hc
        · exact hc

theorem buffer_write_replay (b : Buffer) (grant : Nat → Bool) (offset : Nat) (data : Bytes)
    (budget : Budget) :
    budget.replay (b.writeMoves grant offset data budget) =
      some (b.write grant offset data budget).state.2 := by
  simp only [Buffer.writeMoves, Buffer.write]
  split
  · rfl
  · by_cases hc : b.capacity < offset + data.length
    · have hr := budget.extend_replay grant b.capacity
        (b.growth.capacityFor b.capacity (offset + data.length))
      simp only [if_pos hc, Buffer.makeRoom]
      generalize budget.extend grant b.capacity
        (b.growth.capacityFor b.capacity (offset + data.length)) = extended at hr ⊢
      obtain ⟨_ | _, budget'⟩ := extended
      · exact hr
      · exact hr
    · simp only [if_neg hc]
      rfl

theorem write_replay (v : Volume) (grant : Allocator) (h : Handle) (data : Bytes)
    (elementSize count : Nat) :
    v.budget.replay (v.writeMoves grant h data elementSize count) =
      some (v.write grant h data elementSize count).volume.budget := by
  rw [writeMoves, write]
  cases v.checkAccess h .write elementSize count data.length .dataTooShort with
  | error e => rfl
  | ok access =>
    obtain ⟨file, length⟩ := access
    dsimp only
    split
    · rfl
    · have hr := buffer_write_replay file.buffer (grant .growth) file.position (data.take length)
        v.budget
      rw [hr, OpenFile.write]
      generalize file.buffer.write (grant .growth) file.position (data.take length) v.budget =
        written
      obtain ⟨_ | n, buffer, budget⟩ := written <;> rfl

def Solvent (v : Volume) : Prop :=
  v.Sound ∧ ∃ stray, v.Accounted stray

theorem Leads.solvent (hl : Leads v cs v') (hv : v.Solvent) : v'.Solvent := by
  obtain ⟨hs, stray, ha⟩ := hv
  exact ⟨hl.sound hs, _, hl.accounted hs ha⟩

theorem Edits.solvent {h : Handle} (he : v.Edits h v') (hv : v.Solvent) : v'.Solvent := by
  obtain ⟨cs, hl, -⟩ := he.leads
  exact hl.solvent hv

theorem Solvent.capacity_le (hv : v.Solvent) {h : Handle} {file : OpenFile}
    (hf : v.files.find? h = some file) (name : String) :
    file.buffer.capacity + v.archive.sizeOf name ≤ v.budget.used := by
  obtain ⟨hs, stray, ha⟩ := hv
  have hb := ha.balance
  have hm := FileTable.vacate_measure hf (·.buffer.capacity)
  have he := v.archive.sizeOf_le hs.ordered name
  simp only [used, held] at hb
  omega

theorem close_replay (grant : Allocator) (hv : v.Solvent) (h : Handle) :
    v.budget.replay (v.closeMoves grant h) = some (v.close grant h).volume.budget := by
  rw [closeMoves, close]
  cases hf : v.files.find? h with
  | none => rfl
  | some file =>
    have hle := hv.capacity_le hf file.name
    simp only [flushFile]
    by_cases hm : file.mode.canWrite
    · have hr := flush_replay v.archive grant file.name file.contents v.budget (by omega)
      -- A flush gives back no more than the old entry, so the buffer is still paid for after it.
      have hcap : file.buffer.capacity ≤
          (v.archive.flush grant file.name file.contents v.budget).state.2.used := by
        obtain ⟨he, -, -⟩ | ⟨e, he⟩ := v.archive.flush_cases grant file.name file.contents v.budget
        · simp only [he, Budget.refund_used, Budget.raise_used]
          omega
        · rw [he]
          dsimp only
          omega
      simp only [if_pos hm]
      rw [Budget.replay_append_of_eq _ hr, Budget.replay_refund _ hcap]
      rfl
    · simp only [if_neg hm, List.nil_append]
      exact Budget.replay_refund _ (by omega)

theorem discard_replay (hv : v.Solvent) (h : Handle) :
    v.budget.replay (v.discardMoves h) = some (v.discard h).volume.budget := by
  rw [discardMoves, discard]
  cases hf : v.files.find? h with
  | none => rfl
  | some file =>
    have hle := hv.capacity_le hf file.name
    exact Budget.replay_refund _ (by omega)

theorem save_replay (grant : Allocator) (hv : v.Solvent) (name : String) (data : Bytes) :
    v.budget.replay (v.saveMoves grant name data) =
      some (v.save grant name data).volume.budget := by
  obtain ⟨cs, hl, -⟩ := openAs_leads grant hv.1 name .write
  have hv' := hl.solvent hv
  rw [saveMoves, Budget.replay_append_of_eq _ (v.open_replay grant name .write), save]
  generalize v.openAs grant name .write = opened at hv' ⊢
  obtain ⟨_ | h, w, events⟩ := opened
  · rfl
  · have hwritten := (w.write_edits grant h data 1 data.length).solvent hv'
    dsimp only
    rw [Budget.replay_append_of_eq _ (w.write_replay grant h data 1 data.length)]
    simp only [Reply.andThen, fill]
    generalize w.write grant h data 1 data.length = written at hwritten ⊢
    obtain ⟨_ | n, w', events'⟩ := written
    · dsimp only
      rw [discard_replay hwritten]
      generalize w'.discard h = discarded
      obtain ⟨_ | _, _, _⟩ := discarded <;> rfl
    · exact close_replay grant hwritten h

theorem read_budget (v : Volume) (h : Handle) (out : Bytes) (elementSize count : Nat) :
    (v.read h out elementSize count).1.volume.budget = v.budget := by
  rw [read]
  split
  · rfl
  · split <;> rfl

/-- A load charges its output to a budget of its own. -/
theorem readRest_budget (v : Volume) (grant : Allocator) (h : Handle) :
    (v.readRest grant h).volume.budget = v.budget := by
  rw [readRest]
  cases v.fileLength h with
  | error e => rfl
  | ok length =>
    have ht := tell_volume v h
    generalize v.tell h = told at ht ⊢
    obtain ⟨_ | position, w, events⟩ := told
    · exact congrArg budget ht
    · obtain rfl : w = v := ht
      simp only [Reply.andThen]
      generalize Budget.unlimited.allocate (grant .output) (length - position) = allocated
      obtain ⟨_ | out, _⟩ := allocated
      · rfl
      · have hread := w.read_budget h out 1 (length - position)
        dsimp only
        generalize w.read h out 1 (length - position) = read at hread ⊢
        obtain ⟨⟨_ | count, w', events'⟩, out'⟩ := read <;> exact hread

theorem load_replay (grant : Allocator) (hv : v.Solvent) (name : String) :
    v.budget.replay (v.loadMoves grant name) = some (v.load grant name).volume.budget := by
  obtain ⟨cs, hl, -⟩ := openAs_leads grant hv.1 name .read
  have hv' := hl.solvent hv
  rw [loadMoves, Budget.replay_append_of_eq _ (v.open_replay grant name .read), load]
  generalize v.openAs grant name .read = opened at hv' ⊢
  obtain ⟨_ | h, w, events⟩ := opened
  · rfl
  · have hread := (w.readRest_edits grant h).solvent hv'
    have hsame := w.readRest_budget grant h
    dsimp only
    rw [← hsame, Reply.andThen]
    dsimp only
    generalize w.readRest grant h = rest at hread ⊢
    obtain ⟨result, w', events'⟩ := rest
    rw [close_replay grant hread]
    dsimp only
    generalize w'.close grant h = closed
    obtain ⟨_ | _, _, _⟩ := closed <;> rfl

theorem serve_replay (grant : Allocator) (hv : v.Solvent) (request : Request) :
    v.budget.replay (v.serveMoves grant request) =
      some (v.serve grant request).volume.budget := by
  cases request with
  | openText name text =>
    simp only [serveMoves, serve, openText, respond_volume]
    cases Mode.parse text with
    | error e => rfl
    | ok mode => exact v.open_replay grant name mode
  | openAs name mode => exact v.open_replay grant name mode
  | close h => exact close_replay grant hv h
  | discard h => exact discard_replay hv h
  | read h out elementSize count => exact congrArg some (v.read_budget h out elementSize count).symm
  | write h data elementSize count => exact v.write_replay grant h data elementSize count
  | seek h offset origin =>
    rw [serve, respond_volume, seek]
    cases (v.files.get h).bind (·.seek offset origin) <;> rfl
  | tell h =>
    rw [serve, respond_volume, tell_volume]
    rfl
  | save name data => exact save_replay grant hv name data
  | load name => exact load_replay grant hv name
  | stat _ | isOpen _ | mode _ | fileLength _ | list | used => rfl

theorem moves_replay (hv : v.Solvent) (steps : List (Allocator × Request)) :
    v.budget.replay (v.moves steps) = some (v.after steps).budget := by
  induction steps generalizing v with
  | nil => rfl
  | cons step rest ih =>
    obtain ⟨cs, hl, -⟩ := serve_leads step.1 hv.1 step.2
    exact (Budget.replay_append_of_eq _ (serve_replay step.1 hv step.2)).trans (ih (hl.solvent hv))

theorem output_replay (grant : Nat → Bool) (n : Nat) :
    Budget.unlimited.replay (Budget.unlimited.extendMoves grant 0 n) =
      some (Budget.unlimited.allocate grant n).state :=
  Budget.unlimited.allocate_replay grant n

theorem ofLimits_accounted (l : Limits) : (ofLimits l).Accounted 0 where
  balance := rfl
  within := by
    have hz : 0 < wordLimit := by decide
    obtain ⟨_, _, _, _, _ | limit⟩ := l
    · exact ⟨hz, rfl⟩
    · exact ⟨hz, decide_eq_true (Nat.zero_le limit)⟩

/-- After every run of a volume, what files and entries hold is used, and the limit is kept. All
charges and refunds of the run settle, so no refund is ever cut short; those for the output of a
load settle in a budget of their own. Nothing else is used exactly as long as no open was refused a
slot after it had paid, and the bytes of the entries stay within the word. -/
theorem accounts_balance {l : Limits} {start : Volume} (h : create l = .ok start)
    (steps : List (Allocator × Request)) :
    (start.after steps).held ≤ (start.after steps).used ∧
    (∀ limit, l.memoryLimit = some limit → (start.after steps).used ≤ limit) ∧
    start.budget.replay (start.moves steps) = some (start.after steps).budget ∧
    (∀ grant n, Budget.unlimited.replay (Budget.unlimited.extendMoves grant 0 n) =
      some (Budget.unlimited.allocate grant n).state) ∧
    ((start.after steps).used = (start.after steps).held ↔ start.NeverStrands steps) ∧
    (start.after steps).archive.usage.usedBytes < 2 ^ 64 := by
  obtain ⟨rfl, hpos⟩ := create_eq_ok h
  have hsound := ofLimits_sound l
  have hacc := ofLimits_accounted l
  obtain ⟨stray, ⟨hb, hw, hc⟩, hz⟩ := after_accounted hsound hacc hpos steps
  rw [Nat.zero_add] at hb
  refine ⟨by omega, ?_, moves_replay ⟨hsound, 0, hacc⟩ steps, output_replay, ?_, ?_⟩
  · intro limit hl
    have hlimit : ((ofLimits l).after steps).budget.limit = some limit :=
      (after_limits hsound steps).2.2.trans hl
    rw [Budget.covers, hlimit] at hc
    exact of_decide_eq_true hc
  · rw [← hz]
    omega
  · simp only [used, held] at hb
    exact Nat.lt_of_le_of_lt (by omega) hw

/-- An entry of three bytes, and a file of sixteen that is open on a copy of it. -/
theorem accounts_balance_of_one_entry :
    let l : Limits := ⟨2, 1, 8, 16, some 40⟩
    let steps : List (Allocator × Request) :=
      [(fun _ _ => true, .save "a" [1, 2, 3]), (fun _ _ => true, .openAs "a" .read)]
    create l = .ok (ofLimits l) ∧ ((ofLimits l).after steps).held = 19 ∧
      (ofLimits l).budget.replay ((ofLimits l).moves steps) = some ⟨some 40, 19⟩ ∧
      (ofLimits l).NeverStrands steps := by
  intro l steps
  have hc : create l = .ok (ofLimits l) := rfl
  have hheld : ((ofLimits l).after steps).held = 19 := by decide
  have hbudget : ((ofLimits l).after steps).budget = ⟨some 40, 19⟩ := by decide
  obtain ⟨-, -, hreplay, -, hiff, -⟩ := accounts_balance hc steps
  refine ⟨hc, hheld, ?_, ?_⟩
  · rw [hreplay, hbudget]
  · apply hiff.mp
    rw [used, hbudget, hheld]

end Enclave.Volume
