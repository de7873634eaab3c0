import Enclave.Proofs.Acts
import Enclave.Proofs.Flushes
import Enclave.Proofs.Trapping

namespace Enclave

namespace Reply

variable {α β : Type}

def andThen? (r : Reply α) (next : α → Volume → Option (Reply β)) : Option (Reply β) :=
  match r with
  | ⟨.error e, v, events⟩ => some ⟨.error e, v, events⟩
  | ⟨.ok a, v, events⟩ => do
    let reply ← next a v
    return ⟨reply.result, reply.volume, events ++ reply.events⟩

theorem andThen?_eq {r : Reply α} {next : α → Volume → Reply β}
    {next? : α → Volume → Option (Reply β)}
    (h : ∀ a, r.result = .ok a → next? a r.volume = some (next a r.volume)) :
    r.andThen? next? = some (r.andThen next) := by
  obtain ⟨_ | a, v, events⟩ := r
  · rfl
  · rw [andThen?, h a rfl]
    rfl

end Reply

namespace Volume

section Checked

variable (v : Volume) (grant : Allocator)

def startBuffer? (stored : Option Bytes) : Option (Outcome Budget Buffer) :=
  match stored with
  | some data => Buffer.ofBytes? (grant .openBuffer) data v.growth v.budget
  | none =>
    some (Buffer.empty (grant .openBuffer) v.limits.initialCapacity v.growth v.budget)

def tryOpen? (name : String) (mode : Mode) : Option (Outcome Volume Handle) :=
  match v.checkOpen name mode with
  | .error e => some ⟨.error e, v⟩
  | .ok stored =>
    match copyName (grant .openName) name with
    | .error e => some ⟨.error e, v⟩
    | .ok name => do
      match ← v.startBuffer? grant stored with
      | ⟨.error e, budget⟩ => return ⟨.error e, { v with budget }⟩
      | ⟨.ok buffer, budget⟩ =>
        let placed ← v.files.insert? ⟨name, buffer, 0, mode⟩
        return ⟨placed.result, { v with files := placed.state, budget }⟩

def openAs? (name : String) (mode : Mode) : Option (Reply Handle) := do
  match ← v.tryOpen? grant name mode with
  | ⟨.error e, v'⟩ => return ⟨.error e, v', [.openFailed name e]⟩
  | ⟨.ok h, v'⟩ => return ⟨.ok h, v', [.opened name mode h]⟩

def openText? (name mode : String) : Option (Reply Handle) :=
  match Mode.parse mode with
  | .error e => some ⟨.error e, v, [.failed .opening e]⟩
  | .ok mode => v.openAs? grant name mode

def flushFile? (file : OpenFile) : Option (Outcome (Archive × Budget) Unit) :=
  if file.mode.canWrite then do
    let contents ← file.buffer.contents?
    return v.archive.flush grant file.name contents v.budget
  else some ⟨.ok (), v.archive, v.budget⟩

def close? (h : Handle) : Option (Reply Unit) :=
  match v.files.find? h with
  | none => some ⟨.error .invalidHandle, v, [.failed .closing .invalidHandle]⟩
  | some file => do
    let files ← v.files.vacate? h
    let ⟨result, archive, budget⟩ ← v.flushFile? grant file
    return ⟨result, { v with archive, files, budget := file.buffer.refundTo budget },
      [closeEvent file result]⟩

def discard? (h : Handle) : Option (Reply Unit) :=
  match v.files.find? h with
  | none => some ⟨.error .invalidHandle, v, [.failed .discarding .invalidHandle]⟩
  | some file => do
    let files ← v.files.vacate? h
    return ⟨.ok (), { v with files, budget := file.buffer.refundTo v.budget },
      [.discarded file.name]⟩

def read? (h : Handle) (out : Bytes) (elementSize count : Nat) : Option (Reply Nat × Bytes) :=
  match v.checkAccess h .read elementSize count out.length .outputTooShort with
  | .error e => some (⟨.error e, v, [.failed .reading e]⟩, out)
  | .ok (file, length) =>
    if length = 0 then some (⟨.ok 0, v, []⟩, out)
    else do
      let (copied, front, file) ← file.read? (out.take length)
      let elements ← Checked.div copied elementSize
      return (⟨.ok elements, { v with files := v.files.replace h file }, []⟩,
        front ++ out.drop length)

def write? (h : Handle) (data : Bytes) (elementSize count : Nat) : Option (Reply Nat) :=
  match v.checkAccess h .write elementSize count data.length .dataTooShort with
  | .error e => some ⟨.error e, v, [.failed .writing e]⟩
  | .ok (file, length) =>
    if length = 0 then some ⟨.ok 0, v, []⟩
    else do
      match ← file.write? (grant .growth) (data.take length) v.budget with
      | ⟨.error e, file, budget⟩ =>
        return ⟨.error e, { v with files := v.files.replace h file, budget },
          [.failed .writing e]⟩
      | ⟨.ok written, file, budget⟩ =>
        let elements ← Checked.div written elementSize
        return ⟨.ok elements, { v with files := v.files.replace h file, budget }, []⟩

def fill? (h : Handle) (data : Bytes) : Option (Reply Unit) := do
  match ← v.write? grant h data 1 data.length with
  | ⟨.ok _, v', events⟩ => return ⟨.ok (), v', events⟩
  | ⟨.error e, v', events⟩ =>
    match ← v'.discard? h with
    | ⟨.error e', v'', events'⟩ => return ⟨.error e', v'', events ++ events'⟩
    | ⟨.ok (), v'', events'⟩ => return ⟨.error e, v'', events ++ events'⟩

def save? (name : String) (data : Bytes) : Option (Reply Unit) := do
  let opened ← v.openAs? grant name .write
  opened.andThen? fun h v' => do
    let filled ← v'.fill? grant h data
    filled.andThen? fun _ v'' => v''.close? grant h

def readRest? (h : Handle) : Option (Reply Bytes) :=
  match v.fileLength h with
  | .error e => some ⟨.error e, v, []⟩
  | .ok length =>
    (v.tell h).andThen? fun position v' =>
      match Budget.unlimited.allocate (grant .output) (length - position) with
      | ⟨.error e, _⟩ => some ⟨.error e, v', []⟩
      | ⟨.ok out, _⟩ => do
        let (reply, out) ← v'.read? h out 1 (length - position)
        return reply.andThen fun count v'' => ⟨.ok (out.take count), v'', []⟩

def load? (name : String) : Option (Reply Bytes) := do
  let opened ← v.openAs? grant name .read
  opened.andThen? fun h v' => do
    let ⟨result, v'', events⟩ ← v'.readRest? grant h
    match ← v''.close? grant h with
    | ⟨.error e, v''', events'⟩ => return ⟨.error e, v''', events ++ events'⟩
    | ⟨.ok (), v''', events'⟩ => return ⟨result, v''', events ++ events'⟩

def serve? : Request → Option Response
  | .openText name mode => (v.openText? grant name mode).map (·.respond .handle)
  | .openAs name mode => (v.openAs? grant name mode).map (·.respond .handle)
  | .close h => (v.close? grant h).map (·.respond fun _ => .done)
  | .discard h => (v.discard? h).map (·.respond fun _ => .done)
  | .read h out elementSize count =>
    (v.read? h out elementSize count).map fun (reply, out) =>
      { reply.respond .number with out }
  | .write h data elementSize count =>
    (v.write? grant h data elementSize count).map (·.respond .number)
  | .save name data => (v.save? grant name data).map (·.respond fun _ => .done)
  | .load name => (v.load? grant name).map (·.respond .bytes)
  | request => some (v.serve grant request)

/-- The responses to requests made one after the other, unless one of them traps. -/
def run? (v : Volume) : List (Allocator × Request) → Option (List Response)
  | [] => some []
  | (grant, request) :: rest => do
    let response ← v.serve? grant request
    let responses ← response.volume.run? rest
    return response :: responses

end Checked

structure Safe (v : Volume) : Prop where
  solvent : v.Solvent
  fit : v.Fit

variable {v v' : Volume} {cs : List Change}

theorem Leads.safe (hl : Leads v cs v') (hv : v.Safe) : v'.Safe :=
  ⟨hl.solvent hv.solvent, hl.fit hv.fit⟩

theorem Edits.safe {h : Handle} (he : v.Edits h v') (hv : v.Safe) : v'.Safe := by
  obtain ⟨cs, hl, -⟩ := he.leads
  exact hl.safe hv

theorem ofLimits_safe (l : Limits) : (ofLimits l).Safe :=
  ⟨⟨ofLimits_sound l, 0, ofLimits_accounted l⟩, ofLimits_fit l⟩

theorem Safe.sound (hv : v.Safe) : v.Sound :=
  hv.solvent.1

theorem Safe.capacity_lt (hv : v.Safe) {h : Handle} {file : OpenFile}
    (hf : v.files.find? h = some file) : file.buffer.capacity < wordLimit := by
  obtain ⟨-, stray, ha⟩ := hv.solvent
  have hle := hv.solvent.capacity_le hf file.name
  have hused := ha.within.1
  omega

theorem Safe.maxOpen_lt (hv : v.Safe) : v.files.maxOpen < wordLimit := by
  have hlt : mostOpen < wordLimit := by decide
  rw [hv.fit.maxOpen_eq]
  exact Nat.lt_of_le_of_lt (Nat.min_le_right _ _) hlt

variable (grant : Allocator)

theorem serve_safe (hv : v.Safe) (request : Request) : (v.serve grant request).volume.Safe := by
  obtain ⟨cs, hl, -⟩ := serve_leads grant hv.sound request
  exact hl.safe hv

theorem after_safe (hv : v.Safe) (steps : List (Allocator × Request)) : (v.after steps).Safe :=
  after_keeps Safe (fun _ grant request hw => serve_safe grant hw request) hv steps

theorem startBuffer?_eq (v : Volume) (stored : Option Bytes) :
    v.startBuffer? grant stored = some (v.startBuffer grant stored) := by
  cases stored with
  | some data => exact Buffer.ofBytes?_eq _ data v.growth v.budget
  | none => rfl

theorem Safe.tryOpen?_eq (hv : v.Safe) (name : String) (mode : Mode) :
    v.tryOpen? grant name mode = some (v.tryOpen grant name mode) := by
  rw [tryOpen?, tryOpen, prepare]
  cases v.checkOpen name mode with
  | error e => rfl
  | ok stored =>
    cases copyName (grant .openName) name with
    | error e => rfl
    | ok copied =>
      simp only [startBuffer?_eq, Option.bind_eq_bind, Option.bind_some]
      generalize v.startBuffer grant stored = started
      obtain ⟨_ | buffer, budget⟩ := started
      · rfl
      · simp only [hv.sound.files.insert?_eq hv.maxOpen_lt, Option.bind_some, Option.pure_def]

theorem Safe.openAs?_eq (hv : v.Safe) (name : String) (mode : Mode) :
    v.openAs? grant name mode = some (v.openAs grant name mode) := by
  rw [openAs?, openAs, hv.tryOpen?_eq]
  generalize v.tryOpen grant name mode = opened
  obtain ⟨_ | h, v'⟩ := opened <;> rfl

theorem Safe.openText?_eq (hv : v.Safe) (name mode : String) :
    v.openText? grant name mode = some (v.openText grant name mode) := by
  rw [openText?, openText]
  cases Mode.parse mode with
  | error e => rfl
  | ok mode => exact hv.openAs?_eq grant name mode

theorem Safe.close?_eq (hv : v.Safe) (h : Handle) :
    v.close? grant h = some (v.close grant h) := by
  rw [close?, close]
  cases hf : v.files.find? h with
  | none => rfl
  | some file =>
    have hflush : v.flushFile? grant file = some (v.flushFile grant file) := by
      rw [flushFile?, flushFile, Buffer.contents?_eq (hv.fit.files h file hf).size_le]
      split <;> rfl
    simp only [hv.sound.files.vacate?_eq hf, hflush, Option.bind_eq_bind, Option.bind_some,
      Option.pure_def]

theorem Safe.discard?_eq (hv : v.Safe) (h : Handle) : v.discard? h = some (v.discard h) := by
  rw [discard?, discard]
  cases hf : v.files.find? h with
  | none => rfl
  | some file =>
    simp only [hv.sound.files.vacate?_eq hf, Option.bind_eq_bind, Option.bind_some,
      Option.pure_def]

theorem Safe.read?_eq (hv : v.Safe) (h : Handle) (out : Bytes) (elementSize count : Nat) :
    v.read? h out elementSize count = some (v.read h out elementSize count) := by
  rw [read?, read]
  cases hf : v.files.find? h with
  | none =>
    rw [checkAccess_of_none hf]
  | some file =>
    rw [checkAccess_of_some hf]
    cases file.refusal .read elementSize count out.length .outputTooShort with
    | some e => rfl
    | none =>
      by_cases hz : elementSize * count = 0
      · simp only [if_pos hz]
      · -- Bytes are asked for, so there is a size of elements to divide by.
        have hsize : elementSize ≠ 0 := left_ne_zero_of_mul hz
        have hread := (hv.fit.files h file hf).read?_eq (hv.capacity_lt hf)
          (out.take (elementSize * count))
        simp only [if_neg hz, hread, Checked.div_of_ne_zero hsize, Option.bind_eq_bind,
          Option.bind_some, Option.pure_def]

theorem Safe.write?_eq (hv : v.Safe) (h : Handle) (data : Bytes) (elementSize count : Nat) :
    v.write? grant h data elementSize count = some (v.write grant h data elementSize count) := by
  rw [write?, write]
  cases hf : v.files.find? h with
  | none =>
    rw [checkAccess_of_none hf]
  | some file =>
    rw [checkAccess_of_some hf]
    cases file.refusal .write elementSize count data.length .dataTooShort with
    | some e => rfl
    | none =>
      by_cases hz : elementSize * count = 0
      · simp only [if_pos hz]
      · have hsize : elementSize ≠ 0 := left_ne_zero_of_mul hz
        have hwrite := (hv.fit.files h file hf).write?_eq (grant .growth)
          (data.take (elementSize * count)) v.budget
        simp only [if_neg hz, hwrite, Option.bind_eq_bind, Option.bind_some]
        generalize file.write (grant .growth) (data.take (elementSize * count)) v.budget = written
        obtain ⟨_ | n, file', budget⟩ := written
        · rfl
        · simp only [Checked.div_of_ne_zero hsize, Option.bind_some, Option.pure_def]

theorem Safe.fill?_eq (hv : v.Safe) (h : Handle) (data : Bytes) :
    v.fill? grant h data = some (v.fill grant h data) := by
  have hwritten := (v.write_edits grant h data 1 data.length).safe hv
  rw [fill?, fill, hv.write?_eq]
  generalize v.write grant h data 1 data.length = written at hwritten ⊢
  obtain ⟨_ | n, v', events⟩ := written
  · simp only [hwritten.discard?_eq, Option.bind_eq_bind, Option.bind_some]
    generalize v'.discard h = discarded
    obtain ⟨_ | _, v'', events'⟩ := discarded <;> rfl
  · rfl

theorem Safe.fill (hv : v.Safe) (h : Handle) (data : Bytes) :
    (v.fill grant h data).volume.Safe := by
  have hwritten := (v.write_edits grant h data 1 data.length).safe hv
  rw [Volume.fill]
  generalize v.write grant h data 1 data.length = written at hwritten ⊢
  obtain ⟨_ | n, v', events⟩ := written
  · obtain ⟨cs, hl, -⟩ := v'.discard_leads h
    have hdiscarded := hl.safe hwritten
    dsimp only
    generalize v'.discard h = discarded at hdiscarded ⊢
    obtain ⟨_ | _, v'', events'⟩ := discarded <;> exact hdiscarded
  · exact hwritten

theorem Safe.save?_eq (hv : v.Safe) (name : String) (data : Bytes) :
    v.save? grant name data = some (v.save grant name data) := by
  obtain ⟨cs, hl, -⟩ := openAs_leads grant hv.sound name .write
  have hopened := hl.safe hv
  rw [save?, save, hv.openAs?_eq, Option.bind_eq_bind, Option.bind_some]
  refine Reply.andThen?_eq fun h _ => ?_
  rw [hopened.fill?_eq, Option.bind_eq_bind, Option.bind_some]
  exact Reply.andThen?_eq fun _ _ => (hopened.fill grant h data).close?_eq grant h

theorem Safe.readRest?_eq (hv : v.Safe) (h : Handle) :
    v.readRest? grant h = some (v.readRest grant h) := by
  rw [readRest?, readRest]
  cases v.fileLength h with
  | error e => rfl
  | ok length =>
    refine Reply.andThen?_eq fun position _ => ?_
    rw [tell_volume]
    generalize Budget.unlimited.allocate (grant .output) (length - position) = allocated
    obtain ⟨_ | out, _⟩ := allocated
    · rfl
    · simp only [hv.read?_eq, Option.bind_eq_bind, Option.bind_some, Option.pure_def]

theorem Safe.load?_eq (hv : v.Safe) (name : String) :
    v.load? grant name = some (v.load grant name) := by
  obtain ⟨cs, hl, -⟩ := openAs_leads grant hv.sound name .read
  have hopened := hl.safe hv
  rw [load?, load, hv.openAs?_eq, Option.bind_eq_bind, Option.bind_some]
  refine Reply.andThen?_eq fun h _ => ?_
  have hread := (readRest_edits grant h).safe hopened
  rw [hopened.readRest?_eq, Option.bind_eq_bind, Option.bind_some]
  generalize (v.openAs grant name .read).volume.readRest grant h = rest at hread ⊢
  obtain ⟨result, v', events⟩ := rest
  simp only [hread.close?_eq, Option.bind_eq_bind, Option.bind_some]
  generalize v'.close grant h = closed
  obtain ⟨_ | _, v'', events'⟩ := closed <;> rfl

theorem Safe.serve?_eq (hv : v.Safe) (request : Request) :
    v.serve? grant request = some (v.serve grant request) := by
  cases request with
  | openText name mode => exact congrArg (Option.map _) (hv.openText?_eq grant name mode)
  | openAs name mode => exact congrArg (Option.map _) (hv.openAs?_eq grant name mode)
  | close h => exact congrArg (Option.map _) (hv.close?_eq grant h)
  | discard h => exact congrArg (Option.map _) (hv.discard?_eq h)
  | read h out elementSize count =>
    exact congrArg (Option.map _) (hv.read?_eq h out elementSize count)
  | write h data elementSize count =>
    exact congrArg (Option.map _) (hv.write?_eq grant h data elementSize count)
  | save name data => exact congrArg (Option.map _) (hv.save?_eq grant name data)
  | load name => exact congrArg (Option.map _) (hv.load?_eq grant name)
  | seek _ _ _ | tell _ | stat _ | isOpen _ | mode _ | fileLength _ | list | used => rfl

theorem Safe.run?_eq (hv : v.Safe) (steps : List (Allocator × Request)) :
    v.run? steps = some (v.run steps) := by
  induction steps generalizing v with
  | nil => rfl
  | cons step rest ih =>
    obtain ⟨grant, request⟩ := step
    rw [run?, hv.serve?_eq, Option.bind_eq_bind, Option.bind_some,
      ih (serve_safe grant hv request)]
    rfl

theorem name_ok {l : Limits} {name : String} (h : l.checkName name = .ok ()) :
    name ≠ "" ∧ name.utf8ByteSize ≤ l.maxNameLength ∧ Char.ofNat 0 ∉ name.toList := by
  obtain ⟨hne, hle, hnul⟩ := Limits.checkName_eq_ok.mp h
  exact ⟨fun he => hne (he ▸ rfl), hle, hnul⟩

theorem serve_grows (hv : v.Safe) {h : Handle} {file file' : OpenFile}
    (hf : v.files.find? h = some file) {request : Request}
    (hf' : (v.serve grant request).volume.files.find? h = some file') :
    file.size ≤ file'.size ∧ file.buffer.capacity ≤ file'.buffer.capacity := by
  rw [serve_find? grant hv.sound hv.fit hf] at hf'
  split at hf'
  · cases hf'
  · obtain rfl := Option.some.inj hf'
    cases request.actOn? h (v.serve grant request).result with
    | none => exact ⟨Nat.le_refl _, Nat.le_refl _⟩
    | some act => exact ⟨file.size_le_perform act, file.capacity_le_perform act⟩

/-- After every run of a volume, whatever its limits, each cursor is within its file and each file
within its buffer, the numbers of open files and of entries and all names are within the limits, and
a step shrinks no file and no buffer. No request of the run traps. -/
theorem runs_never_trap (l : Limits) (steps : List (Allocator × Request)) :
    let start := ofLimits l
    let v := start.after steps
    (∀ h file, v.files.find? h = some file →
      file.position ≤ file.size ∧ file.size ≤ file.buffer.capacity ∧
        l.initialCapacity ≤ file.buffer.capacity) ∧
    v.opened ≤ l.maxOpen ∧ v.archive.size ≤ l.maxEntries ∧
    (∀ name, (name ∈ v.list ∨ ∃ h file, v.files.find? h = some file ∧ file.name = name) →
      name ≠ "" ∧ name.utf8ByteSize ≤ l.maxNameLength ∧ Char.ofNat 0 ∉ name.toList) ∧
    (∀ grant request h file file', v.files.find? h = some file →
      (v.serve grant request).volume.files.find? h = some file' →
        file.size ≤ file'.size ∧ file.buffer.capacity ≤ file'.buffer.capacity) ∧
    start.run? steps = some (start.run steps) := by
  intro start v
  have hstart : start.Safe := ofLimits_safe l
  have hv : v.Safe := after_safe hstart steps
  obtain ⟨hlimits, hentries, -⟩ := after_limits hstart.sound steps
  have hlimits : v.limits = l := hlimits
  refine ⟨?_, ?_, ?_, ?_, ?_, hstart.run?_eq steps⟩
  · intro h file hf
    have hfit := hv.fit.files h file hf
    exact ⟨hfit.position_le, hfit.size_le, hlimits ▸ hfit.initial_le⟩
  · have hopened : v.opened ≤ v.files.maxOpen := hv.sound.files.opened_le
    rw [hv.fit.maxOpen_eq, hlimits] at hopened
    exact Nat.le_trans hopened (Nat.min_le_left _ _)
  · have hmost : v.archive.maxEntries = l.maxEntries := hentries
    exact hmost ▸ hv.sound.bounded
  · rintro name (hm | ⟨h, file, hf, rfl⟩)
    · rw [list, Archive.mem_names_iff, Option.isSome_iff_exists] at hm
      obtain ⟨data, hdata⟩ := hm
      exact name_ok (hlimits ▸ hv.fit.names name data hdata)
    · exact name_ok (hlimits ▸ (hv.fit.files h file hf).name_ok)
  · exact fun grant request h file file' hf hf' => serve_grows grant hv hf hf'

end Volume

end Enclave
