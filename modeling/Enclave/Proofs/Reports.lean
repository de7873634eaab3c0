import Enclave.Proofs.Safety
import Enclave.Volume.Sink

namespace Enclave

/-- A message tells a fault: it starts as every report does, and ends with the text of the fault. -/
def Fault.ToldBy (e : Fault) (message : String) : Prop :=
  "vfs:".toList <+: message.toList ∧ e.message.toList <:+ message.toList

def Response.messages (r : Response) : List String :=
  (Sink.fresh.deliver r.events).messages

namespace Sink

theorem deliver_recording (r : Recorder) (events : List Event) :
    (recording r).deliver events = recording ⟨(events.map Event.text).reverse ++ r.latestFirst⟩ := by
  induction events generalizing r with
  | nil => rfl
  | cons event rest ih =>
    refine (ih (r.record event.text)).trans ?_
    simp [Recorder.record]

theorem deliver_messages (r : Recorder) (events : List Event) :
    ((recording r).deliver events).messages = r.messages ++ (fresh.deliver events).messages := by
  rw [fresh, deliver_recording, deliver_recording]
  simp [messages, Recorder.messages, Recorder.empty]

end Sink

theorem Response.messages_eq (r : Response) : r.messages = r.events.map Event.text := by
  rw [messages, Sink.fresh, Sink.deliver_recording]
  simp [Sink.messages, Recorder.messages, Recorder.empty]

theorem Fault.toldBy_of_failed (e : Fault) {start : String} (h : "vfs:".toList <+: start.toList)
    (middle : String) : e.ToldBy (start ++ middle ++ " failed: " ++ e.message) := by
  simp only [ToldBy, String.toList_append, List.append_assoc]
  refine ⟨h.trans (List.prefix_append _ _), ?_⟩
  exact ((List.suffix_append _ _).trans (List.suffix_append _ _)).trans (List.suffix_append _ _)

namespace Event

def fault? : Event → Option Fault
  | openFailed _ e | flushFailed _ e | failed _ e => some e
  | opened _ _ _ | flushed _ _ | closed _ | discarded _ => none

theorem toldBy_text {event : Event} {e : Fault} (h : event.fault? = some e) :
    e.ToldBy event.text := by
  cases event with
  | openFailed name e' | flushFailed name e' =>
    obtain rfl := Option.some.inj h
    exact e'.toldBy_of_failed (by decide) _
  | failed activity e' =>
    obtain rfl := Option.some.inj h
    exact e'.toldBy_of_failed (by decide) _
  | opened _ _ _ | flushed _ _ | closed _ | discarded _ => cases h

end Event

theorem Text.t_notMem_hex (n : Nat) : 't' ∉ hex n := by
  rw [hex]
  induction n using Nat.strongRecOn with
  | ind n ih =>
    rw [Nat.toDigits_eq_if (by decide)]
    by_cases hn : n < 16
    · simp [hn]
    · have hrest := ih (n / 16) (by omega)
      simp [hn, hrest]

/-- The text of a shortage of memory ends in letters that no number and no quotation ends in. -/
theorem Fault.suffix_outOfMemory (n : Nat) :
    ['t', 'e', 'd'] <:+ (outOfMemory n).message.toList := by
  have hword : ['t', 'e', 'd'] <:+ " bytes requested".toList := ⟨" bytes reques".toList, by simp⟩
  have htext : (outOfMemory n).message =
    "Out of memory: " ++ toString n ++ " bytes requested" := rfl
  rw [htext, String.toList_append]
  exact hword.trans (List.suffix_append _ _)

namespace Event

theorem toList_hexText (n : Nat) : (hexText n).toList = ['0', 'x'] ++ Text.hex n := by
  simp [hexText]

theorem not_toldBy_opened (name : String) (mode : Mode) (h : Handle) (n : Nat) :
    ¬ (Fault.outOfMemory n).ToldBy (opened name mode h).text := by
  rintro ⟨-, hm⟩
  have hs := (Fault.suffix_outOfMemory n).trans hm
  have hend : ['='] ++ (['0', 'x'] ++ Text.hex h.pack.toNat) <:+
      (opened name mode h).text.toList := by
    have htext : (opened name mode h).text = "vfs: open " ++ Text.quote name ++ " mode=" ++
      mode.symbol.toString ++ " handle=" ++ hexText h.pack.toNat := rfl
    have hequals : " handle=".toList = " handle".toList ++ ['='] := by simp
    rw [htext, String.toList_append, String.toList_append, toList_hexText, hequals, List.append_assoc,
      List.append_assoc]
    exact (List.suffix_append _ _).trans (List.suffix_append _ _)
  have hlen (m : Nat) : 3 ≤ (['='] ++ (['0', 'x'] ++ Text.hex m)).length := by simp
  have ht : 't' ∈ ['='] ++ (['0', 'x'] ++ Text.hex h.pack.toNat) :=
    (List.suffix_of_suffix_length_le hs hend (hlen _)).mem (by simp)
  simp [Text.t_notMem_hex] at ht

theorem not_toldBy_closed (name : String) (n : Nat) :
    ¬ (Fault.outOfMemory n).ToldBy (closed name).text := by
  rintro ⟨-, hm⟩
  have hs : ['d'] <:+ (closed name).text.toList :=
    List.IsSuffix.trans ⟨['t', 'e'], rfl⟩ ((Fault.suffix_outOfMemory n).trans hm)
  have hend : ['"'] <:+ (closed name).text.toList := by
    have htext : (closed name).text = "vfs: close " ++ Text.quote name := rfl
    refine ⟨"vfs: close ".toList ++ '"' :: name.toList.flatMap Text.quoteChar, ?_⟩
    simp only [htext, String.toList_append, Text.quote, String.toList_ofList, List.append_assoc,
      List.cons_append]
  have hd := List.suffix_of_suffix_length_le hs hend (Nat.le_refl _)
  exact absurd (hd.eq_of_length rfl) (by decide)

end Event

def Reported {α : Type} (result : Except Fault α) (events : List Event) : Prop :=
  ∀ e, result = .error e → ∃ event ∈ events, event.fault? = some e

namespace Reported

variable {α β : Type} {events : List Event}

theorem ok (a : α) (events : List Event) : Reported (.ok a) events :=
  fun _ he => nomatch he

theorem error {event : Event} {e : Fault} (hm : event ∈ events) (he : event.fault? = some e) :
    Reported (α := α) (.error e) events :=
  fun _ h => ⟨event, hm, Except.error.inj h ▸ he⟩

theorem map {result : Except Fault α} (h : Reported result events) (f : α → β) :
    Reported (result.map f) events := by
  cases result with
  | error e => exact fun e' he => h e' (congrArg Except.error (Except.error.inj he))
  | ok a => exact .ok (f a) events

theorem append_left {result : Except Fault α} (h : Reported result events)
    (earlier : List Event) : Reported result (earlier ++ events) := by
  intro e he
  obtain ⟨event, hm, hf⟩ := h e he
  exact ⟨event, List.mem_append_right _ hm, hf⟩

theorem andThen {r : Reply α} {next : α → Volume → Reply β} (h : Reported r.result r.events)
    (hnext : ∀ a v, Reported (next a v).result (next a v).events) :
    Reported (r.andThen next).result (r.andThen next).events := by
  obtain ⟨_ | a, v, before⟩ := r
  · exact fun e he => h e (congrArg Except.error (Except.error.inj he))
  · exact (hnext a v).append_left before

end Reported

namespace Volume

variable (v : Volume) (grant : Allocator)

theorem openAs_reported (name : String) (mode : Mode) :
    Reported (v.openAs grant name mode).result (v.openAs grant name mode).events := by
  rw [openAs]
  generalize v.tryOpen grant name mode = opened
  obtain ⟨e | h, v'⟩ := opened
  · exact .error (List.mem_singleton_self _) rfl
  · exact .ok h _

theorem openText_reported (name mode : String) :
    Reported (v.openText grant name mode).result (v.openText grant name mode).events := by
  rw [openText]
  cases Mode.parse mode with
  | error e => exact .error (List.mem_singleton_self _) rfl
  | ok mode => exact v.openAs_reported grant name mode

theorem close_reported (h : Handle) :
    Reported (v.close grant h).result (v.close grant h).events := by
  rw [close]
  cases v.files.find? h with
  | none => exact .error (List.mem_singleton_self _) rfl
  | some file =>
    dsimp only
    generalize v.flushFile grant file = flushed
    obtain ⟨e | u, archive, budget⟩ := flushed
    · exact .error (List.mem_singleton_self _) rfl
    · exact .ok u _

theorem discard_reported (h : Handle) : Reported (v.discard h).result (v.discard h).events := by
  rw [discard]
  cases v.files.find? h with
  | none => exact .error (List.mem_singleton_self _) rfl
  | some file => exact .ok () _

theorem read_reported (h : Handle) (out : Bytes) (elementSize count : Nat) :
    Reported (v.read h out elementSize count).1.result (v.read h out elementSize count).1.events := by
  rw [read]
  cases v.checkAccess h .read elementSize count out.length .outputTooShort with
  | error e => exact .error (List.mem_singleton_self _) rfl
  | ok granted =>
    obtain ⟨file, length⟩ := granted
    by_cases hz : length = 0
    · simp only [if_pos hz]
      exact .ok 0 _
    · simp only [if_neg hz]
      exact .ok _ _

theorem write_reported (h : Handle) (data : Bytes) (elementSize count : Nat) :
    Reported (v.write grant h data elementSize count).result
      (v.write grant h data elementSize count).events := by
  rw [write]
  cases v.checkAccess h .write elementSize count data.length .dataTooShort with
  | error e => exact .error (List.mem_singleton_self _) rfl
  | ok granted =>
    obtain ⟨file, length⟩ := granted
    by_cases hz : length = 0
    · simp only [if_pos hz]
      exact .ok 0 _
    · simp only [if_neg hz]
      generalize file.write (grant .growth) (data.take length) v.budget = written
      obtain ⟨e | n, file', budget⟩ := written
      · exact .error (List.mem_singleton_self _) rfl
      · exact .ok _ _

theorem seek_reported (h : Handle) (offset : Int) (origin : Origin) :
    Reported (v.seek h offset origin).result (v.seek h offset origin).events := by
  rw [seek]
  cases (v.files.get h).bind (·.seek offset origin) with
  | error e => exact .error (List.mem_singleton_self _) rfl
  | ok moved => exact .ok moved.1 _

theorem tell_reported (h : Handle) : Reported (v.tell h).result (v.tell h).events := by
  rw [tell]
  cases v.files.get h with
  | error e => exact .error (List.mem_singleton_self _) rfl
  | ok file => exact .ok file.position _

theorem fill_reported (h : Handle) (data : Bytes) :
    Reported (v.fill grant h data).result (v.fill grant h data).events := by
  have hwrite := v.write_reported grant h data 1 data.length
  rw [fill]
  generalize v.write grant h data 1 data.length = written at hwrite ⊢
  obtain ⟨e | n, v', events⟩ := written
  · have hdiscard := v'.discard_reported h
    dsimp only
    generalize v'.discard h = discarded at hdiscard ⊢
    obtain ⟨e' | _, v'', events'⟩ := discarded
    · exact hdiscard.append_left events
    · obtain ⟨event, hm, he⟩ := hwrite e rfl
      exact .error (List.mem_append_left events' hm) he
  · exact .ok () _

theorem save_reported (name : String) (data : Bytes) :
    Reported (v.save grant name data).result (v.save grant name data).events :=
  (v.openAs_reported grant name .write).andThen fun h v' =>
    (v'.fill_reported grant h data).andThen fun _ v'' => v''.close_reported grant h

variable {v} {h : Handle} {file : OpenFile}

theorem readRest_of_fresh (hf : v.files.find? h = some file) (hpos : file.position = 0)
    (hmode : file.mode.canRead) (hlen : file.size < wordLimit) :
    (v.readRest grant h).events = [] ∧
      (v.readRest grant h).result =
        if file.size = 0 ∨ grant .output file.size then .ok file.contents
        else .error (.outOfMemory file.size) := by
  have hleft : file.size - file.position = file.size := by rw [hpos, Nat.sub_zero]
  have hadmits : Budget.unlimited.Admits file.size := ⟨(Nat.zero_add _).symm ▸ hlen, rfl⟩
  simp only [readRest_of_some grant hf, hleft, hadmits, true_and, Nat.le_zero]
  by_cases hg : file.size = 0 ∨ grant .output file.size
  · obtain ⟨v', hread⟩ := read_ahead hf hmode (Nat.le_of_eq hleft.symm) hlen
    have hall : (file.ahead file.size).take file.size = file.contents := by
      simp [OpenFile.ahead, hpos, OpenFile.size, Buffer.size, OpenFile.contents]
    simp only [if_pos hg, hread]
    exact ⟨rfl, congrArg Except.ok hall⟩
  · simp only [if_neg hg]
    exact ⟨trivial, trivial⟩

theorem Safe.size_lt (hv : v.Safe) (hf : v.files.find? h = some file) : file.size < wordLimit :=
  Nat.lt_of_le_of_lt (hv.fit.files h file hf).size_le (hv.capacity_lt hf)

theorem checkOpen_read {name : String} {stored : Option Bytes}
    (hc : v.checkOpen name .read = .ok stored) :
    ∃ data, v.archive.find? name = some data ∧ stored = some data := by
  obtain ⟨-, -, hneeds, rfl⟩ := checkOpen_eq_ok.mp hc
  obtain ⟨data, hd⟩ := Option.isSome_iff_exists.mp (hneeds rfl)
  exact ⟨data, hd, hd⟩

theorem load_of_opened (hv : v.Safe) {name : String}
    (ho : (v.openAs grant name .read).result = .ok h) :
    ∃ data, v.archive.find? name = some data ∧
      (v.load grant name).events = [.opened name .read h, .closed name] ∧
      (v.load grant name).result =
        if data.length = 0 ∨ grant .output data.length then .ok data
        else .error (.outOfMemory data.length) := by
  obtain ⟨h', stored, v₁, he, hc, hm, -⟩ | ⟨e, he, -⟩ | ⟨n, v₁, he, -⟩ :=
    openAs_cases grant hv.sound name .read
  · rw [he] at ho
    obtain rfl : h' = h := Except.ok.inj ho
    obtain ⟨data, hd, rfl⟩ := checkOpen_read hc
    have hf := hm.find?_placed
    have hsafe : v₁.Safe := hm.leads.safe hv
    obtain ⟨hevents, hresult⟩ := readRest_of_fresh grant hf rfl rfl (hsafe.size_lt hf)
    obtain ⟨file', hf', hname, hmode⟩ := (v₁.readRest_edits grant h').find?_self hf
    refine ⟨data, hd, ?_⟩
    rw [load, he]
    simp only [Reply.andThen]
    generalize v₁.readRest grant h' = rest at hevents hresult hf' ⊢
    obtain ⟨result, v₂, events⟩ := rest
    obtain rfl : events = [] := hevents
    -- A file that is opened to be read flushes nothing, so its close succeeds.
    obtain ⟨hok, hclosed⟩ := close_of_reading grant hf' (hmode ▸ rfl)
    dsimp only at hok hclosed ⊢
    generalize v₂.close grant h' = closed at hok hclosed ⊢
    obtain ⟨result', v₃, events'⟩ := closed
    obtain rfl : result' = .ok () := hok
    obtain rfl : events' = [.closed file'.name] := hclosed
    exact ⟨by rw [hname]; rfl, hresult⟩
  · rw [he] at ho
    cases ho
  · rw [he] at ho
    cases ho

theorem load_of_not_opened {name : String} {e : Fault}
    (ho : (v.openAs grant name .read).result = .error e) :
    Reported (v.load grant name).result (v.load grant name).events := by
  have hopen := v.openAs_reported grant name .read
  rw [load]
  generalize v.openAs grant name .read = opened at ho hopen ⊢
  obtain ⟨result, v', events⟩ := opened
  obtain rfl : result = .error e := ho
  exact fun e' he => hopen e' (congrArg Except.error (Except.error.inj he))

/-- A request whose failure is not reported: a question about a name or a handle, or a load that opens
its file and then gets no region for the bytes. -/
def Untold (v : Volume) (grant : Allocator) : Request → Prop
  | .stat _ | .mode _ | .fileLength _ => True
  | .load name => ∃ h data, (v.openAs grant name .read).result = .ok h ∧
    v.archive.find? name = some data ∧ data.length ≠ 0 ∧ grant .output data.length = false
  | _ => False

theorem serve_reported (hv : v.Safe) {request : Request} (ht : ¬ v.Untold grant request) :
    Reported (v.serve grant request).result (v.serve grant request).events := by
  cases request with
  | openText name mode => exact (v.openText_reported grant name mode).map _
  | openAs name mode => exact (v.openAs_reported grant name mode).map _
  | close h => exact (v.close_reported grant h).map _
  | discard h => exact (v.discard_reported h).map _
  | read h out elementSize count => exact (v.read_reported h out elementSize count).map _
  | write h data elementSize count => exact (v.write_reported grant h data elementSize count).map _
  | seek h offset origin => exact (v.seek_reported h offset origin).map _
  | tell h => exact (v.tell_reported h).map _
  | save name data => exact (v.save_reported grant name data).map _
  | load name =>
    cases ho : (v.openAs grant name .read).result with
    | error e => exact (load_of_not_opened grant ho).map _
    | ok h =>
      obtain ⟨data, hd, -, hresult⟩ := load_of_opened grant hv ho
      have hg : data.length = 0 ∨ grant .output data.length := by
        by_contra hno
        obtain ⟨hz, hg⟩ := not_or.mp hno
        exact ht ⟨h, data, ho, hd, hz, Bool.eq_false_of_not_eq_true hg⟩
      refine Reported.map ?_ _
      rw [hresult, if_pos hg]
      exact .ok data _
  | stat _ | mode _ | fileLength _ => exact absurd trivial ht
  | isOpen _ | list | used => exact .ok _ _

theorem untold_events (hv : v.Safe) {request : Request} (ht : v.Untold grant request) {e : Fault}
    (he : (v.serve grant request).result = .error e) {event : Event}
    (hm : event ∈ (v.serve grant request).events) : ¬ e.ToldBy event.text := by
  cases request with
  | load name =>
    obtain ⟨h, data, ho, hd, hz, hg⟩ := ht
    obtain ⟨data', hd', hevents, hresult⟩ := load_of_opened grant hv ho
    obtain rfl : data = data' := Option.some.inj (hd.symm.trans hd')
    rw [if_neg (by simp [hz, hg])] at hresult
    simp only [serve, Reply.respond, hresult, hevents] at he hm
    obtain rfl := Except.error.inj he
    obtain rfl | hm := List.mem_cons.mp hm
    · exact Event.not_toldBy_opened name .read h _
    · obtain rfl := List.mem_singleton.mp hm
      exact Event.not_toldBy_closed name _
  | stat _ | mode _ | fileLength _ => cases hm
  | _ => cases ht

/-- After every run a request that fails tells its fault in a message, unless it is one of those that
`Untold` names; those tell it in none. -/
theorem failures_told_unless (l : Limits) (steps : List (Allocator × Request)) (grant : Allocator)
    (request : Request) (e : Fault) :
    let v := (ofLimits l).after steps
    let response := v.serve grant request
    response.result = .error e →
      ((∃ message ∈ response.messages, e.ToldBy message) ↔ ¬ v.Untold grant request) := by
  intro v response he
  have hv : v.Safe := after_safe (ofLimits_safe l) steps
  rw [Response.messages_eq]
  constructor
  · rintro ⟨message, hm, htold⟩ huntold
    obtain ⟨event, hevent, rfl⟩ := List.mem_map.mp hm
    exact untold_events grant hv huntold he hevent htold
  · intro ht
    obtain ⟨event, hm, hf⟩ := serve_reported grant hv ht e he
    exact ⟨event.text, List.mem_map_of_mem hm, Event.toldBy_text hf⟩

/-- A stale handle is told of, and a region that a load does not get is not. -/
theorem failures_told_unless_load_starves :
    let v := (ofLimits ⟨2, 1, 8, 16, none⟩).after [(fun _ _ => true, .save "a" [1])]
    let told := v.serve (fun _ _ => true) (.tell ⟨0, 1⟩)
    let untold := v.serve (fun purpose _ => purpose ≠ .output) (.load "a")
    told.result = .error .invalidHandle ∧
      (∃ message ∈ told.messages, Fault.invalidHandle.ToldBy message) ∧
      untold.result = .error (.outOfMemory 1) ∧
      ¬ ∃ message ∈ untold.messages, (Fault.outOfMemory 1).ToldBy message := by
  intro v told untold
  have htold : told.result = .error .invalidHandle := rfl
  have huntold : untold.result = .error (.outOfMemory 1) := rfl
  have hstarves : v.Untold (fun purpose _ => purpose ≠ .output) (.load "a") :=
    ⟨⟨0, 2⟩, [1], rfl, rfl, by decide, rfl⟩
  refine ⟨htold, ?_, huntold, fun h => ?_⟩
  · exact (failures_told_unless _ _ _ _ _ htold).mpr id
  · exact (failures_told_unless _ _ _ _ _ huntold).mp h hstarves

/-- To ask for a name that is not there is to fail without a message. -/
theorem failures_not_all_told :
    ¬ ∀ (l : Limits) (steps : List (Allocator × Request)) (grant : Allocator) (request : Request)
      (e : Fault), (((ofLimits l).after steps).serve grant request).result = .error e →
        ∃ message ∈ (((ofLimits l).after steps).serve grant request).messages, e.ToldBy message := by
  intro h
  obtain ⟨message, hm, -⟩ := h .usual [] (fun _ _ => true) (.stat "missing") .notFound rfl
  cases hm

end Volume

end Enclave
