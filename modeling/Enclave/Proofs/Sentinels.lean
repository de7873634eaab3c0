import Enclave.Host.Call
import Enclave.Proofs.Openings

namespace Enclave.Host

def faultOf {α : Type} : Except Fault α → Option Fault
  | .ok _ => none
  | .error e => some e

theorem faultOf_map {α β : Type} (result : Except Fault α) (f : α → β) :
    faultOf (result.map f) = faultOf result := by
  cases result <;> rfl

def tooLarge? : Except Fault Nat → Option Fault
  | .ok n => if n ≤ greatestPosition then none else some .positionTooLarge
  | .error _ => none

namespace Call

def requests (v : Volume) : Call → List Request
  | .openFile name mode => [.openText name mode]
  | .close h => [.close (.unpack h)]
  | .read h out elementSize count => [.read (.unpack h) out elementSize.toNat count.toNat]
  | .readUpTo h length =>
    match v.files.find? (.unpack h) with
    | none => [.fileLength (.unpack h)]
    | some file =>
      let wanted := min (file.size - file.position) length.toNat
      [.fileLength (.unpack h), .tell (.unpack h),
        .read (.unpack h) (List.replicate wanted 0) 1 wanted]
  | .write h data elementSize count => [.write (.unpack h) data elementSize.toNat count.toNat]
  | .seek h offset whence => (Origin.ofNumber? whence).toList.map (.seek (.unpack h) offset ·)
  | .tell h => [.tell (.unpack h)]
  | .entryLength name | .statText name => [.stat name]
  | .save name data => [.save name data]
  | .load name => [.load name]
  | .listText => [.list]
  | .used => [.used]
  | .usageText | .opened | .lastMessage | .lastFaultText => []

def steps (v : Volume) (grant : Allocator) (call : Call) : List (Allocator × Request) :=
  (call.requests v).map (grant, ·)

/-- A fault of a call of which the volume knows nothing. -/
def ownFault? (v : Volume) : Call → Option Fault
  | .seek _ _ whence => if Origin.ofNumber? whence = none then some .unknownOrigin else none
  | .tell h => tooLarge? (v.tell (.unpack h)).result
  | .entryLength name => tooLarge? ((v.stat name).map (·.size))
  | _ => none

/-- Why a call fails, if it does. -/
def fault? (v : Volume) (grant : Allocator) (call : Call) : Option Fault :=
  ((v.run (call.steps v grant)).findSome? fun r => faultOf r.result).or (call.ownFault? v)

end Call

/-- A number is `sentinel` exactly if there is a fault, and else the value of the result. -/
structure Tells {α β : Type} (fault : Option Fault) (sentinel : β) (result : Except Fault α)
    (value : α → β) (n : β) : Prop where
  sentinel_iff : n = sentinel ↔ fault.isSome
  value : fault = none → ∃ a, result = .ok a ∧ n = value a

/-- A count is zero if there is a fault, and else exact. The product of the sizes is never at fault. -/
structure Counts (fault : Option Fault) (result : Except Fault Nat) (n : UInt32) : Prop where
  zero : fault.isSome → n = 0
  exact : fault = none → result = .ok n.toNat
  product : fault ≠ some .productOverflow

section Codes

variable {α β : Type}

theorem Tells.failed {sentinel : β} {result : Except Fault α} {value : α → β} (e : Fault) :
    Tells (some e) sentinel result value sentinel :=
  ⟨⟨fun _ => rfl, fun _ => rfl⟩, nofun⟩

theorem Tells.succeeded {sentinel : β} {value : α → β} {a : α} (hne : value a ≠ sentinel) :
    Tells none sentinel (.ok a) value (value a) :=
  ⟨⟨fun h => absurd h hne, nofun⟩, fun _ => ⟨a, rfl, rfl⟩⟩

theorem Counts.failed {result : Except Fault Nat} {e : Fault} (h : e ≠ .productOverflow) :
    Counts (some e) result 0 :=
  ⟨fun _ => rfl, nofun, fun he => h (Option.some.inj he)⟩

theorem Counts.succeeded (n : UInt32) : Counts none (.ok n.toNat) n :=
  ⟨nofun, fun _ => rfl, nofun⟩

theorem Tells.of_map {γ : Type} {fault : Option Fault} {sentinel : β} {result : Except Fault γ}
    {f : γ → α} {value : α → β} {n : β} (h : Tells fault sentinel (result.map f) value n) :
    Tells fault sentinel result (fun a => value (f a)) n := by
  refine ⟨h.sentinel_iff, fun hf => ?_⟩
  obtain ⟨a, ha, hn⟩ := h.value hf
  cases result with
  | error e => cases ha
  | ok c =>
    cases ha
    exact ⟨c, rfl, hn⟩

theorem handleCode_tells {result : Except Fault Handle} (hpos : ∀ h, result = .ok h → h.pack ≠ 0)
    (last : Option Fault) :
    Tells (faultOf result) 0 result Handle.pack (handleCode result last).1 := by
  cases result with
  | error e => exact .failed e
  | ok h => exact .succeeded (hpos h rfl)

theorem handleCode_last (result : Except Fault Handle) (last : Option Fault) :
    (handleCode result last).2 = (faultOf result).or last := by
  cases result <;> rfl

theorem statusCode_tells (result : Except Fault Unit) (last : Option Fault) :
    Tells (faultOf result) (-1) result (fun _ => 0) (statusCode result last).1 := by
  cases result with
  | error e => exact .failed e
  | ok _ => exact .succeeded (by decide)

theorem statusCode_last (result : Except Fault Unit) (last : Option Fault) :
    (statusCode result last).2 = (faultOf result).or last := by
  cases result <;> rfl

theorem positionCode_tells (result : Except Fault Nat) (last : Option Fault) :
    Tells ((faultOf result).or (tooLarge? result)) (-1) result (fun n => (n : Int))
      (positionCode result last).1 := by
  cases result with
  | error e => exact .failed e
  | ok n =>
    simp only [positionCode, faultOf, tooLarge?, Option.none_or]
    split
    · exact .succeeded (by simp)
    · exact .failed _

theorem positionCode_last (result : Except Fault Nat) (last : Option Fault) :
    (positionCode result last).2 = ((faultOf result).or (tooLarge? result)).or last := by
  cases result with
  | error e => rfl
  | ok n =>
    simp only [positionCode, faultOf, tooLarge?, Option.none_or]
    split
    · rfl
    · rfl

theorem toOption_tells (result : Except Fault α) :
    Tells (faultOf result) none result some result.toOption := by
  cases result with
  | error e => exact .failed e
  | ok a => exact .succeeded (Option.some_ne_none a)

theorem toNat_saturate {n : Nat} (h : n ≤ greatestCount) : (saturate n).toNat = n := by
  rw [saturate, Nat.min_eq_left h, UInt32.toNat_ofNat', Nat.mod_eq_of_lt]
  exact Nat.lt_succ_of_le h

def Countable : Except Fault Nat → Prop
  | .ok n => n ≤ greatestCount
  | .error e => e ≠ .productOverflow

theorem countCode_counts {result : Except Fault Nat} (h : Countable result) (last : Option Fault) :
    Counts (faultOf result) result (countCode result last).1 := by
  cases result with
  | error e => exact .failed h
  | ok n =>
    have hcounts := Counts.succeeded (saturate n)
    rw [toNat_saturate h] at hcounts
    exact hcounts

theorem countCode_last (result : Except Fault Nat) (last : Option Fault) :
    (countCode result last).2 = (faultOf result).or last := by
  cases result <;> rfl

end Codes

section Volume

open Volume

variable {v : Volume} (grant : Allocator)

theorem openAs_pack (hv : v.Sound) {name : String} {mode : Mode} {h : Handle}
    (ho : (v.openAs grant name mode).result = .ok h) : h.pack ≠ 0 := by
  obtain ⟨h', stored, v', he, -, hm, -⟩ | ⟨e, he, -⟩ | ⟨n, v', he, -⟩ :=
    openAs_cases grant hv name mode
  · rw [he] at ho
    obtain rfl : h' = h := Except.ok.inj ho
    obtain ⟨slot, -, hpos, -⟩ := (hm.placed_fresh hv).2
    exact Handle.pack_ne_zero hpos
  · rw [he] at ho
    cases ho
  · rw [he] at ho
    cases ho

theorem openText_pack (hv : v.Sound) {name text : String} {h : Handle}
    (ho : (v.openText grant name text).result = .ok h) : h.pack ≠ 0 := by
  rw [openText] at ho
  cases hm : Mode.parse text with
  | error e =>
    rw [hm] at ho
    cases ho
  | ok mode =>
    rw [hm] at ho
    exact openAs_pack grant hv ho

theorem product_lt (m n : UInt32) : m.toNat * n.toNat < wordLimit := by
  have hm := Nat.le_of_lt_succ m.toNat_lt
  have hn := Nat.le_of_lt_succ n.toNat_lt
  have hmn := Nat.mul_le_mul hm hn
  simp only [wordLimit]
  omega

theorem refusal_ne_productOverflow {file : OpenFile} {required : Access} {m n : UInt32}
    {available : Nat} {short e : Fault} (hshort : short ≠ .productOverflow)
    (he : file.refusal required m.toNat n.toNat available short = some e) :
    e ≠ .productOverflow := by
  rw [OpenFile.refusal, if_neg (Nat.not_le.mpr (product_lt m n))] at he
  split at he
  · obtain rfl := Option.some.inj he
    simp [Fault.productOverflow]
  · split at he
    · exact Option.some.inj he ▸ hshort
    · cases he

theorem read_countable (v : Volume) (h : Handle) (out : Bytes) (m n : UInt32) :
    Countable (v.read h out m.toNat n.toNat).1.result := by
  cases hf : v.files.find? h with
  | none =>
    rw [read_of_none hf]
    exact show Fault.invalidHandle ≠ .productOverflow by decide
  | some file =>
    rw [read_of_some hf]
    cases hr : file.refusal .read m.toNat n.toNat out.length .outputTooShort with
    | some e => exact refusal_ne_productOverflow (by decide) hr
    | none =>
      by_cases hz : m.toNat * n.toNat = 0
      · rw [if_pos hz]
        exact Nat.zero_le _
      · rw [if_neg hz]
        have hpart : (file.ahead (m.toNat * n.toNat)).length ≤ m.toNat * n.toNat :=
          List.length_take_le _ _
        exact Nat.le_trans (Nat.div_le_of_le_mul hpart) (Nat.le_of_lt_succ n.toNat_lt)

theorem write_countable (v : Volume) (h : Handle) (data : Bytes) (m n : UInt32) :
    Countable (v.write grant h data m.toNat n.toNat).result := by
  cases hf : v.files.find? h with
  | none =>
    rw [write_of_none grant hf]
    exact show Fault.invalidHandle ≠ .productOverflow by decide
  | some file =>
    rw [write_of_some grant hf]
    cases hr : file.refusal .write m.toNat n.toNat data.length .dataTooShort with
    | some e => exact refusal_ne_productOverflow (by decide) hr
    | none =>
      by_cases hz : m.toNat * n.toNat = 0
      · simp only [if_pos hz]
        exact Nat.zero_le _
      · simp only [if_neg hz]
        split
        · exact Nat.le_trans (Nat.div_le_of_le_mul (Nat.le_refl _)) (Nat.le_of_lt_succ n.toNat_lt)
        · simp [Countable, Fault.productOverflow]

end Volume

namespace Call

/-- What a host is told of a call, given why it fails, if it does. Nothing is said of the answers to
questions but that they do not fail. -/
def Faithful (v : Volume) (grant : Allocator) (call : Call) (told : Told) : Prop :=
  let fault := call.fault? v grant
  match call with
  | .openFile name mode =>
    ∃ n, told = .count n ∧ Tells fault 0 (v.openText grant name mode).result Handle.pack n
  | .close h =>
    ∃ n, told = .code n ∧ Tells fault (-1) (v.close grant (.unpack h)).result (fun _ => 0) n
  | .read h out elementSize count =>
    let reply := v.read (.unpack h) out elementSize.toNat count.toNat
    ∃ n, told = .filled n reply.2 ∧ Counts fault reply.1.result n
  | .readUpTo h length =>
    ∃ data, told = .bytes (some data) ∧ (fault.isSome → data = []) ∧
      (fault = none → ∃ file, v.files.find? (.unpack h) = some file ∧
        data = file.ahead length.toNat)
  | .write h data elementSize count =>
    ∃ n, told = .count n ∧
      Counts fault (v.write grant (.unpack h) data elementSize.toNat count.toNat).result n
  | .seek h offset whence =>
    ∃ n, told = .code n ∧ (n = -1 ↔ fault.isSome) ∧
      (fault = none → n = 0 ∧ ∃ origin position, Origin.ofNumber? whence = some origin ∧
        (v.seek (.unpack h) offset origin).result = .ok position)
  | .tell h =>
    ∃ n, told = .code n ∧ Tells fault (-1) (v.tell (.unpack h)).result (fun k => (k : Int)) n
  | .entryLength name =>
    ∃ n, told = .code n ∧ Tells fault (-1) (v.stat name) (fun stat => (stat.size : Int)) n
  | .statText name =>
    ∃ text, told = .text text ∧
      Tells fault none (v.stat name) (fun stat => some stat.toJson.render) text
  | .save name data =>
    ∃ n, told = .code n ∧ Tells fault (-1) (v.save grant name data).result (fun _ => 0) n
  | .load name => ∃ data, told = .bytes data ∧ Tells fault none (v.load grant name).result some data
  | .listText | .usageText | .opened | .used | .lastMessage | .lastFaultText => fault = none

variable {v : Volume} {grant : Allocator} {call : Call}

theorem fault?_eq {α : Type} {request : Request} {result : Except Fault α} {answer : α → Answer}
    (hr : call.requests v = [request])
    (hresult : (v.serve grant request).result = result.map answer) :
    call.fault? v grant = (faultOf result).or (call.ownFault? v) := by
  rw [fault?, steps, hr]
  simp only [List.map_cons, List.map_nil, Volume.run, List.findSome?_cons, List.findSome?_nil,
    hresult, faultOf_map]
  cases result <;> rfl

theorem readUpTo_of_some (grant : Allocator) {h length : UInt32} {file : OpenFile}
    (hf : v.files.find? (.unpack h) = some file) {wanted : Nat}
    (hw : min (file.size - file.position) length.toNat = wanted) :
    let read := v.read (.unpack h) (List.replicate wanted 0) 1 wanted
    (Call.readUpTo h length).fault? v grant = faultOf read.1.result ∧
      v.after ((Call.readUpTo h length).steps v grant) = read.1.volume := by
  intro read
  have hsteps : (Call.readUpTo h length).steps v grant =
      [(grant, .fileLength (.unpack h)), (grant, .tell (.unpack h)),
        (grant, .read (.unpack h) (List.replicate wanted 0) 1 wanted)] := by
    simp only [steps, requests, hf, hw, List.map_cons, List.map_nil]
  -- An open file is refused neither its length nor its cursor, so it is the read that may fail.
  have hlength : v.serve grant (.fileLength (.unpack h)) = ⟨.ok (.number file.size), [], v, []⟩ := by
    rw [Volume.serve, Volume.fileLength_of_some hf]
    rfl
  have htell : v.serve grant (.tell (.unpack h)) = ⟨.ok (.number file.position), [], v, []⟩ := by
    rw [Volume.serve, Volume.tell_of_some hf]
    rfl
  have hread : (v.serve grant (.read (.unpack h) (List.replicate wanted 0) 1 wanted)).result =
    read.1.result.map .number := rfl
  constructor
  · have hown : (Call.readUpTo h length).ownFault? v = none := rfl
    rw [fault?, hsteps, hown, Option.or_none]
    simp only [Volume.run, hlength, htell, hread, List.findSome?_cons, List.findSome?_nil,
      faultOf_map]
    cases read.1.result <;> rfl
  · rw [hsteps]
    simp only [Volume.after, List.foldl_cons, List.foldl_nil, hlength, htell]
    rfl

end Call

namespace Session

structure Serves (s : Session) (grant : Allocator) (call : Call) : Prop where
  faithful : call.Faithful s.volume grant (s.serve grant call).1
  volume : (s.serve grant call).2.volume = s.volume.after (call.steps s.volume grant)
  lastFault : (s.serve grant call).2.lastFault = (call.fault? s.volume grant).or s.lastFault

variable {s : Session} (grant : Allocator)

theorem serves_of_request {call : Call} {α : Type} {request : Request} {result : Except Fault α}
    {answer : α → Answer} {fault : Option Fault} (hr : call.requests s.volume = [request])
    (hresult : (s.volume.serve grant request).result = result.map answer)
    (hfault : (faultOf result).or (call.ownFault? s.volume) = fault)
    (hvolume : (s.serve grant call).2.volume = (s.volume.serve grant request).volume)
    (hlast : (s.serve grant call).2.lastFault = fault.or s.lastFault)
    (hfaithful : call.fault? s.volume grant = fault →
      call.Faithful s.volume grant (s.serve grant call).1) : s.Serves grant call := by
  have hwhy : call.fault? s.volume grant = fault := (Call.fault?_eq hr hresult).trans hfault
  refine ⟨hfaithful hwhy, ?_, ?_⟩
  · rw [hvolume, Call.steps, hr]
    rfl
  · rw [hlast, hwhy]

theorem serves_openFile (hv : s.volume.Sound) (name mode : String) :
    s.Serves grant (.openFile name mode) := by
  refine serves_of_request grant rfl rfl Option.or_none rfl (handleCode_last _ _) fun hfault => ?_
  rw [Call.Faithful, hfault]
  exact ⟨_, rfl, handleCode_tells (fun _ => openText_pack grant hv) _⟩

theorem serves_close (h : UInt32) : s.Serves grant (.close h) := by
  refine serves_of_request grant rfl rfl Option.or_none rfl (statusCode_last _ _) fun hfault => ?_
  rw [Call.Faithful, hfault]
  exact ⟨_, rfl, statusCode_tells _ _⟩

theorem serves_read (h : UInt32) (out : Bytes) (elementSize count : UInt32) :
    s.Serves grant (.read h out elementSize count) := by
  have hcountable := read_countable s.volume (.unpack h) out elementSize count
  refine serves_of_request grant rfl rfl Option.or_none rfl (countCode_last _ _) fun hfault => ?_
  rw [Call.Faithful, hfault]
  exact ⟨_, rfl, countCode_counts hcountable _⟩

theorem serves_write (h : UInt32) (data : Bytes) (elementSize count : UInt32) :
    s.Serves grant (.write h data elementSize count) := by
  have hcountable := write_countable grant s.volume (.unpack h) data elementSize count
  refine serves_of_request grant rfl rfl Option.or_none rfl (countCode_last _ _) fun hfault => ?_
  rw [Call.Faithful, hfault]
  exact ⟨_, rfl, countCode_counts hcountable _⟩

theorem serves_save (name : String) (data : Bytes) : s.Serves grant (.save name data) := by
  refine serves_of_request grant rfl rfl Option.or_none rfl (statusCode_last _ _) fun hfault => ?_
  rw [Call.Faithful, hfault]
  exact ⟨_, rfl, statusCode_tells _ _⟩

theorem serves_tell (h : UInt32) : s.Serves grant (.tell h) := by
  refine serves_of_request grant rfl rfl rfl rfl (positionCode_last _ _) fun hfault => ?_
  rw [Call.Faithful, hfault]
  exact ⟨_, rfl, positionCode_tells _ _⟩

theorem serves_entryLength (name : String) : s.Serves grant (.entryLength name) := by
  refine serves_of_request grant rfl rfl (congrArg (Option.or · _) (faultOf_map _ _).symm) rfl
    (positionCode_last _ _) fun hfault => ?_
  rw [Call.Faithful, hfault]
  exact ⟨_, rfl, Tells.of_map (positionCode_tells _ _)⟩

theorem serves_load (name : String) : s.Serves grant (.load name) := by
  have hserve : s.serve grant (.load name) =
      let loaded := s.volume.load grant name
      (.bytes loaded.result.toOption, ⟨loaded.volume, (faultOf loaded.result).or s.lastFault⟩) := by
    simp only [serve, load]
    generalize s.volume.load grant name = loaded
    obtain ⟨e | data, v, events⟩ := loaded
    · rfl
    · rfl
  refine serves_of_request grant rfl rfl Option.or_none (by rw [hserve]; rfl) (by rw [hserve])
    fun hfault => ?_
  rw [Call.Faithful, hfault, hserve]
  exact ⟨_, rfl, toOption_tells _⟩

theorem serves_statText (name : String) : s.Serves grant (.statText name) := by
  have hserve : s.serve grant (.statText name) =
      let stat := s.volume.stat name
      (.text (stat.map (·.toJson.render)).toOption,
        ⟨s.volume, (faultOf stat).or s.lastFault⟩) := by
    simp only [serve, statText]
    cases s.volume.stat name with
    | error e => rfl
    | ok stat => rfl
  refine serves_of_request grant rfl rfl Option.or_none (by rw [hserve]; rfl) (by rw [hserve])
    fun hfault => ?_
  rw [Call.Faithful, hfault, hserve]
  have htells := toOption_tells ((s.volume.stat name).map (·.toJson.render))
  rw [faultOf_map] at htells
  exact ⟨_, rfl, htells.of_map⟩

theorem serves_seek (h : UInt32) (offset whence : Int) : s.Serves grant (.seek h offset whence) := by
  cases ho : Origin.ofNumber? whence with
  | none =>
    -- An unknown origin fails before the volume is asked for anything.
    have hrequests : (Call.seek h offset whence).requests s.volume = [] := by
      rw [Call.requests, ho]
      rfl
    have hfault : (Call.seek h offset whence).fault? s.volume grant = some .unknownOrigin := by
      rw [Call.fault?, Call.steps, hrequests, Call.ownFault?, if_pos ho]
      rfl
    refine ⟨?_, ?_, ?_⟩
    · rw [Call.Faithful, hfault]
      simp only [serve, seek, ho]
      exact ⟨-1, rfl, ⟨fun _ => rfl, fun _ => rfl⟩, fun h => by cases h⟩
    · rw [Call.steps, hrequests]
      simp only [serve, seek, ho]
      rfl
    · rw [hfault]
      simp only [serve, seek, ho]
      rfl
  | some origin =>
    have hrequests : (Call.seek h offset whence).requests s.volume =
        [.seek (.unpack h) offset origin] := by
      rw [Call.requests, ho]
      rfl
    have hown : (Call.seek h offset whence).ownFault? s.volume = none := by
      rw [Call.ownFault?, ho]
      rfl
    have hserve : s.serve grant (.seek h offset whence) =
        let reply := s.volume.seek (.unpack h) offset origin
        let told := statusCode (reply.result.map fun _ => ()) s.lastFault
        (.code told.1, ⟨reply.volume, told.2⟩) := by
      simp only [serve, seek, ho]
      rfl
    have hlast := statusCode_last
      ((s.volume.seek (.unpack h) offset origin).result.map fun _ => ()) s.lastFault
    have htells := statusCode_tells
      ((s.volume.seek (.unpack h) offset origin).result.map fun _ => ()) s.lastFault
    rw [faultOf_map] at hlast htells
    refine serves_of_request grant hrequests rfl (by rw [hown, Option.or_none])
      (by rw [hserve]; rfl) (by rw [hserve]; exact hlast) fun hfault => ?_
    rw [Call.Faithful, hfault, hserve]
    refine ⟨_, rfl, htells.sentinel_iff, fun hnone => ?_⟩
    obtain ⟨position, hposition, hn⟩ := htells.of_map.value hnone
    exact ⟨hn, origin, position, ho, hposition⟩

theorem readUpTo_of_none {h : UInt32} (hf : s.volume.files.find? (.unpack h) = none)
    (length : UInt32) : s.readUpTo h length = ([], ⟨s.volume, some .invalidHandle⟩) := by
  simp only [readUpTo, Volume.fileLength_of_none hf]

theorem readUpTo_of_some {h : UInt32} {file : OpenFile}
    (hf : s.volume.files.find? (.unpack h) = some file) (length : UInt32) :
    let wanted := min (file.size - file.position) length.toNat
    let read := s.volume.read (.unpack h) (List.replicate wanted 0) 1 wanted
    let told := countCode read.1.result s.lastFault
    s.readUpTo h length = (read.2.take told.1.toNat, ⟨read.1.volume, told.2⟩) := by
  simp only [readUpTo, Volume.fileLength_of_some hf, Volume.tell_of_some hf]

theorem serves_readUpTo_closed {h : UInt32} (hf : s.volume.files.find? (.unpack h) = none)
    (length : UInt32) : s.Serves grant (.readUpTo h length) := by
  have hrequests : (Call.readUpTo h length).requests s.volume = [.fileLength (.unpack h)] := by
    rw [Call.requests, hf]
  have hresult : (s.volume.serve grant (.fileLength (.unpack h))).result =
      (Except.error .invalidHandle).map .number := by
    rw [Volume.serve, Volume.fileLength_of_none hf]
    rfl
  have hserve : s.serve grant (.readUpTo h length) =
      (.bytes (some []), ⟨s.volume, some .invalidHandle⟩) := by
    simp only [serve, readUpTo_of_none hf]
    rfl
  refine serves_of_request grant hrequests hresult rfl (by rw [hserve]; rfl) (by rw [hserve]; rfl)
    fun hfault => ?_
  rw [Call.Faithful, hfault, hserve]
  exact ⟨[], rfl, fun _ => rfl, fun h => by cases h⟩

/-- The region is no longer than what is left of the file, so that a read fills it. -/
theorem serves_readUpTo_open {h : UInt32} {file : OpenFile}
    (hf : s.volume.files.find? (.unpack h) = some file) (length : UInt32) :
    s.Serves grant (.readUpTo h length) := by
  generalize hw : min (file.size - file.position) length.toNat = wanted
  have hlength : wanted ≤ greatestCount :=
    Nat.le_trans (hw ▸ Nat.min_le_right _ _) (Nat.le_of_lt_succ length.toNat_lt)
  obtain ⟨hfault, hafter⟩ := Call.readUpTo_of_some grant hf hw
  have hserve : s.serve grant (.readUpTo h length) =
      let read := s.volume.read (.unpack h) (List.replicate wanted 0) 1 wanted
      let told := countCode read.1.result s.lastFault
      (.bytes (some (read.2.take told.1.toNat)), ⟨read.1.volume, told.2⟩) := by
    simp only [serve, readUpTo_of_some hf, hw]
    rfl
  refine ⟨?_, ?_, ?_⟩
  · rw [Call.Faithful, hfault, hserve]
    by_cases hm : file.mode.canRead
    · have hleft : wanted ≤ file.size - file.position := hw ▸ Nat.min_le_left _ _
      have hword : wanted < wordLimit := Nat.lt_of_le_of_lt hlength (by decide)
      obtain ⟨v', hread⟩ := Volume.read_ahead hf hm hleft hword
      have hdata : (file.ahead wanted).take wanted = file.ahead length.toNat := by
        rw [← file.ahead_left length.toNat, hw, OpenFile.ahead, List.take_take, Nat.min_self]
      simp only [hread, countCode, toNat_saturate hlength]
      exact ⟨_, rfl, fun h => absurd h Bool.false_ne_true, fun _ => ⟨file, hf, hdata⟩⟩
    · simp only [Volume.read_of_unreadable hf hm]
      exact ⟨[], rfl, fun _ => rfl, fun h => by cases h⟩
  · rw [hafter, hserve]
  · rw [hfault, hserve]
    exact countCode_last _ _

theorem serves_of_question {call : Call} (hserve : (s.serve grant call).2 = s)
    (hfault : call.fault? s.volume grant = none)
    (hafter : s.volume.after (call.steps s.volume grant) = s.volume)
    (hfaithful : call.Faithful s.volume grant (s.serve grant call).1) : s.Serves grant call :=
  ⟨hfaithful, by rw [hserve, hafter], by rw [hserve, hfault, Option.none_or]⟩

theorem serves (hv : s.volume.Sound) (call : Call) : s.Serves grant call := by
  cases call with
  | openFile name mode => exact serves_openFile grant hv name mode
  | close h => exact serves_close grant h
  | read h out elementSize count => exact serves_read grant h out elementSize count
  | readUpTo h length =>
    cases hf : s.volume.files.find? (.unpack h) with
    | none => exact serves_readUpTo_closed grant hf length
    | some file => exact serves_readUpTo_open grant hf length
  | write h data elementSize count => exact serves_write grant h data elementSize count
  | seek h offset whence => exact serves_seek grant h offset whence
  | tell h => exact serves_tell grant h
  | entryLength name => exact serves_entryLength grant name
  | statText name => exact serves_statText grant name
  | save name data => exact serves_save grant name data
  | load name => exact serves_load grant name
  | listText | usageText | opened | used | lastMessage | lastFaultText =>
    exact serves_of_question grant rfl rfl rfl rfl

def steps (s : Session) : List (Allocator × Call) → List (Allocator × Request)
  | [] => []
  | (grant, call) :: rest => call.steps s.volume grant ++ (s.serve grant call).2.steps rest

def faults (s : Session) : List (Allocator × Call) → List Fault
  | [] => []
  | (grant, call) :: rest =>
    (call.fault? s.volume grant).toList ++ (s.serve grant call).2.faults rest

theorem after_serves (hv : s.volume.Sound) (calls : List (Allocator × Call)) :
    (s.after calls).volume = s.volume.after (s.steps calls) ∧
      (s.after calls).lastFault = (s.faults calls).getLast?.or s.lastFault := by
  induction calls generalizing s with
  | nil => exact ⟨rfl, rfl⟩
  | cons step rest ih =>
    obtain ⟨grant, call⟩ := step
    obtain ⟨-, hvolume, hlast⟩ := serves grant hv call
    have hv' : (s.serve grant call).2.volume.Sound := by
      rw [hvolume]
      exact Volume.after_sound hv _
    obtain ⟨hafter, hfaults⟩ := ih hv'
    have hcons : s.after ((grant, call) :: rest) = (s.serve grant call).2.after rest := rfl
    rw [hcons, hafter, hfaults, steps, faults, Volume.after_append, hvolume, hlast,
      List.getLast?_append]
    refine ⟨rfl, ?_⟩
    rw [Option.or_assoc]
    cases call.fault? s.volume grant <;> rfl

end Session

end Enclave.Host
