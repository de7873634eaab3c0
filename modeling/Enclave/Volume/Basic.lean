import Enclave.Volume.Archive
import Enclave.Volume.Event
import Enclave.Volume.FileTable

namespace Enclave

/-- Named entries, the files open on private copies of them, and the budget that pays for both. -/
structure Volume where
  limits : Limits
  archive : Archive
  files : FileTable
  budget : Budget
  deriving DecidableEq, Repr

/-- An answer, the volume that the operation leaves whether it succeeds or fails, and the reports. -/
structure Reply (α : Type) where
  result : Except Fault α
  volume : Volume
  events : List Event

namespace Reply

variable {α β : Type}

def andThen (r : Reply α) (next : α → Volume → Reply β) : Reply β :=
  match r with
  | ⟨.error e, v, events⟩ => ⟨.error e, v, events⟩
  | ⟨.ok a, v, events⟩ =>
    match next a v with
    | ⟨result, v', events'⟩ => ⟨result, v', events ++ events'⟩

end Reply

namespace Volume

def ofLimits (l : Limits) : Volume :=
  ⟨l, .empty l.maxEntries, .empty l.maxOpen, .ofLimit l.memoryLimit⟩

def create (l : Limits) : Except Fault Volume :=
  match l.check with
  | .error e => .error e
  | .ok () => .ok (ofLimits l)

def growth (v : Volume) : Growth :=
  ⟨v.limits.initialCapacity⟩

def isOpen (v : Volume) (h : Handle) : Bool :=
  v.files.contains h

def opened (v : Volume) : Nat :=
  v.files.opened

def used (v : Volume) : Nat :=
  v.budget.used

def mode (v : Volume) (h : Handle) : Except Fault Mode :=
  (v.files.get h).map (·.mode)

def fileLength (v : Volume) (h : Handle) : Except Fault Nat :=
  (v.files.get h).map (·.size)

def stat (v : Volume) (name : String) : Except Fault Stat :=
  v.archive.stat name

def list (v : Volume) : List String :=
  v.archive.names

/-- The stored bytes from which a file starts, if it starts from any, once all is checked that needs
nothing of the allocator. -/
def checkOpen (v : Volume) (name : String) (mode : Mode) : Except Fault (Option Bytes) := do
  v.limits.checkName name
  v.files.ensureRoom
  let stored := if mode.startsFromEntry then v.archive.find? name else none
  if stored.isNone && mode.needsEntry then throw .notFound
  return stored

def startBuffer (v : Volume) (grant : Allocator) (stored : Option Bytes) : Outcome Budget Buffer :=
  match stored with
  | some data => Buffer.ofBytes (grant .openBuffer) data v.growth v.budget
  | none => Buffer.empty (grant .openBuffer) v.limits.initialCapacity v.growth v.budget

def prepare (v : Volume) (grant : Allocator) (name : String) (mode : Mode) :
    Outcome Budget OpenFile :=
  match v.checkOpen name mode with
  | .error e => ⟨.error e, v.budget⟩
  | .ok stored =>
    match copyName (grant .openName) name with
    | .error e => ⟨.error e, v.budget⟩
    | .ok name =>
      match v.startBuffer grant stored with
      | ⟨.error e, budget⟩ => ⟨.error e, budget⟩
      | ⟨.ok buffer, budget⟩ => ⟨.ok ⟨name, buffer, 0, mode⟩, budget⟩

/-- Open a file and report nothing. The buffer is paid for before a slot is looked for. -/
def tryOpen (v : Volume) (grant : Allocator) (name : String) (mode : Mode) :
    Outcome Volume Handle :=
  match v.prepare grant name mode with
  | ⟨.error e, budget⟩ => ⟨.error e, { v with budget }⟩
  | ⟨.ok file, budget⟩ =>
    let placed := v.files.insert file
    ⟨placed.result, { v with files := placed.state, budget }⟩

/-- Open `name` on a private copy. The reading modes start from the entry, and only `read` needs one;
the others start empty. The cursor starts at zero. -/
def openAs (v : Volume) (grant : Allocator) (name : String) (mode : Mode) : Reply Handle :=
  match v.tryOpen grant name mode with
  | ⟨.error e, v'⟩ => ⟨.error e, v', [.openFailed name e]⟩
  | ⟨.ok h, v'⟩ => ⟨.ok h, v', [.opened name mode h]⟩

def openText (v : Volume) (grant : Allocator) (name mode : String) : Reply Handle :=
  match Mode.parse mode with
  | .error e => ⟨.error e, v, [.failed .opening e]⟩
  | .ok mode => v.openAs grant name mode

def flushFile (v : Volume) (grant : Allocator) (file : OpenFile) :
    Outcome (Archive × Budget) Unit :=
  if file.mode.canWrite then v.archive.flush grant file.name file.contents v.budget
  else ⟨.ok (), v.archive, v.budget⟩

def closeEvent (file : OpenFile) : Except Fault Unit → Event
  | .ok () => if file.mode.canWrite then .flushed file.name file.size else .closed file.name
  | .error e => .flushFailed file.name e

/-- Close a handle. What it can write is flushed to the archive under its name; the handle is gone and
its buffer is refunded even when the flush fails. -/
def close (v : Volume) (grant : Allocator) (h : Handle) : Reply Unit :=
  match v.files.find? h with
  | none => ⟨.error .invalidHandle, v, [.failed .closing .invalidHandle]⟩
  | some file =>
    match v.flushFile grant file with
    | ⟨result, archive, budget⟩ =>
      ⟨result, { v with archive, files := v.files.vacate h, budget := file.buffer.refundTo budget },
        [closeEvent file result]⟩

def discard (v : Volume) (h : Handle) : Reply Unit :=
  match v.files.find? h with
  | none => ⟨.error .invalidHandle, v, [.failed .discarding .invalidHandle]⟩
  | some file =>
    ⟨.ok (), { v with files := v.files.vacate h, budget := file.buffer.refundTo v.budget },
      [.discarded file.name]⟩

def requestLength (elementSize count : Nat) : Except Fault Nat :=
  if elementSize * count < wordLimit then .ok (elementSize * count) else .error .productOverflow

def checkAccess (v : Volume) (h : Handle) (required : Access) (elementSize count available : Nat)
    (short : Fault) : Except Fault (OpenFile × Nat) := do
  let file ← v.files.get h
  file.mode.check required
  let length ← requestLength elementSize count
  if available < length then throw short
  return (file, length)

/-- Read up to `count` elements from the cursor to the front of `out`. Answers the whole elements
copied; the cursor moves by the bytes copied, a part of an element included. The second component is
`out` as it is left. -/
def read (v : Volume) (h : Handle) (out : Bytes) (elementSize count : Nat) : Reply Nat × Bytes :=
  match v.checkAccess h .read elementSize count out.length .outputTooShort with
  | .error e => (⟨.error e, v, [.failed .reading e]⟩, out)
  | .ok (file, length) =>
    if length = 0 then (⟨.ok 0, v, []⟩, out)
    else
      match file.read (out.take length) with
      | (copied, front, file) =>
        (⟨.ok (copied / elementSize), { v with files := v.files.replace h file }, []⟩,
          front ++ out.drop length)

def write (v : Volume) (grant : Allocator) (h : Handle) (data : Bytes) (elementSize count : Nat) :
    Reply Nat :=
  match v.checkAccess h .write elementSize count data.length .dataTooShort with
  | .error e => ⟨.error e, v, [.failed .writing e]⟩
  | .ok (file, length) =>
    if length = 0 then ⟨.ok 0, v, []⟩
    else
      match file.write (grant .growth) (data.take length) v.budget with
      | ⟨.error e, file, budget⟩ =>
        ⟨.error e, { v with files := v.files.replace h file, budget }, [.failed .writing e]⟩
      | ⟨.ok written, file, budget⟩ =>
        ⟨.ok (written / elementSize), { v with files := v.files.replace h file, budget }, []⟩

def seek (v : Volume) (h : Handle) (offset : Int) (origin : Origin) : Reply Nat :=
  match (v.files.get h).bind (·.seek offset origin) with
  | .error e => ⟨.error e, v, [.failed .seeking e]⟩
  | .ok (position, file) => ⟨.ok position, { v with files := v.files.replace h file }, []⟩

def tell (v : Volume) (h : Handle) : Reply Nat :=
  match v.files.get h with
  | .error e => ⟨.error e, v, [.failed .telling e]⟩
  | .ok file => ⟨.ok file.position, v, []⟩

end Volume

end Enclave
