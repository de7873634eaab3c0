import Enclave.Volume.WholeFile

namespace Enclave

inductive Request where
  | openText (name mode : String)
  | openAs (name : String) (mode : Mode)
  | close (handle : Handle)
  | discard (handle : Handle)
  | read (handle : Handle) (out : Bytes) (elementSize count : Nat)
  | write (handle : Handle) (data : Bytes) (elementSize count : Nat)
  | seek (handle : Handle) (offset : Int) (origin : Origin)
  | tell (handle : Handle)
  | stat (name : String)
  | isOpen (handle : Handle)
  | mode (handle : Handle)
  | fileLength (handle : Handle)
  | save (name : String) (data : Bytes)
  | load (name : String)
  | list
  | used
  deriving DecidableEq, Repr

inductive Answer where
  | done
  | handle (h : Handle)
  | number (n : Nat)
  | bytes (data : Bytes)
  | stat (s : Stat)
  | truth (b : Bool)
  | mode (m : Mode)
  | names (names : List String)
  deriving DecidableEq, Repr

/-- A reply to any request. `out` is the region that a read was given, as the read leaves it, and
empty for every other request. -/
structure Response where
  result : Except Fault Answer
  out : Bytes
  volume : Volume
  events : List Event

namespace Reply

variable {α : Type}

def respond (r : Reply α) (answer : α → Answer) : Response :=
  ⟨r.result.map answer, [], r.volume, r.events⟩

end Reply

namespace Volume

def answer (v : Volume) (result : Except Fault Answer) : Response :=
  ⟨result, [], v, []⟩

def serve (v : Volume) (grant : Allocator) : Request → Response
  | .openText name mode => (v.openText grant name mode).respond .handle
  | .openAs name mode => (v.openAs grant name mode).respond .handle
  | .close h => (v.close grant h).respond fun _ => .done
  | .discard h => (v.discard h).respond fun _ => .done
  | .read h out elementSize count =>
    match v.read h out elementSize count with
    | (reply, out) => { reply.respond .number with out }
  | .write h data elementSize count => (v.write grant h data elementSize count).respond .number
  | .seek h offset origin => (v.seek h offset origin).respond .number
  | .tell h => (v.tell h).respond .number
  | .stat name => v.answer ((v.stat name).map .stat)
  | .isOpen h => v.answer (.ok (.truth (v.isOpen h)))
  | .mode h => v.answer ((v.mode h).map .mode)
  | .fileLength h => v.answer ((v.fileLength h).map .number)
  | .save name data => (v.save grant name data).respond fun _ => .done
  | .load name => (v.load grant name).respond .bytes
  | .list => v.answer (.ok (.names v.list))
  | .used => v.answer (.ok (.number v.used))

/-- The responses to requests made one after the other, each with the allocator's answers to it. -/
def run (v : Volume) : List (Allocator × Request) → List Response
  | [] => []
  | (grant, request) :: rest =>
    let response := v.serve grant request
    response :: response.volume.run rest

def after (v : Volume) (requests : List (Allocator × Request)) : Volume :=
  requests.foldl (fun v step => (v.serve step.1 step.2).volume) v

end Volume

end Enclave
