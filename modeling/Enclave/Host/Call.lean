import Enclave.Host.Session

namespace Enclave.Host

inductive Call where
  | openFile (name mode : String)
  | close (handle : UInt32)
  | read (handle : UInt32) (out : Bytes) (elementSize count : UInt32)
  | readUpTo (handle length : UInt32)
  | write (handle : UInt32) (data : Bytes) (elementSize count : UInt32)
  | seek (handle : UInt32) (offset whence : Int)
  | tell (handle : UInt32)
  | entryLength (name : String)
  | statText (name : String)
  | save (name : String) (data : Bytes)
  | load (name : String)
  | listText
  | usageText
  | opened
  | used
  | lastMessage
  | lastFaultText
  deriving DecidableEq, Repr

inductive Told where
  | code (n : Int)
  | count (n : UInt32)
  | filled (count : UInt32) (out : Bytes)
  | bytes (data : Option Bytes)
  | text (s : Option String)
  deriving DecidableEq, Repr

namespace Session

def serve (s : Session) (grant : Allocator) : Call → Told × Session
  | .openFile name mode => (s.openFile grant name mode).map .count id
  | .close h => (s.close grant h).map .code id
  | .read h out elementSize count =>
    (s.read h out elementSize count).map (fun told => .filled told.1 told.2) id
  | .readUpTo h length => (s.readUpTo h length).map (.bytes ∘ some) id
  | .write h data elementSize count => (s.write grant h data elementSize count).map .count id
  | .seek h offset whence => (s.seek h offset whence).map .code id
  | .tell h => (s.tell h).map .code id
  | .entryLength name => (s.entryLength name).map .code id
  | .statText name => (s.statText name).map .text id
  | .save name data => (s.save grant name data).map .code id
  | .load name => (s.load grant name).map .bytes id
  | .listText => (.text (some s.listText), s)
  | .usageText => (.text (some s.usageText), s)
  | .opened => (.count s.opened, s)
  | .used => (.count s.used, s)
  | .lastMessage => (.text s.lastMessage, s)
  | .lastFaultText => (.text s.lastFaultText, s)

/-- The session that calls leave, each made with the allocator's answers to it. -/
def after (s : Session) (calls : List (Allocator × Call)) : Session :=
  calls.foldl (fun s step => (s.serve step.1 step.2).2) s

end Session

end Enclave.Host
