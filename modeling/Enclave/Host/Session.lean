import Enclave.Host.Code
import Enclave.Json.Printer
import Enclave.Volume.WholeFile
import Enclave.Wire.Fault
import Enclave.Wire.Limits

namespace Enclave.Host

/-- A volume in a host's hands. The fault behind the last failure is kept, and no success clears it. -/
structure Session where
  volume : Volume
  lastFault : Option Fault
  deriving Repr

inductive Refusal where
  | malformed
  | refused (fault : Fault)
  deriving DecidableEq, Repr

namespace Session

variable (s : Session) (grant : Allocator)

def start (v : Volume) : Session :=
  ⟨v, none⟩

def usual : Session :=
  start (Volume.ofLimits .usual)

def ofText (text : String) : Except Refusal Session :=
  match Limits.parse text with
  | none => .error .malformed
  | some limits =>
    match Volume.create limits with
    | .error e => .error (.refused e)
    | .ok v => .ok (start v)

def openFile (name mode : String) : UInt32 × Session :=
  let reply := s.volume.openText grant name mode
  let (code, last) := handleCode reply.result s.lastFault
  (code, ⟨reply.volume, last⟩)

def close (h : UInt32) : Int × Session :=
  let reply := s.volume.close grant (Handle.unpack h)
  let (code, last) := statusCode reply.result s.lastFault
  (code, ⟨reply.volume, last⟩)

def read (h : UInt32) (out : Bytes) (elementSize count : UInt32) : (UInt32 × Bytes) × Session :=
  let (reply, out) := s.volume.read (Handle.unpack h) out elementSize.toNat count.toNat
  let (code, last) := countCode reply.result s.lastFault
  ((code, out), ⟨reply.volume, last⟩)

def readUpTo (h : UInt32) (length : UInt32) : Bytes × Session :=
  match s.volume.fileLength (Handle.unpack h) with
  | .error e => ([], ⟨s.volume, some e⟩)
  | .ok size =>
    match s.volume.tell (Handle.unpack h) with
    | ⟨.error e, v, _⟩ => ([], ⟨v, some e⟩)
    | ⟨.ok position, v, _⟩ =>
      let wanted := min (size - position) length.toNat
      let (reply, out) := v.read (Handle.unpack h) (List.replicate wanted 0) 1 wanted
      let (code, last) := countCode reply.result s.lastFault
      (out.take code.toNat, ⟨reply.volume, last⟩)

def write (h : UInt32) (data : Bytes) (elementSize count : UInt32) : UInt32 × Session :=
  let reply := s.volume.write grant (Handle.unpack h) data elementSize.toNat count.toNat
  let (code, last) := countCode reply.result s.lastFault
  (code, ⟨reply.volume, last⟩)

def seek (h : UInt32) (offset whence : Int) : Int × Session :=
  match Origin.ofNumber? whence with
  | none =>
    let (code, last) := statusCode (.error .unknownOrigin) s.lastFault
    (code, ⟨s.volume, last⟩)
  | some origin =>
    let reply := s.volume.seek (Handle.unpack h) offset origin
    let (code, last) := statusCode (reply.result.map fun _ => ()) s.lastFault
    (code, ⟨reply.volume, last⟩)

def tell (h : UInt32) : Int × Session :=
  let reply := s.volume.tell (Handle.unpack h)
  let (code, last) := positionCode reply.result s.lastFault
  (code, ⟨reply.volume, last⟩)

def entryLength (name : String) : Int × Session :=
  let (code, last) := positionCode ((s.volume.stat name).map (·.size)) s.lastFault
  (code, ⟨s.volume, last⟩)

def statText (name : String) : Option String × Session :=
  match s.volume.stat name with
  | .error e => (none, ⟨s.volume, some e⟩)
  | .ok stat => (some stat.toJson.render, s)

def save (name : String) (data : Bytes) : Int × Session :=
  let reply := s.volume.save grant name data
  let (code, last) := statusCode reply.result s.lastFault
  (code, ⟨reply.volume, last⟩)

def load (name : String) : Option Bytes × Session :=
  match s.volume.load grant name with
  | ⟨.error e, v, _⟩ => (none, ⟨v, some e⟩)
  | ⟨.ok data, v, _⟩ => (some data, ⟨v, s.lastFault⟩)

def listText : String :=
  (Json.array (s.volume.list.map .ofString)).render

def usageText : String :=
  s.volume.archive.usage.toJson.render

def opened : UInt32 :=
  UInt32.ofNat s.volume.opened

def used : UInt32 :=
  saturate s.volume.used

def lastMessage : Option String :=
  s.lastFault.map Fault.message

def lastFaultText : Option String :=
  s.lastFault.map fun e => e.toJson.render

end Session

end Enclave.Host
