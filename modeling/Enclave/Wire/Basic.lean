import Enclave.Handle
import Enclave.Json.Record
import Enclave.Task
import Enclave.Volume.Archive

namespace Enclave

namespace Access

def wireNames : List (String × Access) :=
  [("Read", .read), ("Write", .write)]

def toJson (a : Access) : Json :=
  .ofString a.label

def ofJson? : Json → Option Access :=
  Json.toChoice? wireNames

end Access

namespace Mode

def wireNames : List (String × Mode) :=
  [("Read", .read), ("Write", .write), ("Append", .append), ("ReadWrite", .readWrite)]

def toJson (m : Mode) : Json :=
  .ofString m.label

def ofJson? : Json → Option Mode :=
  Json.toChoice? wireNames

end Mode

namespace Origin

def wireNames : List (String × Origin) :=
  [("Set", .start), ("Cur", .cursor), ("End", .finish)]

def toJson (o : Origin) : Json :=
  .ofString o.label

def ofJson? : Json → Option Origin :=
  Json.toChoice? wireNames

end Origin

namespace Resource

def wireName : Resource → String
  | .openFiles => "OpenFiles"
  | .entries => "PersistentEntries"

def wireNames : List (String × Resource) :=
  [("OpenFiles", .openFiles), ("PersistentEntries", .entries)]

def toJson (r : Resource) : Json :=
  .ofString r.wireName

def ofJson? : Json → Option Resource :=
  Json.toChoice? wireNames

end Resource

namespace Handle

def toJson (h : Handle) : Json :=
  .object [(some "slot", .ofNat h.slot.toNat), (some "generation", .ofNat h.generation.toNat)]

def ofJson? (j : Json) : Option Handle :=
  match j.fields? ["slot", "generation"] with
  | some [some slot, some generation] => do
    let slot ← slot.toNatBelow? 65536
    let generation ← generation.toNatBelow? 65536
    return ⟨UInt16.ofNat slot, UInt16.ofNat generation⟩
  | _ => none

end Handle

namespace Stat

def toJson (s : Stat) : Json :=
  .object [(some "size", .ofNat s.size), (some "mode", .ofNat s.mode.toNat)]

def ofJson? (j : Json) : Option Stat :=
  match j.fields? ["size", "mode"] with
  | some [some size, some mode] => do
    let size ← size.toWord?
    let mode ← mode.toNatBelow? 0x100000000
    return ⟨size, UInt32.ofNat mode⟩
  | _ => none

end Stat

namespace Usage

def toJson (u : Usage) : Json :=
  .object [(some "entry_count", .ofNat u.entryCount), (some "used_bytes", .ofNat u.usedBytes)]

def ofJson? (j : Json) : Option Usage :=
  match j.fields? ["entry_count", "used_bytes"] with
  | some [some entryCount, some usedBytes] => do
    let entryCount ← entryCount.toWord?
    let usedBytes ← usedBytes.toWord?
    return ⟨entryCount, usedBytes⟩
  | _ => none

end Usage

namespace TaskId

def toJson (id : TaskId) : Json :=
  .ofNat id.raw.toNat

def ofJson? (j : Json) : Option TaskId :=
  (j.toNatBelow? 0x100000000).map fun n => ⟨UInt32.ofNat n⟩

end TaskId

namespace ThreadId

def toJson (id : ThreadId) : Json :=
  .ofNat id.raw.toNat

def ofJson? (j : Json) : Option ThreadId :=
  (j.toNatBelow? 0x100000000).map fun n => ⟨UInt32.ofNat n⟩

end ThreadId

namespace TaskFault

def toJson : TaskFault → Json
  | unknownTask id => .single "UnknownTask" id.toJson

def ofJson? : Json → Option TaskFault
  | .object [(some "UnknownTask", id)] => (TaskId.ofJson? id).map unknownTask
  | _ => none

end TaskFault

end Enclave
