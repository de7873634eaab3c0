import Enclave.Fault
import Enclave.Word

namespace Enclave

def mostOpen : Nat := 65535

structure Limits where
  maxOpen : Nat := 256
  maxEntries : Nat := 256
  maxNameLength : Nat := 255
  initialCapacity : Nat := 1024
  memoryLimit : Option Nat := none
  deriving DecidableEq, Repr

namespace Limits

def usual : Limits := {}

def maxOpenOutOfRange (n : Nat) : Fault :=
  .invalidConfig ("max_open must be in 1..=" ++ toString mostOpen ++ ", got " ++ toString n)

def zeroField (field : String) : Fault :=
  .invalidConfig (field ++ " must be non-zero")

def check (l : Limits) : Except Fault Unit :=
  if l.maxOpen = 0 ∨ mostOpen < l.maxOpen then .error (maxOpenOutOfRange l.maxOpen)
  else if l.maxEntries = 0 then .error (zeroField "max_entries")
  else if l.maxNameLength = 0 then .error (zeroField "max_name_len")
  else if l.initialCapacity = 0 then .error (zeroField "initial_capacity")
  else .ok ()

/-- A name is not empty, not longer in bytes than the limit, and free of NUL. -/
def checkName (l : Limits) (name : String) : Except Fault Unit :=
  if name.utf8ByteSize = 0 then .error .emptyName
  else if l.maxNameLength < name.utf8ByteSize then
    .error (.nameTooLong name.utf8ByteSize l.maxNameLength)
  else if name.toList.contains (Char.ofNat 0) then .error .nulInName
  else .ok ()

end Limits

end Enclave
