import Enclave.Fault
import Enclave.Handle

namespace Enclave

inductive Activity where
  | opening
  | closing
  | discarding
  | reading
  | writing
  | seeking
  | telling
  deriving DecidableEq, Repr

def Activity.label : Activity → String
  | .opening => "open"
  | .closing => "close"
  | .discarding => "discard"
  | .reading => "read"
  | .writing => "write"
  | .seeking => "seek"
  | .telling => "tell"

inductive Event where
  | opened (name : String) (mode : Mode) (handle : Handle)
  | openFailed (name : String) (fault : Fault)
  | flushed (name : String) (size : Nat)
  | flushFailed (name : String) (fault : Fault)
  | closed (name : String)
  | discarded (name : String)
  | failed (activity : Activity) (fault : Fault)
  deriving DecidableEq, Repr

namespace Event

def hexText (n : Nat) : String :=
  "0x" ++ String.ofList (Text.hex n)

def text : Event → String
  | opened name mode handle =>
    "vfs: open " ++ Text.quote name ++ " mode=" ++ mode.symbol.toString ++ " handle=" ++
      hexText handle.pack.toNat
  | openFailed name fault => "vfs: open " ++ Text.quote name ++ " failed: " ++ fault.message
  | flushed name size =>
    "vfs: close " ++ Text.quote name ++ " flushed " ++ toString size ++ " bytes"
  | flushFailed name fault => "vfs: flush " ++ Text.quote name ++ " failed: " ++ fault.message
  | closed name => "vfs: close " ++ Text.quote name
  | discarded name => "vfs: discard " ++ Text.quote name
  | failed activity fault => "vfs: " ++ activity.label ++ " failed: " ++ fault.message

end Event

end Enclave
