import Enclave.Mode
import Enclave.Text.Quoted

namespace Enclave

inductive Resource where
  | openFiles
  | entries
  deriving DecidableEq, Repr

def Resource.describe : Resource → String
  | .openFiles => "open files"
  | .entries => "persistent entries"

inductive Fault where
  | invalidHandle
  | capacityExhausted (resource : Resource) (limit : Nat)
  | modeViolation (mode : Mode) (required : Access)
  | notFound
  | outOfMemory (requested : Nat)
  | invalidSeek (target : Int)
  | nameTooLong (length limit : Nat)
  | invalidMode (text : String)
  | invalidArgument (reason : String)
  | invalidConfig (reason : String)
  deriving DecidableEq, Repr

namespace Fault

def message : Fault → String
  | invalidHandle => "Invalid file handle"
  | capacityExhausted resource limit =>
    "Capacity exhausted: " ++ resource.describe ++ " (limit " ++ toString limit ++ ")"
  | modeViolation mode required =>
    "Mode violation: " ++ mode.label ++ " handle cannot " ++ required.label
  | notFound => "File not found"
  | outOfMemory requested => "Out of memory: " ++ toString requested ++ " bytes requested"
  | invalidSeek target => "Invalid seek target: " ++ toString target
  | nameTooLong length limit =>
    "Name too long: " ++ toString length ++ " bytes (max " ++ toString limit ++ ")"
  | invalidMode text => "Invalid mode: " ++ Text.quote text
  | invalidArgument reason => "Invalid argument: " ++ reason
  | invalidConfig reason => "Invalid config: " ++ reason

def isNotFound : Fault → Bool
  | notFound => true
  | _ => false

def isCapacityExhausted : Fault → Bool
  | capacityExhausted _ _ => true
  | _ => false

def isOutOfMemory : Fault → Bool
  | outOfMemory _ => true
  | _ => false

def emptyName : Fault := invalidArgument "empty name"

def nulInName : Fault := invalidArgument "name contains null character"

def productOverflow : Fault := invalidArgument "element_size * count overflows"

def outputTooShort : Fault := invalidArgument "output shorter than element_size * count"

def dataTooShort : Fault := invalidArgument "data shorter than element_size * count"

def unknownOrigin : Fault := invalidArgument "whence must be 0, 1 or 2"

def positionTooLarge : Fault := invalidArgument "position does not fit in i32"

end Fault

namespace Mode

def parse (text : String) : Except Fault Mode :=
  match ofText? text with
  | some mode => .ok mode
  | none => .error (.invalidMode text)

def check (m : Mode) (required : Access) : Except Fault Unit :=
  if m.allows required then .ok () else .error (.modeViolation m required)

end Mode

end Enclave
