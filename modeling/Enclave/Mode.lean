namespace Enclave

inductive Access where
  | read
  | write
  deriving DecidableEq, Repr

inductive Mode where
  | read
  | write
  | append
  | readWrite
  deriving DecidableEq, Repr

inductive Origin where
  | start
  | cursor
  | finish
  deriving DecidableEq, Repr

def Access.label : Access → String
  | .read => "Read"
  | .write => "Write"

namespace Mode

def label : Mode → String
  | .read => "Read"
  | .write => "Write"
  | .append => "Append"
  | .readWrite => "ReadWrite"

def symbol : Mode → Char
  | .read => 'r'
  | .write => 'w'
  | .append => 'a'
  | .readWrite => '+'

def ofSymbol? : Char → Option Mode
  | 'r' => some .read
  | 'w' => some .write
  | 'a' => some .append
  | '+' => some .readWrite
  | _ => none

/-- The first character of a mode text decides; what follows it is ignored. -/
def ofText? (text : String) : Option Mode :=
  text.toList.head?.bind ofSymbol?

def canRead : Mode → Bool
  | .read | .readWrite => true
  | .write | .append => false

def canWrite : Mode → Bool
  | .read => false
  | .write | .append | .readWrite => true

def startsFromEntry (m : Mode) : Bool :=
  m.canRead

def needsEntry : Mode → Bool
  | .read => true
  | .write | .append | .readWrite => false

def allows (m : Mode) : Access → Bool
  | .read => m.canRead
  | .write => m.canWrite

end Mode

def Origin.label : Origin → String
  | .start => "Set"
  | .cursor => "Cur"
  | .finish => "End"

def Origin.ofNumber? : Int → Option Origin
  | 0 => some .start
  | 1 => some .cursor
  | 2 => some .finish
  | _ => none

end Enclave
