import Enclave.Memory.Region

namespace Enclave

def regularBit : UInt32 := 0x8000

structure Stat where
  size : Nat
  mode : UInt32
  deriving DecidableEq, Repr

namespace Stat

def regular (size : Nat) : Stat :=
  ⟨size, regularBit ||| 0x1a4⟩

def isRegular (s : Stat) : Bool :=
  s.mode &&& regularBit = regularBit

end Stat

structure Usage where
  entryCount : Nat := 0
  usedBytes : Nat := 0
  deriving DecidableEq, Repr

/-- Named bytes in ascending order of their names, and the number of names that there may be. -/
structure Archive where
  entries : List (String × Bytes)
  maxEntries : Nat
  deriving DecidableEq, Repr

namespace Archive

def empty (maxEntries : Nat) : Archive :=
  ⟨[], maxEntries⟩

def find? (a : Archive) (name : String) : Option Bytes :=
  a.entries.lookup name

def stat (a : Archive) (name : String) : Except Fault Stat :=
  match a.find? name with
  | some data => .ok (.regular data.length)
  | none => .error .notFound

def place (name : String) (data : Bytes) : List (String × Bytes) → List (String × Bytes)
  | [] => [(name, data)]
  | (key, value) :: rest =>
    if name < key then (name, data) :: (key, value) :: rest
    else if name = key then (name, data) :: rest
    else (key, value) :: place name data rest

def set (a : Archive) (name : String) (data : Bytes) : Archive :=
  { a with entries := place name data a.entries }

/-- Set an entry to a copy of `data`. The copy is charged before the old bytes are refunded, and a new
name needs room in the archive first. -/
def flush (a : Archive) (grant : Allocator) (name : String) (data : Bytes) (budget : Budget) :
    Outcome (Archive × Budget) Unit :=
  match a.find? name with
  | some old =>
    match budget.copy (grant .entryData) data with
    | ⟨.error e, budget'⟩ => ⟨.error e, a, budget'⟩
    | ⟨.ok copied, budget'⟩ => ⟨.ok (), a.set name copied, budget'.refund old.length⟩
  | none =>
    if a.maxEntries ≤ a.entries.length then
      ⟨.error (.capacityExhausted .entries a.maxEntries), a, budget⟩
    else
      match copyName (grant .entryName) name with
      | .error e => ⟨.error e, a, budget⟩
      | .ok key =>
        match budget.copy (grant .entryData) data with
        | ⟨.error e, budget'⟩ => ⟨.error e, a, budget'⟩
        | ⟨.ok copied, budget'⟩ => ⟨.ok (), a.set key copied, budget'⟩

def names (a : Archive) : List String :=
  a.entries.map Prod.fst

def size (a : Archive) : Nat :=
  a.entries.length

def usage (a : Archive) : Usage :=
  ⟨a.entries.length, (a.entries.map (·.2.length)).foldr (· + ·) 0⟩

end Archive

end Enclave
