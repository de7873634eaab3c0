import Enclave.Json.Value
import Enclave.Word

namespace Enclave.Json

def member? (members : List (Option String × Json)) (name : String) : Option (Option Json) :=
  match members.filter (·.1 = some name) with
  | [] => some none
  | [(_, value)] => some (some value)
  | _ => none

/-- What a value gives for each named field: a missing one is `none`, an unknown one is passed over.
Every name must be one that a string can hold. -/
def fields? (names : List String) : Json → Option (List (Option Json))
  | object members =>
    if members.all (·.1.isSome) then names.mapM (member? members) else none
  | array items =>
    if items.length ≤ names.length then
      some (items.map some ++ List.replicate (names.length - items.length) none)
    else none
  | _ => none

def toNatBelow? (limit : Nat) : Json → Option Nat
  | number (some (.ofNat n)) => if n < limit then some n else none
  | _ => none

def toWord? : Json → Option Nat :=
  toNatBelow? wordLimit

def toOffset? : Json → Option Int
  | number (some n) => if leastOffset ≤ n ∧ n ≤ greatestOffset then some n else none
  | _ => none

def toString? : Json → Option String
  | text s => s
  | _ => none

def toOptional? {α : Type} (decode : Json → Option α) : Json → Option (Option α)
  | null => some none
  | j => (decode j).map some

def toChoice? {α : Type} (table : List (String × α)) : Json → Option α
  | text (some name) => table.lookup name
  | object [(some name, null)] => table.lookup name
  | _ => none

end Enclave.Json
