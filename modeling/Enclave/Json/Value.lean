namespace Enclave

/-- A number is kept when it is written as an integer, and a text when a string can hold it: `none`
stands for every other number, and for every text with an unpaired surrogate. -/
inductive Json where
  | null
  | bool (b : Bool)
  | number (n : Option Int)
  | text (s : Option String)
  | array (items : List Json)
  | object (members : List (Option String × Json))

namespace Json

def ofNat (n : Nat) : Json :=
  number (some n)

def ofInt (n : Int) : Json :=
  number (some n)

def ofString (s : String) : Json :=
  text (some s)

def single (name : String) (value : Json) : Json :=
  object [(some name, value)]

end Json

end Enclave
