import Enclave.Json.Token
import Enclave.Json.Value

namespace Enclave.Json

mutual

/-- The value with which tokens start, and what follows it, if it nests no deeper than the bound
allows. -/
def readValue : Nat → List Token → Option (Json × List Token)
  | 0, _ => none
  | _ + 1, [] => none
  | bound + 1, token :: rest =>
    match token with
    | .null => some (null, rest)
    | .bool b => some (bool b, rest)
    | .number n => some (number n, rest)
    | .text s => some (text s, rest)
    | .leftBracket =>
      if rest.head? = some .rightBracket then some (array [], rest.tail)
      else (readItems bound rest).map fun (items, rest) => (array items, rest)
    | .leftBrace =>
      if rest.head? = some .rightBrace then some (object [], rest.tail)
      else (readMembers bound rest).map fun (members, rest) => (object members, rest)
    | _ => none

def readItems : Nat → List Token → Option (List Json × List Token)
  | 0, _ => none
  | bound + 1, tokens =>
    match readValue bound tokens with
    | some (item, .comma :: rest) =>
      (readItems bound rest).map fun (items, rest) => (item :: items, rest)
    | some (item, .rightBracket :: rest) => some ([item], rest)
    | _ => none

def readMembers : Nat → List Token → Option (List (Option String × Json) × List Token)
  | bound + 1, .text name :: .colon :: tokens =>
    match readValue bound tokens with
    | some (value, .comma :: rest) =>
      (readMembers bound rest).map fun (members, rest) => ((name, value) :: members, rest)
    | some (value, .rightBrace :: rest) => some ([(name, value)], rest)
    | _ => none
  | _, _ => none

end

/-- The value that all tokens together write. Every second call takes a token. -/
def ofTokens? (tokens : List Token) : Option Json :=
  match readValue (2 * tokens.length) tokens with
  | some (value, []) => some value
  | _ => none

def parse (text : String) : Option Json :=
  (Token.tokens? text.toList).bind ofTokens?

end Enclave.Json
