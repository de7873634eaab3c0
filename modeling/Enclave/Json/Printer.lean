import Enclave.Json.Value
import Enclave.Text.Quoted

namespace Enclave.Json

def escapeControl (c : Char) : List Char :=
  ['\\', 'u', '0', '0', Nat.digitChar (c.toNat / 16), Nat.digitChar (c.toNat % 16)]

def escapeChar (c : Char) : List Char :=
  if c = '"' then ['\\', '"']
  else if c = '\\' then ['\\', '\\']
  else if c = '\n' then ['\\', 'n']
  else if c = '\r' then ['\\', 'r']
  else if c = '\t' then ['\\', 't']
  else if c.toNat = 8 then ['\\', 'b']
  else if c.toNat = 12 then ['\\', 'f']
  else if c.toNat < 32 then escapeControl c
  else [c]

/-- A text in quotes. A text that no string can hold is shown by an unpaired surrogate. -/
def renderText : Option String → List Char
  | some s => '"' :: (s.toList.flatMap escapeChar ++ ['"'])
  | none => ['"', '\\', 'u', 'd', '8', '0', '0', '"']

/-- An integer in digits. Any other number is shown by one with a fraction. -/
def renderNumber : Option Int → List Char
  | some (.ofNat n) => Nat.toDigits 10 n
  | some (.negSucc n) => '-' :: Nat.toDigits 10 (n + 1)
  | none => ['0', '.', '0']

mutual

def renderValue : Json → List Char
  | null => ['n', 'u', 'l', 'l']
  | bool true => ['t', 'r', 'u', 'e']
  | bool false => ['f', 'a', 'l', 's', 'e']
  | number n => renderNumber n
  | text s => renderText s
  | array items => '[' :: (renderItems items ++ [']'])
  | object members => '{' :: (renderMembers members ++ ['}'])

def renderItems : List Json → List Char
  | [] => []
  | [item] => renderValue item
  | item :: next :: rest => renderValue item ++ ',' :: renderItems (next :: rest)

def renderMembers : List (Option String × Json) → List Char
  | [] => []
  | [(name, value)] => renderText name ++ ':' :: renderValue value
  | (name, value) :: next :: rest =>
    renderText name ++ ':' :: (renderValue value ++ ',' :: renderMembers (next :: rest))

end

def render (j : Json) : String :=
  String.ofList (renderValue j)

end Enclave.Json
