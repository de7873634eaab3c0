import Enclave.Text.Unprintable

namespace Enclave.Text

def hex (n : Nat) : List Char :=
  Nat.toDigits 16 n

def quoteChar (c : Char) : List Char :=
  if c = '"' then ['\\', '"']
  else if c = '\\' then ['\\', '\\']
  else if c = '\n' then ['\\', 'n']
  else if c = '\r' then ['\\', 'r']
  else if c = '\t' then ['\\', 't']
  else if c.toNat = 0 then ['\\', '0']
  else if unprintable c then ['\\', 'u', '{'] ++ hex c.toNat ++ ['}']
  else [c]

/-- A text in double quotes, each character that needs it escaped. -/
def quote (s : String) : String :=
  String.ofList ('"' :: (s.toList.flatMap quoteChar ++ ['"']))

end Enclave.Text
