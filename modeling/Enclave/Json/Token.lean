namespace Enclave.Json

/-- A `none` stands for a number that is not written as an integer, and for a text that no string can
hold. -/
inductive Token where
  | leftBrace
  | rightBrace
  | leftBracket
  | rightBracket
  | colon
  | comma
  | null
  | bool (b : Bool)
  | number (n : Option Int)
  | text (s : Option String)
  deriving DecidableEq, Repr

def isBlank (c : Char) : Bool :=
  c = ' ' || c = '\n' || c = '\r' || c = '\t'

def hexValue? (c : Char) : Option Nat :=
  if '0' ≤ c ∧ c ≤ '9' then some (c.toNat - '0'.toNat)
  else if 'a' ≤ c ∧ c ≤ 'f' then some (c.toNat - 'a'.toNat + 10)
  else if 'A' ≤ c ∧ c ≤ 'F' then some (c.toNat - 'A'.toNat + 10)
  else none

def codeUnit? (a b c d : Char) : Option Nat := do
  let a ← hexValue? a
  let b ← hexValue? b
  let c ← hexValue? c
  let d ← hexValue? d
  return ((a * 16 + b) * 16 + c) * 16 + d

def shortEscape? (c : Char) : Option Nat :=
  if c = '"' ∨ c = '\\' ∨ c = '/' then some c.toNat
  else if c = 'b' then some 8
  else if c = 'f' then some 12
  else if c = 'n' then some 10
  else if c = 'r' then some 13
  else if c = 't' then some 9
  else none

/-- The codes of a text up to its closing quote, and what follows the quote. Escapes may write
surrogates, so a code need not be a character. -/
def scanText : List Char → Option (List Nat × List Char)
  | [] => none
  | '"' :: rest => some ([], rest)
  | '\\' :: 'u' :: a :: b :: c :: d :: rest => do
    let code ← codeUnit? a b c d
    let (codes, rest) ← scanText rest
    return (code :: codes, rest)
  | '\\' :: c :: rest => do
    let code ← shortEscape? c
    let (codes, rest) ← scanText rest
    return (code :: codes, rest)
  | c :: rest =>
    if c.toNat < 32 then none
    else do
      let (codes, rest) ← scanText rest
      return (c.toNat :: codes, rest)

def isHighSurrogate (code : Nat) : Bool :=
  0xd800 ≤ code && code < 0xdc00

def isLowSurrogate (code : Nat) : Bool :=
  0xdc00 ≤ code && code < 0xe000

/-- The characters that codes stand for. A high surrogate and the low one after it make one character;
a surrogate without its partner makes none. -/
def assemble? : List Nat → Option (List Char)
  | [] => some []
  | code :: rest =>
    if isHighSurrogate code then
      match rest with
      | [] => none
      | low :: rest =>
        if isLowSurrogate low then
          (assemble? rest).map
            (Char.ofNat (0x10000 + (code - 0xd800) * 0x400 + (low - 0xdc00)) :: ·)
        else none
    else if isLowSurrogate code then none
    else (assemble? rest).map (Char.ofNat code :: ·)

def scanFraction : List Char → Option (Bool × List Char)
  | '.' :: rest =>
    if rest.takeWhile Char.isDigit = [] then none else some (true, rest.dropWhile Char.isDigit)
  | rest => some (false, rest)

def dropSign : List Char → List Char
  | '+' :: rest => rest
  | '-' :: rest => rest
  | rest => rest

def scanExponent : List Char → Option (Bool × List Char)
  | [] => some (false, [])
  | c :: rest =>
    if c = 'e' ∨ c = 'E' then
      if (dropSign rest).takeWhile Char.isDigit = [] then none
      else some (true, (dropSign rest).dropWhile Char.isDigit)
    else some (false, c :: rest)

def integer? (negative : Bool) (magnitude : Nat) : Option Int :=
  if negative then if magnitude = 0 then none else some (-magnitude) else some magnitude

def scanMagnitude (negative : Bool) (cs : List Char) : Option (Option Int × List Char) :=
  let digits := cs.takeWhile Char.isDigit
  if digits = [] ∨ (digits.head? = some '0' ∧ 1 < digits.length) then none
  else do
    let (fraction, rest) ← scanFraction (cs.dropWhile Char.isDigit)
    let (exponent, rest) ← scanExponent rest
    let value := if fraction || exponent then none
      else integer? negative (Nat.ofDigitChars 10 digits 0)
    return (value, rest)

def scanNumber : List Char → Option (Option Int × List Char)
  | '-' :: rest => scanMagnitude true rest
  | rest => scanMagnitude false rest

namespace Token

def scan? : List Char → Option (Token × List Char)
  | '{' :: rest => some (leftBrace, rest)
  | '}' :: rest => some (rightBrace, rest)
  | '[' :: rest => some (leftBracket, rest)
  | ']' :: rest => some (rightBracket, rest)
  | ':' :: rest => some (colon, rest)
  | ',' :: rest => some (comma, rest)
  | '"' :: rest => (scanText rest).map fun (codes, rest) =>
    (text ((assemble? codes).map String.ofList), rest)
  | 'n' :: 'u' :: 'l' :: 'l' :: rest => some (null, rest)
  | 't' :: 'r' :: 'u' :: 'e' :: rest => some (bool true, rest)
  | 'f' :: 'a' :: 'l' :: 's' :: 'e' :: rest => some (bool false, rest)
  | cs => (scanNumber cs).map fun (n, rest) => (number n, rest)

def scanAll : Nat → List Char → Option (List Token)
  | 0, _ => none
  | bound + 1, cs =>
    match cs.dropWhile isBlank with
    | [] => some []
    | c :: rest => do
      let (token, rest) ← scan? (c :: rest)
      let tokens ← scanAll bound rest
      return token :: tokens

def tokens? (cs : List Char) : Option (List Token) :=
  scanAll (cs.length + 1) cs

end Token

end Enclave.Json
