import DotLang.Json.Basic

/-!
# Reading JSON

The JSON value that a text writes. Blanks may stand around every part. All escapes of JSON are read;
numbers are not, as no document holds one.
-/

namespace DotLang.Json

/-- Whether a character is a blank of JSON. -/
def isBlank (c : Char) : Bool :=
  c == ' ' || c == '\t' || c == '\r' || c == '\n'

/-- The text behind its leading blanks. -/
def skipBlanks (cs : List Char) : List Char :=
  cs.dropWhile isBlank

/-- The value of a hexadecimal digit. -/
def digitValue? (c : Char) : Option Nat :=
  if c.isDigit then some (c.toNat - '0'.toNat)
  else if 'a' ≤ c ∧ c ≤ 'f' then some (c.toNat - 'a'.toNat + 10)
  else if 'A' ≤ c ∧ c ≤ 'F' then some (c.toNat - 'A'.toNat + 10)
  else none

/-- The number that four hexadecimal digits write. -/
def codeUnit? (a b c d : Char) : Option Nat := do
  let a ← digitValue? a
  let b ← digitValue? b
  let c ← digitValue? c
  let d ← digitValue? d
  return ((a * 16 + b) * 16 + c) * 16 + d

/-- The character of an escape with one letter. -/
def escaped? : Char → Option Char
  | '"' => some '"'
  | '\\' => some '\\'
  | '/' => some '/'
  | 'b' => some '\x08'
  | 'f' => some '\x0c'
  | 'n' => some '\n'
  | 'r' => some '\r'
  | 't' => some '\t'
  | _ => none

/-- The content of a string and the text behind it, given the text behind its opening quote. A character
beyond the first 65536 is written as two escapes. -/
def readString : List Char → Option (List Char × List Char)
  | [] => none
  | '"' :: cs => some ([], cs)
  -- Two escapes in a row may be the halves of one character.
  | '\\' :: 'u' :: a :: b :: c :: d :: '\\' :: 'u' :: e :: f :: g :: h :: cs => do
    let high ← codeUnit? a b c d
    if 0xD800 ≤ high ∧ high < 0xDC00 then
      let low ← codeUnit? e f g h
      if 0xDC00 ≤ low ∧ low < 0xE000 then
        let (content, rest) ← readString cs
        return (.ofNat (0x10000 + (high - 0xD800) * 0x400 + (low - 0xDC00)) :: content, rest)
      else none
    else if 0xDC00 ≤ high ∧ high < 0xE000 then none
    else
      let (content, rest) ← readString ('\\' :: 'u' :: e :: f :: g :: h :: cs)
      return (.ofNat high :: content, rest)
  | '\\' :: 'u' :: a :: b :: c :: d :: cs => do
    let code ← codeUnit? a b c d
    if 0xD800 ≤ code ∧ code < 0xE000 then none
    else
      let (content, rest) ← readString cs
      return (.ofNat code :: content, rest)
  | '\\' :: c :: cs => do
    let c ← escaped? c
    let (content, rest) ← readString cs
    return (c :: content, rest)
  | c :: cs =>
    if c = '\\' ∨ c.toNat < 0x20 then none
    else do
      let (content, rest) ← readString cs
      return (c :: content, rest)

mutual

/-- A value at the start of a text, and the text behind it. -/
def readValue : Nat → List Char → Option (Json × List Char)
  | 0, _ => none
  | bound + 1, cs =>
    -- The first character tells what sort of value it is.
    match skipBlanks cs with
    | 'n' :: 'u' :: 'l' :: 'l' :: cs => some (null, cs)
    | 't' :: 'r' :: 'u' :: 'e' :: cs => some (bool true, cs)
    | 'f' :: 'a' :: 'l' :: 's' :: 'e' :: cs => some (bool false, cs)
    | '"' :: cs => (readString cs).map fun (content, rest) => (str (String.ofList content), rest)
    | '[' :: cs =>
      match skipBlanks cs with
      | ']' :: cs => some (arr [], cs)
      | cs => (readItems bound cs).map fun (items, rest) => (arr items, rest)
    | '{' :: cs =>
      match skipBlanks cs with
      | '}' :: cs => some (obj [], cs)
      | cs => (readMembers bound cs).map fun (members, rest) => (obj members, rest)
    | _ => none

/-- One or more items of an array, the bracket behind them, and the text behind it. -/
def readItems : Nat → List Char → Option (List Json × List Char)
  | 0, _ => none
  | bound + 1, cs => do
    let (item, cs) ← readValue bound cs
    match skipBlanks cs with
    | ']' :: cs => return ([item], cs)
    | ',' :: cs =>
      let (items, cs) ← readItems bound cs
      return (item :: items, cs)
    | _ => none

/-- One or more members of an object, the brace behind them, and the text behind it. -/
def readMembers : Nat → List Char → Option (List (String × Json) × List Char)
  | 0, _ => none
  | bound + 1, cs =>
    match skipBlanks cs with
    | '"' :: cs => do
      let (name, cs) ← readString cs
      match skipBlanks cs with
      | ':' :: cs =>
        let (value, cs) ← readValue bound cs
        match skipBlanks cs with
        | '}' :: cs => return ([(String.ofList name, value)], cs)
        | ',' :: cs =>
          let (members, cs) ← readMembers bound cs
          return ((String.ofList name, value) :: members, cs)
        | _ => none
      | _ => none
    | _ => none

end

/-- The value that a text writes, if it writes one and nothing else. No value nests deeper than its text
has characters. -/
def parse? (text : String) : Option Json :=
  match readValue (2 * (text.length + 1)) text.toList with
  | some (value, rest) => if (skipBlanks rest).isEmpty then some value else none
  | none => none

end DotLang.Json
