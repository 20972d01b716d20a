import DotLang.Text.Printable

/-!
# Dumps

A dump shows how a value is built: the names of constructors and fields, and the values in them. It has
two written forms, one on a single line and one over several.
-/

namespace DotLang

/-- How a value is built. -/
inductive Dump where
  /-- A name or a number that stands alone. -/
  | atom (text : String)
  /-- A text. -/
  | text (value : String)
  /-- A name applied to values. -/
  | apply (name : String) (arguments : List Dump)
  /-- A name with named fields. An abridged one has more fields than it shows. -/
  | fields (name : String) (members : List (String × Dump)) (abridged : Bool)
  /-- A list. -/
  | list (items : List Dump)

namespace Dump

/-- A truth value. -/
def ofBool (value : Bool) : Dump :=
  atom (if value then "true" else "false")

/-- A number. -/
def ofNat (value : Nat) : Dump :=
  atom (toString value)

/-- A value that may be missing. -/
def ofOption {α : Type} (dump : α → Dump) : Option α → Dump
  | none => atom "None"
  | some value => apply "Some" [dump value]

/-- A name with all its fields. -/
def record (name : String) (members : List (String × Dump)) : Dump :=
  fields name members false

/-!
## Quoted text in dumps

A dump shows a text between quotes. Quotes, backslashes and the commonest control characters have short
escapes; a character that cannot be shown, that would attach to the one before it, or that would not be
seen is written as its code point.
-/

/-- A character written as its code point, in hexadecimal digits without leading zeros. -/
def codePoint (c : Char) : List Char :=
  ['\\', 'u', '{'] ++ Nat.toDigits 16 c.toNat ++ ['}']

/-- How a character is written between double quotes. -/
def escapeChar (c : Char) : List Char :=
  if c = '\x00' then ['\\', '0']
  else if c = '\t' then ['\\', 't']
  else if c = '\r' then ['\\', 'r']
  else if c = '\n' then ['\\', 'n']
  else if c = '"' then ['\\', '"']
  else if c = '\\' then ['\\', '\\']
  else if c.toNat < 0x7F then if c.toNat < 0x20 then codePoint c else [c]
  else if Text.isExtender c || Text.isIgnorable c || !Text.isPrintable c then codePoint c
  else [c]

/-- A text between double quotes. -/
def quote (text : List Char) : List Char :=
  '"' :: (text.flatMap escapeChar ++ ['"'])

/-!
## Printed dumps

The two written forms of a dump. `compact` keeps to one line. `pretty` gives every item a line of its
own, indented by four blanks for each level and followed by a comma; an empty list stays on its line.
-/

mutual

/-- The text of a dump on one line. -/
def compactChars : Dump → List Char
  | atom word => word.toList
  | .text value => quote value.toList
  | apply name arguments => name.toList ++ ['('] ++ compactItems arguments ++ [')']
  | fields name members abridged =>
    name.toList ++ [' ', '{', ' '] ++ compactMembers members ++
      (if abridged then [',', ' ', '.', '.'] else []) ++ [' ', '}']
  | list items => ['['] ++ compactItems items ++ [']']

/-- Dumps on one line with commas between them. -/
def compactItems : List Dump → List Char
  | [] => []
  | [item] => compactChars item
  | item :: items => compactChars item ++ [',', ' '] ++ compactItems items

/-- Named dumps on one line with commas between them. -/
def compactMembers : List (String × Dump) → List Char
  | [] => []
  | [(name, value)] => name.toList ++ [':', ' '] ++ compactChars value
  | (name, value) :: members =>
    name.toList ++ [':', ' '] ++ compactChars value ++ [',', ' '] ++ compactMembers members

end

/-- A new line, indented to a level. -/
def newLine (level : Nat) : List Char :=
  '\n' :: List.replicate (4 * level) ' '

mutual

/-- The text of a dump whose own line is indented to a level. -/
def prettyAt (level : Nat) : Dump → List Char
  | atom word => word.toList
  | .text value => quote value.toList
  | apply name arguments =>
    name.toList ++ ['('] ++ prettyItems (level + 1) arguments ++ newLine level ++ [')']
  | fields name members abridged =>
    name.toList ++ [' ', '{'] ++ prettyMembers (level + 1) members ++
      (if abridged then newLine (level + 1) ++ ['.', '.'] else []) ++ newLine level ++ ['}']
  | list [] => ['[', ']']
  | list (item :: items) =>
    ['['] ++ prettyItems (level + 1) (item :: items) ++ newLine level ++ [']']

/-- Dumps on lines of their own, each followed by a comma. -/
def prettyItems (level : Nat) : List Dump → List Char
  | [] => []
  | item :: items => newLine level ++ prettyAt level item ++ [','] ++ prettyItems level items

/-- Named dumps on lines of their own, each followed by a comma. -/
def prettyMembers (level : Nat) : List (String × Dump) → List Char
  | [] => []
  | (name, value) :: members =>
    newLine level ++ name.toList ++ [':', ' '] ++ prettyAt level value ++ [','] ++
      prettyMembers level members

end

/-- The text of a dump on one line. -/
def compact (dump : Dump) : String :=
  String.ofList (compactChars dump)

/-- The text of a dump over several lines. -/
def pretty (dump : Dump) : String :=
  String.ofList (prettyAt 0 dump)

end Dump

end DotLang
