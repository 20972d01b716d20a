/-!
# JSON values

The JSON values that documents are written as. The members of an object keep their order. There are no
numbers, since documents hold none: numerals in DOT are text.
-/

namespace DotLang

/-- A JSON value. -/
inductive Json where
  /-- The value `null`. -/
  | null
  /-- A truth value. -/
  | bool (value : Bool)
  /-- A string. -/
  | str (value : String)
  /-- An array. -/
  | arr (items : List Json)
  /-- An object: names and values in order. -/
  | obj (members : List (String × Json))

namespace Json

/-- A value that may be missing; where it is, `null` stands for it. -/
def ofOption {α : Type} (toJson : α → Json) : Option α → Json
  | none => null
  | some value => toJson value

/-!
## Printed JSON

The text of a JSON value over several lines. Each nested level is indented by two blanks; empty arrays
and objects take no line of their own. A string escapes its quotes, its backslashes and the control
characters below the space, and shows all other characters as they are.
-/

/-- How a character is written within a string. -/
def escapeChar (c : Char) : List Char :=
  if c = '"' then ['\\', '"']
  else if c = '\\' then ['\\', '\\']
  else if c = '\x08' then ['\\', 'b']
  else if c = '\t' then ['\\', 't']
  else if c = '\n' then ['\\', 'n']
  else if c = '\x0c' then ['\\', 'f']
  else if c = '\r' then ['\\', 'r']
  else if c.toNat < 0x20 then
    ['\\', 'u', '0', '0', Nat.digitChar (c.toNat / 16), Nat.digitChar (c.toNat % 16)]
  else [c]

/-- A string between quotes. -/
def quote (text : List Char) : List Char :=
  '"' :: (text.flatMap escapeChar ++ ['"'])

/-- A new line, indented to a level. -/
def newLine (level : Nat) : List Char :=
  '\n' :: List.replicate (2 * level) ' '

mutual

/-- The text of a value whose own line is indented to a level. -/
def prettyAt (level : Nat) : Json → List Char
  | null => ['n', 'u', 'l', 'l']
  | bool true => ['t', 'r', 'u', 'e']
  | bool false => ['f', 'a', 'l', 's', 'e']
  | str value => quote value.toList
  -- Only what has members is spread over several lines.
  | arr [] => ['[', ']']
  | arr (item :: items) =>
    '[' :: (newLine (level + 1) ++ prettyAt (level + 1) item ++ prettyItems (level + 1) items ++
      newLine level ++ [']'])
  | obj [] => ['{', '}']
  | obj ((name, value) :: members) =>
    '{' :: (newLine (level + 1) ++ quote name.toList ++ [':', ' '] ++ prettyAt (level + 1) value ++
      prettyMembers (level + 1) members ++ newLine level ++ ['}'])

/-- The items of an array behind its first one, each after a comma and on a line of its own. -/
def prettyItems (level : Nat) : List Json → List Char
  | [] => []
  | item :: items => ',' :: (newLine level ++ prettyAt level item ++ prettyItems level items)

/-- The members of an object behind its first one, each after a comma and on a line of its own. -/
def prettyMembers (level : Nat) : List (String × Json) → List Char
  | [] => []
  | (name, value) :: members =>
    ',' :: (newLine level ++ quote name.toList ++ [':', ' '] ++ prettyAt level value ++
      prettyMembers level members)

end

/-- The text of a value. -/
def pretty (value : Json) : String :=
  String.ofList (prettyAt 0 value)

end Json

end DotLang
