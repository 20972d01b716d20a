import DotLang.Json.Basic

/-!
# The grammar of JSON

The texts that write a JSON value, without a choice of layout or of escapes: any blanks may stand between the parts
of an array or an object, and a character of a string may be written in each of the ways that JSON has for it.
-/

namespace DotLang.Json

/-! ## Strings -/

/-- The escapes of one letter: the letter and the character that it stands for. -/
def letters : List (Char × Char) :=
  [('"', '"'), ('\\', '\\'), ('/', '/'), ('b', '\x08'), ('f', '\x0c'), ('n', '\n'), ('r', '\r'), ('t', '\t')]

/-- A hexadecimal digit and its value. -/
inductive Hexadecimal : Char → Nat → Prop where
  /-- A digit with a small letter, or with none. -/
  | lower {value : Nat} : value < 16 → Hexadecimal (Nat.digitChar value) value
  /-- A digit with a capital letter, or with none. -/
  | upper {value : Nat} : value < 16 → Hexadecimal (Nat.digitChar value).toUpper value

/-- Four hexadecimal digits and the number that they write. -/
inductive CodeUnit : List Char → Nat → Prop where
  | mk {a b c d : Char} {i j k l : Nat} : Hexadecimal a i → Hexadecimal b j → Hexadecimal c k → Hexadecimal d l →
      CodeUnit [a, b, c, d] (((i * 16 + j) * 16 + k) * 16 + l)

/-- The ways to write a character within a string. -/
inductive CharWritten : Char → List Char → Prop where
  /-- The character itself, unless it is a control character, a quote or a backslash. -/
  | plain {c : Char} : 0x20 ≤ c.toNat → c ≠ '"' → c ≠ '\\' → CharWritten c [c]
  /-- An escape of one letter. -/
  | letter {letter c : Char} : (letter, c) ∈ letters → CharWritten c ['\\', letter]
  /-- The number of the character. -/
  | unit {c : Char} {digits : List Char} : CodeUnit digits c.toNat → CharWritten c ('\\' :: 'u' :: digits)
  /-- Two numbers that stand for the character together, if it is beyond the first 65536. -/
  | pair {c : Char} {high low : List Char} {m n : Nat} : CodeUnit high (0xD800 + m) → CodeUnit low (0xDC00 + n) →
      m < 0x400 → n < 0x400 → c.toNat = 0x10000 + m * 0x400 + n →
      CharWritten c ('\\' :: 'u' :: (high ++ '\\' :: 'u' :: low))

/-- The ways to write the content of a string: its characters one after the other. -/
inductive ContentWritten : List Char → List Char → Prop where
  /-- Nothing. -/
  | nil : ContentWritten [] []
  /-- A character and more behind it. -/
  | cons {c : Char} {content piece text : List Char} : CharWritten c piece → ContentWritten content text →
      ContentWritten (c :: content) (piece ++ text)

/-- The ways to write a string: its content between quotes. -/
inductive StringWritten : String → List Char → Prop where
  | mk {value : String} {text : List Char} : ContentWritten value.toList text →
      StringWritten value ('"' :: (text ++ ['"']))

/-! ## Values -/

/-- Whether a text consists of blanks. -/
def Blank (text : List Char) : Prop :=
  ∀ c ∈ text, c ∈ [' ', '\t', '\r', '\n']

mutual

/-- The ways to write a value, from its first to its last character. -/
inductive Written : Json → List Char → Prop where
  /-- The word for a missing value. -/
  | null : Written .null ['n', 'u', 'l', 'l']
  /-- The word for what is the case. -/
  | boolTrue : Written (.bool true) ['t', 'r', 'u', 'e']
  /-- The word for what is not the case. -/
  | boolFalse : Written (.bool false) ['f', 'a', 'l', 's', 'e']
  /-- A string. -/
  | str {value : String} {text : List Char} : StringWritten value text → Written (.str value) text
  /-- An empty array. -/
  | arrNil {gap : List Char} : Blank gap → Written (.arr []) ('[' :: (gap ++ [']']))
  /-- An array with items. -/
  | arrCons {item : Json} {items : List Json} {gap first more : List Char} : Blank gap → Written item first →
      ItemsWritten items more → Written (.arr (item :: items)) ('[' :: (gap ++ (first ++ (more ++ [']']))))
  /-- An empty object. -/
  | objNil {gap : List Char} : Blank gap → Written (.obj []) ('{' :: (gap ++ ['}']))
  /-- An object with members. -/
  | objCons {member : String × Json} {members : List (String × Json)} {gap first more : List Char} : Blank gap →
      MemberWritten member first → MembersWritten members more →
      Written (.obj (member :: members)) ('{' :: (gap ++ (first ++ (more ++ ['}']))))

/-- The ways to write the items of an array behind its first one, up to the bracket behind them. -/
inductive ItemsWritten : List Json → List Char → Prop where
  /-- No further item. -/
  | nil {gap : List Char} : Blank gap → ItemsWritten [] gap
  /-- A comma, an item and more behind it. -/
  | cons {item : Json} {items : List Json} {before gap first more : List Char} : Blank before → Blank gap →
      Written item first → ItemsWritten items more →
      ItemsWritten (item :: items) (before ++ ',' :: (gap ++ (first ++ more)))

/-- The ways to write a member of an object: its name, a colon and its value. -/
inductive MemberWritten : String × Json → List Char → Prop where
  | mk {name : String} {value : Json} {quoted before gap text : List Char} : StringWritten name quoted →
      Blank before → Blank gap → Written value text →
      MemberWritten (name, value) (quoted ++ (before ++ ':' :: (gap ++ text)))

/-- The ways to write the members of an object behind its first one, up to the brace behind them. -/
inductive MembersWritten : List (String × Json) → List Char → Prop where
  /-- No further member. -/
  | nil {gap : List Char} : Blank gap → MembersWritten [] gap
  /-- A comma, a member and more behind it. -/
  | cons {member : String × Json} {members : List (String × Json)} {before gap first more : List Char} :
      Blank before → Blank gap → MemberWritten member first → MembersWritten members more →
      MembersWritten (member :: members) (before ++ ',' :: (gap ++ (first ++ more)))

end

/-! ## Names -/

mutual

/-- Whether no object in a value has two members of one name. -/
def NamesDistinct : Json → Prop
  | arr items => ItemsDistinct items
  | obj members => (members.map Prod.fst).Nodup ∧ MembersDistinct members
  | _ => True

/-- Whether this holds for all items of an array. -/
def ItemsDistinct : List Json → Prop
  | [] => True
  | item :: items => NamesDistinct item ∧ ItemsDistinct items

/-- Whether this holds for the values of all members of an object. -/
def MembersDistinct : List (String × Json) → Prop
  | [] => True
  | (_, value) :: members => NamesDistinct value ∧ MembersDistinct members

end

end DotLang.Json
