/-!
# Lexemes

The characters that words and layout are made of, the forms that identifiers can have, the keywords, and
what quoted strings stand for. Nothing is said here about how any of these are found in a text.
-/

namespace DotLang.Text

/-!
## Character classes of DOT

The characters that words, numerals and layout are made of. Letters and digits are those of ASCII;
every character beyond ASCII counts as a letter.
-/

/-- A character that may begin a word: an ASCII letter, the underscore, or any non-ASCII character. -/
def isWordStart (c : Char) : Bool :=
  c.isAlpha || c == '_' || 0x80 ≤ c.toNat

/-- A character that may continue a word: one that may begin it, or an ASCII digit. -/
def isWordChar (c : Char) : Bool :=
  isWordStart c || c.isDigit

/-- A blank: space, tab, carriage return, line feed or byte order mark. -/
def isBlank (c : Char) : Bool :=
  c == ' ' || c == '\t' || c == '\r' || c == '\n' || c == '\uFEFF'

/-!
## Identifiers

What the four forms of identifiers can consist of, said without reference to how they are found in a
text.
-/

/-- A word: a character that may begin one, and any number that may continue it. The byte order mark may
stand in a word but not begin one, since it is a blank as well. -/
def IsWord (text : List Char) : Prop :=
  ∃ c cs, text = c :: cs ∧ isWordStart c = true ∧ c ≠ '\uFEFF' ∧ ∀ d ∈ cs, isWordChar d = true

/-- Any number of ASCII digits. -/
def AreDigits (text : List Char) : Prop :=
  ∀ c ∈ text, c.isDigit = true

/-- A numeral without a sign: digits behind a point, or digits that a point may follow, with or without
more digits behind it. -/
inductive IsUnsigned : List Char → Prop where
  | fraction {digits : List Char} : AreDigits digits → digits ≠ [] → IsUnsigned ('.' :: digits)
  | whole {digits : List Char} : AreDigits digits → digits ≠ [] → IsUnsigned digits
  | both {digits fraction : List Char} : AreDigits digits → digits ≠ [] → AreDigits fraction →
      IsUnsigned (digits ++ '.' :: fraction)

/-- A numeral, with or without a minus sign. -/
inductive IsNumeral : List Char → Prop where
  | plain {text : List Char} : IsUnsigned text → IsNumeral text
  | negative {text : List Char} : IsUnsigned text → IsNumeral ('-' :: text)

/-- Content that a quoted string can have: every run of backslashes that is odd in number and cannot be
made longer is followed by a character, which is not a quote. -/
def IsQuotable (content : List Char) : Prop :=
  ∀ before run after, content = before ++ run ++ after → (∀ c ∈ run, c = '\\') →
    before.getLast? ≠ some '\\' → after.head? ≠ some '\\' → run.length % 2 = 1 →
    ∃ c rest, after = c :: rest ∧ c ≠ '"'

/-- Content that an HTML string can have: every bracket has its partner. -/
def IsBalanced (content : List Char) : Prop :=
  (∀ start, start <+: content → start.count '>' ≤ start.count '<') ∧
    content.count '<' = content.count '>'

/-!
## Keywords

The keywords of DOT. Upper and lower case make no difference to them.
-/

/-- Whether two texts differ at most in the case of ASCII letters. -/
def sameWord (first second : List Char) : Bool :=
  first.map Char.toLower == second.map Char.toLower

end DotLang.Text

namespace DotLang.Keyword

/-- The keyword of graphs with at most one edge between two nodes. -/
def strict : List Char := ['s', 't', 'r', 'i', 'c', 't']

/-- The keyword of directed graphs. -/
def digraph : List Char := ['d', 'i', 'g', 'r', 'a', 'p', 'h']

/-- The keyword of undirected graphs, and of the default attributes of graphs. -/
def graph : List Char := ['g', 'r', 'a', 'p', 'h']

/-- The keyword of the default attributes of nodes. -/
def node : List Char := ['n', 'o', 'd', 'e']

/-- The keyword of the default attributes of edges. -/
def edge : List Char := ['e', 'd', 'g', 'e']

/-- The keyword of subgraphs. -/
def subgraph : List Char := ['s', 'u', 'b', 'g', 'r', 'a', 'p', 'h']

/-- All keywords. -/
def all : List (List Char) := [strict, digraph, graph, node, edge, subgraph]

/-- Whether a word is a keyword. -/
def isKeyword (word : List Char) : Bool :=
  all.any (Text.sameWord word)

end DotLang.Keyword

/-!
## The content of quoted strings

Between its quotes, a quoted string writes a quote with a backslash before it. A backslash before any
other character stands for itself, and so does the character: of a pair of backslashes, both are kept.
-/

namespace DotLang.Text.Quoted

/-- The content of a quoted string, given what stands between its quotes. -/
def unescape : List Char → List Char
  | [] => []
  | '\\' :: '"' :: cs => '"' :: unescape cs
  | '\\' :: c :: cs => '\\' :: c :: unescape cs
  | c :: cs => c :: unescape cs

/-- A character other than a backslash stands for itself. -/
theorem unescape_cons_of_ne {c : Char} (hc : c ≠ '\\') (cs : List Char) :
    unescape (c :: cs) = c :: unescape cs := by
  rw [unescape] <;> simp [hc]

/-- A backslash before any character but a quote stands for itself, and so does that character. -/
theorem unescape_pair {c : Char} (hc : c ≠ '"') (cs : List Char) :
    unescape ('\\' :: c :: cs) = '\\' :: c :: unescape cs := by
  rw [unescape]
  assumption

/-- What stands between the quotes of a quoted string with this content. -/
def escape : List Char → List Char
  | [] => []
  | c :: cs => if c = '"' then '\\' :: '"' :: escape cs else c :: escape cs

end DotLang.Text.Quoted
