/-!
# Continued lines

A backslash directly before a line feed continues the line: both are removed. Removal is one pass from
left to right, so a backslash and a line feed that meet only because what stood between them was removed
are kept. Nothing is known here of strings or comments.
-/

namespace DotLang.Continuation

/-- What continues a line: a backslash directly before a line feed. -/
def marker : List Char := ['\\', '\n']

/-- The text without its continuation markers. -/
def strip : List Char → List Char
  | [] => []
  | '\\' :: '\n' :: cs => strip cs
  | c :: cs => c :: strip cs

/-- The number of continuation markers in a text. -/
def count : List Char → Nat
  | [] => 0
  | '\\' :: '\n' :: cs => count cs + 1
  | _ :: cs => count cs

/-- The text with its continued lines joined, unless it has none. -/
def joined? (text : String) : Option String :=
  if count text.toList = 0 then none else some (String.ofList (strip text.toList))

/-- The text with its continued lines joined. -/
def join (text : String) : String :=
  (joined? text).getD text

end DotLang.Continuation

/-!
## Preprocessed parsers

A parser can be wrapped so that it sees every text with its continued lines joined. Its results and
errors are passed on as they are.
-/

namespace DotLang

/-- A way to turn a text into a value or an error. -/
abbrev Parser (ε α : Type) := String → Except ε α

/-- The parser that gives back its text. -/
def Parser.echo : Parser Unit String := .ok

/-- A parser whose texts have their continued lines joined first. -/
structure Preprocessed (ε α : Type) where
  /-- The parser without this step. -/
  inner : Parser ε α

namespace Preprocessed

variable {ε α : Type}

/-- Joins the continued lines of a text and parses it. -/
def parse (parser : Preprocessed ε α) : Parser ε α :=
  fun text => parser.inner (Continuation.join text)

end Preprocessed

/-- The parser with joining of continued lines in front of it. -/
def Parser.preprocessed {ε α : Type} (parser : Parser ε α) : Preprocessed ε α := ⟨parser⟩

/-- A preprocessed parser parses the text with its continued lines joined. -/
theorem Preprocessed.parse_apply {ε α : Type} (parser : Parser ε α) (text : String) :
    (Parser.preprocessed parser).parse text = parser (Continuation.join text) := rfl

end DotLang
