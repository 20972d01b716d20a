import DotLang.Document.Basic
import DotLang.Text.Lexeme

/-!
# Tokens of a text

A text is cut into tokens from left to right: layout is dropped, then the longest token is taken. At a
minus sign an edge operator goes before a numeral. A text in which a comment, a string or a numeral is
left incomplete, or in which anything else occurs, has no tokens.
-/

namespace DotLang

/-- A token of DOT. -/
inductive Token where
  /-- A word; it may be a keyword. -/
  | word (text : List Char)
  /-- A numeral. -/
  | numeral (text : List Char)
  /-- A quoted string, as it is written between its quotes. -/
  | quoted (content : List Char)
  /-- An HTML string: the text between its outer angle brackets. -/
  | html (content : List Char)
  /-- The edge operator of a kind of graph. -/
  | operator (kind : GraphKind)
  /-- One of the other marks. -/
  | mark (c : Char)
deriving DecidableEq

namespace Token

/-- The marks of DOT other than edge operators. -/
def marks : List Char := ['{', '}', '[', ']', '=', ',', ';', ':', '+']

/-! ## The tokens of a text -/

mutual

/-- The text behind its leading blanks and comments. A block comment has to be closed. -/
def dropLayout : List Char → Option (List Char)
  | [] => some []
  | '/' :: '*' :: cs => dropBlock cs
  | '/' :: '/' :: cs => dropLine cs
  | '#' :: cs => dropLine cs
  | c :: cs => if Text.isBlank c then dropLayout cs else some (c :: cs)

/-- The text behind a block comment that is open, and behind the layout that follows. -/
def dropBlock : List Char → Option (List Char)
  | [] => none
  | '*' :: '/' :: cs => dropLayout cs
  | _ :: cs => dropBlock cs

/-- The text behind a line comment that is open, and behind the layout that follows. -/
def dropLine : List Char → Option (List Char)
  | [] => some []
  | c :: cs => if c = '\n' ∨ c = '\r' then dropLayout cs else dropLine cs

end

/-- Where no comment begins, layout goes on if a blank stands there, and ends if none does. -/
theorem dropLayout_cons {c : Char} {cs : List Char} (hblock : ∀ tail, c = '/' → cs ≠ '*' :: tail)
    (hline : ∀ tail, c = '/' → cs ≠ '/' :: tail) (hhash : c ≠ '#') :
    dropLayout (c :: cs) = if Text.isBlank c then dropLayout cs else some (c :: cs) := by
  rw [dropLayout] <;> assumption

/-- A character that does not begin the closing sign belongs to the block comment. -/
theorem dropBlock_cons {c : Char} {cs : List Char} (hclose : ∀ tail, c = '*' → cs ≠ '/' :: tail) :
    dropBlock (c :: cs) = dropBlock cs := by
  rw [dropBlock]
  assumption

/-- The content of a quoted string and what follows it, given the text behind the opening quote. -/
def takeQuoted : List Char → Option (List Char × List Char)
  | [] => none
  | '"' :: cs => some ([], cs)
  | '\\' :: '\\' :: cs => (takeQuoted cs).map fun (content, rest) => ('\\' :: '\\' :: content, rest)
  | '\\' :: '"' :: cs => (takeQuoted cs).map fun (content, rest) => ('\\' :: '"' :: content, rest)
  | c :: cs => (takeQuoted cs).map fun (content, rest) => (c :: content, rest)

/-- A character that neither ends a quoted string nor begins a pair in it stands for itself. -/
theorem takeQuoted_cons {c : Char} {cs : List Char} (hquote : c ≠ '"')
    (hslash : ∀ tail, c = '\\' → cs ≠ '\\' :: tail) (hescape : ∀ tail, c = '\\' → cs ≠ '"' :: tail) :
    takeQuoted (c :: cs) = (takeQuoted cs).map fun (content, rest) => (c :: content, rest) := by
  rw [takeQuoted] <;> assumption

/-- The content of an HTML string and what follows it, given the text behind the opening bracket and how
many brackets within the content are open. -/
def takeHtml : Nat → List Char → Option (List Char × List Char)
  | _, [] => none
  | 0, '>' :: cs => some ([], cs)
  | depth + 1, '>' :: cs => (takeHtml depth cs).map fun (content, rest) => ('>' :: content, rest)
  | depth, '<' :: cs => (takeHtml (depth + 1) cs).map fun (content, rest) => ('<' :: content, rest)
  | depth, c :: cs => (takeHtml depth cs).map fun (content, rest) => (c :: content, rest)

/-- A character that is no bracket changes nothing about how many are open. -/
theorem takeHtml_cons {c : Char} (hc : c ≠ '<' ∧ c ≠ '>') (depth : Nat) (cs : List Char) :
    takeHtml depth (c :: cs) = (takeHtml depth cs).map fun (content, rest) => (c :: content, rest) := by
  rw [takeHtml] <;> simp_all

/-- The digits at the start of a text, and what follows them. -/
def takeDigits (cs : List Char) : List Char × List Char :=
  (cs.takeWhile Char.isDigit, cs.dropWhile Char.isDigit)

/-- The longest numeral without a sign at the start of a text, and what follows it. -/
def takeUnsigned (cs : List Char) : Option (List Char × List Char) :=
  match takeDigits cs with
  | ([], '.' :: rest) =>
    match takeDigits rest with
    | ([], _) => none
    | (fraction, rest) => some ('.' :: fraction, rest)
  | ([], _) => none
  -- Behind digits a point needs no further ones.
  | (whole, '.' :: rest) =>
    let (fraction, rest) := takeDigits rest
    some (whole ++ '.' :: fraction, rest)
  | (whole, rest) => some (whole, rest)

/-- The longest numeral at the start of a text, and what follows it. -/
def takeNumeral : List Char → Option (List Char × List Char)
  | '-' :: cs => (takeUnsigned cs).map fun (digits, rest) => ('-' :: digits, rest)
  | cs => takeUnsigned cs

/-- A numeral that does not begin with a minus sign has no sign. -/
theorem takeNumeral_of_ne_minus {cs : List Char} (hminus : ∀ tail, cs ≠ '-' :: tail) :
    takeNumeral cs = takeUnsigned cs := by
  rw [takeNumeral]
  assumption

/-- The token at the start of a text, and what follows it. -/
def take? : List Char → Option (Token × List Char)
  | [] => none
  | '"' :: cs => (takeQuoted cs).map fun (content, rest) => (quoted content, rest)
  | '<' :: cs => (takeHtml 0 cs).map fun (content, rest) => (html content, rest)
  -- A minus sign begins an operator or a numeral.
  | '-' :: '>' :: cs => some (operator .digraph, cs)
  | '-' :: '-' :: cs => some (operator .graph, cs)
  | c :: cs =>
    if c ∈ marks then some (mark c, cs)
    else if Text.isWordStart c then
      some (word (c :: cs.takeWhile Text.isWordChar), cs.dropWhile Text.isWordChar)
    else (takeNumeral (c :: cs)).map fun (text, rest) => (numeral text, rest)

/-- Where neither a string nor an edge operator begins, there is a mark, a word or a numeral. -/
theorem take?_cons {c : Char} {cs : List Char} (hquote : c ≠ '"') (hopen : c ≠ '<')
    (harrow : ∀ tail, c = '-' → cs ≠ '>' :: tail) (hline : ∀ tail, c = '-' → cs ≠ '-' :: tail) :
    take? (c :: cs) =
      if c ∈ marks then some (mark c, cs)
      else if Text.isWordStart c then
        some (word (c :: cs.takeWhile Text.isWordChar), cs.dropWhile Text.isWordChar)
      else (takeNumeral (c :: cs)).map fun (text, rest) => (numeral text, rest) := by
  rw [take?] <;> assumption

/-- The tokens of a text, if there are no more than a bound. -/
def lexWithin : Nat → List Char → Option (List Token)
  | 0, _ => none
  | bound + 1, cs => do
    match ← dropLayout cs with
    | [] => return []
    | c :: cs =>
      let (token, rest) ← take? (c :: cs)
      let tokens ← lexWithin bound rest
      return token :: tokens

/-- The tokens of a text. Every token takes at least one character. -/
def lex (text : List Char) : Option (List Token) :=
  lexWithin (text.length + 1) text

end Token

end DotLang
