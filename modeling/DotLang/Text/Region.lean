/-!
# Regions of a text

Quoted strings, HTML strings and comments are regions of a text: they can be found by reading it once
from left to right, without knowing what else it says. A region begins at the first sign of it outside
any earlier region. A quoted string ends at its first unescaped quote, an HTML string at the bracket that
matches its first one, and a comment at its closing sign or at the end of its line.
-/

namespace DotLang.Text

/-- What a character of a text belongs to. -/
inductive Region where
  /-- No region. -/
  | outside
  /-- A quoted string. -/
  | quoted
  /-- An HTML string. -/
  | html
  /-- A comment. -/
  | comment
deriving DecidableEq

/-- Where a reading from left to right stands. -/
inductive RegionState where
  /-- Outside any region. -/
  | outside
  /-- In a quoted string. -/
  | quoted
  /-- In an HTML string, with so many brackets open besides the first one. -/
  | html (depth : Nat)
  /-- In a comment that has to be closed. -/
  | block
  /-- In a comment that ends with its line. -/
  | line
deriving DecidableEq

/-- The regions of the characters of a text, and where the reading stands at its end. -/
def regionsFrom : RegionState → List Char → List Region × RegionState
  | state, [] => ([], state)
  | .outside, '/' :: '*' :: cs => note [.comment, .comment] (regionsFrom .block cs)
  | .outside, '/' :: '/' :: cs => note [.comment, .comment] (regionsFrom .line cs)
  | .outside, '#' :: cs => note [.comment] (regionsFrom .line cs)
  | .outside, '"' :: cs => note [.quoted] (regionsFrom .quoted cs)
  | .outside, '<' :: cs => note [.html] (regionsFrom (.html 0) cs)
  | .outside, _ :: cs => note [.outside] (regionsFrom .outside cs)
  | .quoted, '"' :: cs => note [.quoted] (regionsFrom .outside cs)
  -- A pair is read at once, so the second character is no quote that closes.
  | .quoted, '\\' :: '\\' :: cs => note [.quoted, .quoted] (regionsFrom .quoted cs)
  | .quoted, '\\' :: '"' :: cs => note [.quoted, .quoted] (regionsFrom .quoted cs)
  | .quoted, _ :: cs => note [.quoted] (regionsFrom .quoted cs)
  | .html 0, '>' :: cs => note [.html] (regionsFrom .outside cs)
  | .html (depth + 1), '>' :: cs => note [.html] (regionsFrom (.html depth) cs)
  | .html depth, '<' :: cs => note [.html] (regionsFrom (.html (depth + 1)) cs)
  | .html depth, _ :: cs => note [.html] (regionsFrom (.html depth) cs)
  | .block, '*' :: '/' :: cs => note [.comment, .comment] (regionsFrom .outside cs)
  | .block, _ :: cs => note [.comment] (regionsFrom .block cs)
  -- The character that ends a line comment is not part of it.
  | .line, c :: cs =>
    if c = '\n' ∨ c = '\r' then note [.outside] (regionsFrom .outside cs)
    else note [.comment] (regionsFrom .line cs)
where
  /-- Puts regions before those of the rest. -/
  note (regions : List Region) (rest : List Region × RegionState) : List Region × RegionState :=
    (regions ++ rest.1, rest.2)

section

variable {c : Char} {cs : List Char}

/-- A character that begins no region is outside any. -/
theorem regionsFrom_outside_cons (hblock : ∀ tail, c = '/' → cs ≠ '*' :: tail)
    (hline : ∀ tail, c = '/' → cs ≠ '/' :: tail) (hhash : c ≠ '#') (hquote : c ≠ '"') (hopen : c ≠ '<') :
    regionsFrom .outside (c :: cs) = regionsFrom.note [.outside] (regionsFrom .outside cs) := by
  rw [regionsFrom] <;> assumption

/-- A character that neither ends a quoted string nor begins a pair in it is read alone. -/
theorem regionsFrom_quoted_cons (hquote : c ≠ '"') (hslash : ∀ tail, c = '\\' → cs ≠ '\\' :: tail)
    (hescape : ∀ tail, c = '\\' → cs ≠ '"' :: tail) :
    regionsFrom .quoted (c :: cs) = regionsFrom.note [.quoted] (regionsFrom .quoted cs) := by
  rw [regionsFrom] <;> assumption

/-- A character that is no bracket changes nothing about how many are open. -/
theorem regionsFrom_html_cons (hc : c ≠ '<' ∧ c ≠ '>') (depth : Nat) (cs : List Char) :
    regionsFrom (.html depth) (c :: cs) = regionsFrom.note [.html] (regionsFrom (.html depth) cs) := by
  rw [regionsFrom] <;> simp_all

/-- A bracket that opens is one more to be closed. -/
theorem regionsFrom_html_open (depth : Nat) (cs : List Char) :
    regionsFrom (.html depth) ('<' :: cs) =
      regionsFrom.note [.html] (regionsFrom (.html (depth + 1)) cs) := by
  rcases depth with _ | depth <;> rfl

/-- A character that does not begin the closing sign belongs to the comment. -/
theorem regionsFrom_block_cons (hclose : ∀ tail, c = '*' → cs ≠ '/' :: tail) :
    regionsFrom .block (c :: cs) = regionsFrom.note [.comment] (regionsFrom .block cs) := by
  rw [regionsFrom]
  assumption

/-- A comment that ends with its line goes on up to the end of the line, which does not belong to it. -/
theorem regionsFrom_line_cons (c : Char) (cs : List Char) :
    regionsFrom .line (c :: cs) =
      if c = '\n' ∨ c = '\r' then regionsFrom.note [.outside] (regionsFrom .outside cs)
      else regionsFrom.note [.comment] (regionsFrom .line cs) := by
  rw [regionsFrom]

end

/-- The regions of the characters of a text, one for each. -/
def regions (text : List Char) : List Region :=
  (regionsFrom .outside text).1

/-- Whether a text ends within a quoted string. -/
def endsQuoted (text : List Char) : Bool :=
  (regionsFrom .outside text).2 = .quoted

end DotLang.Text
