/-!
# Places in a text

Byte offsets into a text and the line and column they stand for. Offsets count the bytes of the
text's UTF-8 form; lines and columns count from one, and a column counts characters. Only a line
feed starts a new line: a carriage return is a character like any other.
-/

namespace DotLang.Text

/-- The number of bytes of the UTF-8 form of a text. -/
def byteLength : List Char → Nat
  | [] => 0
  | c :: cs => c.utf8Size + byteLength cs

@[simp] theorem byteLength_nil : byteLength [] = 0 := rfl

@[simp] theorem byteLength_cons (c : Char) (cs : List Char) :
    byteLength (c :: cs) = c.utf8Size + byteLength cs := rfl

/-- A text that is not empty has at least one byte. -/
theorem byteLength_pos {text : List Char} (h : text ≠ []) : 0 < byteLength text := by
  obtain ⟨c, cs, rfl⟩ := List.exists_cons_of_ne_nil h
  rw [byteLength_cons]
  exact Nat.add_pos_left c.utf8Size_pos _

/-- The bytes of two texts, one behind the other, add up. -/
@[simp] theorem byteLength_append (s t : List Char) :
    byteLength (s ++ t) = byteLength s + byteLength t := by
  induction s with
  | nil => simp
  | cons c s ih => simp [ih, Nat.add_assoc]

/-- The characters that lie wholly before a byte offset. -/
def before : List Char → Nat → List Char
  | [], _ => []
  | c :: cs, offset =>
    if c.utf8Size ≤ offset then c :: before cs (offset - c.utf8Size) else []

/-- Whether a byte offset lies in the text and between two of its characters. -/
def isBoundary (text : List Char) (offset : Nat) : Bool :=
  byteLength (before text offset) == offset

/-- A line and a column, both counted from one. -/
structure Position where
  /-- The line, counted from one. -/
  line : Nat
  /-- The column in characters, counted from one. -/
  col : Nat
deriving DecidableEq

namespace Position

/-- The start of every text. -/
def start : Position := ⟨1, 1⟩

/-- The position after one more character. -/
def step (p : Position) (c : Char) : Position :=
  if c = '\n' then ⟨p.line + 1, 1⟩ else ⟨p.line, p.col + 1⟩

/-- The position at which a text that has been read ends. -/
def after (read : List Char) : Position :=
  read.foldl step start

/-- The position at which a span ends, given the text up to its end. A span that ends at the start
of a line counts as ending behind the character before it. -/
def spanEnd (read : List Char) : Position :=
  let stop := after read
  if stop.col = 1 then
    let last := after read.dropLast
    ⟨last.line, last.col + 1⟩
  else stop

end Position

/-- The lines of a text, without the line feeds between them. -/
def lines : List Char → List (List Char)
  | [] => [[]]
  | c :: cs =>
    if c = '\n' then [] :: lines cs
    else match lines cs with
      | [] => [[c]]
      | line :: rest => (c :: line) :: rest

end DotLang.Text
