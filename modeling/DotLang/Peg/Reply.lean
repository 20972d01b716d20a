import DotLang.Text.Position

/-!
# Matches and replies

What comes of reading a text at a cursor: a match, if there is one, and the failures met on the way.
Matches follow one another by `Match.append`, and replies by `Reply.andThen`.
-/

namespace DotLang.Peg

/-!
## Cursors

A cursor is a place in a text that is being read: how many bytes lie before it and which characters
are left.
-/

/-- A place in a text that is being read. -/
structure Cursor where
  /-- The number of bytes before the cursor. -/
  offset : Nat
  /-- The characters that are left to read. -/
  rest : List Char
deriving DecidableEq

namespace Cursor

/-- The cursor before the first character of a text. -/
def start (text : List Char) : Cursor := ⟨0, text⟩

/-- The cursor behind the first character of what is left, if there is one. -/
def next : Cursor → Cursor
  | ⟨offset, []⟩ => ⟨offset, []⟩
  | ⟨offset, c :: cs⟩ => ⟨offset + c.utf8Size, cs⟩

end Cursor

/-!
## Parse trees

A parse tree says which rules matched which parts of a text. Its text is kept in every node, so a
tree can be read without the text it came from.
-/

/-- A rule, the offset at which it matched, the text it matched, and the rules it called. -/
inductive ParseTree (R : Type) where
  | node (rule : R) (start : Nat) (text : List Char) (children : List (ParseTree R))

namespace ParseTree

variable {R : Type}

/-- The rule that matched. -/
def rule : ParseTree R → R
  | node rule _ _ _ => rule

/-- The byte offset at which the rule matched. -/
def start : ParseTree R → Nat
  | node _ start _ _ => start

/-- The text that the rule matched. -/
def text : ParseTree R → List Char
  | node _ _ text _ => text

/-- The trees of the rules that the rule called, in the order of the text. -/
def children : ParseTree R → List (ParseTree R)
  | node _ _ _ children => children

/-- The byte offset behind the text that the rule matched. -/
def stop (tree : ParseTree R) : Nat :=
  tree.start + Text.byteLength tree.text

end ParseTree

/-!
## Furthest failures

While a text is read, many rules fail without harm, because another one fits. When the whole reading
fails, the rules that failed furthest into the text tell best what was missing. `Attempts` keeps just
those: an offset and the rules that failed there, in the order in which they were tried.
-/

/-- The furthest offset at which rules failed, and those rules in the order of their failures. -/
structure Attempts (R : Type) where
  /-- The byte offset at which the rules were tried. -/
  offset : Nat
  /-- The rules that failed there. -/
  rules : List R
deriving DecidableEq

namespace Attempts

variable {R : Type}

/-- Nothing has failed yet. -/
def none : Attempts R := ⟨0, []⟩

/-- The failures of a reading followed by those of a later one: the further ones are kept, and both
where they are equally far. -/
def merge (first second : Attempts R) : Attempts R :=
  if first.offset < second.offset then second
  else if second.offset < first.offset then first
  else ⟨first.offset, first.rules ++ second.rules⟩

/-- The failures of a rule that was tried at `offset`, given those met in its body. A failure further
on is kept, as is a single one at the very start; otherwise the rule itself takes their place. -/
def ofRule (rule : R) (offset : Nat) (inner : Attempts R) : Attempts R :=
  if offset < inner.offset then inner
  else if inner.offset = offset ∧ inner.rules.length = 1 then inner
  else ⟨offset, [rule]⟩

/-- The failures met in the body of a rule are kept where they are further on than its start or a
single one there; otherwise the rule itself is reported. -/
theorem ofRule_cases (rule : R) (offset : Nat) (inner : Attempts R) :
    (inner.ofRule rule offset = inner ∧
      (offset < inner.offset ∨ inner.offset = offset ∧ inner.rules.length = 1)) ∨
    inner.ofRule rule offset = ⟨offset, [rule]⟩ := by
  rw [ofRule]
  split
  next hfurther => exact .inl ⟨rfl, .inl hfurther⟩
  next =>
    split
    next hsingle => exact .inl ⟨rfl, .inr hsingle⟩
    next => exact .inr rfl

/-- Failures are unchanged where nothing failed before them. -/
@[simp] theorem none_merge (a : Attempts R) : none.merge a = a := by
  obtain ⟨offset, rules⟩ := a
  by_cases h : 0 < offset
  · simp [merge, none, h]
  · simp [merge, none, Nat.eq_zero_of_not_pos h]

/-- Failures are unchanged where nothing fails behind them. -/
@[simp] theorem merge_none (a : Attempts R) : a.merge none = a := by
  obtain ⟨offset, rules⟩ := a
  by_cases h : 0 < offset
  · simp [merge, none, h]
  · simp [merge, none, Nat.eq_zero_of_not_pos h]

end Attempts

/-! ## Matches and replies -/

/-- A part of a text that was read. -/
structure Match (R : Type) where
  /-- The text that was read. -/
  text : List Char
  /-- The trees of the rules that matched in it. -/
  trees : List (ParseTree R)
  /-- The cursor behind the text. -/
  next : Cursor

namespace Match

variable {R : Type}

/-- Nothing is read. -/
def empty (cursor : Cursor) : Match R := ⟨[], [], cursor⟩

/-- One match followed by another that starts where the first one ends. -/
def append (first second : Match R) : Match R :=
  ⟨first.text ++ second.text, first.trees ++ second.trees, second.next⟩

end Match

/-- The result of reading at a cursor. -/
structure Reply (R : Type) where
  /-- What was read, if the reading succeeded. -/
  found : Option (Match R)
  /-- The furthest failures met, whether or not the reading succeeded. -/
  attempts : Attempts R

namespace Reply

variable {R : Type}

/-- A reading that succeeds and meets no failure. -/
def ok (found : Match R) : Reply R := ⟨some found, .none⟩

/-- A reading that fails and leaves no trace. -/
def fail : Reply R := ⟨none, .none⟩

/-- Reads on after a success. -/
def andThen (reply : Reply R) (later : Match R → Reply R) : Reply R :=
  match reply.found with
  | none => reply
  | some first =>
    let second := later first
    ⟨second.found.map first.append, reply.attempts.merge second.attempts⟩

/-- Reads anew after a failure. -/
def orElse (reply : Reply R) (other : Unit → Reply R) : Reply R :=
  match reply.found with
  | some _ => reply
  | none =>
    let second := other ()
    ⟨second.found, reply.attempts.merge second.attempts⟩

/-- Reads nothing instead of failing. -/
def orEmpty (cursor : Cursor) (reply : Reply R) : Reply R :=
  ⟨some (reply.found.getD (.empty cursor)), reply.attempts⟩

end Reply

end DotLang.Peg
