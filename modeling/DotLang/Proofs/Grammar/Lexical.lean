import DotLang.Proofs.Grammar.Find
import DotLang.Text.Lexeme

/-!
# Pieces of text

Outside spaced mode most expressions find a piece of the text and no trees. The lemmas here say which
piece: that of a mark, of a character class, of a repetition of either.
-/

namespace DotLang.Grammar

open Peg

/-- The match of a piece of text in which no rule is recorded. -/
def piece (offset : Nat) (text rest : List Char) : Match Rule :=
  ⟨text, [], ⟨offset + Text.byteLength text, rest⟩⟩

@[simp] theorem piece_text (offset : Nat) (text rest : List Char) :
    (piece offset text rest).text = text := rfl

@[simp] theorem piece_trees (offset : Nat) (text rest : List Char) :
    (piece offset text rest).trees = [] := rfl

@[simp] theorem piece_next (offset : Nat) (text rest : List Char) :
    (piece offset text rest).next = ⟨offset + Text.byteLength text, rest⟩ := rfl

@[simp] theorem piece_nil (offset : Nat) (rest : List Char) :
    piece offset [] rest = .empty ⟨offset, rest⟩ := rfl

@[simp] theorem piece_append (offset : Nat) (text text' rest rest' : List Char) :
    (piece offset text rest).append (piece (offset + Text.byteLength text) text' rest') =
      piece offset (text ++ text') rest' := by
  simp [piece, Match.append, Nat.add_assoc]

@[simp] theorem piece_cons_append (offset : Nat) (c : Char) (text rest rest' : List Char) :
    (piece offset [c] rest).append (piece (offset + c.utf8Size) text rest') =
      piece offset (c :: text) rest' :=
  piece_append offset [c] text rest rest'

@[simp] theorem piece_append_empty (offset : Nat) (text rest : List Char) :
    (piece offset text rest).append (.empty ⟨offset + Text.byteLength text, rest⟩) =
      piece offset text rest :=
  Match.append_empty _

variable {mode : Mode} {offset : Nat}

/-! ## Literals and classes -/

/-- Text is matched up to what a key tells apart. -/
theorem matchText_eq_some_iff {key : Char → Char} {text cs : List Char} {found : Match Rule} :
    matchText (fun c d => key c == key d) text ⟨offset, cs⟩ = some found ↔
      ∃ read rest, cs = read ++ rest ∧ read.map key = text.map key ∧ found = piece offset read rest := by
  induction text generalizing offset cs found with
  | nil =>
    constructor
    · rintro ⟨⟩
      exact ⟨[], cs, rfl, rfl, rfl⟩
    · rintro ⟨read, rest, rfl, hread, rfl⟩
      obtain rfl := List.map_eq_nil_iff.1 hread
      rfl
  | cons c text ih =>
    rcases cs with _ | ⟨d, ds⟩
    · simp [matchText]
    rw [matchText]
    -- The first character decides whether the rest of the text is looked at.
    by_cases hcd : key c = key d
    · rw [if_pos (beq_iff_eq.2 hcd)]
      simp only [Option.map_eq_some_iff, Cursor.next, ih]
      constructor
      · rintro ⟨_, ⟨read, rest, rfl, hread, rfl⟩, rfl⟩
        exact ⟨d :: read, rest, rfl, by simp [hread, hcd], by simp [piece, Nat.add_assoc]⟩
      · rintro ⟨read, rest, h, hread, rfl⟩
        obtain ⟨e, read, rfl, -, htail⟩ := List.map_eq_cons_iff.1 hread
        obtain ⟨rfl, rfl⟩ := List.cons.inj h
        exact ⟨_, ⟨read, rest, rfl, htail, rfl⟩, by simp [piece, Nat.add_assoc]⟩
    · rw [if_neg (by simpa using hcd)]
      simp only [reduceCtorEq, false_iff]
      rintro ⟨read, rest, h, hread, -⟩
      obtain ⟨e, read, rfl, he, -⟩ := List.map_eq_cons_iff.1 hread
      obtain ⟨rfl, -⟩ := List.cons.inj h
      exact hcd he.symm

/-- A literal text is found exactly where it stands. -/
theorem find_literal_eq_some_iff {text cs : List Char} {found : Match Rule} :
    find (.literal text) mode ⟨offset, cs⟩ = some found ↔
      ∃ rest, cs = text ++ rest ∧ found = piece offset text rest := by
  refine (@matchText_eq_some_iff offset id text cs found).trans ?_
  simp only [List.map_id_fun, id_eq]
  constructor
  · rintro ⟨_, rest, rfl, rfl, rfl⟩
    exact ⟨rest, rfl, rfl⟩
  · rintro ⟨rest, rfl, rfl⟩
    exact ⟨text, rest, rfl, rfl, rfl⟩

/-- A literal text is found in front of anything. -/
theorem find_literal_append (text rest : List Char) :
    find (.literal text) mode ⟨offset, text ++ rest⟩ = some (piece offset text rest) :=
  find_literal_eq_some_iff.2 ⟨rest, rfl, rfl⟩

/-- A literal text is not found where it does not stand. -/
theorem find_literal_eq_none {text cs : List Char} (h : ∀ rest, cs ≠ text ++ rest) :
    find (.literal text) mode ⟨offset, cs⟩ = none := by
  rw [Option.eq_none_iff_forall_ne_some]
  intro found hfound
  obtain ⟨rest, heq, _⟩ := find_literal_eq_some_iff.1 hfound
  exact h rest heq

/-- A literal and what follows it. -/
theorem find_literal_seq (hmode : mode ≠ .spaced) {text cs : List Char} {e : Expr Rule}
    {found : Match Rule} :
    find (.seq (.literal text) e) mode ⟨offset, cs⟩ = some found ↔
      ∃ rest later, cs = text ++ rest ∧
        find e mode ⟨offset + Text.byteLength text, rest⟩ = some later ∧
        found = (piece offset text rest).append later := by
  rw [find_seq_tight hmode, Option.bind_eq_some_iff]
  constructor
  · rintro ⟨first, hfirst, hmap⟩
    obtain ⟨rest, rfl, rfl⟩ := find_literal_eq_some_iff.1 hfirst
    obtain ⟨later, hlater, rfl⟩ := Option.map_eq_some_iff.1 hmap
    exact ⟨rest, later, rfl, hlater, rfl⟩
  · rintro ⟨rest, later, rfl, hlater, rfl⟩
    exact ⟨_, find_literal_append text rest, Option.map_eq_some_iff.2 ⟨later, hlater, rfl⟩⟩

/-- A mark is found if it is the next character. -/
theorem find_mark_cons (c d : Char) (cs : List Char) :
    find (mark c) mode ⟨offset, d :: cs⟩ = if d = c then some (piece offset [c] cs) else none := by
  by_cases h : d = c
  · subst h
    rw [if_pos rfl]
    exact find_literal_append [d] cs
  · rw [if_neg h]
    exact find_literal_eq_none fun rest heq => h (List.cons.inj heq).1

/-- No mark is found at the end of the text. -/
theorem find_mark_nil (c : Char) : find (mark c) mode ⟨offset, []⟩ = none :=
  find_literal_eq_none fun rest => by simp

/-- What a literal finds in any mixture of upper and lower case. -/
theorem find_caseless_eq_some_iff {text cs : List Char} {found : Match Rule} :
    find (.caseless text) mode ⟨offset, cs⟩ = some found ↔
      ∃ read rest, cs = read ++ rest ∧ Text.sameWord read text = true ∧
        found = piece offset read rest := by
  rw [find_caseless, matchText_eq_some_iff]
  simp only [Text.sameWord, beq_iff_eq]

/-- A character of a class is found if it is the next one. -/
theorem find_class_cons (accepts : Char → Bool) (c : Char) (cs : List Char) :
    find (.char accepts) mode ⟨offset, c :: cs⟩ =
      if accepts c then some (piece offset [c] cs) else none := by
  rw [find_char_cons]
  rfl

/-! ## Repetitions -/

/-- A repetition of one character of a class reads the longest piece of such characters. -/
theorem find_star_class (hmode : mode ≠ .spaced) {e : Expr Rule} {accepts : Char → Bool}
    (he : e.mayBeEmpty Rule.mayBeEmpty = false)
    (hclass : ∀ cursor, find e mode cursor = find (.char accepts) mode cursor) (cs : List Char) :
    find (.star e) mode ⟨offset, cs⟩ =
      some (piece offset (cs.takeWhile accepts) (cs.dropWhile accepts)) := by
  induction cs generalizing offset with
  | nil =>
    rw [find_star_tight hmode he, hclass, find_char_nil]
    rfl
  | cons c cs ih =>
    -- Without layout between rounds, each round takes the next character or ends the run.
    rw [find_star_tight hmode he, hclass, find_class_cons]
    by_cases hc : accepts c
    · simp only [hc, if_true, piece_next, ih, Option.map_some, piece_append]
      simp [hc]
    · simp [hc]

/-- A character of which another expression is not the beginning. -/
theorem find_not_anyChar (hmode : mode ≠ .spaced) {stop : Expr Rule} {stops : Char → Bool}
    (hnil : ∀ offset, find stop mode ⟨offset, []⟩ = none)
    (hcons : ∀ offset c cs, (find stop mode ⟨offset, c :: cs⟩).isSome = stops c) (cursor : Cursor) :
    find (.seq (.not stop) anyChar) mode cursor = find (.char fun c => !stops c) mode cursor := by
  obtain ⟨offset, cs⟩ := cursor
  rw [find_seq_tight hmode, find_not]
  -- At the end there is no character to take; otherwise the stop decides about it.
  rcases cs with _ | ⟨c, cs⟩
  · rw [hnil]
    rfl
  · have hc := hcons offset c cs
    rw [find_class_cons]
    rcases hs : find stop mode ⟨offset, c :: cs⟩ with _ | found <;> rw [hs] at hc
    · simp [← hc, anyChar, find_class_cons]
    · simp [← hc]

end DotLang.Grammar
