import DotLang.ParseError.Failure
import DotLang.Proofs.Grammar.Quoting
import Mathlib.Data.List.Induction

/-!
# Strings on a line

The advice to close a quoted string rests on a scan of one line, which starts outside any string. The scan finds the
strings that the grammar reads: behind a quote, it is where the string has ended, and it stays within the string if
the grammar finds no end (`openAfter_true`). So it tells lines on which all strings are closed from lines on which
one is left open.

## Main results

* `hasOpenQuote_iff`: a line leaves no string open if it is put together of strings and of characters other than
  quotes, and otherwise it has a quote behind such a text from which no string can be read.
-/

namespace DotLang.Hint

open Grammar Text Token

/-- Texts that are put together of characters other than quotes and of strings, each of which the grammar reads as
a whole. -/
inductive StringsClosed : List Char → Prop where
  /-- Nothing. -/
  | nil : StringsClosed []
  /-- A character other than a quote, and more behind it. -/
  | other {c : Char} {text : List Char} : c ≠ '"' → StringsClosed text → StringsClosed (c :: text)
  /-- A string, and more behind it. -/
  | string {string text : List Char} : ReadsAll .quotedString string → StringsClosed text →
      StringsClosed (string ++ text)

variable {cs front rest string : List Char}

/-! ## Strings of the grammar -/

/-- The grammar reads a string from a quote unless the lexer finds no end of it. -/
theorem found_quotedString_eq_none_iff :
    (grammar.parse .quotedString ('"' :: cs)).found = none ↔ takeQuoted cs = none := by
  rw [Option.eq_none_iff_forall_ne_some]
  -- The rule and the lexer take the same strings, so the one fails where the other does.
  constructor
  · intro h
    rw [Option.eq_none_iff_forall_ne_some]
    rintro ⟨content, rest⟩ htake
    refine h _ ((phrase_string rfl findsToken_quotedString).2 ⟨.quoted content, rest, ?_, rfl, rfl⟩)
    rw [take?, htake]
    rfl
  · intro h found hfound
    obtain ⟨token, rest, htake, -, -⟩ := (phrase_string rfl findsToken_quotedString).1 hfound
    rw [take?, h] at htake
    cases htake

/-- What the grammar reads as a whole is content between quotes. -/
theorem exists_content (h : ReadsAll .quotedString string) :
    ∃ content, string = '"' :: (content ++ ['"']) ∧
      ∀ rest, takeQuoted (content ++ '"' :: rest) = some (content, rest) := by
  obtain ⟨found, hfound, rfl⟩ := h
  obtain ⟨token, rest, htake, haccepts, rfl⟩ := (phrase_string rfl findsToken_quotedString).1 hfound
  obtain ⟨content, rfl⟩ := Rule.accepts_quotedString.1 haccepts
  obtain ⟨tail, -, htail⟩ := take?_eq_some_iff.1 htake
  obtain ⟨value, hvalue, rfl⟩ := Quoted.paired_of_takeQuoted htail
  exact ⟨Quoted.escape value, rfl, Quoted.takeQuoted_escape hvalue⟩

/-- A quoted string that the lexer takes is one that the grammar reads as a whole. -/
theorem readsAll_of_takeQuoted {content : List Char} (h : takeQuoted cs = some (content, rest)) :
    cs = content ++ '"' :: rest ∧ ReadsAll .quotedString ('"' :: (content ++ ['"'])) := by
  obtain ⟨value, hvalue, rfl⟩ := Quoted.paired_of_takeQuoted h
  refine ⟨?_, isContent_iff.2 ⟨value, hvalue, rfl⟩⟩
  have htake : take? ('"' :: cs) = some (.quoted (Quoted.escape value), rest) := by
    rw [take?, h]
    rfl
  simpa [Token.text] using (take?_spec htake).1

/-! ## The scan -/

/-- Within a string, the scan goes on behind the quote that ends the string, and stays within the string if there is
no such quote. -/
theorem openAfter_true (cs : List Char) :
    openAfter true cs = (takeQuoted cs).elim true fun taken => openAfter false taken.2 := by
  -- The scan takes two characters at once where a backslash is in front.
  induction cs using List.twoStepInduction with
  | nil => rfl
  | singleton c =>
    by_cases hquote : c = '"'
    · rw [hquote]
      rfl
    · -- A backslash at the end has nothing to take along.
      simp [openAfter, takeQuoted, hquote]
  | cons_cons c d cs ihskip ih =>
    by_cases hslash : c = '\\'
    · rw [hslash, takeQuoted_pair, openAfter, ihskip, Option.elim_map]
      rfl
    · by_cases hquote : c = '"'
      · rw [hquote]
        rfl
      · rw [openAfter_cons fun _ _ _ h => absurd h hslash, if_neg hquote,
          Quoted.takeQuoted_cons_of_ne hquote hslash, ih d, Option.elim_map]
        rfl

/-- Where all strings are closed, the scan is outside any string. -/
theorem StringsClosed.openAfter_append (h : StringsClosed front) (rest : List Char) :
    openAfter false (front ++ rest) = openAfter false rest := by
  induction h with
  | nil => rfl
  | @other c text hquote _ ih =>
    have hpass : openAfter false (c :: (text ++ rest)) = openAfter false (text ++ rest) := by
      rw [openAfter_cons fun _ _ h => absurd h (by decide), if_neg hquote]
    rw [List.cons_append, hpass, ih]
  | @string string text hstring _ ih =>
    obtain ⟨content, rfl, htake⟩ := exists_content hstring
    -- The quote opens the string, and its content is passed up to the quote at its end.
    have hopen : openAfter false ('"' :: (content ++ '"' :: (text ++ rest))) =
        openAfter true (content ++ '"' :: (text ++ rest)) := rfl
    simp only [List.cons_append, List.append_assoc, List.nil_append]
    rw [hopen, openAfter_true, htake, Option.elim_some]
    exact ih

/-- On a line, either all strings are closed or one is opened of which the grammar finds no end. -/
theorem stringsClosed_or_open (line : List Char) : StringsClosed line ∨
    ∃ front rest, line = front ++ '"' :: rest ∧ StringsClosed front ∧ takeQuoted rest = none := by
  -- By induction on the length of the line, since a string is passed at once.
  induction hn : line.length using Nat.strongRecOn generalizing line
  rename_i length ih
  subst hn
  rcases line with _ | ⟨c, line⟩
  · exact .inl .nil
  by_cases hquote : c = '"'
  · subst hquote
    cases htake : takeQuoted line with
    | none => exact .inr ⟨[], line, rfl, .nil, htake⟩
    | some taken =>
      obtain ⟨content, rest⟩ := taken
      obtain ⟨rfl, hstring⟩ := readsAll_of_takeQuoted htake
      have hline : '"' :: (content ++ '"' :: rest) = '"' :: (content ++ ['"']) ++ rest := by simp
      rw [hline]
      rcases ih rest.length (by simp; omega) rest rfl with hclosed | ⟨front, behind, rfl, hfront, hopen⟩
      · exact .inl (.string hstring hclosed)
      · exact .inr ⟨_, behind, (List.append_assoc ..).symm, .string hstring hfront, hopen⟩
  · rcases ih line.length (by simp) line rfl with hclosed | ⟨front, behind, rfl, hfront, hopen⟩
    · exact .inl (.other hquote hclosed)
    · exact .inr ⟨c :: front, behind, rfl, .other hquote hfront, hopen⟩

/-- Where all strings are closed, none is open. -/
theorem hasOpenQuote_of_closed (h : StringsClosed front) : hasOpenQuote front = false := by
  have hclosed := h.openAfter_append []
  rwa [List.append_nil] at hclosed

/-- A string that is never closed is open at the end of the line. -/
theorem hasOpenQuote_of_open (h : StringsClosed front) (hopen : takeQuoted rest = none) :
    hasOpenQuote (front ++ '"' :: rest) = true := by
  have hquote : openAfter false ('"' :: rest) = openAfter true rest := rfl
  rw [hasOpenQuote, h.openAfter_append, hquote, openAfter_true, hopen, Option.elim_none]

/-- The scan finds no open string just if a line is put together of strings that the grammar reads and of characters
other than quotes. It finds one just if there is, behind such a text, a quote from which the grammar reads no string. -/
theorem hasOpenQuote_iff (line : List Char) :
    (hasOpenQuote line = false ↔ StringsClosed line) ∧
    (hasOpenQuote line = true ↔ ∃ front rest, line = front ++ '"' :: rest ∧ StringsClosed front ∧
      (grammar.parse .quotedString ('"' :: rest)).found = none) := by
  simp only [found_quotedString_eq_none_iff]
  -- The scan tells the two kinds of lines apart, so each of its answers means one of them.
  rcases stringsClosed_or_open line with hclosed | ⟨front, rest, rfl, hfront, hopen⟩
  · have hfalse := hasOpenQuote_of_closed hclosed
    refine ⟨⟨fun _ => hclosed, fun _ => hfalse⟩, fun htrue => ?_, ?_⟩
    · rw [hfalse] at htrue
      cases htrue
    · rintro ⟨front, rest, rfl, hfront, hopen⟩
      exact hasOpenQuote_of_open hfront hopen
  · have htrue := hasOpenQuote_of_open hfront hopen
    refine ⟨⟨fun hfalse => ?_, hasOpenQuote_of_closed⟩, fun _ => ⟨front, rest, rfl, hfront, hopen⟩,
      fun _ => htrue⟩
    rw [htrue] at hfalse
    cases hfalse

end DotLang.Hint
