import DotLang.Proofs.Grammar.Terminal
import DotLang.Proofs.Text.Ending

/-!
# Where strings end

A quoted string ends at the first quote before which the backslashes are even in number, and an HTML string
as soon as as many brackets have been closed as were opened (`strings_read_shortest`). Both are the shortest
texts of their kind that begin there, so nothing else that is written within a string bears on where it ends.
-/

namespace DotLang

open Peg Token

namespace Text

/-- A text between quotes, of which the last one ends the string. -/
def IsQuotedText (text : List Char) : Prop :=
  ∃ content, text = '"' :: (content ++ ['"']) ∧ ClosedByQuote content

/-- A text that closes as many brackets as it opens. -/
def IsBracketed (text : List Char) : Prop :=
  text ≠ [] ∧ text.count '<' = text.count '>'

end Text

namespace Grammar

/-- What a rule reads at a cursor is the shortest start of the text there that has some property. It reads
nothing just if no start of the text has it. -/
def ReadsShortest (rule : Rule) (P : List Char → Prop) (mode : Mode) (cursor : Cursor) : Prop :=
  ((grammar.phrase rule mode cursor).found ≠ none ↔ ∃ start, start <+: cursor.rest ∧ P start) ∧
    ∀ found, (grammar.phrase rule mode cursor).found = some found →
      found.StartsAt cursor ∧ P found.text ∧
        ∀ start, start <+: cursor.rest → P start → found.text <+: start

section

variable {rule : Rule} {mode : Mode} {offset : Nat} {cs : List Char}

/-- A rule for strings finds the same token in every mode. -/
theorem phrase_string (hkind : (production rule).kind = .tight) (hfinds : FindsToken rule)
    {found : Match Rule} : (grammar.phrase rule mode ⟨offset, cs⟩).found = some found ↔
      ∃ token rest, take? cs = some (token, rest) ∧ rule.accepts token = true ∧
        found = terminalMatch rule offset token rest := by
  have hmode : (grammar.phrase rule mode ⟨offset, cs⟩).found = find (.call rule) .spaced ⟨offset, cs⟩ := by
    rw [find_tight hkind, ← find_tight hkind]
    rfl
  rw [hmode]
  exact hfinds offset cs found

/-- The token that the lexer takes is the shortest start with a property, if the token has it and every start
with the property begins with the token. -/
theorem readsShortest_of_take? {P : List Char → Prop} (hkind : (production rule).kind = .tight)
    (hfinds : FindsToken rule) (htaken : ∀ token rest, take? cs = some (token, rest) → P token.text)
    (htakes : ∀ start, start <+: cs → P start →
      ∃ token rest, take? cs = some (token, rest) ∧ rule.accepts token = true ∧ token.text <+: start) :
    ReadsShortest rule P mode ⟨offset, cs⟩ := by
  -- The lexer takes the same text from every beginning that qualifies, so what is read is the shortest.
  have hread : ∀ found, (grammar.phrase rule mode ⟨offset, cs⟩).found = some found →
      found.StartsAt ⟨offset, cs⟩ ∧ P found.text ∧ ∀ start, start <+: cs → P start → found.text <+: start := by
    intro found hfound
    obtain ⟨token, rest, htake, -, rfl⟩ := (phrase_string hkind hfinds).1 hfound
    refine ⟨grammar.phrase_consumes rule mode _ _ hfound, htaken token rest htake,
      fun start hstart hP => ?_⟩
    obtain ⟨token', rest', htake', -, hle⟩ := htakes start hstart hP
    obtain ⟨rfl, rfl⟩ : token = token' ∧ rest = rest' := by simpa [htake] using htake'
    exact hle
  refine ⟨⟨fun hne => ?_, fun ⟨start, hstart, hP⟩ => ?_⟩, hread⟩
  · obtain ⟨found, hfound⟩ := Option.ne_none_iff_exists'.1 hne
    obtain ⟨hstarts, hP, -⟩ := hread found hfound
    exact ⟨found.text, ⟨found.next.rest, hstarts.1.symm⟩, hP⟩
  · obtain ⟨token, rest, htake, haccepts, -⟩ := htakes start hstart hP
    rw [(phrase_string hkind hfinds).2 ⟨token, rest, htake, haccepts, rfl⟩]
    exact Option.some_ne_none _

/-- A quoted string ends at the first quote that can end it. -/
theorem readsShortest_quotedString (offset : Nat) (cs : List Char) :
    ReadsShortest .quotedString Text.IsQuotedText mode ⟨offset, '"' :: cs⟩ := by
  refine readsShortest_of_take? rfl findsToken_quotedString (fun token rest htake => ?_) ?_
  · rw [take?, Option.map_eq_some_iff] at htake
    obtain ⟨⟨content, rest⟩, htake, heq⟩ := htake
    obtain ⟨rfl, rfl⟩ := Prod.mk.inj heq
    obtain ⟨value, hvalue, rfl⟩ := Text.Quoted.paired_of_takeQuoted htake
    exact ⟨_, rfl, (Text.stepwise_escape hvalue).closedByQuote⟩
  -- Any closed beginning is enough for the lexer to find a closing quote, there or before.
  · rintro start hstart ⟨content, rfl, hclosed⟩
    obtain ⟨behind, hbehind⟩ := (List.cons_prefix_cons.1 hstart).2
    obtain ⟨read, left, htake, hread⟩ := Text.takeQuoted_of_stepwise hclosed.stepwise behind
    refine ⟨.quoted read, left, ?_, rfl, List.cons_prefix_cons.2 ⟨rfl, hread⟩⟩
    rw [take?, ← hbehind, List.append_assoc, List.singleton_append, htake]
    rfl

/-- An HTML string ends at the first bracket that can end it. -/
theorem readsShortest_htmlString (offset : Nat) (cs : List Char) :
    ReadsShortest .htmlString Text.IsBracketed mode ⟨offset, '<' :: cs⟩ := by
  refine readsShortest_of_take? rfl findsToken_htmlString (fun token rest htake => ?_) ?_
  · rw [take?, Option.map_eq_some_iff] at htake
    obtain ⟨⟨content, rest⟩, htake, heq⟩ := htake
    obtain ⟨rfl, rfl⟩ := Prod.mk.inj heq
    have hcount := (Text.balancedFrom_of_takeHtml htake).2
    exact ⟨List.cons_ne_nil _ _, by simpa [Token.text] using hcount⟩
  · rintro start hstart ⟨hne, hcount⟩
    -- The first bracket is open before the content, so the content closes one more than it opens.
    obtain ⟨content, rfl, hcontent⟩ := (List.prefix_cons_iff.1 hstart).resolve_left hne
    obtain ⟨read, left, htake, hread⟩ := Text.takeHtml_of_count 0 hcontent (by simpa using hcount)
    refine ⟨.html read, left, ?_, rfl, List.cons_prefix_cons.2 ⟨rfl, hread⟩⟩
    rw [take?, htake]
    rfl

end

/-- A quoted string is the shortest text between its first quote and a quote behind an even number of
backslashes, and an HTML string the shortest text from its first bracket on that closes as many brackets as it
opens, wherever the two begin. -/
theorem strings_read_shortest (mode : Mode) (offset : Nat) (cs : List Char) :
    ReadsShortest .quotedString Text.IsQuotedText mode ⟨offset, '"' :: cs⟩ ∧
      ReadsShortest .htmlString Text.IsBracketed mode ⟨offset, '<' :: cs⟩ :=
  ⟨readsShortest_quotedString offset cs, readsShortest_htmlString offset cs⟩

end Grammar

end DotLang
