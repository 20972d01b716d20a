import DotLang.Proofs.Parse.Pointing
import DotLang.Proofs.ParseError.Hint

/-!
# The advice to close a quoted string

The advice is given for the line of an error, which is scanned for quotes from its start. It is right where
this scan sees what the grammar sees: no string, HTML string or comment reaches into the line, and none but
quoted strings begin on it (`endsQuoted_of_hint`). Elsewhere it can be wrong: the scan takes a quote in a
comment for one that opens a string (`exists_closed`).
-/

namespace DotLang

open Text Peg

namespace Hint

/-- Different advice is given in different words. -/
theorem text_injective : Function.Injective text := by
  intro hint hint' h
  cases hint <;> cases hint' <;> first | rfl | exact absurd h (by decide +kernel)

/-- Only a line calls for the advice to close a quoted string. -/
theorem ofLine_of_choose {rules : List Rule} {line : Option (List Char)}
    (h : choose rules line = some openQuote) : line.bind ofLine = some openQuote := by
  rw [choose] at h
  cases hline : line.bind ofLine with
  | some hint => rwa [hline] at h
  | none =>
    rw [hline] at h
    -- The rules tried lead to other advice only.
    have hrules : ofRules rules = some openQuote := h
    unfold ofRules at hrules
    split at hrules
    · cases hrules
    · split at hrules <;> cases hrules

end Hint

/-- The line of a report with this advice calls for it. -/
theorem Failure.ofLine_of_report {failure : Failure} {text : List Char}
    (h : (failure.report text).hint = some Hint.openQuote.text) :
    ∃ line, (lines text)[(failure.place.position text).line - 1]? = some line ∧
      Hint.ofLine line = some .openQuote := by
  obtain ⟨hint, hhint, htext⟩ := Option.map_eq_some_iff.1 h
  obtain rfl := Hint.text_injective htext
  -- Only what is expected comes with hints.
  cases hcause : failure.cause with
  | expected rules =>
    rw [hcause] at hhint
    exact Option.bind_eq_some_iff.1 (Hint.ofLine_of_choose hhint)
  | invalid message =>
    rw [hcause] at hhint
    cases hhint

/-- Where an error advises to close a quoted string, the text ends within one at the end of the error's line, if
no region reaches into the line and only quoted strings are found on it. -/
theorem endsQuoted_of_hint (text : String) (error : ParseError) (h : parse text = .error error)
    (hhint : error.hint = some Hint.openQuote.text) :
    ∃ above line below, text.toList = above ++ line ++ below ∧ EndsLine above ∧ '\n' ∉ line ∧ BeginsBelow below ∧
      error.line = above.count '\n' + 1 ∧ error.sourceLine = some (String.ofList line) ∧
      ((regionsFrom .outside above).2 = .outside → Hint.AreStrings (regions line) →
        endsQuoted (above ++ line) = true) := by
  obtain ⟨failure, -, rfl⟩ := exists_failure_of_parse h
  obtain ⟨line, hline, hadvice⟩ := Failure.ofLine_of_report hhint
  obtain ⟨above, left, right, below, htext, hfront, habove, hfeed, hbelow, hlines⟩ :=
    exists_line_at text.toList failure.place.start
  have hnumber : (failure.place.position text.toList).line = above.count '\n' + 1 := by
    rw [Place.position, Position.after_line, hfront, List.count_append,
      List.count_eq_zero_of_not_mem fun hleft => hfeed (List.mem_append_left right hleft)]
  -- The line the error shows is the one around the place where the report begins.
  have hsame : line = left ++ right := by
    rw [Place.position, Position.after_line, Nat.add_sub_cancel] at hline
    exact Option.some.inj (hline.symm.trans hlines)
  subst hsame
  refine ⟨above, left ++ right, below, by rw [htext, ← List.append_assoc], habove, hfeed, hbelow, hnumber,
    congrArg (Option.map String.ofList) hline, fun hnothing hstrings => ?_⟩
  -- Nothing is open where the line begins, so it is read as if it stood alone.
  rw [endsQuoted, decide_eq_true_iff, regionsFrom_append habove, hnothing]
  exact Hint.quoted_of_ofLine hadvice hstrings

/-- A line on which a string is opened and not closed. -/
def unclosed : List Char := ['g', 'r', 'a', 'p', 'h', '\x7b', 'a', '[', 'b', '=', '"', 'c']

/-- The advice is given for this line, and it is right. -/
theorem endsQuoted_of_hint_unclosed : ∃ error, parse (String.ofList unclosed) = .error error ∧
    error.hint = some Hint.openQuote.text ∧ endsQuoted unclosed = true := by
  have hparse := parse_ofList_of_rejected unclosed ⟨10, [.id]⟩ (by decide +kernel) (by decide +kernel)
  have hhint : ((Grammar.failure ⟨10, [.id]⟩).report unclosed).hint = some Hint.openQuote.text := by decide +kernel
  have hsource : ((Grammar.failure ⟨10, [.id]⟩).report unclosed).sourceLine = some (String.ofList unclosed) := by
    decide +kernel
  obtain ⟨above, line, below, htext, -, -, -, -, hline, hends⟩ := endsQuoted_of_hint _ _ hparse hhint
  -- The text is a single line.
  obtain rfl : unclosed = line := String.ofList_injective (Option.some.inj (hsource.symm.trans hline))
  have hlength := congrArg List.length htext
  simp only [String.toList_ofList, List.length_append] at hlength
  obtain rfl : above = [] := List.length_eq_zero_iff.1 (by omega)
  exact ⟨_, hparse, hhint, hends rfl (by decide)⟩

/-- A text in which an attribute lacks its value, and the comment behind it has a quote. -/
def inches : List Char :=
  ['g', 'r', 'a', 'p', 'h', ' ', '\x7b', '\n', ' ', ' ', 'a', ' ', '[', 'b', ']', ' ', '/', '/', ' ', '5', '"', ' ',
    'd', 'i', 's', 'k', '\n', '\x7d', '\n']

/-- The advice to close a quoted string is given for a text that has none. -/
theorem exists_closed : ∃ error, parse (String.ofList inches) = .error error ∧
    error.hint = some Hint.openQuote.text ∧ endsQuoted inches = false := by
  have hparse := parse_ofList_of_rejected inches ⟨13, [.attr]⟩ (by decide +kernel) (by decide +kernel)
  exact ⟨_, hparse, by decide +kernel, by decide⟩

end DotLang
