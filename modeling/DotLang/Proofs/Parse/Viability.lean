import DotLang.Proofs.Document.Readable
import DotLang.Proofs.Grammar.Trace
import DotLang.Proofs.Parse.Layout
import DotLang.Proofs.Parse.Failure

/-!
# Errors are not reported too late

Where the grammar rejects a text, what stands in front of the place that the error names is not at fault: with
something else behind it, it is a text that the grammar accepts (`completes_before_error`). This is so although
the furthest failure may have been met on a path that the grammar has given up. The tokens in front of it are
the start of a derivation on that path (`Grammar.traced_of_rejected`), and what is derived is accepted, whichever
path leads there (`Grammar.exists_accepts_of_spells`).
-/

namespace DotLang

open Peg Token

/-- What stands in front of the furthest failure in a text can be completed to a text that is accepted. -/
theorem Grammar.exists_completion {text : List Char} (h : (grammar.parse .document text).found = none) :
    ∃ front behind, text = front ++ behind ∧
      (grammar.parse .document text).attempts.offset = Text.byteLength front ∧
      ∃ more tree, Accepts (front ++ more) tree := by
  obtain ⟨place, tokens, hoffset, hpasses, trees, more, hspells, hvalid⟩ := traced_of_rejected readable_closed h
  obtain ⟨front, htext, hfront⟩ := hpasses.between.composed
  have hplace : place.offset = Text.byteLength front := by
    have hstop := hpasses.stop_eq
    rw [htext, Text.byteLength_append] at hstop
    have hstart : (Cursor.start text).offset = 0 := rfl
    omega
  -- A line feed ends what may still be open, be it a comment or a word.
  obtain ⟨completion, hcompletion, -⟩ := exists_laidOut hvalid
  have hlex : lex (front ++ '\n' :: completion) = some (tokens ++ more) :=
    lex_eq_some_iff.2 (hfront.append_lineFeed hcompletion.composed)
  obtain ⟨tree, htree⟩ := exists_accepts_of_spells hlex hspells
  exact ⟨front, place.rest, htext, hoffset.trans hplace, _, tree, htree⟩

/-- Where the grammar rejects a text, the error has the line and column of the furthest failure, and there is a
text that the grammar accepts and that begins with all that stands in front of this place. -/
theorem completes_before_error (text : String) (h : (grammar.parse .document text.toList).found = none) :
    ∃ error front behind, parse text = .error error ∧ text.toList = front ++ behind ∧
      (grammar.parse .document text.toList).attempts.offset = Text.byteLength front ∧
      error.line = front.count '\n' + 1 ∧ error.col = (Text.lastLine front).length + 1 ∧
      ∃ more found, (grammar.parse .document (front ++ more)).found = some found := by
  have hparse := parse_of_rejected h
  obtain ⟨front, behind, htext, hoffset, more, tree, found, hfound, -⟩ := Grammar.exists_completion h
  generalize (grammar.parse .document text.toList).attempts = attempts at hparse hoffset ⊢
  -- The report begins where the furthest attempt was made.
  have hposition : (Grammar.failure attempts).place.position text.toList =
      ⟨front.count '\n' + 1, (Text.lastLine front).length + 1⟩ := by
    rw [Place.position, Grammar.failure, Place.start, hoffset, htext, Text.before_append, Text.Position.after_eq]
  exact ⟨_, front, behind, hparse, htext, hoffset, congrArg Text.Position.line hposition,
    congrArg Text.Position.col hposition, more, found, hfound⟩

/-- A text in which an equality sign stands behind a node with a port; it could stand behind a name only. -/
def assigned : List Char := ['g', 'r', 'a', 'p', 'h', '\x7b', 'a', ':', 'b', '=']

/-- The error is at the equality sign, and what stands in front of it can be completed. -/
theorem completes_before_error_assigned : ∃ error more found,
    parse (String.ofList assigned) = .error error ∧ error.line = 1 ∧ error.col = 10 ∧
      (grammar.parse .document (['g', 'r', 'a', 'p', 'h', '\x7b', 'a', ':', 'b'] ++ more)).found = some found := by
  have hrejected : (grammar.parse .document (String.ofList assigned).toList).found = none := by
    rw [String.toList_ofList]
    exact Option.isNone_iff_eq_none.1 (by decide +kernel)
  obtain ⟨error, hreport, hline, hcol⟩ : ∃ error, parse (String.ofList assigned) = .error error ∧
      error.line = 1 ∧ error.col = 10 :=
    ⟨_, parse_ofList_of_rejected assigned
      ⟨9, [.edgeOp, .attrList, .attrTarget, .edgeStmt, .id, .id, .subgraphKeyword]⟩ (by decide +kernel)
      (by decide +kernel), by decide +kernel, by decide +kernel⟩
  obtain ⟨_, front, behind, hparse, htext, -, -, hfront, more, found, hfound⟩ := completes_before_error _ hrejected
  obtain rfl := Except.error.inj (hreport.symm.trans hparse)
  -- The text is a single line, so the column tells how much of it is in front.
  rw [String.toList_ofList] at htext
  have hfeed : '\n' ∉ front := fun hmem => absurd (htext ▸ List.mem_append_left behind hmem) (by decide)
  have hlast : Text.lastLine front = front := Text.lastLine_append (.inl rfl) hfeed
  rw [hcol, hlast] at hfront
  have htake : assigned.take 9 = front := by rw [htext, List.take_left' (by omega)]
  obtain rfl : ['g', 'r', 'a', 'p', 'h', '\x7b', 'a', ':', 'b'] = front := htake
  exact ⟨error, more, found, hparse, hline, hcol, hfound⟩

end DotLang
