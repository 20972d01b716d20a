import DotLang.Proofs.Parse.Continued
import DotLang.Proofs.Parse.OpenQuote
import DotLang.Proofs.Text.Stranded

/-!
# The advice to join continued lines

A syntax error on a line that ends in a backslash advises to join continued lines, whether or not this has been
done. Behind preprocessing the advice is left to stranded backslashes, and given wherever the error is on the line
of one (`advised_iff_stranded`). It is wrong there, and in particular at the end of the text, where nothing is
continued (`exists_advised`).
-/

namespace DotLang

open Text Peg

namespace Hint

/-- A line that ends in a backslash has no carriage returns at its end. -/
theorem trimReturns_of_getLast? {line : List Char} (h : line.getLast? = some '\\') :
    ParseError.trimReturns line = line := by
  obtain ⟨cs, rfl⟩ := List.getLast?_eq_some_iff.1 h
  rw [ParseError.trimReturns, List.reverse_append, List.reverse_singleton, List.singleton_append,
    List.dropWhile_cons_of_neg (by decide), List.reverse_cons, List.reverse_reverse]

/-- The advice on continued lines is given for lines that end in a backslash, and for no others. -/
theorem ofLine_eq_continuation_iff {line : List Char} :
    ofLine line = some continuation ↔ line.getLast? = some '\\' := by
  constructor
  · intro h
    obtain ⟨returns, hline, hreturns⟩ := exists_returns line
    unfold ofLine at h
    dsimp only at h
    split at h
    · next hslash =>
      split at h
      · cases h
      · next hlast =>
        -- No carriage returns have been cut off, so this is the line's own backslash.
        rcases List.eq_nil_or_concat returns with rfl | ⟨returns, c, rfl⟩
        · rwa [hline, List.append_nil]
        · rw [hreturns c (by simp)] at hline
          exact absurd (by rw [hline]; simp) hlast
    · split at h <;> cases h
  · intro h
    rw [ofLine, trimReturns_of_getLast? h, if_pos h, if_neg (by simp [h])]

/-- Only a line calls for the advice to join continued lines. -/
theorem choose_eq_continuation_iff {rules : List Rule} {line : Option (List Char)} :
    choose rules line = some continuation ↔ ∃ cs, line = some cs ∧ cs.getLast? = some '\\' := by
  -- The rules tried never lead to this advice, so the line alone decides.
  have hrules : ofRules rules ≠ some continuation := by
    unfold ofRules
    split
    · simp
    · split <;> simp
  cases line with
  | none => simp [choose, hrules]
  | some cs =>
    simp only [choose, Option.bind_some, Option.some.injEq, exists_eq_left', ← ofLine_eq_continuation_iff]
    cases ofLine cs with
    | none => simp [hrules]
    | some hint => simp

end Hint

/-- The report that something else was expected advises to join lines if and only if it is on a line that ends in a
backslash. -/
theorem Failure.advised_iff {rules : List Rule} {offset : Nat} {text : List Char} {error : ParseError}
    (h : error = report ⟨.expected rules, .at offset⟩ text) :
    error.hint = some Hint.continuation.text ↔
      ∃ front below, text = front ++ '\\' :: below ∧ BeginsBelow below ∧ error.line = front.count '\n' + 1 := by
  have hnumber : error.line = (before text offset).count '\n' + 1 := by
    rw [h]
    exact Position.after_line _
  have hhint : error.hint = (Hint.choose rules (lines text)[error.line - 1]?).map Hint.text := by
    rw [h]
    rfl
  rw [hhint, Option.map_eq_some_iff]
  simp only [Hint.text_injective.eq_iff, exists_eq_right, Hint.choose_eq_continuation_iff]
  -- The line of the report is looked up by its number; conversely, the backslash is at the end of that line.
  constructor
  · rintro ⟨line, hline, hslash⟩
    obtain ⟨above, left, right, below, htext, hfront, -, hfeed, hbelow, hlines⟩ := exists_line_at text offset
    rw [hnumber, Nat.add_sub_cancel, hlines] at hline
    obtain ⟨cs, hcs⟩ := List.getLast?_eq_some_iff.1 (Option.some.inj hline ▸ hslash)
    refine ⟨above ++ cs, below, by rw [htext, hcs]; simp, hbelow, ?_⟩
    have hleft : left.count '\n' = 0 :=
      List.count_eq_zero_of_not_mem fun hleft => hfeed (List.mem_append_left right hleft)
    have hnone : cs.count '\n' = 0 :=
      List.count_eq_zero_of_not_mem fun hmem => hfeed (by rw [hcs]; exact List.mem_append_left _ hmem)
    rw [hnumber, hfront, List.count_append, List.count_append, hleft, hnone]
  · rintro ⟨front, below, rfl, hbelow, hline⟩
    obtain ⟨above, left, rfl, habove, hleft⟩ := exists_above front
    have hslash : '\n' ∉ left ++ ['\\'] := by simp [hleft]
    have hlines := lines_at habove hslash hbelow
    refine ⟨left ++ ['\\'], ?_, by simp⟩
    rw [hline, List.count_append, List.count_eq_zero_of_not_mem hleft, Nat.add_zero, Nat.add_sub_cancel, ← hlines]
    simp

/-- An error advises to join lines if and only if the grammar rejects the text and the error is on a line that ends
in a backslash. -/
theorem advised_iff {text : String} {error : ParseError} (h : parse text = .error error) :
    error.hint = some Hint.continuation.text ↔
      (∀ tree, ¬Grammar.Accepts text.toList tree) ∧
        ∃ front below, text.toList = front ++ '\\' :: below ∧ BeginsBelow below ∧
          error.line = front.count '\n' + 1 := by
  obtain ⟨hmisplaced, hrejected⟩ := parse_fails_iff text
  by_cases htree : ∃ tree, Grammar.Accepts text.toList tree
  -- Errors about operators have no hint.
  · obtain ⟨tree, htree⟩ := htree
    obtain ⟨kind, operator, -, -, -, -, -, -, -, -, -, -, -, rfl⟩ := (hmisplaced tree htree).2 error h
    exact iff_of_false nofun fun hrejected => hrejected.1 tree htree
  · have hnone := not_exists.1 htree
    rw [Failure.advised_iff (Except.error.inj (h.symm.trans (hrejected hnone)))]
    exact (and_iff_right hnone).symm

/-- Where a text is parsed behind preprocessing, by a preprocessed parser or on the shared slot once preprocessing
is installed there, an error advises to join continued lines if and only if the grammar rejects the joined text
and the error is on the line of a stranded backslash. -/
theorem advised_iff_stranded (text : String) (error : ParseError)
    (h : (Parser.preprocessed parse).parse text = .error error ∨
      ∃ (earlier : List Operation) (operation : Operation), (∃ request ∈ earlier, request.installs = true) ∧
        operation.Parses earlier text ∧
        (((Session.start sharedSlot).after earlier).step operation).1 = .parsed (.error error)) :
    error.hint = some Hint.continuation.text ↔
      (∀ tree, ¬Grammar.Accepts (Continuation.strip text.toList) tree) ∧
        ∃ front behind, text.toList = front ++ '\\' :: behind ∧ Continuation.Stranded behind ∧
          error.line = (Continuation.strip front).count '\n' + 1 := by
  -- Either way it is the joined text that is parsed.
  have hparse : parse (Continuation.join text) = .error error := by
    obtain hfails | ⟨earlier, operation, hinstalls, hparses, hanswer⟩ := h
    · rwa [Preprocessed.parse_apply] at hfails
    · rw [sharedSlot, Session.step_of_parses parse hinstalls hparses] at hanswer
      exact Answer.parsed.inj hanswer
  -- The backslash that ends a line of the joined text is one of the text, with markers only behind it.
  rw [advised_iff hparse, Continuation.toList_join]
  refine and_congr_right fun _ => ⟨?_, ?_⟩
  · rintro ⟨front, below, hstrip, hbelow, hline⟩
    obtain ⟨left, behind, htext, rfl, hstranded⟩ :=
      Continuation.strip_eq_append_iff_stranded.1 ⟨below, hstrip, hbelow⟩
    exact ⟨left, behind, htext, hstranded, hline⟩
  · rintro ⟨front, behind, htext, hstranded, hline⟩
    obtain ⟨below, hstrip, hbelow⟩ :=
      Continuation.strip_eq_append_iff_stranded.2 ⟨front, behind, htext, rfl, hstranded⟩
    exact ⟨Continuation.strip front, below, hstrip, hbelow, hline⟩

/-- The rules that fail at a backslash behind the first node of the texts below. -/
def behindNode : Attempts Rule :=
  ⟨10, [.port, .edgeOp, .port, .attrList, .attrTarget, .edgeStmt, .id, .id, .subgraphKeyword]⟩

/-- A text in which the one marker stands between a backslash and a line feed. -/
def exposing : List Char :=
  ['g', 'r', 'a', 'p', 'h', ' ', '\x7b', ' ', 'a', ' ', '\\', '\\', '\n', '\n', '\x7d']

/-- On the slot with preprocessing the advice is given for this text, whose first backslash is stranded. -/
theorem advised_iff_stranded_exposing :
    ∃ error, (((Session.start sharedSlot).after [.install]).step (.parse (String.ofList exposing))).1 =
        .parsed (.error error) ∧ error.hint = some Hint.continuation.text ∧
      ∃ front behind, exposing = front ++ '\\' :: behind ∧ Continuation.Stranded behind ∧
        error.line = (Continuation.strip front).count '\n' + 1 := by
  have hinstalls : ∃ request ∈ [Operation.install], request.installs = true := ⟨.install, by simp, rfl⟩
  have hparses : (Operation.parse (String.ofList exposing)).Parses [.install] (String.ofList exposing) := rfl
  have hparse := parse_ofList_of_rejected (Continuation.strip exposing) behindNode (by decide +kernel)
    (by decide +kernel)
  have hhint : ((Grammar.failure behindNode).report (Continuation.strip exposing)).hint =
      some Hint.continuation.text := by decide +kernel
  have hanswer := Session.step_of_parses parse hinstalls hparses
  rw [Continuation.join_ofList, hparse] at hanswer
  have hstranded := ((advised_iff_stranded _ _ (.inr ⟨_, _, hinstalls, hparses, hanswer⟩)).1 hhint).2
  rw [String.toList_ofList] at hstranded
  exact ⟨_, hanswer, hhint, hstranded⟩

/-- A text that ends in a backslash. -/
def endingInBackslash : List Char := ['g', 'r', 'a', 'p', 'h', ' ', '\x7b', ' ', 'a', ' ', '\\']

/-- Behind preprocessing the advice to join continued lines is given for a text that continues no line. -/
theorem exists_advised : ∃ error,
    (Parser.preprocessed parse).parse (String.ofList endingInBackslash) = .error error ∧
      error.hint = some Hint.continuation.text ∧ ¬Continuation.marker <:+: endingInBackslash := by
  have hjoin : Continuation.strip endingInBackslash = endingInBackslash := by decide
  have hparse : (Parser.preprocessed parse).parse (String.ofList endingInBackslash) =
      .error ((Grammar.failure behindNode).report endingInBackslash) := by
    rw [Preprocessed.parse_apply, Continuation.join_ofList, hjoin]
    exact parse_ofList_of_rejected endingInBackslash behindNode (by decide +kernel) (by decide +kernel)
  exact ⟨_, hparse, by decide +kernel, by decide⟩

end DotLang
