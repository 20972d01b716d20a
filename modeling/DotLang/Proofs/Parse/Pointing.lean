import DotLang.Proofs.Parse.Failure
import DotLang.Proofs.ParseError.Display
import DotLang.Proofs.Peg.Attempts
import DotLang.Proofs.Text.Span

/-!
# Where errors point

The report of a failure gives its place as a line and columns, has the line of the text in it, and is shown
with carets below this line. All of this fits together (`ParseError.PointsAt`), on whatever line the place is
and at whatever end of it.

## Main results

* `Failure.report_pointsAt`: every report points at the place of its failure.
* `errors_point`: every error of the parser is such a report.
-/

namespace DotLang

open Peg

namespace Place

/-- The characters that a place covers. -/
def covered (text : List Char) : Place → List Char
  | .at _ => []
  | .span start stop => Text.between text start stop

/-- Whether a place has no end in a column of the line on which it begins: it is a point, or a span whose last
character is on a later line, or an empty span at the start of a line behind a line feed. -/
def HasNoEnd (text : List Char) : Place → Prop
  | .at _ => True
  | .span start stop =>
    '\n' ∈ (Text.between text start stop).dropLast ∨
      Text.between text start stop = [] ∧ (Text.before text start).getLast? = some '\n'

end Place

/-- Whether an error points at a place of a text. -/
structure ParseError.PointsAt (error : ParseError) (text : List Char) (place : Place) : Prop where
  /-- The line is counted by the line feeds before the place. -/
  line : error.line = (Text.before text place.start).count '\n' + 1
  /-- The column is counted by the characters behind the last of them. -/
  col : error.col = (Text.lastLine (Text.before text place.start)).length + 1
  /-- The source line is this line of the text, the column is one of its columns or the one behind it, and the
  carets below it point at this column. -/
  sourceLine : ∃ line, (text.splitOn '\n')[error.line - 1]? = some line ∧
    error.sourceLine = some (String.ofList line) ∧ 1 ≤ error.col ∧ error.col ≤ line.length + 1 ∧
      error.PointsBelow line
  /-- Where the place has no end on its line, the error has none. -/
  colEnd_eq_none : error.colEnd = none ↔ place.HasNoEnd text
  /-- Otherwise the error ends where the place ends. -/
  le_colEnd : ∀ stop, error.colEnd = some stop → error.col ≤ stop ∧
    (place.covered text ≠ [] → stop = error.col + (place.covered text).length)

namespace Place

variable {text : List Char} {start stop : Nat}

/-- A stretch has an end column unless it goes beyond the line where it begins. -/
theorem colEnd_span (text : List Char) (h : start ≤ stop) :
    (span start stop).colEnd text =
      let first := Text.Position.after (Text.before text start)
      let last := Text.Position.spanEnd (Text.before text start ++ Text.between text start stop)
      if first.line = last.line then some last.col else none := by
  rw [Text.before_append_between h]
  rfl

/-- A span has no end if it begins and ends on different lines. -/
theorem colEnd_span_of_hasNoEnd (h : start ≤ stop) (hend : (span start stop).HasNoEnd text) :
    (span start stop).colEnd text = none := by
  rw [colEnd_span text h]
  rcases hend with hlater | ⟨hempty, hfront⟩
  · exact if_neg (Nat.ne_of_lt (Text.Position.line_lt_spanEnd hlater))
  · rw [hempty, List.append_nil]
    exact if_neg (Nat.ne_of_gt (Text.Position.spanEnd_lt_line hfront))

/-- Otherwise it has an end, which is behind it by its characters if it has any. -/
theorem colEnd_span_of_not_hasNoEnd (h : start ≤ stop) (hend : ¬(span start stop).HasNoEnd text) :
    ∃ last, (span start stop).colEnd text = some last ∧
      (Text.Position.after (Text.before text start)).col ≤ last ∧
      (Text.between text start stop ≠ [] →
        last = (Text.Position.after (Text.before text start)).col + (Text.between text start stop).length) := by
  rw [colEnd_span text h]
  obtain ⟨hlater, hempty⟩ := not_or.1 hend
  -- A span without text ends where it begins, as no line feed is before it.
  by_cases hinner : Text.between text start stop = []
  · obtain ⟨hline, hcol⟩ := Text.Position.spanEnd_of_getLast? fun hfront => hempty ⟨hinner, hfront⟩
    rw [hinner, List.append_nil]
    exact ⟨_, if_pos hline.symm, hcol, fun hne => absurd rfl hne⟩
  · rw [Text.Position.spanEnd_append hinner hlater]
    exact ⟨_, if_pos rfl, Nat.le_add_right _ _, fun _ => rfl⟩

variable {place : Place}

/-- There is no end column exactly where the place says so. -/
theorem colEnd_eq_none_iff (h : place.liesIn text = true) : place.colEnd text = none ↔ place.HasNoEnd text := by
  cases place with
  | «at» offset => exact iff_of_true rfl trivial
  | span start stop =>
    have hle : start ≤ stop := by simp_all [liesIn]
    refine ⟨fun hnone => ?_, colEnd_span_of_hasNoEnd hle⟩
    by_contra hend
    obtain ⟨last, hlast, -⟩ := colEnd_span_of_not_hasNoEnd hle hend
    cases hnone.symm.trans hlast

/-- The end column is behind the covered text, where this is not empty. -/
theorem le_colEnd (h : place.liesIn text = true) {last : Nat} (hlast : place.colEnd text = some last) :
    (place.position text).col ≤ last ∧
      (place.covered text ≠ [] → last = (place.position text).col + (place.covered text).length) := by
  cases place with
  | «at» offset => cases hlast
  | span start stop =>
    have hle : start ≤ stop := by simp_all [liesIn]
    have hend : ¬(span start stop).HasNoEnd text := fun hend => by
      cases hlast.symm.trans (colEnd_span_of_hasNoEnd hle hend)
    obtain ⟨last', hlast', hbehind⟩ := colEnd_span_of_not_hasNoEnd hle hend
    obtain rfl := Option.some.inj (hlast.symm.trans hlast')
    exact hbehind

/-- The line feed at the end of a line is a character of this line. -/
example : (span 1 3).colEnd "ab\ncd".toList = some 4 ∧ (span 1 4).colEnd "ab\ncd".toList = none := by decide

end Place

namespace Failure

variable {failure : Failure} {text : List Char}

/-- The report of a failure at a place of a text points at this place. -/
theorem report_pointsAt (h : failure.place.liesIn text = true) :
    (failure.report text).PointsAt text failure.place := by
  obtain ⟨line, hline, hlength, hfeed⟩ := Text.exists_line text failure.place.start
  have hposition : failure.place.position text =
      ⟨(Text.before text failure.place.start).count '\n' + 1,
        (Text.lastLine (Text.before text failure.place.start)).length + 1⟩ := Text.Position.after_eq _
  have hsource : (failure.report text).sourceLine = some (String.ofList line) := by
    simp only [report, hposition, Nat.add_sub_cancel, hline, Option.map_some]
  have hcol : (failure.report text).col =
      (Text.lastLine (Text.before text failure.place.start)).length + 1 := congrArg Text.Position.col hposition
  have hnumber : (failure.report text).line = (Text.before text failure.place.start).count '\n' + 1 :=
    congrArg Text.Position.line hposition
  -- Line and column count what stands in front of the place.
  refine ⟨hnumber, hcol, ⟨line, ?_, hsource, ?_, ?_, ParseError.display_points hsource hfeed⟩,
    Place.colEnd_eq_none_iff h, fun _ => Place.le_colEnd h⟩
  · rw [hnumber, Nat.add_sub_cancel, ← Text.lines_eq_splitOn]
    exact hline
  · rw [hcol]
    exact Nat.succ_pos _
  · rw [hcol]
    exact Nat.succ_le_succ hlength

end Failure

/-- Rules fail at places of the text. -/
theorem Grammar.failure_liesIn (text : List Char) :
    (failure (grammar.parse .document text).attempts).place.liesIn text = true := by
  obtain ⟨read, rest, htext, hoffset⟩ := grammar.exists_of_parse .document text
  rw [failure, Place.liesIn, hoffset]
  conv_lhs => rw [htext]
  exact Text.isBoundary_byteLength read rest

/-- Edge operators stand at places of the text. -/
theorem Grammar.misplacement_liesIn {text : List Char} {tree operator : ParseTree Rule} (h : Accepts text tree)
    (hmem : operator ∈ operators tree) (kind : GraphKind) :
    (kind.misplacement operator).place.liesIn text = true := by
  obtain ⟨front, behind, htext, hstart⟩ := (ordered_of_accepts h).1 operator hmem
  have hfirst : Text.isBoundary text operator.start = true := by
    rw [htext, hstart]
    exact Text.isBoundary_byteLength front _
  have hlast : Text.isBoundary text operator.stop = true := by
    rw [htext, ParseTree.stop, hstart, ← Text.byteLength_append, ← List.append_assoc]
    exact Text.isBoundary_byteLength (front ++ operator.text) behind
  have hle : operator.start ≤ operator.stop := Nat.le_add_right _ _
  simp [GraphKind.misplacement, Misfit.within, Place.liesIn, hfirst, hlast, hle]

/-- Every error of the parser is the report of a failure at a place of its text. -/
theorem exists_failure_of_parse {text : String} {error : ParseError} (h : parse text = .error error) :
    ∃ failure : Failure, failure.place.liesIn text.toList = true ∧ error = failure.report text.toList := by
  rcases hfound : (grammar.parse .document text.toList).found with _ | found
  · rw [parse_of_rejected hfound] at h
    exact ⟨_, Grammar.failure_liesIn text.toList, (Except.error.inj h).symm⟩
  · obtain ⟨tree, htree⟩ := Grammar.accepts_of_found hfound
    rw [parse, read_of_accepts htree] at h
    -- An accepted text fails only for an operator.
    rcases hhead : (Grammar.misplaced tree).head? with _ | ⟨kind, operator⟩
    · obtain ⟨document, tokens, hdocument, -⟩ :=
        Grammar.ofTree_of_accepts htree (List.head?_eq_none_iff.1 hhead)
      rw [hdocument] at h
      cases h
    · rw [Grammar.ofTree_of_misplaced htree hhead] at h
      have hmem := Grammar.mem_operators_of_mem_misplaced htree (List.mem_of_mem_head? hhead)
      exact ⟨_, Grammar.misplacement_liesIn htree hmem kind, (Except.error.inj h).symm⟩

/-- Every report of a failure at a place of a text points at this place, and every error of the parser is such
a report. -/
theorem errors_point (text : String) :
    (∀ failure : Failure, failure.place.liesIn text.toList = true →
      (failure.report text.toList).PointsAt text.toList failure.place) ∧
    ∀ error, parse text = .error error →
      ∃ failure : Failure, failure.place.liesIn text.toList = true ∧ error = failure.report text.toList :=
  ⟨fun _ => Failure.report_pointsAt, fun _ => exists_failure_of_parse⟩

end DotLang
