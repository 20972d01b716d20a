import DotLang.Proofs.Document.Order
import DotLang.Proofs.Document.Outcome
import DotLang.Proofs.Text.Span
import DotLang.Proofs.Grammar.Expectation
import DotLang.Proofs.ParseError.Label

/-!
# Failures of the parser

A text that the grammar accepts fails to parse only for an edge operator in a graph of the other kind, and
the report is that of the first such operator in the text (`parse_fails_iff`). A text that the grammar rejects
is reported as the rules that failed furthest.
-/

namespace DotLang

open Peg

namespace GraphKind

/-- The words for an edge operator in a graph of this kind, which has the other one. -/
def misplacedMessage : GraphKind → String
  | graph => "`->` is not allowed in an undirected graph; use `--`"
  | digraph => "`--` is not allowed in a directed graph; use `->`"

/-- Whether an error is the report of an edge operator in a graph of this kind: it is at the operator, which
stands on its line between what is left and what is right of it. -/
def Reports (kind : GraphKind) (operator : ParseTree Rule) (text : List Char) (error : ParseError) : Prop :=
  ∃ above left right below,
    text = above ++ (left ++ operator.text ++ right ++ below) ∧
      Text.byteLength (above ++ left) = operator.start ∧ Text.EndsLine above ∧ '\n' ∉ left ∧ '\n' ∉ right ∧
      Text.BeginsBelow below ∧
      error = {
        message := kind.misplacedMessage
        line := above.count '\n' + 1
        col := left.length + 1
        colEnd := some (left.length + 1 + 2)
        sourceLine := some (String.ofList (left ++ operator.text ++ right))
        filename := none
        hint := none }

/-- An operator that is not that of the graph's kind is that of the other kind. -/
theorem message_of_misplaces {kind : GraphKind} {operator : ParseTree Rule}
    (h : kind.Misplaces operator) (htext : ∃ found, operator.text = (Token.operator found).text) :
    (Misfit.edgeOperator (String.ofList operator.text) kind).message = kind.misplacedMessage := by
  obtain ⟨found, htext⟩ := htext
  rw [Misplaces, htext] at h
  rw [htext]
  cases kind <;> cases found
  · exact absurd rfl h
  · rfl
  · rfl
  · exact absurd rfl h

/-- The report of a misplaced operator, given where it stands. -/
theorem reports_of_misplaced {kind : GraphKind} {operator : ParseTree Rule} {front behind : List Char}
    (h : kind.Misplaces operator) (htext : ∃ found, operator.text = (Token.operator found).text)
    (hstart : operator.start = Text.byteLength front) :
    kind.Reports operator (front ++ (operator.text ++ behind))
      ((kind.misplacement operator).report (front ++ (operator.text ++ behind))) := by
  obtain ⟨above, left, rfl, habove, hleft⟩ := Text.exists_above front
  obtain ⟨right, below, rfl, hright, hbelow⟩ := Text.exists_below behind
  have hoperator : '\n' ∉ operator.text ∧ operator.text.length = 2 := by
    obtain ⟨found, htext⟩ := htext
    rw [htext]
    cases found <;> decide
  have hne : operator.text ≠ [] := List.ne_nil_of_length_eq_add_one hoperator.2
  -- The report is made of the positions at the two ends of the operator, and of the line of the first.
  have hbefore : Text.before (above ++ left ++ (operator.text ++ (right ++ below))) operator.start =
      above ++ left := by
    rw [hstart, Text.before_append]
  have hbeforeStop : Text.before (above ++ left ++ (operator.text ++ (right ++ below))) operator.stop =
      above ++ left ++ operator.text := by
    rw [ParseTree.stop, hstart, ← Text.byteLength_append, ← List.append_assoc (above ++ left),
      Text.before_append]
  have hfirst : Text.Position.after (above ++ left) = ⟨above.count '\n' + 1, left.length + 1⟩ :=
    Text.Position.after_above habove hleft
  have hlast : Text.Position.spanEnd (above ++ left ++ operator.text) =
      ⟨above.count '\n' + 1, left.length + 1 + 2⟩ := by
    rw [Text.Position.spanEnd_append hne fun h => hoperator.1 (List.dropLast_subset _ h), hfirst,
      hoperator.2]
  have hline : (Text.lines (above ++ left ++ (operator.text ++ (right ++ below))))[above.count '\n']? =
      some (left ++ operator.text ++ right) := by
    have hnot : '\n' ∉ left ++ operator.text ++ right := by simp [hleft, hoperator.1, hright]
    have hlines := Text.lines_at habove hnot hbelow
    simpa using hlines
  refine ⟨above, left, right, below, by simp, hstart.symm, habove, hleft, hright, hbelow, ?_⟩
  rw [Failure.report, Place.position, misplacement, Misfit.within]
  simp only [Place.start, Place.colEnd, hbefore, hbeforeStop, hfirst, hlast, Nat.add_sub_cancel, hline,
    ↓reduceIte, Cause.message, Cause.hint, message_of_misplaces h htext, Option.map_some, Option.map_none]

end GraphKind

variable {text : String} {tree : ParseTree Rule}

/-- A text that the grammar rejects is reported as the rules that failed furthest. -/
theorem parse_of_rejected (h : (grammar.parse .document text.toList).found = none) :
    parse text =
      .error ((Grammar.failure (grammar.parse .document text.toList).attempts).report text.toList) := by
  rw [parse, read_of_rejected h]
  rfl

/-- The error of a text, by evaluation of the grammar. -/
theorem parse_ofList_of_rejected (cs : List Char) (attempts : Attempts Rule)
    (hrejected : (grammar.parse .document cs).found.isNone = true)
    (hattempts : (grammar.parse .document cs).attempts = attempts) :
    parse (String.ofList cs) = .error ((Grammar.failure attempts).report cs) := by
  have hnone : (grammar.parse .document (String.ofList cs).toList).found = none := by
    rw [String.toList_ofList]
    exact Option.isNone_iff_eq_none.1 hrejected
  rw [parse_of_rejected hnone, String.toList_ofList, hattempts]

/-- The first misplaced operator of an accepted text is what its failure reports. -/
theorem reports_of_head? (h : Grammar.Accepts text.toList tree) {kind : GraphKind}
    {operator : ParseTree Rule} (hhead : (Grammar.misplaced tree).head? = some (kind, operator)) :
    ∃ error, parse text = .error error ∧ kind.Reports operator text.toList error := by
  have hfirst := List.mem_of_mem_head? hhead
  have hmem := Grammar.mem_operators_of_mem_misplaced h hfirst
  obtain ⟨_, -, -, -, hmisplaced⟩ := Grammar.mem_misplaced.1 hfirst
  -- An operator's tree says where it begins, and its text stands there.
  obtain ⟨front, behind, htext, hstart⟩ := (Grammar.ordered_of_accepts h).1 operator hmem
  have hreports : kind.Reports operator (front ++ (operator.text ++ behind)) _ :=
    GraphKind.reports_of_misplaced hmisplaced (Grammar.text_of_accepts h hmem) hstart
  rw [← htext] at hreports
  refine ⟨_, ?_, hreports⟩
  rw [parse, read_of_accepts h, Grammar.ofTree_of_misplaced h hhead]
  rfl

/-- A text that the grammar accepts fails to parse if and only if one of its edge operators, at any depth, is
not that of the kind of the graph around it; then the error is the report of the first such operator. A
text that the grammar rejects has the report of a syntax error, whatever operators it has. -/
theorem parse_fails_iff (text : String) :
    (∀ tree, Grammar.Accepts text.toList tree →
      ((∃ error, parse text = .error error) ↔ ∃ kind operator, (kind, operator) ∈ Grammar.misplaced tree) ∧
      ∀ error, parse text = .error error →
        ∃ kind operator, Grammar.FirstMisplaced tree kind operator ∧ kind.Reports operator text.toList error) ∧
    ((∀ tree, ¬Grammar.Accepts text.toList tree) →
      parse text =
        .error ((Grammar.failure (grammar.parse .document text.toList).attempts).report text.toList)) := by
  refine ⟨fun tree htree => ?_, fun hrejected => ?_⟩
  -- An accepted text fails with its first misplaced operator, if it has one, and has a document otherwise.
  · rcases hhead : (Grammar.misplaced tree).head? with _ | ⟨kind, operator⟩
    · have hnone := List.head?_eq_none_iff.1 hhead
      obtain ⟨document, tokens, hdocument, -, -⟩ := Grammar.ofTree_of_accepts htree hnone
      have hparse : parse text = .ok document := by
        rw [parse, read_of_accepts htree, hdocument]
        rfl
      refine ⟨⟨?_, ?_⟩, fun error herror => ?_⟩
      · rintro ⟨error, herror⟩
        cases hparse.symm.trans herror
      · rintro ⟨kind, operator, hmem⟩
        simp [hnone] at hmem
      · cases hparse.symm.trans herror
    · obtain ⟨error, hparse, hreports⟩ := reports_of_head? htree hhead
      refine ⟨⟨fun _ => ⟨kind, operator, List.mem_of_mem_head? hhead⟩, fun _ => ⟨error, hparse⟩⟩,
        fun error' herror => ?_⟩
      obtain rfl : error = error' := Except.error.inj (hparse.symm.trans herror)
      exact ⟨kind, operator, Grammar.firstMisplaced_of_head? htree hhead, hreports⟩
  · rcases hfound : (grammar.parse .document text.toList).found with _ | found
    · exact parse_of_rejected hfound
    · obtain ⟨tree, htree⟩ := Grammar.accepts_of_found hfound
      exact absurd htree (hrejected tree)

/-!
## Syntax errors say what was expected

The message for a text that the grammar rejects lists the labels of the rules that failed furthest
(`parse_expects`). There always is one (`Grammar.exists_label_of_rejected`), so the message is never the one
that says nothing.
-/

/-- The message for a text that the grammar rejects lists labels of the rules that failed furthest: at least one,
each one once, and in the order of their first appearance. One stands alone, two are joined by "or", and more
by commas and a final "or". So it is never the message for a failure without labels. -/
theorem parse_expects (text : String) (h : (grammar.parse .document text.toList).found = none) :
    ∃ error labels, parse text = .error error ∧
      labels = ((Rule.all.filter (· ∈ (grammar.parse .document text.toList).attempts.rules)).filterMap
        Rule.label).eraseDups ∧
      labels ≠ [] ∧ labels.Nodup ∧ error.message ≠ "unexpected token" ∧
      ((∃ label, labels = [label] ∧ error.message = "expected " ++ label) ∨
        ∃ front last, front ≠ [] ∧ labels = front ++ [last] ∧
          error.message = "expected " ++ (", ".intercalate front ++ " or " ++ last)) := by
  have hparse := parse_of_rejected h
  have hshows := Grammar.exists_label_of_rejected h
  -- From here on it only matters that one of the rules attempted has a label.
  generalize (grammar.parse .document text.toList).attempts = attempts at hparse hshows ⊢
  have hne : ParseError.labels (Rule.all.filter (· ∈ attempts.rules)) ≠ [] := by
    obtain ⟨rule, hrule, hlabel⟩ := hshows
    obtain ⟨label, hlabel⟩ := Option.isSome_iff_exists.1 hlabel
    have hreported : rule ∈ Rule.all.filter (· ∈ attempts.rules) :=
      List.mem_filter.2 ⟨rule.mem_all, by simpa using hrule⟩
    exact List.ne_nil_of_mem (ParseError.mem_labels.2 ⟨rule, hreported, hlabel⟩)
  have hmessage := ParseError.expectedMessage_cases hne
  refine ⟨_, _, hparse, ParseError.labels_eq _, hne, ParseError.nodup_labels _, ?_, hmessage⟩
  rcases hmessage with ⟨label, -, hmessage⟩ | ⟨front, last, -, -, hmessage⟩
  · exact ne_of_eq_of_ne hmessage (ParseError.expected_ne _)
  · exact ne_of_eq_of_ne hmessage (ParseError.expected_ne _)

/-- A text that ends where a statement could begin. -/
def unfinished : List Char := ['g', 'r', 'a', 'p', 'h', '\x7b']

/-- Five rules have failed at the end of this text. The keyword of a subgraph is one of them and has no label, and
two are one rule. -/
theorem parse_expects_unfinished : ∃ error, parse (String.ofList unfinished) = .error error ∧
    error.message = "expected `graph`, `node` or `edge`, edge statement or identifier" := by
  have hrejected : (grammar.parse .document (String.ofList unfinished).toList).found = none := by
    rw [String.toList_ofList]
    exact Option.isNone_iff_eq_none.1 (by decide +kernel)
  have hattempts : (grammar.parse .document (String.ofList unfinished).toList).attempts =
      ⟨6, [.attrTarget, .edgeStmt, .id, .id, .subgraphKeyword]⟩ := by
    rw [String.toList_ofList]
    decide +kernel
  obtain ⟨error, labels, hparse, hlabels, -, -, -, hmessage⟩ := parse_expects _ hrejected
  rw [hattempts] at hlabels
  have hthree : labels = ["`graph`, `node` or `edge`", "edge statement"] ++ ["identifier"] :=
    hlabels.trans (by decide)
  refine ⟨error, hparse, ?_⟩
  -- The labels are three, so they split into the first two and the last one.
  rcases hmessage with ⟨label, hone, -⟩ | ⟨front, last, -, hmore, hmessage⟩
  · cases hone.symm.trans hthree
  · obtain ⟨rfl, hlast⟩ := List.append_inj' (hmore.symm.trans hthree) rfl
    obtain rfl := (List.cons.inj hlast).1
    exact hmessage.trans (by decide +kernel)

end DotLang
