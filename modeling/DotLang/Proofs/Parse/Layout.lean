import DotLang.Document.Equality
import DotLang.Proofs.Document.Outcome
import DotLang.Proofs.Token.Region
import DotLang.Proofs.Token.Blank
import DotLang.Proofs.Parse.Rendering

/-!
# Layout in parsed texts

What stands between the tokens of a text that parses, and what may be put there. Backslashes stand in strings and
comments only (`region_of_backslash`). One blank can stand for another (`parse_set_blank`), and a line feed is
enough to put one text behind another (`parse_append_lineFeed`).
-/

namespace DotLang

/-!
## Backslashes in parsed texts

A backslash means nothing outside strings and comments, not even in front of a line feed: lines are continued
only where continued lines are joined before a text is parsed. So a text that parses has backslashes in
strings and comments only.
-/

/-- Every backslash of a text that parses is in a quoted string, an HTML string or a comment. -/
theorem region_of_backslash {text : String} {document : Document} (h : parse text = .ok document) {i : Nat}
    (hi : text.toList[i]? = some '\\') :
    ∃ region, (Text.regions text.toList)[i]? = some region ∧ region ∈ [.quoted, .html, .comment] := by
  obtain ⟨tokens, hlex, -⟩ := parse_eq_ok_iff.1 h
  obtain ⟨state, hleads⟩ := (Token.composed_of_lex hlex).leads
  obtain ⟨region, hregion, hguarded⟩ := hleads.exists_region [] hi
  rw [List.append_nil] at hregion
  refine ⟨region, hregion, ?_⟩
  -- There is only one other region, and backslashes are guarded from it.
  cases region with
  | outside => exact absurd rfl (hguarded rfl)
  | quoted | html | comment => simp

/-- A text with a backslash in front of a line feed in a quoted string, in a comment that has another string
in it, and in an HTML string. -/
def slashedText : String := "graph\x7b\"a\\\nb\" /* \"\\\n */ <<\\\n>>\x7d"

/-- The document that it says. -/
def slashedDocument : Document :=
  ⟨[{ strict := false, kind := .graph, id := none,
      statements := [.node ⟨.quoted "a\\\nb", none⟩ [], .node ⟨.html "<\\\n>", none⟩ []] }]⟩

/-- The text is accepted, with backslashes in all three sorts of regions. -/
theorem parse_slashedText : parse slashedText = .ok slashedDocument :=
  parse_eq_ok_iff.2 (ofText?_eq_some_iff.1 (by decide +kernel))

/-- The second backslash of the text is in the comment. -/
theorem region_of_backslash_slashedText :
    parse slashedText = .ok slashedDocument ∧ slashedText.toList[17]? = some '\\' ∧
      ∃ region, (Text.regions slashedText.toList)[17]? = some region ∧ region ∈ [.quoted, .html, .comment] := by
  have hslash : slashedText.toList[17]? = some '\\' := by decide +kernel
  exact ⟨parse_slashedText, hslash, region_of_backslash parse_slashedText hslash⟩

/-!
## Blanks in parsed texts

It makes no difference which blanks stand between the tokens of a text: where one is skipped, any other one can stand
(`parse_set_blank`). The byte order mark is the one that takes care: directly behind a word it is a letter of this
word, and what the text says changes (`exists_taken_in`).
-/

open Text

/-- If a text parses, then so does the text with another blank in the place of one that is skipped, and to the same
document. The other blank must not be a byte order mark directly behind a word. -/
theorem parse_set_blank {text : String} {document : Document} (h : parse text = .ok document) {i : Nat}
    (hskip : SkippedAt text.toList i) {c : Char} (hc : isBlank c = true)
    (hword : c = '\uFEFF' → ¬EndsInWord (text.toList.take i)) :
    parse (String.ofList (text.toList.set i c)) = .ok document := by
  obtain ⟨tokens, hlex, hwritten⟩ := parse_eq_ok_iff.1 h
  refine parse_eq_ok_iff.2 ⟨tokens, ?_, hwritten⟩
  rw [String.toList_ofList]
  exact (Token.lex_set_blank_iff hlex hskip hc).2 hword

/-- A text with spaces behind a brace and behind a word, and with a comment that has a quote in it. -/
def spacedText : String := "graph\x7b a b // \"\n\x7d"

/-- The document that it says. -/
def spacedDocument : Document :=
  ⟨[{ strict := false, kind := .graph, id := none,
      statements := [.node ⟨.identifier "a", none⟩ [], .node ⟨.identifier "b", none⟩ []] }]⟩

/-- The text is parsed to this document. -/
theorem parse_spacedText : parse spacedText = .ok spacedDocument :=
  parse_eq_ok_iff.2 (ofText?_eq_some_iff.1 (by decide +kernel))

/-- The spaces behind the brace and behind the first word. -/
theorem skippedAt_spacedText : ∀ i ∈ [6, 8], SkippedAt spacedText.toList i := by
  have hspace : ∀ i ∈ [6, 8], spacedText.toList[i]? = some ' ' := by decide
  have houtside : ∀ i ∈ [6, 8], (regions spacedText.toList)[i]? = some .outside ∧
      (regionsFrom .outside (spacedText.toList.take i)).2 ≠ .line := by decide
  intro i hi
  exact {
    blank := ⟨' ', hspace i hi, rfl⟩
    outside := (houtside i hi).1
    not_lineEnd := (houtside i hi).2
    not_letter := by simp [hspace i hi] }

/-- The space behind the brace can be a byte order mark. -/
theorem parse_set_blank_spacedText :
    parse spacedText = .ok spacedDocument ∧ SkippedAt spacedText.toList 6 ∧
      parse (String.ofList (spacedText.toList.set 6 '\uFEFF')) = .ok spacedDocument := by
  have hskip : SkippedAt spacedText.toList 6 := skippedAt_spacedText 6 (by decide)
  have hbrace : ¬EndsInWord (spacedText.toList.take 6) :=
    not_endsInWord_of_getLast? (c := '\x7b') (by decide) (by decide)
  exact ⟨parse_spacedText, hskip, parse_set_blank parse_spacedText hskip rfl fun _ => hbrace⟩

/-- The space behind the first word cannot: a byte order mark there makes one word of two. -/
theorem exists_taken_in :
    parse spacedText = .ok spacedDocument ∧ SkippedAt spacedText.toList 8 ∧ isBlank '\uFEFF' = true ∧
      ∃ other, parse (String.ofList (spacedText.toList.set 8 '\uFEFF')) = .ok other ∧ other ≠ spacedDocument := by
  have hskip : SkippedAt spacedText.toList 8 := skippedAt_spacedText 8 (by decide)
  let other : Document :=
    ⟨[{ strict := false, kind := .graph, id := none, statements := [.node ⟨.identifier "a\uFEFFb", none⟩ []] }]⟩
  have hparse : parse (String.ofList (spacedText.toList.set 8 '\uFEFF')) = .ok other :=
    parse_eq_ok_iff.2 (ofText?_eq_some_iff.1 (by decide +kernel))
  exact ⟨parse_spacedText, hskip, rfl, other, hparse, by simp [other, spacedDocument]⟩

/-!
## One text behind another

Nothing that a text says stays open at its end, apart from a comment that goes to the end of its line. So a
line feed is enough to put a second text behind it: the tokens of both are found
(`Token.Composed.append_lineFeed`), and they write the graphs of both.

Main results

* `parse_append_lineFeed`: two texts with a line feed between them parse to the graphs of the first text and
  then those of the second one.
-/

namespace Token

variable {token : Token} {tokens tokens' : List Token} {layout comment text text' : List Char}

/-- A line feed behind layout is layout. -/
theorem Layout.append_lineFeed (h : Layout layout) : Layout (layout ++ ['\n']) :=
  h.append (.blank (by decide) .nil)

/-- A line feed ends a comment that was open at the end of a text. -/
theorem IsOpenComment.append_lineFeed (h : IsOpenComment comment) : Layout (comment ++ ['\n']) := by
  obtain ⟨mark, hmark, body, rfl, hbody⟩ := h
  rw [List.append_assoc]
  exact .line hmark hbody (by decide) .nil

/-- No token goes on with a line feed. -/
theorem EndsBefore.append_lineFeed (h : token.EndsBefore text) : token.EndsBefore (text ++ '\n' :: text') := by
  -- Unless the token is the end of its text, the character behind it is the same as before.
  rcases text with _ | ⟨c, text⟩
  · cases token with
    | word cs =>
      rintro c ⟨⟩
      decide
    | numeral cs =>
      rintro c ⟨⟩
      exact ⟨by decide, fun hpoint => absurd hpoint (by decide)⟩
    | _ => trivial
  · exact h.congr rfl

/-- The tokens of two texts with a line feed between them are those of the one and then those of the other. -/
theorem Composed.append_lineFeed (h : Composed tokens text) (h' : Composed tokens' text') :
    Composed (tokens ++ tokens') (text ++ '\n' :: text') := by
  have hline : ∀ cs : List Char, cs ++ '\n' :: text' = cs ++ ['\n'] ++ text' := by simp
  induction h with
  | nil hlayout =>
    rw [hline]
    exact h'.prepend hlayout.append_lineFeed
  | comment hlayout hcomment =>
    -- The comment is layout, now that its line has an end.
    rw [hline, List.append_assoc _ _ ['\n']]
    exact h'.prepend (hlayout.append hcomment.append_lineFeed)
  | cons hlayout hvalid hend _ ih =>
    rw [List.append_assoc, List.append_assoc]
    exact .cons hlayout hvalid hend.append_lineFeed ih

end Token

variable {tokens tokens' : List Token}

/-- Graphs are written behind one another. -/
theorem Graph.ListWritten.append {graphs graphs' : List Graph} (h : Graph.ListWritten graphs tokens)
    (h' : Graph.ListWritten graphs' tokens') : Graph.ListWritten (graphs ++ graphs') (tokens ++ tokens') := by
  induction graphs generalizing tokens with
  | nil =>
    obtain rfl := h
    exact h'
  | cons graph graphs ih =>
    obtain ⟨first, rest, rfl, hfirst, hrest⟩ := h
    rw [List.append_assoc]
    exact ⟨first, rest ++ tokens', rfl, hfirst, ih hrest⟩

/-- Two texts that parse, with a line feed between them, parse to the graphs of the first text and behind
them those of the second. So nothing in a text stays open beyond its last line. -/
theorem parse_append_lineFeed {first second : String} {document document' : Document}
    (h : parse first = .ok document) (h' : parse second = .ok document') :
    parse (first ++ "\n" ++ second) = .ok ⟨document.graphs ++ document'.graphs⟩ := by
  obtain ⟨tokens, hlex, hne, hwritten⟩ := parse_eq_ok_iff.1 h
  obtain ⟨tokens', hlex', -, hwritten'⟩ := parse_eq_ok_iff.1 h'
  -- A comment open at the end of the first text ends with the line feed.
  have hcomposed := (Token.composed_of_lex hlex).append_lineFeed (Token.composed_of_lex hlex')
  have htext : (first ++ "\n" ++ second).toList = first.toList ++ '\n' :: second.toList := by simp
  apply parse_eq_ok_iff.2
  refine ⟨tokens ++ tokens', ?_, ?_, hwritten.append hwritten'⟩
  · rw [htext]
    exact Token.lex_of_composed hcomposed
  · simp [hne]

/-- A text that ends in a comment, in which there is a quote and the start of a block comment. -/
def commentedText : String := "diGraph\x7ba->b;\x7d // \" /*"

/-- The text is parsed, although its comment goes on up to the end. -/
theorem parse_commentedText : parse commentedText = .ok oneEdge :=
  parse_eq_ok_iff.2 ⟨oneEdgeTokens, by decide +kernel, written_oneEdge⟩

/-- The comment does not go on in the text behind it. -/
theorem parse_append_commentedText :
    parse commentedText = .ok oneEdge ∧
      parse (commentedText ++ "\n" ++ commentedText) = .ok ⟨oneEdge.graphs ++ oneEdge.graphs⟩ :=
  ⟨parse_commentedText, parse_append_lineFeed parse_commentedText parse_commentedText⟩

end DotLang
