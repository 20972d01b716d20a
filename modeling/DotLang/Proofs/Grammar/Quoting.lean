import Mathlib.Data.Set.Function
import DotLang.Proofs.Document.Placement
import DotLang.Proofs.Grammar.Names
import DotLang.Proofs.Grammar.Strings
import DotLang.Proofs.Token.Composed

/-!
# What quoted strings say

What stands between the quotes of a string and what it says determine each other: `Quoted.unescape` and
`Quoted.escape` are inverse to each other between the contents that the grammar reads and the texts in which no
odd run of backslashes stands before a quote. A content never ends with a backslash on its own, in any text that
is parsed. Strings that are joined say what each of them says, one after the other
(`quoted_strings_lossless`).
-/

namespace DotLang

open Peg Token

open ParseTree (subtrees subtreesOf subtreesOf_append subtreesOf_cons subtreesOf_nil)

namespace Text.Quoted

/-- Going through some content from left to right, one comes to this end of it. -/
def ComesTo (raw rest : List Char) : Prop :=
  ∃ front, Stepwise front ∧ raw = front ++ rest

/-- Where one comes to, what is read is read from there on. -/
theorem unescape_append {front : List Char} (h : Stepwise front) (rest : List Char) :
    unescape (front ++ rest) = unescape front ++ unescape rest := by
  induction h with
  | nil => rfl
  -- No pair is cut in two, so each step of unescaping stays in the front.
  | @pair c cs _ ih =>
    by_cases hc : c = '"'
    · subst hc
      rw [List.cons_append, List.cons_append, unescape, unescape, ih, List.cons_append]
    · rw [List.cons_append, List.cons_append, unescape_pair hc, unescape_pair hc, ih, List.cons_append,
        List.cons_append]
  | @single c cs hc _ ih =>
    rw [List.cons_append, unescape_cons_of_ne hc, unescape_cons_of_ne hc, ih, List.cons_append]

/-- What content says is what its front says and what the end says that one comes to. -/
theorem ComesTo.unescape_eq {raw rest : List Char} (h : ComesTo raw rest) :
    ∃ front, raw = front ++ rest ∧ unescape raw = unescape front ++ unescape rest := by
  obtain ⟨front, hfront, rfl⟩ := h
  exact ⟨front, rfl, unescape_append hfront rest⟩

/-- Where a quote would close the content, one never comes to a backslash at its end. -/
theorem not_comesTo_slash {raw : List Char} (h : ClosedByQuote raw) : ¬ComesTo raw ['\\'] := by
  rintro ⟨front, hfront, rfl⟩
  exact not_closedByQuote_slash ((closedByQuote_append hfront.closedByQuote).1 h)

end Text.Quoted

namespace Grammar

open Text (Paired IsQuotable)

open Text.Quoted

/-- A rule reads the whole of a text. -/
def ReadsAll (rule : Rule) (text : List Char) : Prop :=
  ∃ found, (grammar.parse rule text).found = some found ∧ found.text = text

/-- What may stand between the quotes of a quoted string. -/
def IsContent (raw : List Char) : Prop :=
  ReadsAll .quotedString ('"' :: (raw ++ ['"']))

variable {raw rest : List Char}

/-! ## Contents and what they say -/

/-- What is written for a text between quotes is taken as one token. -/
theorem take?_content {value : List Char} (h : Paired value) (rest : List Char) :
    take? ('"' :: (escape value ++ '"' :: rest)) = some (.quoted (escape value), rest) := by
  rw [take?, takeQuoted_escape h]
  rfl

/-- The contents are what is written for the texts that can be written. -/
theorem isContent_iff : IsContent raw ↔ ∃ value, Paired value ∧ raw = escape value := by
  constructor
  · rintro ⟨found, hfound, htext⟩
    obtain ⟨token, rest, htake, haccepts, rfl⟩ := (phrase_string rfl findsToken_quotedString).1 hfound
    obtain ⟨content, rfl⟩ := Rule.accepts_quotedString.1 haccepts
    obtain rfl : content = raw := by simpa [terminalMatch, Token.text] using htext
    obtain ⟨tail, -, htail⟩ := take?_eq_some_iff.1 htake
    exact paired_of_takeQuoted htail
  · rintro ⟨value, hvalue, rfl⟩
    exact ⟨_, (phrase_string rfl findsToken_quotedString).2 ⟨_, [], take?_content hvalue [], rfl, rfl⟩, rfl⟩

/-- Writing what a content says gives that content. -/
theorem escape_unescape (h : IsContent raw) : escape (unescape raw) = raw := by
  obtain ⟨value, hvalue, rfl⟩ := isContent_iff.1 h
  rw [unescape_escape hvalue]

/-- What is written for a text that can be quoted is a content. -/
theorem isContent_escape {value : List Char} (h : IsQuotable value) : IsContent (escape value) :=
  isContent_iff.2 ⟨value, h.paired, rfl⟩

/-- What a content says can be quoted. -/
theorem isQuotable_unescape (h : IsContent raw) : IsQuotable (unescape raw) := by
  obtain ⟨value, hvalue, rfl⟩ := isContent_iff.1 h
  rw [unescape_escape hvalue]
  exact hvalue.isQuotable

/-- Contents and the texts that can be quoted determine each other. -/
theorem bijOn_unescape : Set.BijOn unescape {raw | IsContent raw} {value | IsQuotable value} :=
  Set.InvOn.bijOn ⟨fun _ h => escape_unescape h, fun _ h => unescape_escape (IsQuotable.paired h)⟩
    (fun _ h => isQuotable_unescape h) fun _ h => isContent_escape h

/-- In a content one never comes to a backslash at its end. -/
theorem not_comesTo_slash_of_isContent (h : IsContent raw) : ¬ComesTo raw ['\\'] := by
  obtain ⟨value, hvalue, rfl⟩ := isContent_iff.1 h
  exact not_comesTo_slash (Text.stepwise_escape hvalue).closedByQuote

/-! ## The contents in a parsed text -/

/-- Every content of a quoted string in some trees is that of a token. -/
def FromTokens : Spelling := fun trees tokens =>
  ∀ inner ∈ subtreesOf trees, inner.rule = .quotedInner → .quoted inner.text ∈ tokens

/-- Contents come from tokens if those of the first trees and those of the others do. -/
theorem FromTokens.append {trees trees' : List (ParseTree Rule)} {tokens tokens' : List Token}
    (h : FromTokens trees tokens) (h' : FromTokens trees' tokens') :
    FromTokens (trees ++ trees') (tokens ++ tokens') := by
  intro inner hinner hrule
  rw [subtreesOf_append, List.mem_append] at hinner
  rcases hinner with hinner | hinner
  · exact List.mem_append_left _ (h inner hinner hrule)
  · exact List.mem_append_right _ (h' inner hinner hrule)

/-- A tree has the contents of its children, unless it is a content itself. -/
theorem FromTokens.node {trees : List (ParseTree Rule)} {tokens : List Token} {rule : Rule}
    (h : FromTokens trees tokens) (hrule : rule ≠ .quotedInner) (offset : Nat) (text : List Char) :
    FromTokens [.node rule offset text trees] tokens := by
  intro inner hinner hinnerRule
  rw [subtreesOf_cons, subtreesOf_nil, List.append_nil, subtrees, List.mem_cons] at hinner
  rcases hinner with rfl | hinner
  · exact absurd hinnerRule hrule
  · exact h inner hinner hinnerRule

/-- The content in the leaf of a token is that of the token. -/
theorem fromTokens_leaf {rule : Rule} (hrule : rule ≠ .quotedInner) (offset : Nat) (token : Token) :
    FromTokens [rule.leaf offset token] [token] := by
  refine FromTokens.node (fun inner hinner hinnerRule => ?_) hrule offset token.text
  -- Only strings have trees inside, and only quoted ones a content of this kind.
  cases token with
  | quoted content =>
    obtain rfl : inner = .node .quotedInner (offset + 1) content [] := by simpa [subtrees] using hinner
    exact List.mem_singleton_self _
  | html content =>
    obtain rfl : inner = .node .htmlInner (offset + 1) content [] := by simpa [subtrees] using hinner
    cases hinnerRule
  | word | numeral | operator | mark => simp at hinner

/-- What an expression reads has the contents of its tokens if this is so for its calls. -/
theorem fromTokens_of_spells {e : Expr Rule} {trees : List (ParseTree Rule)} {tokens : List Token}
    (h : Spells (fun _ => FromTokens) e trees tokens) : FromTokens trees tokens :=
  combined_of_spells (W := FromTokens) (by simp [FromTokens]) (by simp [FromTokens]) FromTokens.append id h

/-- The contents in the tree of each rule come from its tokens, if this is so for the rules that its body calls.
-/
theorem fromTokens_closed : Closed fun _ => FromTokens where
  terminal {rule token} hrule _ offset := by
    refine fromTokens_leaf ?_ offset token
    rintro rfl
    cases hrule
  branch {rule trees tokens} hrule _ h offset text := by
    refine (fromTokens_of_spells h).node ?_ offset text
    rintro rfl
    cases hrule
  silent _ _ h := fromTokens_of_spells h

/-- What is between quotes in a text that is parsed can be read on its own. -/
theorem isContent_of_accepts {text : List Char} {tree inner : ParseTree Rule} (h : Accepts text tree)
    (hinner : inner ∈ tree.subtrees) (hrule : inner.rule = .quotedInner) : IsContent inner.text := by
  obtain ⟨read, trees, offset, tokens, rfl, hlex, hspells⟩ := spelled_of_accepts fromTokens_closed h
  have hend : FromTokens [.node .endOfInput offset [] []] [] := by simp [FromTokens, subtrees]
  have htree : FromTokens [.node .document 0 read (trees ++ [.node .endOfInput offset [] []])] (tokens ++ []) :=
    ((fromTokens_of_spells hspells).append hend).node (by decide) 0 read
  rw [List.append_nil] at htree
  obtain ⟨value, hvalue, hcontent⟩ :=
    valid_of_lex hlex _ (htree inner (by simpa using hinner) hrule)
  exact isContent_iff.2 ⟨value, hvalue.paired, hcontent⟩

/-! ## Strings that are joined -/

/-- Contents written between quotes, with a plus sign between any two of them, and layout around each plus
sign. -/
inductive Concatenates : List (List Char) → List Char → Prop where
  /-- One content. -/
  | single (raw : List Char) : Concatenates [raw] ('"' :: (raw ++ ['"']))
  /-- One content and more behind a plus sign. -/
  | more (raw : List Char) {before after : List Char} {raws : List (List Char)} {text : List Char} :
      Layout before → Layout after → Concatenates raws text →
      Concatenates (raw :: raws) ('"' :: (raw ++ '"' :: (before ++ '+' :: (after ++ text))))

/-- A plus sign and the string behind it, in the body of the rule for joined strings. -/
def further : Expr Rule := .seq (mark '+') (.call .quotedString)

/-- Behind layout that can be dropped, the grammar stands where the lexer does. -/
theorem gap_rest {cursor : Cursor} (h : dropLayout cursor.rest = some rest) : (gap cursor).next.rest = rest := by
  have hsame := dropLayout_of_behind (behind_gap cursor)
  rcases settled_gap cursor with hdrop | ⟨tail, heq, hopen⟩
  · rw [h, hdrop] at hsame
    exact (Option.some.inj hsame).symm
  · -- A comment that is never closed has no end to be dropped to.
    rw [h, heq, dropLayout, dropBlock_eq, hopen] at hsame
    cases hsame

/-- A content between quotes is found as a string, whatever follows it. -/
theorem find_content (h : IsContent raw) (offset : Nat) (rest : List Char) :
    find (.call .quotedString) .spaced ⟨offset, '"' :: (raw ++ '"' :: rest)⟩ =
      some (terminalMatch .quotedString offset (.quoted raw) rest) := by
  obtain ⟨value, hvalue, rfl⟩ := isContent_iff.1 h
  exact (findsToken_quotedString _ _ _).2 ⟨_, rest, take?_content hvalue rest, rfl, rfl⟩

/-- A repetition reads, behind the layout, what is read in rounds. -/
theorem find_star_of_findRounds {e : Expr Rule} (he : e.mayBeEmpty Rule.mayBeEmpty = false) {place : Cursor}
    {later : Match Rule} (h : findRounds e .spaced place = some later) :
    ∃ found, find (.star e) .spaced (gap place).next = some found ∧ found.trees = later.trees ∧
      found.next.rest <:+ later.next.rest := by
  have hround : (round e .spaced place).found =
      (find e .spaced (gap place).next).map (gap place).append := round_found e
  rw [findRounds_eq he, hround] at h
  -- The star reads its first round without a gap before it, and the others as the rounds do.
  rw [find_star]
  rcases hfirst : find e .spaced (gap place).next with _ | first
  · obtain rfl : Match.empty place = later := by simpa [hfirst] using h
    exact ⟨_, rfl, rfl, ⟨_, (gap_startsAt place).1.symm⟩⟩
  · rw [hfirst] at h
    obtain ⟨more, hmore, rfl⟩ := Option.map_eq_some_iff.1 h
    have hmore' : findRounds e .spaced first.next = some more := hmore
    exact ⟨first.append more, by simp [hmore'], by simp, List.suffix_rfl⟩

/-- A plus sign and what stands behind the layout there. -/
theorem find_further {cursor : Cursor} {after cs : List Char} (hcursor : cursor.rest = '+' :: (after ++ cs))
    (hafter : Layout after) (hcs : dropLayout cs = some cs) :
    ∃ offset, ∀ string, find (.call .quotedString) .spaced ⟨offset, cs⟩ = some string →
      ∃ found, find further .spaced cursor = some found ∧ found.trees = string.trees ∧
        found.next = string.next := by
  obtain ⟨place, rest⟩ := cursor
  obtain rfl : rest = '+' :: (after ++ cs) := hcursor
  have hmark : find (mark '+') .spaced ⟨place, '+' :: (after ++ cs)⟩ = some (piece place ['+'] (after ++ cs)) :=
    (find_mark (by decide)).2 ⟨_, rfl, rfl⟩
  have hgap : (gap (piece place ['+'] (after ++ cs)).next).next.rest = cs :=
    gap_rest (by rw [piece_next, dropLayout_layout hafter, hcs])
  -- All that matters of the layout behind the sign is where it ends.
  generalize hlayout : gap (piece place ['+'] (after ++ cs)).next = layout at hgap
  refine ⟨layout.next.offset, fun string hstring => ?_⟩
  rw [← hgap] at hstring
  refine ⟨(piece place ['+'] (after ++ cs)).append (layout.append string), ?_, ?_, rfl⟩
  · rw [further, find_seq, hmark, Option.bind_some, hlayout, hstring, Option.map_some]
  · simp [← hlayout]

/-- Something that is no plus sign is read in no round. -/
theorem findRounds_further_nil {cursor : Cursor} (h : ∀ tail, dropLayout cursor.rest ≠ some ('+' :: tail)) :
    findRounds further .spaced cursor = some (.empty cursor) := by
  -- The layout before a round ends where that of the text does, and no sign follows there.
  have hmark : find (mark '+') .spaced ⟨(gap cursor).next.offset, (gap cursor).next.rest⟩ = none := by
    refine find_literal_eq_none fun tail htail => h tail ?_
    rw [dropLayout_of_behind (behind_gap cursor), htail]
    rfl
  have hround : (round further .spaced cursor).found =
      (find further .spaced (gap cursor).next).map (gap cursor).append := round_found further
  rw [findRounds_eq (by decide), hround, further, find_seq, hmark]
  rfl

/-- A further string and those behind it are read in rounds. -/
theorem findRounds_further_cons {cursor : Cursor} {found later : Match Rule}
    (h : find further .spaced (gap cursor).next = some found)
    (hlater : findRounds further .spaced found.next = some later) :
    findRounds further .spaced cursor = some (((gap cursor).append found).append later) := by
  have hround : (round further .spaced cursor).found =
      (find further .spaced (gap cursor).next).map (gap cursor).append := round_found further
  rw [findRounds_eq (by decide), hround, h, Option.map_some]
  simp [hlater]

/-- What is read where no more is left than was behind a text begins with the text. -/
theorem prefix_of_suffix {text behind read left : List Char} (h : text ++ behind = read ++ left)
    (hleft : left <:+ behind) : text <+: read := by
  refine List.prefix_of_prefix_length_le ⟨behind, rfl⟩ ⟨left, h.symm⟩ ?_
  have hlength := congrArg List.length h
  have hle := hleft.length_le
  rw [List.length_append, List.length_append] at hlength
  omega

/-- Strings that are joined begin with a quote. -/
theorem Concatenates.head {raws : List (List Char)} {text : List Char} (h : Concatenates raws text) :
    ∃ tail, text = '"' :: tail := by
  cases h <;> exact ⟨_, rfl⟩

/-- The first string and those behind plus signs are read up to something that is no plus sign. -/
theorem reads_concatenates {raws : List (List Char)} {text behind : List Char}
    (h : Concatenates raws text) (hraws : ∀ raw ∈ raws, IsContent raw)
    (hbehind : ∀ tail, dropLayout behind ≠ some ('+' :: tail)) (offset : Nat) :
    ∃ first later, find (.call .quotedString) .spaced ⟨offset, text ++ behind⟩ = some first ∧
      findRounds further .spaced first.next = some later ∧ later.next.rest = behind ∧
      (first.trees ++ later.trees).flatMap quotedText = raws.flatMap unescape := by
  induction h generalizing offset with
  | single raw =>
    obtain ⟨hraw, -⟩ := List.forall_mem_cons.1 hraws
    have hfirst := find_content hraw offset behind
    exact ⟨_, _, by simpa using hfirst, findRounds_further_nil hbehind, rfl,
      by simp [terminalMatch, quotedText, Rule.leaf]⟩
  | @more raw before after raws text hbefore hafter hmore ih =>
    obtain ⟨hraw, hraws⟩ := List.forall_mem_cons.1 hraws
    have hfirst := find_content hraw offset (before ++ '+' :: (after ++ (text ++ behind)))
    -- Behind the first string there is layout, a plus sign, layout again, and the other strings.
    have hplus : (gap (terminalMatch .quotedString offset (.quoted raw)
        (before ++ '+' :: (after ++ (text ++ behind)))).next).next.rest = '+' :: (after ++ (text ++ behind)) :=
      gap_rest (by rw [terminalMatch, dropLayout_layout hbefore]; rfl)
    obtain ⟨tail, htail⟩ := hmore.head
    obtain ⟨place, hplace⟩ := find_further hplus hafter (by rw [htail]; rfl)
    obtain ⟨second, later, hsecond, hlater, hrest, htext⟩ := ih hraws place
    obtain ⟨found, hfound, htrees, hnext⟩ := hplace second hsecond
    rw [← hnext] at hlater
    refine ⟨_, _, by simpa using hfirst, findRounds_further_cons hfound hlater, hrest, ?_⟩
    simp [terminalMatch, quotedText, Rule.leaf, htrees, ← htext]

/-- The identifier of strings that are joined says what each of them says, one after the other. -/
theorem id_of_concatenates {raws : List (List Char)} {text behind : List Char}
    (h : Concatenates raws text) (hraws : ∀ raw ∈ raws, IsContent raw)
    (hbehind : ∀ tail, dropLayout behind ≠ some ('+' :: tail)) (offset : Nat) :
    ∃ found tree, (grammar.phrase .id .spaced ⟨offset, text ++ behind⟩).found = some found ∧
      found.trees = [tree] ∧ text <+: tree.text ∧
      Id.ofTree tree = .quoted (String.ofList (raws.flatMap unescape)) := by
  obtain ⟨first, later, hfirst, hlater, hrest, htext⟩ := reads_concatenates h hraws hbehind offset
  obtain ⟨more, hmore, htrees, hsuffix⟩ := find_star_of_findRounds (by decide) hlater
  have hconcat : find (.call .quotedConcat) .spaced ⟨offset, text ++ behind⟩ =
      some ((first.append ((gap first.next).append more)).asTree .quotedConcat ⟨offset, text ++ behind⟩) := by
    have hbody : (production .quotedConcat).body = .seq (.call .quotedString) (.star further) := rfl
    rw [find_branch rfl (by decide), hbody, find_seq, hfirst, Option.bind_some, hmore]
    rfl
  -- What begins with a quote is no HTML string, which is tried before.
  have hhtml : find (.call .htmlString) .spaced ⟨offset, text ++ behind⟩ = none := by
    obtain ⟨tail, rfl⟩ := h.head
    exact find_string_eq_none rfl (by simp)
  have hid : (grammar.phrase .id .spaced ⟨offset, text ++ behind⟩).found =
      some (((first.append ((gap first.next).append more)).asTree .quotedConcat
        ⟨offset, text ++ behind⟩).asTree .id ⟨offset, text ++ behind⟩) := by
    refine (find_branch rfl (by decide)).trans ?_
    rw [production, find_any_cons, hhtml, Option.none_or, find_any_cons, hconcat, Option.some_or]
    rfl
  refine ⟨_, _, hid, rfl, ?_, ?_⟩
  · have hstarts := (grammar.phrase_consumes .id .spaced _ _ hid).1
    exact prefix_of_suffix hstarts (hrest ▸ hsuffix)
  · have hstrings : (first.append ((gap first.next).append more)).trees.flatMap quotedText =
        raws.flatMap unescape := by
      rw [← htext, Match.append_trees, Match.append_trees, gap_trees, htrees, List.nil_append]
    rw [← hstrings]
    rfl

/-- Reading a content and writing it again are inverse to each other, between all contents that the grammar
reads and all texts in which no odd run of backslashes stands before a quote or at the end. Where reading comes
to an end of a content, the content says what was passed says, followed by what that end says. In a text that is
parsed, reading never comes to a backslash that ends a content. Strings that are joined, with any layout around
the plus signs and anything but a plus sign behind them, make an identifier that says what each of them says,
one after the other. -/
theorem quoted_strings_lossless :
    (∀ raw, IsContent raw → escape (unescape raw) = raw) ∧
    (∀ value, IsQuotable value → IsContent (escape value) ∧ unescape (escape value) = value) ∧
    Set.BijOn unescape {raw | IsContent raw} {value | IsQuotable value} ∧
    (∀ raw rest, ComesTo raw rest → ∃ front, raw = front ++ rest ∧ unescape raw = unescape front ++ unescape rest) ∧
    (∀ text tree, Accepts text tree → ∀ inner ∈ tree.subtrees, inner.rule = .quotedInner →
      IsContent inner.text ∧ ¬ComesTo inner.text ['\\']) ∧
    ∀ raws text, Concatenates raws text → (∀ raw ∈ raws, IsContent raw) →
      ∀ offset behind, (∀ tail, dropLayout behind ≠ some ('+' :: tail)) →
        ∃ found tree, (grammar.phrase .id .spaced ⟨offset, text ++ behind⟩).found = some found ∧
          found.trees = [tree] ∧ text <+: tree.text ∧
          Id.ofTree tree = .quoted (String.ofList (raws.flatMap unescape)) := by
  refine ⟨fun raw => escape_unescape, fun value h => ⟨isContent_escape h, unescape_escape h.paired⟩,
    bijOn_unescape, fun raw rest => ComesTo.unescape_eq, fun text tree h inner hinner hrule => ?_,
    fun raws text h hraws offset behind hbehind => ?_⟩
  · have hcontent := isContent_of_accepts h hinner hrule
    exact ⟨hcontent, not_comesTo_slash_of_isContent hcontent⟩
  · exact id_of_concatenates h hraws hbehind offset

end Grammar

end DotLang
