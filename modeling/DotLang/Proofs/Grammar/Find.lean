import DotLang.Grammar.Productions
import DotLang.Peg.Recursion
import DotLang.Proofs.Peg.Found

/-!
# What expressions of the grammar find

`Grammar.find` is the match that an expression finds in the grammar of DOT, and `Grammar.gap` the layout
between two members of a spaced sequence. There is one equation for each form of expression, and one for
each kind of rule; all that is said of the grammar later rests on these.
-/

namespace DotLang

open Peg

/-!
## The grammar of DOT has no left recursion

The rules of DOT can be ranked so that a rule calls only rules of lower rank before it has read anything.
So a rule reads what its body reads (`grammar_phrase_eq`), however deep a text nests.
-/

namespace Rule

/-- The rank of a rule: higher than that of every rule it may call before it has read anything. -/
def rank : Rule → Nat
  | endOfInput | whitespace | blockComment | lineComment | hashComment => 0
  | strict | graphKind | attrTarget | subgraphKeyword | keyword => 0
  | edgeOp | port | attrList | identStart | identChar => 0
  | quotedString | htmlString | htmlNested => 0
  -- From here on a rule calls those of lower rank at the place it begins at.
  | comment | attrStmt | quotedConcat => 1
  | graph | subgraph | identifier | numeral | quotedInner | htmlInner => 2
  | document | id => 3
  | nodeId | assignment | attr => 4
  | edgeOperand | nodeStmt => 5
  | edgeStmt => 6
  | stmt => 7
  | stmtList => 8

/-- Whether a rule may succeed without reading anything. -/
def mayBeEmpty : Rule → Bool
  | endOfInput | stmtList | quotedInner | htmlInner => true
  | _ => false

end Rule

/-- The ranks of rules rule out left recursion. -/
theorem grammar_ranked : grammar.Ranked Rule.rank Rule.mayBeEmpty where
  rank_lt rule := by cases rule <;> decide
  empty_of_mayBeEmpty rule := by cases rule <;> decide
  rank_head_lt rule := by cases rule <;> decide

/-- A rule of DOT reads what its body reads. -/
theorem grammar_phrase_eq (rule : Rule) (mode : Mode) (cursor : Cursor) :
    grammar.phrase rule mode cursor =
      (Grammar.production rule).kind.read rule
        ((Grammar.production rule).body.run (grammar.gap grammar.phrase) grammar.phrase) mode cursor :=
  Grammar.phrase_eq grammar_ranked rule mode cursor

end DotLang

namespace DotLang.Grammar

open Peg

/-- The match that an expression finds at a cursor. -/
def find (e : Expr Rule) (mode : Mode) (cursor : Cursor) : Option (Match Rule) :=
  (e.run (grammar.gap grammar.phrase) grammar.phrase mode cursor).found

/-- The layout at a cursor between two members of a spaced sequence. -/
def gap (cursor : Cursor) : Match Rule :=
  grammar.gap grammar.phrase .spaced cursor

/-- The layout at a cursor is what the rule for layout finds there, or nothing. -/
theorem gap_eq_find (cursor : Cursor) :
    gap cursor = (((layout.run (fun _ => .empty) grammar.phrase .atomic cursor).found).getD
      (.empty cursor)) := rfl

/-- Within tokens there is no layout. -/
theorem atomic_ne_spaced : Mode.atomic ≠ .spaced := by decide

/-- Within strings there is no layout. -/
theorem tight_ne_spaced : Mode.tight ≠ .spaced := by decide

/-- Only between tokens there is layout. -/
theorem gap_tight {mode : Mode} (hmode : mode ≠ .spaced) (cursor : Cursor) :
    grammar.gap grammar.phrase mode cursor = .empty cursor := by
  rw [Peg.Grammar.gap, if_neg hmode]

/-- Layout begins at the cursor. -/
theorem gap_startsAt (cursor : Cursor) : (gap cursor).StartsAt cursor :=
  Peg.Grammar.gap_startsAt grammar.phrase_consumes .spaced cursor

/-- A match of an expression that is never empty is not empty. -/
theorem text_ne_nil_of_find {e : Expr Rule} {mode : Mode} {cursor : Cursor} {found : Match Rule}
    (he : e.mayBeEmpty Rule.mayBeEmpty = false) (h : find e mode cursor = some found) :
    found.text ≠ [] :=
  e.run_nonEmpty (fun _ mode cursor hrule =>
    Peg.Grammar.phrase_nonEmpty grammar_ranked hrule mode cursor) he mode cursor found h

/-! ## Expressions -/

section

variable {mode : Mode} {cursor : Cursor}

/-- The start of the text is found at the start only. -/
theorem find_start : find .start mode cursor = if cursor.offset = 0 then some (.empty cursor) else none := by
  rw [find, Expr.run]
  split <;> rfl

/-- A keyword is found in any case. -/
theorem find_caseless (text : List Char) :
    find (.caseless text) mode cursor = matchText (fun c d => c.toLower == d.toLower) text cursor := rfl

/-- No character is found at the end of the text. -/
theorem find_char_nil (accepts : Char → Bool) (offset : Nat) :
    find (.char accepts) mode ⟨offset, []⟩ = none := rfl

/-- A character is found if it is accepted. -/
theorem find_char_cons (accepts : Char → Bool) (offset : Nat) (c : Char) (cs : List Char) :
    find (.char accepts) mode ⟨offset, c :: cs⟩ =
      if accepts c then some ⟨[c], [], ⟨offset + c.utf8Size, cs⟩⟩ else none := by
  simp only [find, Expr.run, Cursor.next]
  split <;> rfl

/-- A sequence is found if its first member is, and its second behind the layout. -/
theorem find_seq (first second : Expr Rule) :
    find (.seq first second) .spaced cursor =
      (find first .spaced cursor).bind fun found =>
        (find second .spaced (gap found.next).next).map fun later =>
          found.append ((gap found.next).append later) := by
  simp only [find, Expr.run, Reply.found_andThen, Reply.found_ok, Option.bind_some, Option.map_map]
  rfl

/-- Within tokens, the second member of a sequence is found right behind the first. -/
theorem find_seq_tight (hmode : mode ≠ .spaced) (first second : Expr Rule) :
    find (.seq first second) mode cursor =
      (find first mode cursor).bind fun found => (find second mode found.next).map found.append := by
  simp only [find, Expr.run, gap_tight hmode, Reply.found_andThen, Reply.found_ok, Option.bind_some,
    Option.map_map, Match.empty_next]
  rfl

/-- Of two alternatives the first one is found if there is one, and else the second. -/
theorem find_alt (first second : Expr Rule) :
    find (.alt first second) mode cursor = (find first mode cursor).or (find second mode cursor) := by
  simp only [find, Expr.run, Reply.found_orElse]

/-- What may be missing is found, or nothing is. -/
theorem find_opt (body : Expr Rule) :
    find (.opt body) mode cursor = some ((find body mode cursor).getD (.empty cursor)) := rfl

/-- What must not follow is looked for, and nothing is read. -/
theorem find_not (body : Expr Rule) :
    find (.not body) mode cursor =
      match find body mode cursor with
      | some _ => none
      | none => some (.empty cursor) := by
  simp only [find, Expr.run]
  split <;> simp_all

/-- One round of an expression: the layout before it, and what it reads. -/
def round (body : Expr Rule) (mode : Mode) (cursor : Cursor) : Reply Rule :=
  (Reply.ok (grammar.gap grammar.phrase mode cursor)).andThen fun gap =>
    body.run (grammar.gap grammar.phrase) grammar.phrase mode gap.next

/-- The match of as many rounds of an expression as there are. -/
def findRounds (body : Expr Rule) (mode : Mode) (cursor : Cursor) : Option (Match Rule) :=
  (Peg.rounds (round body mode) cursor).found

/-- A round finds the body behind the layout. -/
theorem round_found (body : Expr Rule) :
    (round body mode cursor).found =
      (find body mode (grammar.gap grammar.phrase mode cursor).next).map
        (grammar.gap grammar.phrase mode cursor).append := by
  simp only [round, Reply.found_andThen, Reply.found_ok, Option.bind_some]
  rfl

/-- A repetition is the expression once and then in rounds, or nothing. -/
theorem find_star (body : Expr Rule) :
    find (.star body) mode cursor =
      match find body mode cursor with
      | none => some (.empty cursor)
      | some found => (findRounds body mode found.next).map found.append := by
  have hstar : find (.star body) mode cursor =
      some (((find body mode cursor).bind fun found =>
        (findRounds body mode found.next).map found.append).getD (.empty cursor)) := by
    simp only [find, Expr.run, Reply.found_orEmpty, Reply.found_andThen]
    rfl
  rw [hstar]
  -- The default is never needed behind a first round, since further rounds find at least nothing.
  rcases find body mode cursor with _ | found
  · rfl
  · obtain ⟨later, hlater⟩ := Option.isSome_iff_exists.1
      (roundsWithin_found_isSome (round body mode) found.next.rest found.next)
    have hrounds : findRounds body mode found.next = some later := hlater
    simp [hrounds]

/-- Rounds of an expression that is never empty obey the equation of a repetition. -/
theorem findRounds_eq {body : Expr Rule} (hbody : body.mayBeEmpty Rule.mayBeEmpty = false) :
    findRounds body mode cursor =
      match (round body mode cursor).found with
      | none => some (.empty cursor)
      | some found => (findRounds body mode found.next).map found.append := by
  have hconsumes : ∀ place, (round body mode place).Consumes place := fun place =>
    (Reply.ok_consumes (Peg.Grammar.gap_startsAt grammar.phrase_consumes mode place)).andThen
      fun gap _ => Expr.run_consumes (Peg.Grammar.gap_startsAt grammar.phrase_consumes)
        grammar.phrase_consumes body mode gap.next
  -- A round is its gap and then the body, and the body reads a character at least.
  have hne : ∀ place, (round body mode place).NonEmpty := by
    intro place found h
    rw [round_found, Option.map_eq_some_iff] at h
    obtain ⟨inner, hinner, rfl⟩ := h
    simp [text_ne_nil_of_find hbody hinner]
  rw [findRounds, rounds_found hconsumes hne]
  rcases (round body mode cursor).found <;> rfl

/-- Outside spaced mode, a repetition goes on behind each round as it began. -/
theorem find_star_tight (hmode : mode ≠ .spaced) {body : Expr Rule}
    (hbody : body.mayBeEmpty Rule.mayBeEmpty = false) :
    find (.star body) mode cursor =
      match find body mode cursor with
      | none => some (.empty cursor)
      | some found => (find (.star body) mode found.next).map found.append := by
  have hround : ∀ place, (round body mode place).found = find body mode place := by
    intro place
    rw [round_found, gap_tight hmode]
    simp
  -- Without layout, a repetition and rounds are the same.
  have hrounds : ∀ place, findRounds body mode place = find (.star body) mode place := by
    intro place
    rw [findRounds_eq hbody, hround, find_star]
  rw [find_star]
  simp only [hrounds]

/-! ## Rules -/

/-- A rule finds what its kind makes of its body. -/
theorem find_call (rule : Rule) :
    find (.call rule) mode cursor = ((production rule).kind.read rule
      ((production rule).body.run (grammar.gap grammar.phrase) grammar.phrase) mode cursor).found := by
  rw [find, Expr.run, grammar_phrase_eq]

/-- A branch finds its body as a tree. -/
theorem find_branch {rule : Rule} (hkind : (production rule).kind = .branch) (hmode : mode ≠ .atomic) :
    find (.call rule) mode cursor =
      (find (production rule).body mode cursor).map (Match.asTree rule cursor) := by
  rw [find_call, hkind]
  exact Reply.found_record hmode rule cursor _

/-- A token finds its body without layout, as a tree. -/
theorem find_token {rule : Rule} (hkind : (production rule).kind = .token) (hmode : mode ≠ .atomic) :
    find (.call rule) mode cursor =
      (find (production rule).body .atomic cursor).map (Match.asTree rule cursor) := by
  rw [find_call, hkind]
  exact Reply.found_record hmode rule cursor _

/-- Within another token, a token leaves no tree. -/
theorem find_token_atomic {rule : Rule} (hkind : (production rule).kind = .token) :
    find (.call rule) .atomic cursor = find (production rule).body .atomic cursor := by
  rw [find_call, hkind]
  exact Reply.found_record_atomic rule cursor _

/-- A tight rule finds its body without layout, as a tree. -/
theorem find_tight {rule : Rule} (hkind : (production rule).kind = .tight) :
    find (.call rule) mode cursor =
      (find (production rule).body .tight cursor).map (Match.asTree rule cursor) := by
  rw [find_call, hkind]
  exact Reply.found_record (by decide) rule cursor _

/-- A silent rule finds its body, without a tree. -/
theorem find_silent {rule : Rule} (hkind : (production rule).kind = .silent) :
    find (.call rule) mode cursor = find (production rule).body mode cursor := by
  rw [find_call, hkind]
  rfl

/-- Layout finds its body without layout in it. -/
theorem find_layout {rule : Rule} (hkind : (production rule).kind = .layout) :
    find (.call rule) mode cursor = find (production rule).body .atomic cursor := by
  rw [find_call, hkind]
  rfl

/-! ## Whole texts -/

/-- At the end of a text, and only there, nothing is left to read. -/
theorem find_endOfInput :
    find (.call .endOfInput) .spaced cursor =
      if cursor.rest = [] then some ⟨[], [.node .endOfInput cursor.offset [] []], cursor⟩ else none := by
  rw [find_branch rfl (by decide), production, find_not]
  obtain ⟨offset, _ | ⟨c, cs⟩⟩ := cursor <;> rfl

/-- What the grammar reads at the start of a text as a document: layout, graphs, and the end of the text. -/
theorem find_document (text : List Char) :
    (grammar.parse .document text).found =
      (find (.seq (.plus (.call .graph)) (.call .endOfInput)) .spaced (gap (.start text)).next).map
        fun inner => ((gap (.start text)).append inner).asTree .document (.start text) := by
  have hparse : (grammar.parse .document text).found = find (.call .document) .spaced (.start text) := rfl
  have hbody : (production .document).body =
      .seq .start (.seq (.plus (.call .graph)) (.call .endOfInput)) := rfl
  have hstart : (Cursor.start text).offset = 0 := rfl
  rw [hparse, find_branch rfl (by decide), hbody, find_seq, find_start, if_pos hstart, Option.bind_some,
    Match.empty_next, Option.map_map]
  rfl

end

end DotLang.Grammar
