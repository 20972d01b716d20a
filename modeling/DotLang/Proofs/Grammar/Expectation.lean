import DotLang.ParseError.Failure
import DotLang.Proofs.Grammar.Layout
import DotLang.Proofs.Peg.Expectation

/-!
# Rejected texts name a rule that has a label

Wherever the grammar rejects a text, a rule with a label is among those that failed furthest
(`exists_label_of_rejected`). One rule without a label can be the only one that failed at a place: where a
subgraph is tried and there is neither the keyword nor a brace, only the keyword is reported. But then
something else is tried there too, and names itself, or it reads on and what follows fails further on. The
end of the input is expected behind a graph, and so is another graph.
-/

namespace DotLang

open Peg

namespace Rule

/-- Whether a rule has a label. -/
def Labelled (rule : Rule) : Prop :=
  rule.label.isSome = true

instance (rule : Rule) : Decidable rule.Labelled :=
  inferInstanceAs (Decidable (_ = _))

/-- The rules of which words, numbers and strings are made. -/
def isLexical : Rule → Bool
  | identStart | identChar | htmlNested => true
  | _ => false

/-- The rules that call no statements. -/
def isPlain : Rule → Bool
  | strict | graphKind | attrTarget | edgeOp | identifier | numeral => true
  | quotedString | quotedInner | quotedConcat | htmlString | htmlInner => true
  | id | port | attr | attrList | nodeId | nodeStmt | assignment | attrStmt => true
  | _ => false

end Rule

namespace Grammar

/-- The grammar is one of which every failure can be told. -/
theorem grammar_helpful : grammar.Helpful Rule.Labelled (Rule.isLexical ·) (Rule.isPlain ·) where
  quiet_kind rule := by cases rule <;> decide
  quiet_calls rule := by cases rule <;> decide
  kind rule := by cases rule <;> decide
  calls rule := by cases rule <;> decide
  shown_or_star rule h := by
    by_cases hlabel : rule.Labelled
    · exact .inl hlabel
    · cases rule <;> first
        | exact absurd h (by decide)
        | exact absurd rfl hlabel
        | exact .inr ⟨_, rfl⟩

/-- The reply of an expression in a spaced sequence. -/
def reply (e : Expr Rule) (cursor : Cursor) : Reply Rule :=
  e.run (grammar.gap grammar.phrase) grammar.phrase .spaced cursor

/-- What an expression finds begins at the cursor. -/
theorem reply_consumes (e : Expr Rule) (cursor : Cursor) : (reply e cursor).Consumes cursor :=
  Expr.run_consumes (Peg.Grammar.gap_startsAt grammar.phrase_consumes) grammar.phrase_consumes e .spaced cursor

/-- A rule replies as its body does, and is recorded by its kind. -/
theorem reply_call (rule : Rule) (cursor : Cursor) :
    reply (.call rule) cursor = (production rule).kind.read rule
      ((production rule).body.run (grammar.gap grammar.phrase) grammar.phrase) .spaced cursor :=
  grammar_phrase_eq rule .spaced cursor

/-- A rule that is recorded reads its body. -/
theorem reply_branch {rule : Rule} (hkind : (production rule).kind = .branch) (cursor : Cursor) :
    reply (.call rule) cursor = (reply (production rule).body cursor).record rule .spaced cursor := by
  rw [reply_call, hkind]
  rfl

/-- A silent rule replies as its body does. -/
theorem reply_silent {rule : Rule} (hkind : (production rule).kind = .silent) (cursor : Cursor) :
    reply (.call rule) cursor = reply (production rule).body cursor := by
  rw [reply_call, hkind]
  rfl

section

variable {first second : Expr Rule} {cursor : Cursor} {found : Match Rule}

/-- A sequence replies as its first member, and behind layout as its second. -/
theorem reply_seq (first second : Expr Rule) (cursor : Cursor) :
    reply (.seq first second) cursor = (reply first cursor).andThen fun found =>
      (Reply.ok (gap found.next)).andThen fun gap => reply second gap.next := rfl

/-- The failures of a sequence are those of its first member and, if this is found, of the second. -/
theorem attempts_seq_of_found (h : (reply first cursor).found = some found) :
    (reply (.seq first second) cursor).attempts =
      (reply first cursor).attempts.merge (reply second (gap found.next).next).attempts := by
  rw [reply_seq, Reply.attempts_andThen_of_found h, Reply.attempts_ok_andThen]

/-- Where its first member fails, a sequence has the failures of this member. -/
theorem attempts_seq_of_not_found (h : (reply first cursor).found = none) :
    (reply (.seq first second) cursor).attempts = (reply first cursor).attempts := by
  rw [reply_seq, Reply.attempts_andThen_of_not_found h]

/-- A property of failures that is kept when they are merged is one of a sequence, if it is one of its
members. -/
theorem attempts_seq {P : Attempts Rule → Prop} (hmerge : ∀ {a b}, P a → P b → P (a.merge b))
    (h : P (reply first cursor).attempts)
    (h' : ∀ found, (reply first cursor).found = some found → P (reply second (gap found.next).next).attempts) :
    P (reply (.seq first second) cursor).attempts := by
  rcases hfound : (reply first cursor).found with _ | found
  · rwa [attempts_seq_of_not_found hfound]
  · rw [attempts_seq_of_found hfound]
    exact hmerge h (h' found hfound)

end

/-- A plain rule with a label names a rule with a label wherever it fails. -/
theorem reports_plain (rule : Rule) (hplain : rule.isPlain = true) (hlabel : rule.Labelled) (cursor : Cursor) :
    (reply (.call rule) cursor).Reports Rule.Labelled cursor :=
  Peg.Grammar.phrase_reports grammar_helpful hplain hlabel (by decide) cursor

/-! ## Closure -/

/-- In every text up to a length, an expression that fails names a rule with a label, and if anything has
failed behind what it reads, such a rule has. -/
def Informs (e : Expr Rule) (length : Nat) : Prop :=
  ∀ cursor : Cursor, cursor.rest.length ≤ length → (reply e cursor).Informs Rule.Labelled cursor

variable {first second body : Expr Rule} {length : Nat}

/-- A plain rule with a label informs about texts of every length. -/
theorem informs_plain (rule : Rule) (hplain : rule.isPlain = true) (hlabel : rule.Labelled) :
    Informs (.call rule) length :=
  fun cursor _ => (reports_plain rule hplain hlabel cursor).informs

/-- A sequence informs if both of its members do. -/
theorem Informs.seq (h : Informs first length) (h' : Informs second length) :
    Informs (.seq first second) length := by
  intro cursor hcursor
  refine (h cursor hcursor).andThen (reply_consumes first cursor) fun found hfound => ⟨?_, ?_⟩
  -- Behind the first member and its layout, less is left of the text, so the second one informs there.
  · have hle := (reply_consumes first cursor found hfound).length_le
    have hgap := (gap_startsAt found.next).length_le
    have hsecond := h' (gap found.next).next (by omega)
    refine (Reply.informs_ok (gap found.next)).andThen (Reply.ok_consumes (gap_startsAt _)) ?_
    rintro _ ⟨⟩
    exact ⟨hsecond, reply_consumes second _⟩
  · exact (Reply.ok_consumes (gap_startsAt _)).andThen fun gap _ => reply_consumes second gap.next

/-- Of two alternatives that fail, it is enough that one names a rule with a label. -/
theorem informs_alt {cursor : Cursor} (h : (reply first cursor).Tells Rule.Labelled cursor)
    (h' : (reply second cursor).Tells Rule.Labelled cursor)
    (hnames : (reply first cursor).found = none → (reply second cursor).found = none →
      (reply first cursor).attempts.Names Rule.Labelled cursor.offset ∨
        (reply second cursor).attempts.Names Rule.Labelled cursor.offset) :
    (reply (.alt first second) cursor).Informs Rule.Labelled cursor := by
  have hreply : reply (.alt first second) cursor = (reply first cursor).orElse fun _ => reply second cursor := rfl
  rw [hreply]
  exact h.orElse h' (reply_consumes second cursor) hnames

/-- A choice informs if both of its alternatives do. -/
theorem Informs.alt (h : Informs first length) (h' : Informs second length) :
    Informs (.alt first second) length :=
  fun cursor hcursor => informs_alt (h cursor hcursor).tells (h' cursor hcursor).tells
    fun hnone _ => .inl ((h cursor hcursor).names hnone)

/-- What may be missing informs if it does where it is there. -/
theorem Informs.opt (h : Informs body length) : Informs (.opt body) length :=
  fun cursor hcursor => (h cursor hcursor).tells.orEmpty

/-- A mark that may be missing leaves no failures. -/
theorem informs_opt_mark (c : Char) : Informs (.opt (mark c)) length :=
  fun _ _ => Reply.Tells.orEmpty Attempts.tells_none

/-- Behind a repetition, a rule with a label has failed. -/
theorem Informs.star_names (hbody : body.mayBeEmpty Rule.mayBeEmpty = false) (h : Informs body length)
    {cursor : Cursor} (hcursor : cursor.rest.length ≤ length) :
    ∃ found, (reply (.star body) cursor).found = some found ∧
      (reply (.star body) cursor).attempts.Names Rule.Labelled found.next.offset ∧
      (found.text ≠ [] → (reply (.star body) cursor).attempts.Names Rule.Labelled (gap found.next).next.offset) :=
  Expr.run_star_names (Peg.Grammar.gap_startsAt grammar.phrase_consumes) grammar.phrase_consumes
    (fun _ _ h => text_ne_nil_of_find hbody h) fun place hplace => h place (Nat.le_trans hplace hcursor)

/-- A repetition informs if its body does and reads something in each round. -/
theorem Informs.star (hbody : body.mayBeEmpty Rule.mayBeEmpty = false) (h : Informs body length) :
    Informs (.star body) length := by
  intro cursor hcursor
  obtain ⟨found, hfound, hnames, -⟩ := h.star_names hbody hcursor
  refine ⟨hnames.shows.tells, fun hnone => ?_⟩
  rw [hnone] at hfound
  cases hfound

/-! ## Statements -/

/-- A subgraph whose statements have been read leaves failures of rules with labels. If there is none, at most
its keyword is missing, and this where it is tried. -/
theorem tells_subgraph
    (h : ∀ place : Cursor, place.rest.length < length →
      (reply (.call .stmtList) place).attempts.Shows Rule.Labelled)
    {cursor : Cursor} (hcursor : cursor.rest.length ≤ length) :
    (reply (.call .subgraph) cursor).attempts.Tells Rule.Labelled cursor.offset := by
  have hkeyword : (reply (.call .subgraphKeyword) cursor).attempts.Tells Rule.Labelled cursor.offset := by
    rw [reply_call]
    have hcalls : (production .subgraphKeyword).body.calls = [] := by
      simp [production, wholeWord, Expr.any, Expr.calls]
    exact Reply.tells_record _ (by decide) (Expr.run_clear _ (by simp [hcalls]) cursor).tells
  have hid : ∀ place, (reply (.opt (.call .id)) place).attempts.Tells Rule.Labelled cursor.offset := fun place =>
    (reports_plain .id rfl rfl place).clear.tells
  have hmark : ∀ c place, (reply (mark c) place).attempts.Tells Rule.Labelled cursor.offset := fun _ _ =>
    Attempts.tells_none
  rw [reply_branch rfl]
  refine Reply.tells_record _ (by decide) (attempts_seq .merge (attempts_seq .merge hkeyword fun _ _ => hid _)
    fun front hfront => attempts_seq .merge (hmark _ _) fun brace hbrace =>
      attempts_seq .merge (Attempts.Shows.tells (h _ ?_)) fun _ _ => hmark _ _)
  -- The brace has been read, so less is left.
  have hshort := (reply_consumes _ _ brace hbrace).length_lt (text_ne_nil_of_find rfl hbrace)
  have hfront := (reply_consumes _ cursor front hfront).length_le
  have hgap := (gap_startsAt front.next).length_le
  have hgap' := (gap_startsAt brace.next).length_le
  omega

/-- An operand is a subgraph or a node, and where neither is found the node is named. -/
theorem informs_edgeOperand
    (h : ∀ place : Cursor, place.rest.length < length →
      (reply (.call .stmtList) place).attempts.Shows Rule.Labelled) :
    Informs (.call .edgeOperand) length := by
  intro cursor hcursor
  have hnode : (reply (.call .nodeId) cursor).Informs Rule.Labelled cursor :=
    informs_plain .nodeId rfl rfl cursor hcursor
  rw [reply_silent rfl]
  exact informs_alt ((reply_consumes _ cursor).tells (tells_subgraph h hcursor)) hnode.tells
    fun _ hnone => .inr (hnode.names hnone)

/-- An edge informs, if lists of statements in shorter texts name a rule with a label. -/
theorem informs_edgeStmt
    (h : ∀ place : Cursor, place.rest.length < length →
      (reply (.call .stmtList) place).attempts.Shows Rule.Labelled) :
    Informs (.call .edgeStmt) length := by
  intro cursor hcursor
  have hoperand := informs_edgeOperand h
  have hlink : Informs (.all [.call .edgeOp, .call .edgeOperand]) length :=
    (informs_plain .edgeOp rfl rfl).seq hoperand
  have hlists : Informs (.opt (.call .attrList)) length := (informs_plain .attrList rfl rfl).opt
  rw [reply_branch rfl]
  exact ((hoperand.seq ((hlink.seq (hlink.star rfl)).seq hlists)) cursor hcursor).record rfl (by decide)

/-- Of the forms of statements only the last, a subgraph, can fail without naming a rule with a label. -/
theorem informs_stmt
    (h : ∀ place : Cursor, place.rest.length < length →
      (reply (.call .stmtList) place).attempts.Shows Rule.Labelled) :
    Informs (.call .stmt) length := by
  have hnode : Informs (.call .nodeStmt) length := informs_plain .nodeStmt rfl rfl
  have hlast : Informs (.alt (.call .nodeStmt) (.call .subgraph)) length := fun cursor hcursor =>
    informs_alt (hnode cursor hcursor).tells ((reply_consumes _ cursor).tells (tells_subgraph h hcursor))
      fun hnone _ => .inl ((hnode cursor hcursor).names hnone)
  intro cursor hcursor
  rw [reply_silent rfl]
  have hattributes : Informs (.call .attrStmt) length := informs_plain .attrStmt rfl rfl
  have hassignment : Informs (.call .assignment) length := informs_plain .assignment rfl rfl
  exact hattributes.alt ((informs_edgeStmt h).alt (hassignment.alt hlast)) cursor hcursor

/-- The statements of a list end where no further one is found, and this names a rule with a label. -/
theorem shows_stmtList (cursor : Cursor) :
    (reply (.call .stmtList) cursor).attempts.Shows Rule.Labelled := by
  -- By induction on the length of the text: a subgraph reads its brace before its statements.
  induction hn : cursor.rest.length using Nat.strongRecOn generalizing cursor
  rename_i length ih
  subst hn
  have hstmt := informs_stmt fun place hplace => ih place.rest.length hplace place rfl
  have hround : Informs (.all [.call .stmt, .opt (mark ';')]) cursor.rest.length :=
    hstmt.seq (informs_opt_mark ';')
  obtain ⟨found, hfound, hnames, -⟩ := hround.star_names rfl (Nat.le_refl _)
  have hbody : (reply (production .stmtList).body cursor).found = some found := hfound
  rw [reply_branch rfl, Reply.attempts_record_of_found hbody]
  exact hnames.shows

/-- A graph that is not found names a rule with a label. -/
theorem reports_graph (cursor : Cursor) : (reply (.call .graph) cursor).Reports Rule.Labelled cursor := by
  rw [reply_branch rfl]
  refine Reply.reports_record rfl (by decide) (Expr.run_clear _ (fun head hhead place => ?_) cursor)
  -- What the body calls is plain, but for the statements, which always show something.
  have hcalls : head = .strict ∨ head = .graphKind ∨ head = .id ∨ head = .stmtList := by
    simpa [production, Expr.all, Expr.calls, mark] using hhead
  rcases hcalls with rfl | rfl | rfl | rfl
  · exact (reports_plain .strict rfl rfl place).clear
  · exact (reports_plain .graphKind rfl rfl place).clear
  · exact (reports_plain .id rfl rfl place).clear
  · exact .inr (shows_stmtList place)

/-- Where graphs have been read and the text goes on, another graph has failed at the place where the text
should end. -/
theorem names_graphs {cursor : Cursor} (hcursor : Settled cursor.rest) :
    ∃ found, (reply (.star (.call .graph)) cursor).found = some found ∧
      (reply (.star (.call .graph)) cursor).attempts.Names Rule.Labelled (gap found.next).next.offset := by
  have hgraph : Informs (.call .graph) cursor.rest.length := fun place _ => (reports_graph place).informs
  obtain ⟨found, hfound, hnames, hbehind⟩ := hgraph.star_names rfl (Nat.le_refl _)
  refine ⟨found, hfound, ?_⟩
  -- Where no graph is found, there is no layout at the cursor either.
  by_cases htext : found.text = []
  · have hnext := (reply_consumes _ cursor found hfound).next_eq htext
    rw [hnext] at hnames ⊢
    rwa [gap_of_settled hcursor]
  · exact hbehind htext

/-- Where there is no graph, what is named is further on than the start of the text, or alone there. -/
theorem shows_first_graph {cursor : Cursor} (h : find (.call .graph) .spaced cursor = none) :
    (reply (.seq (.plus (.call .graph)) (.call .endOfInput)) cursor).attempts.Shows Rule.Labelled ∧
      (0 < (reply (.seq (.plus (.call .graph)) (.call .endOfInput)) cursor).attempts.offset ∨
        (reply (.seq (.plus (.call .graph)) (.call .endOfInput)) cursor).attempts.rules.length = 1) := by
  have hplus : find (.plus (.call .graph)) .spaced cursor = none := by
    rw [Expr.plus, find_seq, h, Option.bind_none]
  -- The sequence fails with its first member, whose attempts are the only ones.
  rw [attempts_seq_of_not_found hplus, Expr.plus, attempts_seq_of_not_found h]
  refine ⟨((reports_graph cursor).names h).shows, ?_⟩
  have hbody : (reply (production .graph).body cursor).found = none := by
    rw [find_branch rfl (by decide), Option.map_eq_none_iff] at h
    exact h
  rw [reply_branch rfl, Reply.attempts_record_of_not_found hbody _ (by decide)]
  -- Either the graph got further than its beginning, or a single rule is reported there.
  rcases Attempts.ofRule_cases .graph cursor.offset (reply (production .graph).body cursor).attempts with
    ⟨hkept, hfurther | hsingle⟩ | hreported
  · rw [hkept]
    exact .inl (Nat.zero_lt_of_lt hfurther)
  · rw [hkept]
    exact .inr hsingle.2
  · rw [hreported]
    exact .inr rfl

/-- Where graphs are followed by something else, what is named lies behind the first of them. -/
theorem shows_another_graph {cursor : Cursor} {graph : Match Rule}
    (hgraph : find (.call .graph) .spaced cursor = some graph)
    (h : find (.seq (.plus (.call .graph)) (.call .endOfInput)) .spaced cursor = none) :
    (reply (.seq (.plus (.call .graph)) (.call .endOfInput)) cursor).attempts.Shows Rule.Labelled ∧
      0 < (reply (.seq (.plus (.call .graph)) (.call .endOfInput)) cursor).attempts.offset := by
  obtain ⟨others, hothers, hnames⟩ := names_graphs (settled_gap graph.next)
  have hplus : find (.plus (.call .graph)) .spaced cursor =
      some (graph.append ((gap graph.next).append others)) := by
    have hstar : find (.star (.call .graph)) .spaced (gap graph.next).next = some others := hothers
    rw [Expr.plus, find_seq, hgraph, Option.bind_some, hstar, Option.map_some]
  -- The text does not end here, but a failure of this alone is one of a rule without a label.
  have hend : find (.call .endOfInput) .spaced (gap others.next).next = none := by
    rw [find_seq, hplus, Option.bind_some, Option.map_eq_none_iff] at h
    exact h
  have hbody : find (production .endOfInput).body .spaced (gap others.next).next = none := by
    rw [find_branch rfl (by decide), Option.map_eq_none_iff] at hend
    exact hend
  have htells : (reply (.call .endOfInput) (gap others.next).next).attempts.Tells Rule.Labelled
      (gap others.next).next.offset := by
    rw [reply_branch rfl]
    exact Reply.tells_record _ (by decide) (Expr.run_clear _ (by simp [production, Expr.calls]) _).tells
  rw [attempts_seq_of_found hplus, Expr.plus, attempts_seq_of_found hgraph, Match.append_next,
    Match.append_next]
  have hfirst : (reply (.call .graph) cursor).attempts.Tells Rule.Labelled (gap others.next).next.offset :=
    (reports_graph cursor).clear.tells
  -- The first graph has been read before this place.
  have hpos := Text.byteLength_pos (text_ne_nil_of_find rfl hgraph)
  have hstart := (reply_consumes _ cursor graph hgraph).2
  have hgap := (gap_startsAt graph.next).2
  have hthen := (reply_consumes _ _ others hothers).2
  have hgap' := (gap_startsAt others.next).2
  have hmerged := (Attempts.Names.merge_right hfirst hnames).merge_left htells
  exact ⟨hmerged.shows, Nat.lt_of_lt_of_le (by omega) hmerged.le⟩

/-- The furthest failures in a text that the grammar rejects: those of its graphs and its end, unless the
document itself takes their place. -/
theorem attempts_document {text : List Char} (h : (grammar.parse .document text).found = none) :
    (grammar.parse .document text).attempts =
      (reply (.seq (.plus (.call .graph)) (.call .endOfInput)) (gap (.start text)).next).attempts.ofRule
        .document 0 := by
  have hbody : (reply (production .document).body (.start text)).found = none := by
    have hparse : find (.call .document) .spaced (.start text) = none := h
    rw [find_branch rfl (by decide), Option.map_eq_none_iff] at hparse
    exact hparse
  -- The mark for the start of the input is always found and tries nothing.
  have hstart : (reply .start (.start text)).found = some (.empty (.start text)) := rfl
  have hattempts : (reply (production .document).body (.start text)).attempts =
      (reply (.seq (.plus (.call .graph)) (.call .endOfInput)) (gap (.start text)).next).attempts :=
    (attempts_seq_of_found hstart).trans (Attempts.none_merge _)
  have hparse : grammar.parse .document text = reply (.call .document) (.start text) := rfl
  have hzero : (Cursor.start text).offset = 0 := rfl
  rw [hparse, reply_branch rfl, Reply.attempts_record_of_not_found hbody _ (by decide), hattempts, hzero]

/-- Where the grammar rejects a text, a rule with a label is among those that failed furthest. -/
theorem exists_label_of_rejected {text : List Char} (h : (grammar.parse .document text).found = none) :
    (grammar.parse .document text).attempts.Shows Rule.Labelled := by
  have hinner : find (.seq (.plus (.call .graph)) (.call .endOfInput)) .spaced (gap (.start text)).next = none := by
    rwa [find_document, Option.map_eq_none_iff] at h
  rw [attempts_document h]
  -- What failed is not replaced by the document: it is further on, or alone at the start of the text.
  rcases hgraph : find (.call .graph) .spaced (gap (.start text)).next with _ | graph
  · obtain ⟨hshows, hplace⟩ := shows_first_graph hgraph
    exact Attempts.shows_ofRule_zero Rule.document hshows hplace
  · obtain ⟨hshows, hpos⟩ := shows_another_graph hgraph hinner
    exact Attempts.shows_ofRule_zero Rule.document hshows (.inl hpos)

end Grammar

end DotLang
