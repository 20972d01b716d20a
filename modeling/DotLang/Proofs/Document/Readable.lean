import DotLang.Proofs.Document.Acceptance
import DotLang.Proofs.Document.Placement

/-!
# What is spelled is read

Tokens that spell a rule are read by this rule to their end: choice is ordered and repetitions are greedy, but
nothing that fits is lost by this (`readable_closed`). So a text is accepted if its tokens spell graphs
(`exists_accepts_of_spells`). The edge operators need not be those of a kind of graph, which the grammar does
not look at.
-/

namespace DotLang.Grammar

open Peg Token

/-! ## Tokens of statements -/

/-- Tokens that are read as a statement where it ends in front of what follows. -/
structure IsStatement (tokens : List Token) : Prop where
  /-- A statement can begin so. -/
  begins : Begin beginsStatement tokens
  /-- They are read, and nothing behind them. -/
  reads : ∀ {rest}, Ended rest → Reads (.call .stmt) (tokens ++ rest) rest

/-- Tokens that are read as an operand where it ends in front of what follows. -/
structure IsOperand (tokens : List Token) : Prop where
  /-- An operand can begin so. -/
  begins : Begin beginsOperand tokens
  /-- They are read, and nothing behind them. -/
  reads : ∀ {rest}, NotAhead ['+', ':'] rest → Reads (.call .edgeOperand) (tokens ++ rest) rest

/-- Tokens that are read as the statements in front of a closing brace. -/
def IsBody (tokens : List Token) : Prop :=
  ∀ rest, Reads (.call .stmtList) (tokens ++ .mark '}' :: rest) (.mark '}' :: rest)

/-- Tokens of a subgraph: what stands before its braces, and statements between them. -/
def IsSubgraph (tokens : List Token) : Prop :=
  ∃ id head body, tokens = head ++ .mark '{' :: (body ++ [.mark '}']) ∧ Statement.Headed id head ∧ IsBody body

/-- The tokens that spell a rule as tokens that are read by it. -/
def readable : Rule → Spelling
  | .nodeStmt | .edgeStmt | .attrStmt | .assignment | .stmt => fun _ => IsStatement
  | .edgeOperand => fun _ => IsOperand
  | .subgraph => fun _ => IsSubgraph
  | .stmtList => fun _ => IsBody
  | .graph => fun _ tokens => ∀ rest, Reads (.call .graph) (tokens ++ rest) rest
  | rule => means rule

variable {trees : List (ParseTree Rule)} {tokens : List Token}

/-- A subgraph is read as a statement. -/
theorem IsSubgraph.isStatement (h : IsSubgraph tokens) : IsStatement tokens := by
  obtain ⟨id, head, body, rfl, hhead, hbody⟩ := h
  exact ⟨hhead.begins.imp fun _ => beginsStatement_of_beginsOperand,
    fun hrest => reads_stmt_subgraph hhead (hbody _) hrest⟩

/-- A subgraph is read as an operand. -/
theorem IsSubgraph.isOperand (h : IsSubgraph tokens) : IsOperand tokens := by
  obtain ⟨id, head, body, rfl, hhead, hbody⟩ := h
  exact ⟨hhead.begins, fun _ => reads_operand_subgraph hhead (hbody _)⟩

/-- What the rule for node statements spells is read as a statement. -/
theorem isStatement_node (h : Spells readable (production .nodeStmt).body trees tokens) : IsStatement tokens := by
  obtain ⟨_, _, first, groups, rfl, rfl, ⟨_, _, _, rfl, -, node, -, hnode⟩, hlists⟩ := h
  obtain ⟨-, -, pairs, -, hgrouped⟩ := lists_of_optional hlists
  exact ⟨(hnode.begins.imp fun _ h => beginsStatement_of_beginsOperand (beginsOperand_of_beginsId h)).append,
    fun hrest => reads_stmt_node hnode hgrouped hrest⟩

/-- What the rule for attribute statements spells is read as a statement. -/
theorem isStatement_attributes (h : Spells readable (production .attrStmt).body trees tokens) :
    IsStatement tokens := by
  obtain ⟨_, lists, _, groups, rfl, rfl, ⟨token, place, haccept, rfl, rfl⟩, hlists⟩ := h
  obtain ⟨word, rfl, hword⟩ := (Rule.accepts_words (by decide)).1 haccept
  obtain ⟨-, -, hne, pairs, -, hgrouped⟩ := lists_of_means hlists
  refine ⟨⟨_, _, rfl, ?_⟩, fun hrest => reads_stmt_attributes (sameWord_ofWord hword) hne hgrouped hrest⟩
  -- Each of the three words begins a statement.
  have hkeyword : Text.sameWord word Keyword.graph = true ∨ Text.sameWord word Keyword.node = true ∨
      Text.sameWord word Keyword.edge = true := by
    simpa [Rule.words] using hword
  rcases hkeyword with h | h | h <;> simp [beginsStatement, h]

/-- What the rule for assignments spells is read as a statement. -/
theorem isStatement_assignment (h : Spells readable (production .assignment).body trees tokens) :
    IsStatement tokens := by
  obtain ⟨-, pair, -, hpair⟩ := builds_pair h .assignment (by decide) 0 []
  exact ⟨hpair.begins.imp fun _ h => beginsStatement_of_beginsOperand (beginsOperand_of_beginsId h),
    fun hrest => reads_stmt_assignment hpair hrest⟩

/-- What the rule for operands spells is read as an operand. -/
theorem isOperand_of_spells (h : Spells readable (production .edgeOperand).body trees tokens) :
    IsOperand tokens := by
  rcases h with h | ⟨_, _, _, rfl, -, node, -, hnode⟩
  · exact h.isOperand
  · exact ⟨hnode.begins.imp fun _ => beginsOperand_of_beginsId, fun hrest => reads_operand_node hnode hrest⟩

/-! ## Edges -/

/-- An operator and an operand behind it. -/
theorem link_of_spells (h : Spells readable link trees tokens) :
    ∃ kind first, tokens = .operator kind :: first ∧ IsOperand first := by
  obtain ⟨_, _, _, first, rfl, rfl, ⟨token, place, haccept, rfl, rfl⟩, hoperand⟩ := h
  obtain ⟨kind, rfl⟩ := Rule.accepts_edgeOp.1 haccept
  exact ⟨kind, first, rfl, hoperand⟩

/-- Operators and operands are read in rounds, and in front of each round an operand ends. -/
theorem reads_links_of_repeats (h : Repeats (Spells readable link) trees tokens) {rest : List Token}
    (hrest : NotAhead ['+', ':'] rest) (hoperator : ∀ kind, rest.head? ≠ some (.operator kind)) :
    Reads (.star link) (tokens ++ rest) rest ∧ NotAhead ['+', ':'] (tokens ++ rest) := by
  induction h with
  | nil => exact ⟨.star_nil (rejects_link hoperator), hrest⟩
  | cons hround _ ih =>
    obtain ⟨kind, first, rfl, hfirst⟩ := link_of_spells hround
    rw [List.append_assoc, List.cons_append]
    exact ⟨.star (by decide) ((reads_terminal rfl rfl).seq (hfirst.reads ih.2)) ih.1, notAhead_cons.2 (by simp)⟩

/-- What the rule for edges spells is read as a statement. -/
theorem isStatement_edge (h : Spells readable (production .edgeStmt).body trees tokens) : IsStatement tokens := by
  obtain ⟨_, _, first, _, rfl, rfl, hfirst, _, _, links, groups, rfl, rfl,
    ⟨_, _, link, more, rfl, rfl, hlink, hmore⟩, hlists⟩ := h
  obtain ⟨-, -, pairs, -, hgrouped⟩ := lists_of_optional hlists
  obtain ⟨kind, next, rfl, hnext⟩ := link_of_spells hlink
  have hfirst : IsOperand first := hfirst
  refine ⟨(hfirst.begins.imp fun _ => beginsStatement_of_beginsOperand).append, fun {rest} hrest => ?_⟩
  rw [← List.append_assoc]
  -- The links are read up to the lists, before which no further operator stands.
  refine reads_stmt_edge hfirst.begins hfirst.reads (fun hrest hoperator => ?_) (notAhead_cons.2 (by simp))
    hgrouped hrest
  obtain ⟨hreads, hahead⟩ := reads_links_of_repeats hmore hrest hoperator
  rw [List.append_assoc, List.cons_append]
  exact ((reads_terminal rfl rfl).seq (hnext.reads hahead)).seq hreads

/-! ## Bodies and graphs -/

/-- Statements are read one after the other up to the closing brace, and in front of each one a statement
ends. -/
theorem reads_stmts_of_repeats
    (h : Repeats (Follows (readable .stmt) (Spells readable (.opt (mark ';')))) trees tokens)
    (rest : List Token) :
    Reads (production .stmtList).body (tokens ++ .mark '}' :: rest) (.mark '}' :: rest) ∧
      Ended (tokens ++ .mark '}' :: rest) ∧ NotAhead [';'] (tokens ++ .mark '}' :: rest) := by
  -- How one statement ends depends on what begins the next, so both are shown at once.
  induction h with
  | nil => exact ⟨.star_nil (.seq_left rejects_stmt), ended_mark (by decide), notAhead_cons.2 (by simp)⟩
  | cons hround _ ih =>
    obtain ⟨_, _, first, separator, rfl, rfl, hfirst, hseparator⟩ := hround
    obtain ⟨-, hoptional⟩ := optional_of_spells [';'] hseparator
    obtain ⟨hreads, hended, hsemicolon⟩ := ih
    have hfirst : IsStatement first := hfirst
    -- The separator goes to the statement before it, as the grammar reads greedily.
    rw [List.append_assoc, List.append_assoc]
    refine ⟨.star (by decide) ((hfirst.reads (ended_semicolon hoptional hended)).seq
      (reads_semicolon hoptional hsemicolon)) hreads, ?_⟩
    exact ⟨hfirst.begins.append.ended, hfirst.begins.append.notAhead (by decide)⟩

/-- Braces enclose tokens of statements. -/
theorem body_of_braces (h : Spells readable braces trees tokens) :
    ∃ body, tokens = .mark '{' :: (body ++ [.mark '}']) ∧ IsBody body := by
  obtain ⟨_, _, _, _, rfl, rfl, hopen, _, _, body, _, rfl, rfl, hbody, hclose⟩ := h
  obtain ⟨-, rfl⟩ := spells_mark hopen
  obtain ⟨-, rfl⟩ := spells_mark hclose
  exact ⟨body, rfl, hbody⟩

/-- What the rule for subgraphs spells are the tokens of a subgraph. -/
theorem isSubgraph_of_spells (h : Spells readable (production .subgraph).body trees tokens) :
    IsSubgraph tokens := by
  obtain ⟨_, _, head, _, rfl, rfl, hhead, hbraces⟩ := h
  obtain ⟨body, rfl, hbody⟩ := body_of_braces hbraces
  obtain ⟨-, -, hheaded⟩ := headed_of_spells hhead fun tree (htree : tree ∈ []) => by simp at htree
  exact ⟨_, head, body, rfl, hheaded, hbody⟩

/-- What the rule for graphs spells is read by it, whatever follows. -/
theorem reads_graph_of_spells (h : Spells readable (production .graph).body trees tokens) (rest : List Token) :
    Reads (.call .graph) (tokens ++ rest) rest := by
  obtain ⟨strict, _, first, _, rfl, rfl, hstrict, _, _, _, _, rfl, rfl, ⟨token, place, haccept, rfl, rfl⟩,
    id, inner, name, _, rfl, rfl, hid, hbraces⟩ := h
  obtain ⟨word, rfl, hword⟩ := (Rule.accepts_words (by decide)).1 haccept
  obtain ⟨-, -, hmarked⟩ := marked_of_optional hstrict
  obtain ⟨body, rfl, hbody⟩ := body_of_braces hbraces
  obtain ⟨-, -, hname⟩ := name_of_optional hid fun tree (htree : tree ∈ []) => by simp at htree
  rw [List.append_assoc, List.append_assoc, List.append_assoc, List.singleton_append, List.cons_append]
  exact .call rfl ((reads_strict hmarked (sameWord_graphKind hword)).seq ((reads_terminal rfl haccept).seq
    ((reads_opt_id hname).seq (reads_braces (hbody _)))))

/-- Every rule's body keeps that what is spelled is read. -/
theorem readable_closed : Closed readable where
  terminal {rule token} hrule haccept offset := by
    have hmeans := means_terminal hrule haccept offset
    cases rule <;> first | exact hmeans | exact absurd hrule (by decide)
  branch {rule trees tokens} hrule hkind h offset text := by
    cases rule with
    | graph => exact reads_graph_of_spells h
    | stmtList => exact fun rest => .call rfl (reads_stmts_of_repeats h rest).1
    | attrStmt => exact isStatement_attributes h
    | edgeStmt => exact isStatement_edge h
    | assignment => exact isStatement_assignment h
    | nodeStmt => exact isStatement_node h
    | nodeId => exact means_nodeId h offset text
    | port => exact means_port h offset text
    | subgraph => exact isSubgraph_of_spells h
    | attrList => exact means_attrList h offset text
    | attr => exact means_attr h offset text
    | id => exact means_id h offset text
    | quotedConcat => exact means_quotedConcat h offset text
    | _ => first | exact absurd hrule (by decide) | exact absurd hkind (by decide)
  silent {rule trees tokens} hrule hkind h := by
    cases rule with
    | stmt =>
      -- Attribute statements, edges, assignments and nodes are statements; a subgraph becomes one here.
      rcases h with h | h | h | h | h
      · exact h
      · exact h
      · exact h
      · exact h
      · exact h.isStatement
    | edgeOperand => exact isOperand_of_spells h
    | _ => first | exact absurd hrule (by decide) | exact absurd hkind (by decide)

/-! ## Whole texts -/

/-- Graphs are read one after the other, up to the end. -/
theorem reads_graphs_of_repeats (h : Repeats (readable .graph) trees tokens) :
    Reads (.star (.call .graph)) tokens [] := by
  induction h with
  | nil => exact .star_nil rejects_graph
  | cons hround _ ih => exact .star (by decide) (hround _) ih

/-- A text is accepted if its tokens spell one or more graphs. -/
theorem exists_accepts_of_spells {text : List Char} (hlex : lex text = some tokens)
    (h : Spells readable (.plus (.call .graph)) trees tokens) : ∃ tree, Accepts text tree := by
  obtain ⟨_, _, first, more, rfl, rfl, hfirst, hmore⟩ := h
  have hgraph : ∀ rest, Reads (.call .graph) (first ++ rest) rest := hfirst
  obtain ⟨inner, hinner, hend⟩ := ((hgraph more).seq (reads_graphs_of_repeats hmore))
    (gap (.start text)).next (settled_gap _) ((lex_gap (.start text)).trans hlex)
  have hempty : (gap inner.next).next.rest = [] := eq_nil_of_lex (settled_gap _) ((lex_gap _).trans hend)
  exact ⟨_, accepts_iff.2 ⟨inner, hinner, hempty, rfl⟩⟩

end DotLang.Grammar
