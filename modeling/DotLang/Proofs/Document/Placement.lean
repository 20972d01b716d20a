import DotLang.Proofs.Document.Acceptance
import DotLang.Proofs.Document.Settling

/-!
# Where operators stand

All edge operators among the tokens of a graph are those of its kind (`Graph.Written.operator_eq`), and the
operators in a tree are among the tokens that spell it. So the grammar puts no operator in a wrong place
when it reads what is written for a document (`find_graphs`).
-/

namespace DotLang

open Peg Token

variable {kind found : GraphKind} {tokens : List Token}

/-! ## Operators among tokens -/

/-- There is no operator among strings that are joined. -/
theorem Id.Joined.noOperator {value : List Char} (h : Id.Joined value tokens) :
    .operator found ∉ tokens := by
  induction h with
  | single content => simp
  | more content _ ih => simpa using ih

/-- There is no operator in an identifier. -/
theorem Id.Written.noOperator {id : Id} (h : id.Written tokens) : .operator found ∉ tokens := by
  cases id with
  | identifier value => simp [h.1]
  | numeral value =>
    rw [Id.Written] at h
    simp [h]
  | quoted value => exact Id.Joined.noOperator h
  | html value =>
    rw [Id.Written] at h
    simp [h]

/-- There is no operator in a name that may be missing. -/
theorem Id.OptWritten.noOperator {id : Option Id} (h : Id.OptWritten id tokens) :
    .operator found ∉ tokens := by
  cases id with
  | none =>
    obtain rfl := h
    exact List.not_mem_nil
  | some id => exact Id.Written.noOperator h

/-- There is no operator in a mark that may be missing. -/
theorem Token.Optional.noOperator {marks : List Char} (h : Token.Optional marks tokens) :
    .operator found ∉ tokens := by
  rcases h with rfl | ⟨c, -, rfl⟩ <;> simp

/-- There is no operator in an attribute. -/
theorem Attribute.Written.noOperator {pair : Attribute} (h : pair.Written tokens) :
    .operator found ∉ tokens := by
  obtain ⟨key, value, rfl, hkey, hvalue⟩ := h
  simp [hkey.noOperator, hvalue.noOperator]

/-- There is no operator in a group of attributes. -/
theorem Attribute.Listed.noOperator {pairs : List Attribute} (h : Attribute.Listed pairs tokens) :
    .operator found ∉ tokens := by
  induction h with
  | single hpair => exact hpair.noOperator
  | more hpair hseparator _ ih => simp [hpair.noOperator, hseparator.noOperator, ih]

/-- There is no operator in groups of attributes. -/
theorem Attribute.Grouped.operator_notMem {pairs : List Attribute} (h : Attribute.Grouped pairs tokens) :
    .operator found ∉ tokens := by
  induction h with
  | none => simp
  | empty _ ih => simpa using ih
  | group hlisted _ ih => simp [hlisted.noOperator, ih]

/-- There is no operator in a node. -/
theorem NodeId.Written.noOperator {node : NodeId} (h : node.Written tokens) :
    .operator found ∉ tokens := by
  cases h with
  | bare hid => exact hid.noOperator
  | port hid hport =>
    cases hport with
    | name hname _ => simp [hid.noOperator, hname.noOperator]
    | compass hname _ => simp [hid.noOperator, hname.noOperator]
    | both hname hname' => simp [hid.noOperator, hname.noOperator, hname'.noOperator]

/-- There is no operator in the head of a subgraph. -/
theorem Statement.Headed.noOperator {id : Option Id} (h : Statement.Headed id tokens) :
    .operator found ∉ tokens := by
  cases h with
  | none => simp
  | word _ hid => simp [hid.noOperator]

mutual

/-- The operators in a statement are those of the graph's kind. -/
theorem Statement.Written.operator_eq {kind found : GraphKind} : ∀ {statement : Statement} {tokens : List Token},
    statement.Written kind tokens → .operator found ∈ tokens → found = kind
  | .node node attributes, tokens, h, hmem => by
    rw [Statement.Written] at h
    obtain ⟨first, groups, rfl, hnode, hgrouped⟩ := h
    simp [hnode.noOperator, hgrouped.operator_notMem] at hmem
  | .edge operands attributes, tokens, h, hmem => by
    rw [Statement.Written] at h
    obtain ⟨chain, groups, rfl, hchain, hgrouped⟩ := h
    -- The operator is not in the attributes.
    have hmem : .operator found ∈ chain := by simpa [hgrouped.operator_notMem] using hmem
    exact Operand.ChainWritten.operator_eq hchain hmem
  | .attributes target attributes, tokens, h, hmem => by
    rw [Statement.Written] at h
    obtain ⟨word, groups, rfl, -, -, hgrouped⟩ := h
    simp [hgrouped.operator_notMem] at hmem
  | .assignment pair, tokens, h, hmem => by
    rw [Statement.Written] at h
    exact absurd hmem h.noOperator
  | .subgraph id statements, tokens, h, hmem => by
    rw [Statement.Written] at h
    obtain ⟨head, body, rfl, hhead, hbody⟩ := h
    have hmem : .operator found ∈ body := by simpa [hhead.noOperator] using hmem
    exact Statement.ListWritten.operator_eq hbody hmem

/-- The operators in statements are those of the graph's kind. -/
theorem Statement.ListWritten.operator_eq {kind found : GraphKind} :
    ∀ {statements : List Statement} {tokens : List Token},
    Statement.ListWritten kind statements tokens → .operator found ∈ tokens → found = kind
  | [], tokens, h, hmem => by
    rw [Statement.ListWritten] at h
    simp [h] at hmem
  | statement :: statements, tokens, h, hmem => by
    rw [Statement.ListWritten] at h
    obtain ⟨first, separator, rest, rfl, hfirst, hseparator, hrest⟩ := h
    rcases List.mem_append.1 hmem with hmem | hmem
    · exact Statement.Written.operator_eq hfirst hmem
    · rcases List.mem_append.1 hmem with hmem | hmem
      -- A separator is a semicolon at most.
      · exact absurd hmem hseparator.noOperator
      · exact Statement.ListWritten.operator_eq hrest hmem

/-- The operators in an operand are those of the graph's kind. -/
theorem Operand.Written.operator_eq {kind found : GraphKind} : ∀ {operand : Operand} {tokens : List Token},
    operand.Written kind tokens → .operator found ∈ tokens → found = kind
  | .node node, tokens, h, hmem => by
    rw [Operand.Written] at h
    exact absurd hmem h.noOperator
  | .subgraph id statements, tokens, h, hmem => by
    rw [Operand.Written] at h
    obtain ⟨head, body, rfl, hhead, hbody⟩ := h
    have hmem : .operator found ∈ body := by simpa [hhead.noOperator] using hmem
    exact Statement.ListWritten.operator_eq hbody hmem

/-- The operators in front of operands and in them are those of the graph's kind. -/
theorem Operand.LinksWritten.operator_eq {kind found : GraphKind} :
    ∀ {operands : List Operand} {tokens : List Token},
    Operand.LinksWritten kind operands tokens → .operator found ∈ tokens → found = kind
  | [], tokens, h, hmem => by
    rw [Operand.LinksWritten] at h
    simp [h] at hmem
  | operand :: operands, tokens, h, hmem => by
    rw [Operand.LinksWritten] at h
    obtain ⟨first, rest, rfl, hfirst, hrest⟩ := h
    rcases List.mem_cons.1 hmem with hmem | hmem
    -- The only operators outside operands are those the links are written with.
    · exact Token.operator.inj hmem
    · rcases List.mem_append.1 hmem with hmem | hmem
      · exact Operand.Written.operator_eq hfirst hmem
      · exact Operand.LinksWritten.operator_eq hrest hmem

/-- The operators in a chain are those of the graph's kind. -/
theorem Operand.ChainWritten.operator_eq {kind found : GraphKind} :
    ∀ {operands : List Operand} {tokens : List Token},
    Operand.ChainWritten kind operands tokens → .operator found ∈ tokens → found = kind
  | [], tokens, h, _ => by
    rw [Operand.ChainWritten] at h
    exact h.elim
  | operand :: operands, tokens, h, hmem => by
    rw [Operand.ChainWritten] at h
    obtain ⟨first, links, rfl, hfirst, -, hlinks⟩ := h
    rcases List.mem_append.1 hmem with hmem | hmem
    · exact Operand.Written.operator_eq hfirst hmem
    · exact Operand.LinksWritten.operator_eq hlinks hmem

end

/-- The operators in a graph are those of its kind. -/
theorem Graph.Written.operator_eq {graph : Graph} (h : graph.Written tokens)
    (hmem : .operator found ∈ tokens) : found = graph.kind := by
  obtain ⟨first, word, name, body, rfl, hmarked, -, hname, hbody⟩ := h
  -- The keywords and the name hold no operator, so it is one of the statements.
  have hfirst : .operator found ∉ first := by
    rcases hstrict : graph.strict with _ | _ <;> rw [hstrict] at hmarked
    · obtain rfl : first = [] := hmarked
      exact List.not_mem_nil
    · obtain ⟨word, rfl, -⟩ := hmarked
      simp
  have hmem : .operator found ∈ body := by simpa [hfirst, hname.noOperator] using hmem
  exact hbody.operator_eq hmem

/-- A graph begins with the keyword of its kind, or that is its second word and the first one is `strict`. -/
theorem Grammar.Introduced.cases (h : Grammar.Introduced kind tokens) :
    ∃ word rest, Text.sameWord word kind.keyword = true ∧
      (tokens = .word word :: rest ∨
        ∃ first, Text.sameWord first Keyword.strict = true ∧ tokens = .word first :: .word word :: rest) := by
  obtain ⟨strict, first, word, rest, rfl, hmarked, hword⟩ := h
  -- The word for strict graphs stands before the other keyword or is missing.
  cases strict with
  | false =>
    obtain rfl : first = [] := hmarked
    exact ⟨word, rest, hword, .inl rfl⟩
  | true =>
    obtain ⟨text, rfl, htext⟩ := hmarked
    exact ⟨word, rest, hword, .inr ⟨text, htext, rfl⟩⟩

/-- A graph's keyword tells its kind. -/
theorem Grammar.Introduced.kind_eq {kind' : GraphKind} (h : Grammar.Introduced kind tokens)
    (h' : Grammar.Introduced kind' tokens) : kind = kind' := by
  obtain ⟨word, rest, hword, heq⟩ := h.cases
  obtain ⟨word', rest', hword', heq'⟩ := h'.cases
  -- The first word is `strict` in both cases or in none.
  rcases heq with rfl | ⟨first, hfirst, rfl⟩ <;> rcases heq' with heq | ⟨first', hfirst', heq⟩
  · obtain ⟨⟨⟩, -⟩ := List.cons.inj heq
    exact GraphKind.eq_of_sameWord hword hword'
  · obtain ⟨⟨⟩, -⟩ := List.cons.inj heq
    simp [GraphKind.not_sameWord_strict hword] at hfirst'
  · obtain ⟨⟨⟩, -⟩ := List.cons.inj heq
    simp [GraphKind.not_sameWord_strict hword'] at hfirst
  · obtain ⟨-, heq⟩ := List.cons.inj heq
    obtain ⟨⟨⟩, -⟩ := List.cons.inj heq
    exact GraphKind.eq_of_sameWord hword hword'

/-- The tokens of a graph begin with a keyword of its kind. -/
theorem Graph.Written.introduced {graph : Graph} (h : graph.Written tokens) :
    Grammar.Introduced graph.kind tokens := by
  obtain ⟨first, word, name, body, rfl, hmarked, hword, -, -⟩ := h
  exact ⟨_, first, word, _, rfl, hmarked, hword⟩

/-! ## Operators in trees -/

/-- Whether a token is an edge operator. -/
def Token.isOperator : Token → Bool
  | operator _ => true
  | _ => false

namespace Grammar

/-- The operators in some trees are written as those among some tokens are, in the same order. -/
def SameOperators : Spelling := fun trees tokens =>
  (operatorsOf trees).map ParseTree.text = (tokens.filter isOperator).map Token.text

/-- Trees and tokens have the same operators if the first ones and the others have. -/
theorem SameOperators.append {trees trees' : List (ParseTree Rule)} {tokens tokens' : List Token}
    (h : SameOperators trees tokens) (h' : SameOperators trees' tokens') :
    SameOperators (trees ++ trees') (tokens ++ tokens') := by
  rw [SameOperators, operatorsOf_append, List.map_append, h, h', List.filter_append, List.map_append]

/-- An operator in the trees is one of those among the tokens. -/
theorem SameOperators.exists_operator {trees : List (ParseTree Rule)} {tokens : List Token}
    (h : SameOperators trees tokens) {operator : ParseTree Rule} (hmem : operator ∈ operatorsOf trees) :
    ∃ kind, operator.text = (Token.operator kind).text ∧ Token.operator kind ∈ tokens := by
  have htext : operator.text ∈ (tokens.filter isOperator).map Token.text :=
    h ▸ List.mem_map_of_mem (f := ParseTree.text) hmem
  obtain ⟨token, htoken, heq⟩ := List.mem_map.1 htext
  obtain ⟨htoken, hoperator⟩ := List.mem_filter.1 htoken
  -- Among the tokens kept there are only operators.
  cases token with
  | operator kind => exact ⟨kind, heq.symm, htoken⟩
  | _ => cases hoperator

/-- What an expression reads has the operators of its tokens if this is so for its calls. -/
theorem sameOperators_of_spells {e : Expr Rule} {trees : List (ParseTree Rule)} {tokens : List Token}
    (h : Spells (fun _ => SameOperators) e trees tokens) : SameOperators trees tokens :=
  combined_of_spells (W := SameOperators) rfl (fun _ => rfl) SameOperators.append id h

/-- The tree of each rule has the operators of its tokens, if this is so for the rules that its body calls. -/
theorem sameOperators_closed : Closed fun _ => SameOperators where
  terminal {rule token} _ haccept offset := by
    by_cases hrule : rule = .edgeOp
    · subst hrule
      obtain ⟨kind, rfl⟩ := Rule.accepts_edgeOp.1 haccept
      rfl
    -- No other terminal accepts an operator.
    · have hnone : operatorsOf [rule.leaf offset token] = [] := by
        cases token <;> simp [Rule.leaf, operators_node, hrule]
      have htoken : [token].filter isOperator = [] := by
        cases token <;> cases rule <;> simp_all [Rule.accepts, Rule.words, isOperator]
      rw [SameOperators, hnone, htoken]
      rfl
  branch {rule trees tokens} hrule _ h offset text := by
    have hne : rule ≠ .edgeOp := by
      rintro rfl
      simp [Rule.isNonterminal] at hrule
    rw [SameOperators, operatorsOf_cons, operatorsOf_nil, List.append_nil, operators_node hne]
    exact sameOperators_of_spells h
  silent _ _ h := sameOperators_of_spells h

/-- The operators in graphs are those of the graphs' kinds. -/
def WellPlaced (trees : List (ParseTree Rule)) : Prop :=
  ∀ tree ∈ trees, ∀ operator ∈ operators tree, ¬ (GraphKind.ofTrees tree.children).Misplaces operator

/-- The tokens that spell a match are those up to the tokens behind it. -/
theorem tokens_of_spelled {W : Spelling} {cursor : Cursor} {found : Match Rule} {tokens rest : List Token}
    (h : Spelled W cursor found) (hlex : lex cursor.rest = some (tokens ++ rest))
    (hrest : lex found.next.rest = some rest) : W found.trees tokens := by
  obtain ⟨tokens', heq, hspells⟩ := h
  rw [hlex, hrest, Option.map_some, Option.some.injEq] at heq
  exact List.append_cancel_right heq ▸ hspells

/-- A graph that is written is found with all operators in their places. -/
theorem find_graph {graph : Graph} {tokens rest : List Token} (h : graph.Written tokens) {cursor : Cursor}
    (hcursor : Settled cursor.rest) (hlex : lex cursor.rest = some (tokens ++ rest)) :
    ∃ found, find (.call .graph) .spaced cursor = some found ∧ lex found.next.rest = some rest ∧
      WellPlaced found.trees := by
  obtain ⟨found, hfound, hrest⟩ := reads_graph h cursor hcursor hlex
  refine ⟨found, hfound, hrest, ?_⟩
  -- The trees are spelled by these tokens, whose operators are those of the graph's kind.
  have hmeans := tokens_of_spelled (spelled_of_find means_closed rfl hcursor hfound) hlex hrest
  have hsame := tokens_of_spelled (spelled_of_find sameOperators_closed rfl hcursor hfound) hlex hrest
  obtain ⟨offset, text, children, htrees, hintroduced, -⟩ := hmeans
  rw [htrees] at hsame ⊢
  intro tree htree operator hmem
  obtain rfl := List.mem_singleton.1 htree
  obtain ⟨kind, htext, hkind⟩ := hsame.exists_operator (by simpa using hmem)
  obtain rfl : kind = graph.kind := h.operator_eq hkind
  rw [GraphKind.Misplaces, Decidable.not_not, htext, hintroduced.kind_eq h.introduced]
  cases graph.kind <;> rfl

/-- Graphs that are written are found with all operators in their places. -/
theorem find_graphs {graphs : List Graph} {tokens : List Token} (h : Graph.ListWritten graphs tokens)
    {cursor : Cursor} (hcursor : Settled cursor.rest) (hlex : lex cursor.rest = some tokens) :
    ∃ found, find (.star (.call .graph)) .spaced cursor = some found ∧ lex found.next.rest = some [] ∧
      WellPlaced found.trees := by
  induction graphs generalizing tokens cursor with
  | nil =>
    obtain rfl := h
    refine ⟨.empty cursor, ?_, hlex, fun tree htree => absurd htree List.not_mem_nil⟩
    rw [find_star, rejects_graph cursor hcursor hlex]
  | cons graph graphs ih =>
    obtain ⟨first, more, rfl, hfirst, hmore⟩ := h
    -- The later rounds begin at the gap behind the first one, which is where the others are found.
    obtain ⟨found, hfound, hrest, hplaced⟩ := find_graph hfirst hcursor hlex
    obtain ⟨later, hlater, hend, hplaced'⟩ := ih hmore (settled_gap found.next) ((lex_gap _).trans hrest)
    obtain ⟨rounds, hrounds, hend', htrees⟩ := findRounds_of_star (by decide) hlater hend
    refine ⟨found.append rounds, ?_, hend', ?_⟩
    · rw [find_star, hfound]
      simp [hrounds]
    · rw [Match.append_trees, htrees]
      exact List.forall_mem_append.2 ⟨hplaced, hplaced'⟩

/-! ## Whole texts -/

/-- The tree of a text that the grammar reads as a document. -/
def Accepts (text : List Char) (tree : ParseTree Rule) : Prop :=
  ∃ found, (grammar.parse .document text).found = some found ∧ found.trees = [tree]

/-- The trees of the graphs in the tree of a document. -/
def graphs (tree : ParseTree Rule) : List (ParseTree Rule) :=
  tree.children.filter (·.rule == .graph)

/-- A match of the whole text as graphs is the tree of a document. -/
theorem find_document_iff {text : List Char} {found : Match Rule} :
    (grammar.parse .document text).found = some found ↔
      ∃ inner, find (.plus (.call .graph)) .spaced (gap (.start text)).next = some inner ∧
        (gap inner.next).next.rest = [] ∧
        found = ((gap (.start text)).append (inner.append ((gap inner.next).append
          ⟨[], [.node .endOfInput (gap inner.next).next.offset [] []], (gap inner.next).next⟩))).asTree
            .document (.start text) := by
  -- Both sides name the parts of one sequence: layout, the graphs, layout and the end of the input.
  rw [find_document, Option.map_eq_some_iff]
  constructor
  · rintro ⟨_, h, rfl⟩
    simp only [find_seq, find_endOfInput, Option.bind_eq_some_iff, Option.map_eq_some_iff,
      Option.ite_none_right_eq_some, Option.some.injEq] at h
    obtain ⟨inner, hinner, _, ⟨hrest, rfl⟩, rfl⟩ := h
    exact ⟨inner, hinner, hrest, rfl⟩
  · rintro ⟨inner, hinner, hrest, rfl⟩
    refine ⟨_, ?_, rfl⟩
    rw [find_seq, hinner, Option.bind_some, find_endOfInput, if_pos hrest, Option.map_some]

/-- The tree of a document that has the graphs of a match. -/
theorem accepts_iff {text : List Char} {tree : ParseTree Rule} :
    Accepts text tree ↔
      ∃ inner, find (.plus (.call .graph)) .spaced (gap (.start text)).next = some inner ∧
        (gap inner.next).next.rest = [] ∧
        tree = .node .document 0 ((gap (.start text)).text ++ (inner.text ++ ((gap inner.next).text ++ [])))
          (inner.trees ++ [.node .endOfInput (gap inner.next).next.offset [] []]) := by
  constructor
  · rintro ⟨found, hfound, htrees⟩
    obtain ⟨inner, hinner, hrest, rfl⟩ := find_document_iff.1 hfound
    refine ⟨inner, hinner, hrest, ?_⟩
    simpa [Match.append, Cursor.start, eq_comm] using htrees
  · rintro ⟨inner, hinner, hrest, rfl⟩
    refine ⟨_, find_document_iff.2 ⟨inner, hinner, hrest, rfl⟩, ?_⟩
    simp [Match.append, Cursor.start]

/-- A relation that the bodies of the rules keep holds of the graphs of a text and its tokens. -/
theorem spelled_of_accepts {S : Rule → Spelling} (hS : Closed S) {text : List Char} {tree : ParseTree Rule}
    (h : Accepts text tree) :
    ∃ read trees offset tokens,
      tree = .node .document 0 read (trees ++ [.node .endOfInput offset [] []]) ∧
        lex text = some tokens ∧ Spells S (.plus (.call .graph)) trees tokens := by
  obtain ⟨inner, hinner, hrest, rfl⟩ := accepts_iff.1 h
  obtain ⟨tokens, hlex, hspells⟩ := spelled_of_run (fun hrule hplace hfound =>
    spelled_of_find hS hrule hplace hfound) (.plus (.call .graph)) rfl (settled_gap _) hinner
  refine ⟨_, inner.trees, _, tokens, rfl, ?_, hspells⟩
  have hend : lex inner.next.rest = some [] := by
    rw [← lex_gap, hrest]
    rfl
  have hstart : lex (gap (.start text)).next.rest = lex text := lex_gap (.start text)
  rw [← hstart, hlex, hend, Option.map_some, List.append_nil]

/-- Graphs, one after the other, leave trees of graphs only. -/
theorem rule_of_repeats {W : Spelling} {trees : List (ParseTree Rule)} {tokens : List Token}
    (hW : ∀ {trees tokens}, W trees tokens → ∃ offset text children, trees = [.node .graph offset text children])
    (h : Repeats W trees tokens) : ∀ tree ∈ trees, tree.rule = .graph := by
  induction h with
  | nil => simp
  | cons hround _ ih =>
    obtain ⟨_, _, _, rfl⟩ := hW hround
    exact List.forall_mem_append.2 ⟨by simp, ih⟩

/-- Behind its graphs, the tree of a document has nothing but the end of the input. -/
theorem graphs_node {trees : List (ParseTree Rule)} (h : ∀ tree ∈ trees, tree.rule = .graph)
    (read : List Char) (offset : Nat) :
    graphs (.node .document 0 read (trees ++ [.node .endOfInput offset [] []])) = trees := by
  rw [graphs, ParseTree.children_node, List.filter_append,
    List.filter_eq_self.2 fun tree htree => by simp [h tree htree]]
  exact List.append_nil trees

/-- The graphs of a document are among its trees in front of the end of the input. -/
theorem mem_of_mem_graphs {trees : List (ParseTree Rule)} {read : List Char} {offset : Nat}
    {tree : ParseTree Rule}
    (h : tree ∈ graphs (.node .document 0 read (trees ++ [.node .endOfInput offset [] []]))) :
    tree ∈ trees := by
  rw [graphs, ParseTree.children_node, List.filter_append] at h
  rcases List.mem_append.1 h with h | h
  · exact (List.mem_filter.1 h).1
  · simp at h

/-- The graphs of an accepted text are spelled by its tokens, and there is at least one. -/
theorem means_of_accepts {text : List Char} {tree : ParseTree Rule} (h : Accepts text tree) :
    ∃ tokens, lex text = some tokens ∧ graphs tree ≠ [] ∧ Repeats (means .graph) (graphs tree) tokens := by
  obtain ⟨read, trees, offset, tokens, rfl, hlex, _, _, _, _, rfl, rfl, hfirst, hmore⟩ :=
    spelled_of_accepts means_closed h
  have hrounds : Repeats (means .graph) _ _ := .cons hfirst hmore
  rw [graphs_node (rule_of_repeats (fun ⟨_, _, _, heq, _⟩ => ⟨_, _, _, heq⟩) hrounds)]
  refine ⟨_, hlex, ?_, hrounds⟩
  obtain ⟨_, _, _, rfl, -⟩ := hfirst
  simp

/-- A text whose tokens write a document is accepted, with all operators in their places. -/
theorem accepts_of_written {document : Document} {text : List Char} {tokens : List Token}
    (hlex : lex text = some tokens) (h : document.Written tokens) :
    ∃ tree, Accepts text tree ∧ WellPlaced (graphs tree) := by
  obtain ⟨hne, hgraphs⟩ := h
  rcases hdocument : document.graphs with _ | ⟨graph, more⟩
  · exact absurd hdocument hne
  rw [hdocument] at hgraphs
  obtain ⟨first, later, rfl, hfirst, hlater⟩ := hgraphs
  obtain ⟨found, hfound, hrest, hplaced⟩ := find_graph hfirst (settled_gap (.start text)) ((lex_gap _).trans hlex)
  obtain ⟨others, hothers, hend, hplaced'⟩ := find_graphs hlater (settled_gap found.next) ((lex_gap _).trans hrest)
  have hplus : find (.plus (.call .graph)) .spaced (gap (.start text)).next =
      some (found.append ((gap found.next).append others)) := by
    rw [Expr.plus, find_seq, hfound, Option.bind_some, hothers, Option.map_some]
  -- Behind the last graph no token is left.
  have hempty : (gap others.next).next.rest = [] :=
    eq_nil_of_lex (settled_gap _) ((lex_gap _).trans hend)
  refine ⟨_, accepts_iff.2 ⟨_, hplus, hempty, rfl⟩, ?_⟩
  intro tree htree
  have hmem : tree ∈ found.trees ++ others.trees := by simpa using mem_of_mem_graphs htree
  rcases List.mem_append.1 hmem with hmem | hmem
  · exact hplaced tree hmem
  · exact hplaced' tree hmem

end Grammar

end DotLang
