import DotLang.Proofs.Document.Meaning

/-!
# Statements and graphs settle their operators

The second half of what trees mean: a statement, a list of statements or a graph is built as its tokens
write it, unless it has an edge operator that the graph's kind does not admit. The kind is that of the
graph, at whatever depth the operator stands.
-/

namespace DotLang.Grammar

open Peg Token

variable {kind : GraphKind} {trees : List (ParseTree Rule)} {tokens : List Token}

/-! ## Trees of a rule among others -/

/-- Trees of other rules in front do not matter to the search for the first tree of a rule. -/
theorem find?_append_of_ne {rule : Rule} {trees : List (ParseTree Rule)}
    (h : ∀ tree ∈ trees, tree.rule ≠ rule) (trees' : List (ParseTree Rule)) :
    (trees ++ trees').find? (·.rule == rule) = trees'.find? (·.rule == rule) := by
  have hnone : trees.find? (·.rule == rule) = none := by simpa using h
  rw [List.find?_append, hnone, Option.none_or]

/-- Trees of other rules behind do not matter to whether there is a tree of a rule. -/
theorem any_append_of_ne {rule : Rule} {trees' : List (ParseTree Rule)}
    (h : ∀ tree ∈ trees', tree.rule ≠ rule) (trees : List (ParseTree Rule)) :
    (trees ++ trees').any (·.rule == rule) = trees.any (·.rule == rule) := by
  have hnone : trees'.any (·.rule == rule) = false := by simpa using h
  rw [List.any_append, hnone, Bool.or_false]

/-! ## Attribute lists behind statements -/

/-- Trees in front that are no attribute lists do not matter to the attributes. -/
theorem attributeLists_append {trees trees' : List (ParseTree Rule)}
    (h : ∀ tree ∈ trees, tree.rule ≠ .attrList) :
    Attribute.ofLists (trees ++ trees') = Attribute.ofLists trees' := by
  rw [Attribute.ofLists, Attribute.ofLists, find?_append_of_ne h]

/-- An attribute list has no operators, and its attributes are built from it. -/
theorem lists_of_means (h : means .attrList trees tokens) :
    operatorsOf trees = [] ∧ (∀ tree ∈ trees, tree.rule = .attrList) ∧
      tokens ≠ [] ∧ ∃ pairs, Attribute.ofLists trees = .ok pairs ∧ Attribute.Grouped pairs tokens := by
  obtain ⟨_, _, _, rfl, hoperators, hne, pairs, hpairs, hgrouped⟩ := h
  exact ⟨by simpa using hoperators, by simp, hne, pairs, hpairs, hgrouped⟩

/-- An attribute list that may be missing has no operators, and its attributes are built from it. -/
theorem lists_of_optional (h : Spells means (.opt (.call .attrList)) trees tokens) :
    operatorsOf trees = [] ∧ (∀ tree ∈ trees, tree.rule = .attrList) ∧
      ∃ pairs, Attribute.ofLists trees = .ok pairs ∧ Attribute.Grouped pairs tokens := by
  rcases h with h | ⟨rfl, rfl⟩
  · obtain ⟨hoperators, hrule, -, hlists⟩ := lists_of_means h
    exact ⟨hoperators, hrule, hlists⟩
  · exact ⟨rfl, by simp, [], rfl, .none⟩

/-! ## Statements without operators -/

/-- A node with attributes that may be missing is a statement. -/
theorem means_nodeStmt (h : Spells means (production .nodeStmt).body trees tokens) (offset : Nat)
    (text : List Char) : means .nodeStmt [.node .nodeStmt offset text trees] tokens := by
  obtain ⟨_, _, first, groups, rfl, rfl, ⟨_, _, _, rfl, hfirst, node, hnode, hwritten⟩, hlists⟩ := h
  obtain ⟨hoperators, -, pairs, hpairs, hgrouped⟩ := lists_of_optional hlists
  refine ⟨offset, text, _, rfl, fun kind => ?_⟩
  rw [operators_node (by decide), operatorsOf_append, hoperators, operatorsOf_cons, hfirst,
    List.singleton_append, Statement.ofTree, hnode, hpairs]
  exact .pure ⟨first, groups, rfl, hwritten, hgrouped⟩

/-- Two identifiers with an equality sign between them are a statement. -/
theorem means_assignment (h : Spells means (production .assignment).body trees tokens) (offset : Nat)
    (text : List Char) : means .assignment [.node .assignment offset text trees] tokens := by
  obtain ⟨hoperators, pair, hpair, hwritten⟩ := builds_pair h .assignment (by decide) offset text
  refine ⟨offset, text, trees, rfl, fun kind => ?_⟩
  rw [hoperators, Statement.ofTree, hpair]
  exact .pure hwritten

/-- The target that a word names has that word as its keyword. -/
theorem sameWord_ofWord {word : List Char}
    (h : (Rule.words .attrTarget).any (Text.sameWord word) = true) :
    Text.sameWord word (Target.ofWord word).keyword = true := by
  rw [Target.ofWord]
  split
  -- Of the three words the one for graphs is left when the others do not fit.
  next hnode => exact hnode
  next hnode =>
    split
    next hedge => exact hedge
    next hedge => simpa [Rule.words, Target.keyword, hnode, hedge] using h

/-- A keyword with its attributes is a statement. -/
theorem means_attrStmt (h : Spells means (production .attrStmt).body trees tokens) (offset : Nat)
    (text : List Char) : means .attrStmt [.node .attrStmt offset text trees] tokens := by
  obtain ⟨_, lists, _, groups, rfl, rfl, ⟨token, place, haccept, rfl, rfl⟩, hlists⟩ := h
  obtain ⟨word, rfl, hword⟩ := (Rule.accepts_words (by decide)).1 haccept
  obtain ⟨hoperators, -, hne, pairs, hpairs, hgrouped⟩ := lists_of_means hlists
  refine ⟨offset, text, _, rfl, fun kind => ?_⟩
  -- The target is no list, so all lists come from the other trees.
  have hleaf : ∀ tree ∈ [Rule.leaf .attrTarget place (.word word)], tree.rule ≠ .attrList := by
    simp
  rw [operators_node (by decide), operatorsOf_append, hoperators, Statement.ofTree,
    attributeLists_append hleaf, hpairs]
  exact .pure ⟨word, groups, rfl, sameWord_ofWord hword, hne, hgrouped⟩

/-! ## Bodies -/

/-- Statements settle one after the other, each with the operators in it. -/
theorem statements_of_repeats (kind : GraphKind)
    (h : Repeats (Follows (means .stmt) (Spells means (.opt (mark ';')))) trees tokens) :
    Settles kind (operatorsOf trees) (Statement.ofTrees kind trees)
      (Statement.ListWritten kind · tokens) := by
  induction h with
  | nil => exact .pure rfl
  -- A separator leaves no tree and is settled with the statement before it.
  | @cons _ trees' _ tokens' hround _ ih =>
    obtain ⟨_, _, first, separator, rfl, rfl, ⟨tree, rfl, hstated⟩, hseparator⟩ := hround
    obtain ⟨rfl, hoptional⟩ := optional_of_spells [';'] hseparator
    rw [List.append_nil, List.singleton_append, operatorsOf_cons, Statement.ofTrees]
    refine (hstated kind).bind fun statement hstatement => ih.map fun statements hstatements => ?_
    exact ⟨first, separator, tokens', List.append_assoc .., hstatement, hoptional, hstatements⟩

/-- Statements settle one after the other. -/
theorem means_stmtList (h : Spells means (production .stmtList).body trees tokens) (offset : Nat)
    (text : List Char) : means .stmtList [.node .stmtList offset text trees] tokens := by
  refine ⟨offset, text, trees, rfl, fun kind => ?_⟩
  rw [operators_node (by decide)]
  exact statements_of_repeats kind h

/-- The statements of a body stand behind other trees. -/
theorem ofBody_append {trees trees' : List (ParseTree Rule)} (h : ∀ tree ∈ trees, tree.rule ≠ .stmtList) :
    Statement.ofBody kind (trees ++ trees') = Statement.ofBody kind trees' := by
  induction trees with
  | nil => rfl
  | cons tree trees ih =>
    rw [List.cons_append, Statement.ofBody_cons (h _ List.mem_cons_self),
      ih fun tree htree => h tree (List.mem_cons_of_mem _ htree)]

/-- The statements between braces, behind trees that have no operators. -/
theorem settles_braces (h : Spells means braces trees tokens) :
    (∀ tree ∈ trees, tree.rule = .stmtList) ∧
      ∃ body, tokens = .mark '{' :: (body ++ [.mark '}']) ∧ ∀ kind head, operatorsOf head = [] →
        (∀ tree ∈ head, tree.rule ≠ .stmtList) →
        Settles kind (operatorsOf (head ++ trees)) (Statement.ofBody kind (head ++ trees))
          (Statement.ListWritten kind · body) := by
  obtain ⟨_, _, _, _, rfl, rfl, hopen, _, _, body, _, rfl, rfl,
    ⟨offset, text, children, rfl, hstatements⟩, hclose⟩ := h
  obtain ⟨rfl, rfl⟩ := spells_mark hopen
  obtain ⟨rfl, rfl⟩ := spells_mark hclose
  refine ⟨by simp, body, rfl, fun kind head hoperators hhead => ?_⟩
  rw [ofBody_append hhead, operatorsOf_append, hoperators]
  simpa [Statement.ofBody] using hstatements kind

/-- The name among some trees is not that of trees in front that have no name. -/
theorem ofTrees?_append {trees trees' : List (ParseTree Rule)} (h : ∀ tree ∈ trees, tree.rule ≠ .id) :
    Id.ofTrees? (trees ++ trees') = Id.ofTrees? trees' := by
  rw [Id.ofTrees?, Id.ofTrees?, find?_append_of_ne h]

/-- A name that may be missing, and trees behind it that are no names. -/
theorem name_of_optional {trees' : List (ParseTree Rule)}
    (h : Spells means (.opt (.call .id)) trees tokens) (h' : ∀ tree ∈ trees', tree.rule ≠ .id) :
    operatorsOf trees = [] ∧ (∀ tree ∈ trees, tree.rule = .id) ∧
      Id.OptWritten (Id.ofTrees? (trees ++ trees')) tokens := by
  rcases h with ⟨_, _, _, rfl, hoperators, hwritten⟩ | ⟨rfl, rfl⟩
  · exact ⟨by simpa using hoperators, by simp, hwritten⟩
  · have hnone : trees'.find? (·.rule == .id) = none := by simpa using h'
    refine ⟨rfl, by simp, ?_⟩
    rw [List.nil_append, Id.ofTrees?, hnone]
    rfl

/-- What stands in front of the braces of a subgraph has no operators and decides its name. -/
theorem headed_of_spells {trees' : List (ParseTree Rule)}
    (h : Spells means (.opt (.all [.call .subgraphKeyword, .opt (.call .id)])) trees tokens)
    (h' : ∀ tree ∈ trees', tree.rule = .stmtList) :
    operatorsOf trees = [] ∧ (∀ tree ∈ trees, tree.rule ≠ .stmtList) ∧
      Statement.Headed (Id.ofTrees? (trees ++ trees')) tokens := by
  have hid : ∀ tree ∈ trees', tree.rule ≠ .id := fun tree htree => by simp [h' tree htree]
  rcases h with ⟨_, name, _, _, rfl, rfl, ⟨token, place, haccept, rfl, rfl⟩, hname⟩ | ⟨rfl, rfl⟩
  · obtain ⟨word, rfl, hword⟩ := (Rule.accepts_words (by decide)).1 haccept
    obtain ⟨hoperators, hrule, hwritten⟩ := name_of_optional hname hid
    -- The keyword is no identifier, so the builder looks for the name behind it.
    have hleaf : ∀ tree ∈ [Rule.leaf .subgraphKeyword place (.word word)], tree.rule ≠ .id := by
      simp
    refine ⟨?_, ?_, ?_⟩
    · rw [operatorsOf_append, hoperators]
      rfl
    · exact List.forall_mem_append.2 ⟨by simp, fun tree htree => by simp [hrule tree htree]⟩
    · rw [List.append_assoc, ofTrees?_append hleaf]
      exact .word (by simpa [Rule.words] using hword) hwritten
  · have hnone : trees'.find? (·.rule == .id) = none := by simpa using hid
    refine ⟨rfl, by simp, ?_⟩
    rw [List.nil_append, Id.ofTrees?, hnone]
    exact .none

/-- A head that may be missing and a body are a subgraph. -/
theorem means_subgraph (h : Spells means (production .subgraph).body trees tokens) (offset : Nat)
    (text : List Char) : means .subgraph [.node .subgraph offset text trees] tokens := by
  obtain ⟨_, inner, head, _, rfl, rfl, hhead, hbraces⟩ := h
  obtain ⟨hrule, body, rfl, hsettles⟩ := settles_braces hbraces
  obtain ⟨hoperators, hfront, hheaded⟩ := headed_of_spells hhead hrule
  refine ⟨offset, text, _, rfl, head, body, rfl, hheaded, fun kind => ?_⟩
  rw [operators_node (by decide)]
  exact hsettles kind _ hoperators hfront

/-! ## Edges -/

/-- Operands are built from the first trees, and then from the others. -/
theorem operands_append (kind : GraphKind) (trees trees' : List (ParseTree Rule)) :
    Operand.ofTrees kind (trees ++ trees') = (do
      let operands ← Operand.ofTrees kind trees
      let operands' ← Operand.ofTrees kind trees'
      return operands ++ operands') := by
  induction trees with
  | nil =>
    rw [List.nil_append, Operand.ofTrees]
    rcases Operand.ofTrees kind trees' <;> rfl
  | cons tree trees ih =>
    obtain ⟨rule, offset, text, children⟩ := tree
    cases rule <;> simp [Operand.ofTrees, ih]

/-- No operands are built from attribute lists. -/
theorem operands_attrList {trees : List (ParseTree Rule)} (h : ∀ tree ∈ trees, tree.rule = .attrList)
    (kind : GraphKind) : Operand.ofTrees kind trees = .ok [] := by
  induction trees with
  | nil => rw [Operand.ofTrees]
  | cons tree trees ih =>
    obtain ⟨rule, offset, text, children⟩ := tree
    obtain rfl : rule = .attrList := h _ List.mem_cons_self
    rw [Operand.ofTrees_attrList_cons, ih fun tree htree => h tree (List.mem_cons_of_mem _ htree)]

/-- Operands settle one after the other. -/
theorem settles_operands {trees trees' : List (ParseTree Rule)} {W W' W'' : List Operand → Prop}
    (h : Settles kind (operatorsOf trees) (Operand.ofTrees kind trees) W)
    (h' : Settles kind (operatorsOf trees') (Operand.ofTrees kind trees') W')
    (himp : ∀ operands operands', W operands → W' operands' → W'' (operands ++ operands')) :
    Settles kind (operatorsOf (trees ++ trees')) (Operand.ofTrees kind (trees ++ trees')) W'' := by
  rw [operatorsOf_append, operands_append]
  exact h.bind fun operands hoperands => h'.map fun operands' hoperands' =>
    himp operands operands' hoperands hoperands'

/-- A node or a subgraph is an operand. -/
theorem means_edgeOperand (h : Spells means (production .edgeOperand).body trees tokens) :
    means .edgeOperand trees tokens := by
  rcases h with ⟨offset, text, children, rfl, head, body, rfl, hheaded, hbody⟩ |
    ⟨offset, text, children, rfl, hoperators, node, hnode, hwritten⟩
  -- A subgraph settles with the operators inside of it; a node has none and is always built.
  · refine ⟨⟨_, rfl, by simp⟩, fun kind => ?_⟩
    rw [operatorsOf_cons, operatorsOf_nil, List.append_nil, Operand.ofTrees, Operand.ofTrees]
    exact (hbody kind).map fun statements hstatements =>
      ⟨_, rfl, head, body, rfl, hheaded, hstatements⟩
  · refine ⟨⟨_, rfl, by simp⟩, fun kind => ?_⟩
    rw [operatorsOf_cons, operatorsOf_nil, List.append_nil, hoperators, Operand.ofTrees, Operand.ofTrees,
      hnode]
    exact .pure ⟨.node node, rfl, hwritten⟩

/-- The text of an operator tells its kind. -/
theorem operator_kind {operator : GraphKind} (offset : Nat)
    (h : String.ofList (Rule.leaf .edgeOp offset (.operator operator)).text = kind.edgeOp) :
    operator = kind := by
  cases operator <;> cases kind
  · rfl
  · exact absurd h (by decide : String.ofList ['-', '-'] ≠ "->")
  · exact absurd h (by decide : String.ofList ['-', '>'] ≠ "--")
  · rfl

/-- One operator and the operand behind it. -/
theorem settles_link (h : Follows (means .edgeOp) (means .edgeOperand) trees tokens) (kind : GraphKind) :
    (∀ tree ∈ trees, tree.rule ≠ .attrList) ∧
      Settles kind (operatorsOf trees) (Operand.ofTrees kind trees) fun operands =>
        ∃ operand first, operands = [operand] ∧ tokens = .operator kind :: first ∧
          operand.Written kind first := by
  obtain ⟨_, _, _, first, rfl, rfl, ⟨token, place, haccept, rfl, rfl⟩, ⟨tree, rfl, hrule⟩, hjoins⟩ := h
  obtain ⟨operator, rfl⟩ := Rule.accepts_edgeOp.1 haccept
  refine ⟨by simp [hrule], ?_⟩
  rw [operatorsOf_append]
  -- The operator is checked before the operand is built, so it is reported first.
  refine (Settles.check kind _).bind fun _ hoperator => (hjoins kind).imp ?_
  rintro _ ⟨operand, rfl, hwritten⟩
  exact ⟨operand, first, rfl, by rw [operator_kind place hoperator]; rfl, hwritten⟩

/-- Operators and the operands behind them settle one after the other. -/
theorem settles_links (h : Repeats (Follows (means .edgeOp) (means .edgeOperand)) trees tokens)
    (kind : GraphKind) :
    (∀ tree ∈ trees, tree.rule ≠ .attrList) ∧
      Settles kind (operatorsOf trees) (Operand.ofTrees kind trees)
        (Operand.LinksWritten kind · tokens) := by
  induction h with
  -- Each round is one operator with one operand, and its operators come before those of later rounds.
  | nil =>
    refine ⟨by simp, ?_⟩
    rw [Operand.ofTrees]
    exact .pure rfl
  | cons hround _ ih =>
    obtain ⟨hrule, hlink⟩ := settles_link hround kind
    refine ⟨List.forall_mem_append.2 ⟨hrule, ih.1⟩, settles_operands hlink ih.2 ?_⟩
    rintro _ operands ⟨operand, first, rfl, rfl, hwritten⟩ hlinks
    exact ⟨first, _, rfl, hwritten, hlinks⟩

/-- An operand and one or more others behind operators. -/
theorem settles_chain
    (h : Spells means (.seq (.call .edgeOperand) (.plus (.all [.call .edgeOp, .call .edgeOperand])))
      trees tokens) (kind : GraphKind) :
    (∀ tree ∈ trees, tree.rule ≠ .attrList) ∧
      Settles kind (operatorsOf trees) (Operand.ofTrees kind trees)
        (Operand.ChainWritten kind · tokens) := by
  obtain ⟨_, _, first, _, rfl, rfl, ⟨⟨tree, rfl, hrule⟩, hjoins⟩, trees₁, trees₂, tokens₁, tokens₂, rfl, rfl,
    hlink, hlinks⟩ := h
  obtain ⟨hrule₁, hlink⟩ := settles_link hlink kind
  obtain ⟨hrule₂, hlinks⟩ := settles_links hlinks kind
  refine ⟨List.forall_mem_append.2 ⟨by simpa using hrule, List.forall_mem_append.2 ⟨hrule₁, hrule₂⟩⟩, ?_⟩
  -- The grammar asks for one link at least, which is what makes the chain an edge.
  have hmore : Settles kind (operatorsOf (trees₁ ++ trees₂)) (Operand.ofTrees kind (trees₁ ++ trees₂))
      fun operands => operands ≠ [] ∧ Operand.LinksWritten kind operands (tokens₁ ++ tokens₂) := by
    refine settles_operands hlink hlinks ?_
    rintro _ operands ⟨operand, next, rfl, rfl, hwritten⟩ hwritten'
    exact ⟨by simp, next, _, rfl, hwritten, hwritten'⟩
  refine settles_operands (hjoins kind) hmore ?_
  rintro _ operands ⟨operand, rfl, hwritten⟩ ⟨hne, hwritten'⟩
  exact ⟨first, _, rfl, hwritten, hne, hwritten'⟩

/-- An operand, others behind operators, and attributes are a statement. -/
theorem means_edgeStmt (h : Spells means (production .edgeStmt).body trees tokens) (offset : Nat)
    (text : List Char) : means .edgeStmt [.node .edgeStmt offset text trees] tokens := by
  obtain ⟨operand, _, first, _, rfl, rfl, hoperand, links, lists, rest, groups, rfl, rfl, hlinks, hlists⟩ := h
  obtain ⟨hoperators, hattrList, pairs, hpairs, hgrouped⟩ := lists_of_optional hlists
  refine ⟨offset, text, _, rfl, fun kind => ?_⟩
  obtain ⟨hrule, hchain⟩ := settles_chain ⟨_, _, _, _, rfl, rfl, hoperand, hlinks⟩ kind
  -- The builder looks for operands in all of the trees; the attribute lists behind them add none.
  have hoperands : Operand.ofTrees kind (operand ++ links ++ lists) =
      Operand.ofTrees kind (operand ++ links) := by
    rw [operands_append, operands_attrList hattrList]
    rcases Operand.ofTrees kind (operand ++ links) with _ | operands
    · rfl
    · exact congrArg Except.ok (List.append_nil operands)
  rw [operators_node (by decide), ← List.append_assoc, operatorsOf_append, hoperators, List.append_nil,
    Statement.ofTree, hoperands, attributeLists_append hrule, hpairs]
  exact hchain.map fun operands hwritten => ⟨_, groups, (List.append_assoc ..).symm, hwritten, hgrouped⟩

/-- Each of the five forms is a statement. -/
theorem means_stmt (h : Spells means (production .stmt).body trees tokens) : means .stmt trees tokens := by
  -- A subgraph becomes a statement here; the other four are statements already.
  rcases h with ⟨_, _, _, rfl, hstated⟩ | ⟨_, _, _, rfl, hstated⟩ | ⟨_, _, _, rfl, hstated⟩ |
    ⟨_, _, _, rfl, hstated⟩ | ⟨_, _, _, rfl, head, body, rfl, hheaded, hbody⟩
  · exact ⟨_, rfl, hstated⟩
  · exact ⟨_, rfl, hstated⟩
  · exact ⟨_, rfl, hstated⟩
  · exact ⟨_, rfl, hstated⟩
  · refine ⟨_, rfl, fun kind => ?_⟩
    rw [Statement.ofTree]
    exact (hbody kind).map fun statements hstatements => ⟨head, body, rfl, hheaded, hstatements⟩

/-! ## Graphs -/

/-- A word for the kind of a graph is the keyword of the kind that it names. -/
theorem sameWord_graphKind {word : List Char}
    (h : (Rule.words .graphKind).any (Text.sameWord word) = true) :
    Text.sameWord word (GraphKind.ofWord word).keyword = true := by
  rw [GraphKind.ofWord]
  split
  next hdigraph => exact hdigraph
  next hdigraph => simpa [Rule.words, GraphKind.keyword, hdigraph] using h

/-- The mark of a strict graph has no operators, and tells whether the graph is strict. -/
theorem marked_of_optional (h : Spells means (.opt (.call .strict)) trees tokens) :
    operatorsOf trees = [] ∧ (∀ tree ∈ trees, tree.rule = .strict) ∧
      Graph.Marked (trees.any (·.rule == .strict)) tokens := by
  rcases h with ⟨token, place, haccept, rfl, rfl⟩ | ⟨rfl, rfl⟩
  · obtain ⟨word, rfl, hword⟩ := (Rule.accepts_words (by decide)).1 haccept
    exact ⟨rfl, by simp, word, rfl, by simpa [Rule.words] using hword⟩
  · exact ⟨rfl, by simp, rfl⟩

/-- The parts of a graph's tree: perhaps `strict`, the keyword of a kind, perhaps a name, and statements. -/
structure GraphParts (strict : List (ParseTree Rule)) (keyword : ParseTree Rule)
    (name body : List (ParseTree Rule)) : Prop where
  /-- In front there is nothing but `strict`. -/
  strict : ∀ tree ∈ strict, tree.rule = .strict
  /-- The keyword stands for the kind. -/
  keyword : keyword.rule = .graphKind
  /-- A name stands in front of the body only. -/
  name : ∀ tree ∈ name, tree.rule = .id
  /-- The body is a list of statements. -/
  body : ∀ tree ∈ body, tree.rule = .stmtList

namespace GraphParts

variable {strict name body : List (ParseTree Rule)} {keyword : ParseTree Rule}

/-- Only the keyword tells the kind. -/
theorem kind_eq (h : GraphParts strict keyword name body) :
    GraphKind.ofTrees (strict ++ ([keyword] ++ (name ++ body))) = GraphKind.ofWord keyword.text := by
  rw [GraphKind.ofTrees, find?_append_of_ne fun tree htree => by simp [h.strict tree htree],
    List.singleton_append, List.find?_cons_of_pos (by simp [h.keyword])]

/-- Only the mark in front decides whether a graph is strict. -/
theorem strict_eq (h : GraphParts strict keyword name body) :
    (strict ++ ([keyword] ++ (name ++ body))).any (·.rule == .strict) =
      strict.any (·.rule == .strict) := by
  refine any_append_of_ne (List.forall_mem_append.2 ⟨by simp [h.keyword], ?_⟩) strict
  refine List.forall_mem_append.2 ⟨?_, ?_⟩
  · exact fun tree htree => by simp [h.name tree htree]
  · exact fun tree htree => by simp [h.body tree htree]

/-- The keywords in front do not matter to the name of a graph. -/
theorem id_eq (h : GraphParts strict keyword name body) :
    Id.ofTrees? (strict ++ ([keyword] ++ (name ++ body))) = Id.ofTrees? (name ++ body) := by
  rw [ofTrees?_append fun tree htree => by simp [h.strict tree htree],
    ofTrees?_append (by simp [h.keyword])]

/-- No statements stand in front of the body. -/
theorem ne_stmtList (h : GraphParts strict keyword name body) :
    ∀ tree ∈ strict ++ ([keyword] ++ name), tree.rule ≠ .stmtList := by
  refine List.forall_mem_append.2 ⟨?_, List.forall_mem_append.2 ⟨by simp [h.keyword], ?_⟩⟩
  · exact fun tree htree => by simp [h.strict tree htree]
  · exact fun tree htree => by simp [h.name tree htree]

end GraphParts

/-- Keywords, a name and a body are a graph. -/
theorem means_graph (h : Spells means (production .graph).body trees tokens) (offset : Nat)
    (text : List Char) : means .graph [.node .graph offset text trees] tokens := by
  obtain ⟨strict, _, first, _, rfl, rfl, hstrict, _, _, _, _, rfl, rfl, ⟨token, place, haccept, rfl, rfl⟩,
    id, inner, name, _, rfl, rfl, hid, hbraces⟩ := h
  obtain ⟨word, rfl, hword⟩ := (Rule.accepts_words (by decide)).1 haccept
  obtain ⟨hstrictOperators, hstrictRule, hmarked⟩ := marked_of_optional hstrict
  obtain ⟨hrule, body, rfl, hsettles⟩ := settles_braces hbraces
  have hinner : ∀ tree ∈ inner, tree.rule ≠ .id := fun tree htree => by simp [hrule tree htree]
  obtain ⟨hidOperators, hidRule, hname⟩ := name_of_optional hid hinner
  have hparts : GraphParts strict (Rule.leaf .graphKind place (.word word)) id inner :=
    ⟨hstrictRule, Rule.leaf_rule .., hidRule, hrule⟩
  -- The statements are read off for the kind that the whole tree is found to have.
  have hbody := hsettles (GraphKind.ofWord word) (strict ++ ([Rule.leaf .graphKind place (.word word)] ++ id))
    (by
      rw [operatorsOf_append, operatorsOf_append, hstrictOperators, hidOperators]
      rfl)
    hparts.ne_stmtList
  rw [List.append_assoc, List.append_assoc] at hbody
  have hkind : GraphKind.ofTrees (strict ++ ([Rule.leaf .graphKind place (.word word)] ++ (id ++ inner))) =
      GraphKind.ofWord word := hparts.kind_eq
  refine ⟨offset, text, _, rfl, ⟨_, first, word, _, rfl, hmarked, ?_⟩, ?_⟩
  · rw [ParseTree.children_node, hkind]
    exact sameWord_graphKind hword
  rw [operators_node (by decide), ParseTree.children_node, hkind, Graph.ofTree]
  simp only [ParseTree.children_node]
  rw [hkind, hparts.strict_eq, hparts.id_eq]
  exact hbody.map fun statements hstatements =>
    ⟨first, word, name, body, rfl, hmarked, sameWord_graphKind hword, hname, hstatements⟩

/-- Every rule's body keeps what trees mean. -/
theorem means_closed : Closed means where
  terminal := means_terminal
  branch {rule trees tokens} hrule hkind h offset text := by
    cases rule with
    | graph => exact means_graph h offset text
    | stmtList => exact means_stmtList h offset text
    | attrStmt => exact means_attrStmt h offset text
    | edgeStmt => exact means_edgeStmt h offset text
    | assignment => exact means_assignment h offset text
    | nodeStmt => exact means_nodeStmt h offset text
    | nodeId => exact means_nodeId h offset text
    | port => exact means_port h offset text
    | subgraph => exact means_subgraph h offset text
    | attrList => exact means_attrList h offset text
    | attr => exact means_attr h offset text
    | id => exact means_id h offset text
    | quotedConcat => exact means_quotedConcat h offset text
    -- The other rules are terminals or silent.
    | _ => first | exact absurd hrule (by decide) | exact absurd hkind (by decide)
  silent {rule trees tokens} hrule hkind h := by
    cases rule with
    | stmt => exact means_stmt h
    | edgeOperand => exact means_edgeOperand h
    | _ => first | exact absurd hrule (by decide) | exact absurd hkind (by decide)

end DotLang.Grammar
