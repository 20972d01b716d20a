import DotLang.Proofs.Document.Operators
import DotLang.Proofs.Document.Written
import DotLang.Proofs.Grammar.Spelling

/-!
# What trees mean

What is built from a tree of the grammar is written by the tokens that spell the tree. `means` says so for
every rule, and the bodies of the rules keep it (`means_closed`). Up to attribute lists and ports building
never fails; statements and graphs settle their operators.
-/

namespace DotLang

open Peg Token

namespace Grammar

/-- A tree of a rule that has a property. -/
def One (rule : Rule) (W : ParseTree Rule → List Token → Prop) : Spelling := fun trees tokens =>
  ∃ offset text children, trees = [.node rule offset text children] ∧
    W (.node rule offset text children) tokens

/-- A tree of a rule that has a property and no edge operators. -/
def Plain (rule : Rule) (W : ParseTree Rule → List Token → Prop) : Spelling :=
  One rule fun tree tokens => operators tree = [] ∧ W tree tokens

/-- A tree from which a value is built that its tokens write. -/
def Builds {α : Type} (build : ParseTree Rule → Except Failure α) (written : α → List Token → Prop) :
    ParseTree Rule → List Token → Prop := fun tree tokens =>
  ∃ value, build tree = .ok value ∧ written value tokens

/-- A tree of a statement. -/
def Stated (tree : ParseTree Rule) (tokens : List Token) : Prop :=
  ∀ kind, Settles kind (operators tree) (Statement.ofTree kind tree) (Statement.Written kind · tokens)

/-- A tree of a subgraph: what stands before its braces, and what stands between them. -/
def Enclosed (tree : ParseTree Rule) (tokens : List Token) : Prop :=
  ∃ head body, tokens = head ++ .mark '{' :: (body ++ [.mark '}']) ∧
    Statement.Headed (Id.ofTrees? tree.children) head ∧
    ∀ kind, Settles kind (operators tree) (Statement.ofBody kind tree.children)
      (Statement.ListWritten kind · body)

/-- Trees of one operand. -/
def Joins (trees : List (ParseTree Rule)) (tokens : List Token) : Prop :=
  ∀ kind, Settles kind (operatorsOf trees) (Operand.ofTrees kind trees)
    fun operands => ∃ operand, operands = [operand] ∧ operand.Written kind tokens

/-- Tokens of a graph of a kind, as far as its keyword. -/
def Introduced (kind : GraphKind) (tokens : List Token) : Prop :=
  ∃ strict first word rest, tokens = first ++ .word word :: rest ∧ Graph.Marked strict first ∧
    Text.sameWord word kind.keyword = true

/-- What the trees of a rule have to do with the tokens that spell them. -/
def means : Rule → Spelling
  | .quotedConcat => Plain .quotedConcat fun tree => (Id.ofForm tree).Written
  | .id => Plain .id fun tree => (Id.ofTree tree).Written
  | .attr => Plain .attr (Builds Attribute.ofTree Attribute.Written)
  | .attrList => Plain .attrList fun tree tokens =>
    tokens ≠ [] ∧ Builds (fun tree => Attribute.ofTrees tree.children) Attribute.Grouped tree tokens
  | .port => Plain .port fun tree => (Port.ofTree tree).Written
  | .nodeId => Plain .nodeId (Builds NodeId.ofTree NodeId.Written)
  | .nodeStmt => One .nodeStmt Stated
  | .edgeStmt => One .edgeStmt Stated
  | .attrStmt => One .attrStmt Stated
  | .assignment => One .assignment Stated
  | .subgraph => One .subgraph Enclosed
  | .stmt => fun trees tokens => ∃ tree, trees = [tree] ∧ Stated tree tokens
  | .edgeOperand => fun trees tokens => (∃ tree, trees = [tree] ∧ tree.rule ≠ .attrList) ∧ Joins trees tokens
  -- Whether the builder succeeds depends on the kind of the graph, which is known only at its root.
  | .stmtList => One .stmtList fun tree tokens =>
    ∀ kind, Settles kind (operators tree) (Statement.ofTrees kind tree.children)
      (Statement.ListWritten kind · tokens)
  | .graph => One .graph fun tree tokens =>
    Introduced (GraphKind.ofTrees tree.children) tokens ∧
      Settles (GraphKind.ofTrees tree.children) (operators tree) (Graph.ofTree tree)
        (Graph.Written · tokens)
  -- What is left are the terminals.
  | rule => fun trees tokens =>
    ∃ token offset, rule.accepts token = true ∧ trees = [rule.leaf offset token] ∧ tokens = [token]

/-- The leaf of a token means that token. -/
theorem means_terminal {rule : Rule} {token : Token} (hrule : rule.isTerminal = true)
    (haccept : rule.accepts token = true) (offset : Nat) :
    means rule [rule.leaf offset token] [token] := by
  cases rule <;> simp [Rule.isTerminal] at hrule <;> exact ⟨token, offset, haccept, rfl, rfl⟩

variable {trees : List (ParseTree Rule)} {tokens : List Token}

/-- A mark is spelled by its token and leaves no tree. -/
theorem spells_mark {S : Rule → Spelling} {c : Char} (h : Spells S (mark c) trees tokens) :
    trees = [] ∧ tokens = [.mark c] := by
  obtain ⟨rfl, d, hd, rfl⟩ := h
  obtain rfl : c = d := by simpa using hd
  exact ⟨rfl, rfl⟩

/-! ## Identifiers -/

/-- A quoted string is spelled by one token, and its leaf has what stands between the quotes. -/
theorem means_quotedString (h : means .quotedString trees tokens) :
    ∃ content offset, trees = [Rule.leaf .quotedString offset (.quoted content)] ∧
      tokens = [.quoted content] := by
  obtain ⟨token, offset, haccept, rfl, rfl⟩ := h
  obtain ⟨content, rfl⟩ := Rule.accepts_quotedString.1 haccept
  exact ⟨content, offset, rfl, rfl⟩

/-- The text of a quoted string, given its tree. -/
def quotedText (tree : ParseTree Rule) : List Char :=
  (tree.children.head?.map fun inner => Text.Quoted.unescape inner.text).getD []

/-- Strings behind plus signs are joined to the one before them, and there are no operators among them. -/
theorem joined_of_repeats
    (h : Repeats (Follows (Spells means (mark '+')) (means .quotedString)) trees tokens)
    (content : List Char) :
    Id.Joined (Text.Quoted.unescape content ++ trees.flatMap quotedText) (.quoted content :: tokens) ∧
      operatorsOf trees = [] := by
  induction h generalizing content with
  | nil =>
    rw [List.flatMap_nil, List.append_nil]
    exact ⟨.single content, rfl⟩
  | cons hround _ ih =>
    obtain ⟨_, _, _, _, rfl, rfl, hplus, hstring⟩ := hround
    obtain ⟨rfl, rfl⟩ := spells_mark hplus
    obtain ⟨next, offset, rfl, rfl⟩ := means_quotedString hstring
    exact ⟨.more content (ih next).1, (ih next).2⟩

/-- The trees of strings that are joined mean an identifier that says all of them. -/
theorem means_quotedConcat (h : Spells means (production .quotedConcat).body trees tokens) (offset : Nat)
    (text : List Char) : means .quotedConcat [.node .quotedConcat offset text trees] tokens := by
  obtain ⟨_, more, _, _, rfl, rfl, hstring, hmore⟩ := h
  obtain ⟨content, place, rfl, rfl⟩ := means_quotedString hstring
  obtain ⟨hjoined, hoperators⟩ := joined_of_repeats hmore content
  exact ⟨offset, text, _, rfl, hoperators, Id.written_quoted hjoined⟩

/-- A tree of any of the four forms means an identifier. -/
theorem means_id (h : Spells means (production .id).body trees tokens) (offset : Nat)
    (text : List Char) : means .id [.node .id offset text trees] tokens := by
  -- The alternatives are HTML, quoted strings, numerals and words, in this order.
  rcases h with h | h | h | h
  · obtain ⟨token, place, haccept, rfl, rfl⟩ := h
    obtain ⟨content, rfl⟩ := Rule.accepts_htmlString.1 haccept
    exact ⟨offset, text, _, rfl, rfl, Id.written_html content⟩
  · obtain ⟨place, inner, children, rfl, hoperators, hwritten⟩ := h
    refine ⟨offset, text, _, rfl, ?_, hwritten⟩
    simpa [operators_node] using hoperators
  · obtain ⟨token, place, haccept, rfl, rfl⟩ := h
    obtain ⟨digits, rfl⟩ := Rule.accepts_numeral.1 haccept
    exact ⟨offset, text, _, rfl, rfl, Id.written_numeral digits⟩
  · obtain ⟨token, place, haccept, rfl, rfl⟩ := h
    obtain ⟨word, rfl, hkeyword⟩ := Rule.accepts_identifier.1 haccept
    exact ⟨offset, text, _, rfl, rfl, Id.written_identifier hkeyword⟩

/-! ## Attributes -/

/-- Two identifiers with an equality sign between them. -/
theorem builds_pair (h : Spells means (production .attr).body trees tokens) (rule : Rule)
    (hrule : rule ≠ .edgeOp) (offset : Nat) (text : List Char) :
    operators (.node rule offset text trees) = [] ∧
      Builds Attribute.ofTree Attribute.Written (.node rule offset text trees) tokens := by
  obtain ⟨_, _, key, _, rfl, rfl, ⟨_, _, _, rfl, hkey, hkeyWritten⟩, _, _, _, value, rfl, rfl,
    hmark, ⟨_, _, _, rfl, hvalue, hvalueWritten⟩⟩ := h
  obtain ⟨rfl, rfl⟩ := spells_mark hmark
  refine ⟨?_, _, rfl, key, value, rfl, hkeyWritten, hvalueWritten⟩
  rw [operators_node hrule]
  simp [hkey, hvalue]

/-- Two identifiers with an equality sign between them mean an attribute. -/
theorem means_attr (h : Spells means (production .attr).body trees tokens) (offset : Nat)
    (text : List Char) : means .attr [.node .attr offset text trees] tokens :=
  ⟨offset, text, trees, rfl, builds_pair h .attr (by decide) offset text⟩

/-- The attributes of some trees and those of more behind them. -/
theorem attributes_append {trees trees' : List (ParseTree Rule)} {pairs pairs' : List Attribute}
    (h : Attribute.ofTrees trees = .ok pairs) (h' : Attribute.ofTrees trees' = .ok pairs') :
    Attribute.ofTrees (trees ++ trees') = .ok (pairs ++ pairs') := by
  rw [Attribute.ofTrees] at h h' ⊢
  rw [List.filter_append, List.mapM_append, h, h']
  rfl

/-- From a single tree of an attribute, that attribute alone is built. -/
theorem attributes_single {offset : Nat} {text : List Char} {children : List (ParseTree Rule)}
    {pair : Attribute} (h : Attribute.ofTree (.node .attr offset text children) = .ok pair) :
    Attribute.ofTrees [.node .attr offset text children] = .ok [pair] := by
  have hfilter : [ParseTree.node Rule.attr offset text children].filter (·.rule == .attr) =
      [.node .attr offset text children] := rfl
  rw [Attribute.ofTrees, hfilter, List.mapM_cons, h]
  rfl

/-- A choice of marks is spelled by one of them. -/
theorem mark_of_spells {marks : List Char} (h : Spells means (.any (marks.map mark)) trees tokens) :
    trees = [] ∧ ∃ c ∈ marks, tokens = [.mark c] := by
  induction marks with
  | nil => exact h.elim
  | cons c marks ih =>
    have hmark : ∀ {trees tokens}, Spells means (mark c) trees tokens →
        trees = [] ∧ ∃ d ∈ c :: marks, tokens = [.mark d] := by
      intro trees tokens h
      obtain ⟨rfl, rfl⟩ := spells_mark h
      exact ⟨rfl, c, List.mem_cons_self, rfl⟩
    -- The last of several alternatives stands alone, the others are choices.
    rcases marks with _ | ⟨d, marks⟩
    · exact hmark h
    · rcases h with h | h
      · exact hmark h
      · obtain ⟨htrees, e, he, htokens⟩ := ih h
        exact ⟨htrees, e, List.mem_cons_of_mem c he, htokens⟩

/-- A mark that may be missing leaves no tree, whether it is there or not. -/
theorem optional_of_spells (marks : List Char)
    (h : Spells means (.opt (.any (marks.map mark))) trees tokens) :
    trees = [] ∧ Token.Optional marks tokens := by
  rcases h with h | ⟨rfl, rfl⟩
  · exact ⟨(mark_of_spells h).1, .inr (mark_of_spells h).2⟩
  · exact ⟨rfl, .inl rfl⟩

/-- Trees of attributes: what is built from them, and that they have no operators. -/
def BuildsAttributes (written : List Attribute → List Token → Prop) : Spelling := fun trees tokens =>
  operatorsOf trees = [] ∧ ∃ pairs, Attribute.ofTrees trees = .ok pairs ∧ written pairs tokens

/-- Attributes behind separators that may be missing are listed behind the first one. -/
theorem listed_of_repeats {pair : Attribute} {first : List Token} (hpair : pair.Written first)
    (h : Repeats (Follows (Spells means (.opt (.any [mark ',', mark ';']))) (means .attr)) trees tokens) :
    BuildsAttributes (fun pairs tokens => Attribute.Listed (pair :: pairs) (first ++ tokens))
      trees tokens := by
  induction h generalizing pair first with
  | nil => exact ⟨rfl, [], rfl, by simpa using .single hpair⟩
  | cons hround _ ih =>
    obtain ⟨_, _, separator, _, rfl, rfl, hseparator, ⟨_, _, _, rfl, hattr, next, hbuild, hnext⟩⟩ := hround
    obtain ⟨rfl, hoptional⟩ := optional_of_spells [',', ';'] hseparator
    -- The attribute of this round is the first one of those that follow.
    obtain ⟨hmore, pairs, hpairs, hlisted⟩ := ih hnext
    refine ⟨?_, next :: pairs, attributes_append (attributes_single hbuild) hpairs, ?_⟩
    · simp [hattr, hmore]
    · rw [List.append_assoc]
      exact .more hpair hoptional hlisted

/-- A group is written by tokens, and its attributes stand before those of the groups behind it. -/
theorem grouped_of_group (h : Spells means group trees tokens) :
    tokens ≠ [] ∧ BuildsAttributes (fun pairs tokens => ∀ {pairs' tokens'},
      Attribute.Grouped pairs' tokens' → Attribute.Grouped (pairs ++ pairs') (tokens ++ tokens'))
      trees tokens := by
  obtain ⟨_, _, _, _, rfl, rfl, hopen, _, _, inner, _, rfl, rfl, hinner, hclose⟩ := h
  obtain ⟨rfl, rfl⟩ := spells_mark hopen
  obtain ⟨rfl, rfl⟩ := spells_mark hclose
  refine ⟨by simp, ?_⟩
  -- Between the brackets there are attributes, or there is nothing.
  rcases hinner with ⟨_, _, first, more, rfl, rfl, ⟨_, _, _, rfl, hattr, pair, hbuild, hpair⟩, hmore⟩ |
    ⟨rfl, rfl⟩
  · obtain ⟨hoperators, pairs, hpairs, hlisted⟩ := listed_of_repeats hpair hmore
    refine ⟨by simp [hattr, hoperators], pair :: pairs, ?_, fun hgrouped => ?_⟩
    · simpa using attributes_append (attributes_single hbuild) hpairs
    · simpa using Attribute.Grouped.group hlisted hgrouped
  · exact ⟨rfl, [], rfl, fun hgrouped => .empty hgrouped⟩

/-- Groups one after the other mean all of their attributes, in order. -/
theorem grouped_of_repeats (h : Repeats (Spells means group) trees tokens) :
    BuildsAttributes Attribute.Grouped trees tokens := by
  induction h with
  | nil => exact ⟨rfl, [], rfl, .none⟩
  | cons hround _ ih =>
    obtain ⟨-, hfirst, pairs, hpairs, hgroup⟩ := grouped_of_group hround
    obtain ⟨hmore, pairs', hpairs', hgrouped⟩ := ih
    exact ⟨by simp [hfirst, hmore], _, attributes_append hpairs hpairs', hgroup hgrouped⟩

/-- The trees of some groups mean a list of attributes that is written by tokens. -/
theorem means_attrList (h : Spells means (production .attrList).body trees tokens) (offset : Nat)
    (text : List Char) : means .attrList [.node .attrList offset text trees] tokens := by
  obtain ⟨_, _, _, _, rfl, rfl, hfirst, hmore⟩ := h
  obtain ⟨hne, hoperators, pairs, hpairs, hgroup⟩ := grouped_of_group hfirst
  obtain ⟨hoperators', pairs', hpairs', hgrouped⟩ := grouped_of_repeats hmore
  refine ⟨offset, text, _, rfl, ?_, ?_, _, attributes_append hpairs hpairs', hgroup hgrouped⟩
  · rw [operators_node (by decide), operatorsOf_append, hoperators, hoperators']
    rfl
  · simp [hne]

/-! ## Nodes -/

/-- The compass point that is built from one identifier, or the name otherwise. -/
theorem written_ofIds_single {id : Id} (h : id.Written tokens) :
    (Port.ofIds [id]).Written (.mark ':' :: tokens) := by
  rw [Port.ofIds]
  rcases hpoint : CompassPoint.ofName? id.value with _ | point
  · exact .name h hpoint
  · exact .compass h hpoint

/-- One or two identifiers behind colons mean a port. -/
theorem means_port (h : Spells means (production .port).body trees tokens) (offset : Nat)
    (text : List Char) : means .port [.node .port offset text trees] tokens := by
  obtain ⟨_, _, _, _, rfl, rfl, hmark, _, _, first, _, rfl, rfl, ⟨_, _, _, rfl, hfirst, hid⟩, hsecond⟩ := h
  obtain ⟨rfl, rfl⟩ := spells_mark hmark
  -- Of two identifiers the first is a name; a single one may be a compass point.
  rcases hsecond with ⟨_, _, _, second, rfl, rfl, hmark, ⟨_, _, _, rfl, hsecond, hid'⟩⟩ | ⟨rfl, rfl⟩
  · obtain ⟨rfl, rfl⟩ := spells_mark hmark
    refine ⟨offset, text, _, rfl, ?_, .both hid hid'⟩
    simp [operators_node, hfirst, hsecond]
  · refine ⟨offset, text, _, rfl, ?_, ?_⟩
    · simp [operators_node, hfirst]
    · have hwritten := written_ofIds_single hid
      rwa [← List.append_nil first] at hwritten

/-- An identifier, with a port or without one, means a node. -/
theorem means_nodeId (h : Spells means (production .nodeId).body trees tokens) (offset : Nat)
    (text : List Char) : means .nodeId [.node .nodeId offset text trees] tokens := by
  obtain ⟨_, _, first, _, rfl, rfl, ⟨_, _, _, rfl, hfirst, hid⟩, hport⟩ := h
  -- There is a port or there is none, which the builder sees by the second tree.
  rcases hport with ⟨_, _, _, rfl, hport, hwritten⟩ | ⟨rfl, rfl⟩
  · refine ⟨offset, text, _, rfl, ?_, _, rfl, .port hid hwritten⟩
    simp [operators_node, hfirst, hport]
  · refine ⟨offset, text, _, rfl, ?_, _, rfl, ?_⟩
    · simp [operators_node, hfirst]
    · rw [List.append_nil]
      exact .bare hid

end Grammar

end DotLang
