import DotLang.Document.Members
import DotLang.Proofs.Grammar.Names

/-!
# The members of a document and those of its tree

Nothing in the tree of a text is lost, repeated or put elsewhere when a document is built from the tree. What is
built from some trees accounts for them (`AccountFor`): it names what the identifiers in them say, and has a member
for each of them that is one. `accounts` says so of every rule, as far as building succeeds, and the bodies of the
rules keep it (`accounts_closed`), so that a document accounts for the tree of the whole text
(`accountFor_of_accepts`).
-/

namespace DotLang.Grammar

open Peg Token

/-- Parts and members account for some trees right below a tree of a rule: the parts name what stands for the
identifiers in the trees, and the members are those of the trees. -/
structure AccountFor (parts : List Part) (inner : List Member) (parent : Rule) (trees : List (ParseTree Rule)) :
    Prop where
  /-- What is named stands for the identifiers. -/
  named : List.Forall₂ Named.StandsFor (parts.flatMap Part.named) (saidIds trees)
  /-- Members are matched in their order. -/
  members : List.Forall₂ Member.Matches inner (membersOf parent trees)

variable {trees trees' : List (ParseTree Rule)} {tokens : List Token} {rule parent : Rule} {tree : ParseTree Rule}
variable {parts parts' : List Part} {inner inner' : List Member}

/-- A tree that is neither an identifier nor a port says the identifiers of its children. -/
theorem saidIds_node (hid : rule ≠ .id) (hport : rule ≠ .port) (offset : Nat) (text : List Char)
    (children : List (ParseTree Rule)) : saidIds [.node rule offset text children] = saidIds children := by
  rw [saidIds, idTreesOf_cons, idTrees_node hid hport, idTreesOf_nil, List.append_nil, saidIds]

namespace AccountFor

/-- Nothing accounts for no trees. -/
theorem nil : AccountFor [] [] parent [] :=
  ⟨.nil, .nil⟩

/-- What accounts for some trees and what accounts for others together account for all of them. -/
theorem append (h : AccountFor parts inner parent trees) (h' : AccountFor parts' inner' parent trees') :
    AccountFor (parts ++ parts') (inner ++ inner') parent (trees ++ trees') := by
  refine ⟨?_, ?_⟩
  · rw [List.flatMap_append, saidIds, idTreesOf_append, List.map_append]
    exact List.rel_append h.named h'.named
  · rw [membersOf_append]
    exact List.rel_append h.members h'.members

/-- The number of operands is not named. -/
theorem chain (h : AccountFor parts inner parent trees) (length : Nat) :
    AccountFor (.chain length :: parts) inner parent trees :=
  ⟨h.named, h.members⟩

/-- What accounts for the trees below a tree accounts for the tree, if it is no member itself. -/
theorem node {children : List (ParseTree Rule)} (h : AccountFor parts inner rule children) (hid : rule ≠ .id)
    (hport : rule ≠ .port) (hrole : role? parent rule = none) (offset : Nat) (text : List Char) :
    AccountFor parts inner parent [.node rule offset text children] := by
  refine ⟨?_, ?_⟩
  · rw [saidIds_node hid hport]
    exact h.named
  · rw [membersOf_cons, ParseTree.rule_node, hrole, membersOf_nil, List.append_nil]
    exact h.members

/-- A tree that is a member is accounted for by that member and what accounts for the trees below. -/
theorem member (member : Member) {children : List (ParseTree Rule)}
    (h : AccountFor member.parts inner rule children) (hrule : rule = member.rule) (hid : rule ≠ .id)
    (hport : rule ≠ .port) (hrole : role? parent rule = some member.role) (offset : Nat) (text : List Char) :
    AccountFor member.parts (member :: inner) parent [.node rule offset text children] := by
  have hnamed : List.Forall₂ Named.StandsFor (member.parts.flatMap Part.named)
      (saidIds [.node rule offset text children]) := by
    rw [saidIds_node hid hport]
    exact h.named
  refine ⟨hnamed, ?_⟩
  rw [membersOf_cons, ParseTree.rule_node, hrole, membersOf_nil, List.append_nil]
  exact .cons ⟨rfl, hrule, hnamed⟩ h.members

end AccountFor

/-! ## What the trees of each rule are accounted for by -/

/-- A tree in which there is neither an identifier nor a member. -/
def Bare (tree : ParseTree Rule) : Prop :=
  idTrees namesCompass tree = [] ∧ members tree = []

/-- A bare tree is accounted for by nothing, where it is no member. -/
theorem Bare.accountFor (h : Bare tree) (hrole : role? parent tree.rule = none) :
    AccountFor [] [] parent [tree] := by
  refine ⟨?_, ?_⟩
  · rw [saidIds, idTreesOf_cons, h.1]
    exact .nil
  · rw [membersOf_cons, hrole, h.2]
    exact .nil

/-- A tree of an identifier. -/
def IsIdTree (tree : ParseTree Rule) : Prop :=
  tree.rule = .id ∧ members tree = []

/-- A tree of an identifier is accounted for by that identifier, where it is no member. -/
theorem IsIdTree.accountFor (h : IsIdTree tree) (hparent : role? parent .id = none) :
    AccountFor [.id (Id.ofTree tree)] [] parent [tree] := by
  obtain ⟨rule, offset, text, children⟩ := tree
  obtain ⟨rfl, hmembers⟩ := h
  refine ⟨.cons rfl .nil, ?_⟩
  rw [membersOf_cons, ParseTree.rule_node, hparent, hmembers]
  exact .nil

/-- Whatever is built from a tree accounts for what is below the tree. -/
def Accounted {α : Type} (build : ParseTree Rule → Except Failure α) (parts : α → List Part)
    (inner : α → List Member) (tree : ParseTree Rule) : Prop :=
  ∀ value, build tree = .ok value → AccountFor (parts value) (inner value) tree.rule tree.children

/-- Whatever statement is built from a tree is one of the tree's rule and accounts for what is below the tree. -/
def IsStatementTree (tree : ParseTree Rule) : Prop :=
  ∀ kind statement, Statement.ofTree kind tree = .ok statement →
    tree.rule = statement.rule ∧ AccountFor statement.parts statement.members tree.rule tree.children

/-- Whatever operands are built from a tree, there is one, of the tree's rule, and it accounts for what is below
the tree. -/
def IsOperandTree (tree : ParseTree Rule) : Prop :=
  (tree.rule = .nodeId ∨ tree.rule = .subgraph) ∧ ∀ kind operands, Operand.ofTrees kind [tree] = .ok operands →
    ∃ operand, operands = [operand] ∧ tree.rule = operand.rule ∧
      AccountFor operand.parts operand.members tree.rule tree.children

/-- What accounts for the trees of a rule. -/
def accounts : Rule → Spelling
  | .id => fun trees _ => ∃ tree, trees = [tree] ∧ IsIdTree tree
  | .attr => One .attr fun tree _ => Accounted Attribute.ofTree Attribute.parts (fun _ => []) tree
  | .attrList => One .attrList fun tree _ => Accounted (fun tree => Attribute.ofTrees tree.children)
    (·.flatMap Attribute.parts) (·.map .attribute) tree
  | .port => One .port fun tree _ => AccountFor [.port (Port.ofTree tree)] [] .nodeId [tree]
  | .nodeId => One .nodeId fun tree _ => Accounted NodeId.ofTree NodeId.parts (fun _ => []) tree
  | .nodeStmt => One .nodeStmt fun tree _ => IsStatementTree tree
  | .edgeStmt => One .edgeStmt fun tree _ => IsStatementTree tree
  | .attrStmt => One .attrStmt fun tree _ => IsStatementTree tree
  | .assignment => One .assignment fun tree _ => IsStatementTree tree
  | .subgraph => One .subgraph fun tree _ => ∀ kind, Accounted (fun tree => Statement.ofBody kind tree.children)
    (fun statements => (Id.ofTrees? tree.children).toList.map .id ++ Statement.listParts statements)
    Statement.listMembers tree
  | .stmt => fun trees _ => ∃ tree, trees = [tree] ∧ IsStatementTree tree
  | .edgeOperand => fun trees _ => ∃ tree, trees = [tree] ∧ IsOperandTree tree
  -- Statements are accounted for whatever the kind of the graph around them.
  | .stmtList => One .stmtList fun tree _ => ∀ kind, Accounted (fun tree => Statement.ofTrees kind tree.children)
    Statement.listParts Statement.listMembers tree
  | .graph => One .graph fun tree _ => Accounted Graph.ofTree Graph.parts
    (fun graph => Statement.listMembers graph.statements) tree
  | rule => fun trees _ => ∃ tree, trees = [tree] ∧ tree.rule = rule ∧ Bare tree

/-- The leaf of a token has neither an identifier nor a member. -/
theorem bare_leaf (hrule : rule.isTerminal = true) (offset : Nat) (token : Token) :
    Bare (rule.leaf offset token) := by
  cases rule <;> simp [Rule.isTerminal] at hrule <;> cases token <;> exact ⟨rfl, rfl⟩

/-- The leaf of a token is accounted for as its rule says. -/
theorem accounts_terminal (hrule : rule.isTerminal = true) (offset : Nat) (token : Token) :
    accounts rule [rule.leaf offset token] [token] := by
  have hbare := bare_leaf hrule offset token
  cases rule <;> simp [Rule.isTerminal] at hrule <;> exact ⟨_, rfl, rfl, hbare⟩

/-! ## Identifiers -/

/-- The strings of an identifier are no identifiers themselves. -/
theorem bare_quotedConcat (h : Spells accounts (production .quotedConcat).body trees tokens) (offset : Nat)
    (text : List Char) : Bare (.node .quotedConcat offset text trees) := by
  have hbare : idTreesOf namesCompass trees = [] ∧ membersOf .quotedConcat trees = [] := by
    -- The only trees inside are those of strings, which hold no identifier.
    refine holds_of_usesOnly (fun trees => idTreesOf namesCompass trees = [] ∧ membersOf .quotedConcat trees = [])
      (· = .quotedString) ⟨rfl, rfl⟩ (fun h h' => by simp [h, h']) ?_ (by decide) h
    intro rule trees tokens hrule hstring
    obtain rfl := of_decide_eq_true hrule
    obtain ⟨tree, rfl, hquoted, hids, hmembers⟩ := hstring
    simp [hids, hmembers, hquoted, role?]
  exact ⟨(idTrees_node (by decide) (by decide) _ _ _).trans hbare.1, hbare.2⟩

/-- A tree of an identifier has no members, whatever its form. -/
theorem accounts_id (h : Spells accounts (production .id).body trees tokens) (offset : Nat) (text : List Char) :
    IsIdTree (.node .id offset text trees) := by
  refine ⟨rfl, ?_⟩
  -- Each form is a single tree that is bare and no member.
  have hform : ∃ tree, trees = [tree] ∧ role? .id tree.rule = none ∧ members tree = [] := by
    rcases h with ⟨tree, rfl, hrule, hbare⟩ | ⟨tree, rfl, hrule, hbare⟩ | ⟨tree, rfl, hrule, hbare⟩ |
      ⟨tree, rfl, hrule, hbare⟩ <;> exact ⟨tree, rfl, hrule ▸ rfl, hbare.2⟩
  obtain ⟨tree, rfl, hrole, hmembers⟩ := hform
  rw [members, membersOf_cons, hrole, hmembers]
  rfl

/-! ## Attributes -/

/-- Two identifiers with an equality sign between them. -/
theorem accountFor_pair (h : Spells accounts (production .attr).body trees tokens)
    (hparent : role? parent .id = none) {offset : Nat} {text : List Char} {pair : Attribute}
    (hpair : Attribute.ofTree (.node rule offset text trees) = .ok pair) :
    AccountFor pair.parts [] parent trees := by
  obtain ⟨_, _, _, _, rfl, rfl, ⟨key, rfl, hkey⟩, _, _, _, _, rfl, rfl, hmark, ⟨value, rfl, hvalue⟩⟩ := h
  obtain ⟨rfl, rfl⟩ := spells_mark hmark
  obtain rfl : _ = pair := Except.ok.inj hpair
  exact (hkey.accountFor hparent).append (hvalue.accountFor hparent)

/-- Attributes account for trees of attribute lists and of the rules in their bodies. -/
def AccountedAttributes (trees : List (ParseTree Rule)) : Prop :=
  ∀ pairs, Attribute.ofTrees trees = .ok pairs →
    AccountFor (pairs.flatMap Attribute.parts) (pairs.map .attribute) .attrList trees

/-- No attributes account for no trees. -/
theorem accountedAttributes_nil : AccountedAttributes [] := by
  intro pairs hpairs
  cases hpairs
  exact .nil

/-- Attributes account for trees if they do for the first ones and for the others. -/
theorem AccountedAttributes.append (h : AccountedAttributes trees) (h' : AccountedAttributes trees') :
    AccountedAttributes (trees ++ trees') := by
  intro pairs hpairs
  rw [Attribute.ofTrees, List.filter_append] at hpairs
  obtain ⟨first, later, hfirst, hlater, rfl⟩ := exists_of_mapM_append hpairs
  rw [List.flatMap_append, List.map_append]
  exact (h first hfirst).append (h' later hlater)

/-- An attribute accounts for its own tree. -/
theorem accountedAttributes_attr (h : accounts .attr trees tokens) : AccountedAttributes trees := by
  obtain ⟨offset, text, children, rfl, hattr⟩ := h
  intro pairs hpairs
  obtain ⟨pair, hpair, hpairs⟩ := exists_of_bind_eq_ok hpairs
  obtain rfl := Except.ok.inj hpairs
  have haccount : AccountFor pair.parts [] .attr children := hattr pair hpair
  exact haccount.member (.attribute pair) rfl (by decide) (by decide) rfl offset text

/-- The attributes that are built from a list account for the trees in it. -/
theorem accounts_attrList (h : Spells accounts (production .attrList).body trees tokens) (offset : Nat)
    (text : List Char) : accounts .attrList [.node .attrList offset text trees] tokens := by
  refine ⟨offset, text, trees, rfl, ?_⟩
  refine holds_of_usesOnly AccountedAttributes (· = .attr) accountedAttributes_nil .append ?_ (by decide) h
  intro rule trees tokens hrule hattr
  obtain rfl := of_decide_eq_true hrule
  exact accountedAttributes_attr hattr

/-- The attributes in an attribute list that may be missing, behind trees of other rules. -/
theorem accountFor_lists (parent : Rule) (hparent : role? parent .attrList = none)
    (h : Spells accounts (.opt (.call .attrList)) trees tokens) :
    (∀ tree ∈ trees, tree.rule = .attrList) ∧ ∀ pairs, Attribute.ofLists trees = .ok pairs →
      AccountFor (pairs.flatMap Attribute.parts) (pairs.map .attribute) parent trees := by
  rcases h with ⟨offset, text, children, rfl, hlist⟩ | ⟨rfl, rfl⟩
  · refine ⟨by simp, fun pairs hpairs => ?_⟩
    have haccount : AccountFor _ _ .attrList children := hlist pairs hpairs
    exact haccount.node (by decide) (by decide) hparent offset text
  · refine ⟨by simp, fun pairs hpairs => ?_⟩
    cases hpairs
    exact .nil

/-! ## Nodes -/

/-- The members within a port are none, and the trees in it are identifiers. -/
theorem accountFor_port {port : Port} {children : List (ParseTree Rule)} (h : ∀ tree ∈ children, IsIdTree tree)
    (hnamed : List.Forall₂ Named.StandsFor (Part.port port).named
      ((children.take 1 ++ (children.drop 1).filter namesCompass).map Id.ofTree)) (offset : Nat)
    (text : List Char) : AccountFor [.port port] [] .nodeId [.node .port offset text children] := by
  -- Identifiers are no members and have none below them.
  have hnone : ∀ children : List (ParseTree Rule), (∀ tree ∈ children, IsIdTree tree) →
      membersOf .port children = [] := by
    intro children hchildren
    induction children with
    | nil => rfl
    | cons tree trees ih =>
      obtain ⟨⟨hrule, hmembers⟩, htrees⟩ := List.forall_mem_cons.1 hchildren
      rw [membersOf_cons, hrule, hmembers, ih htrees]
      rfl
  refine ⟨?_, ?_⟩
  · simpa [saidIds, idTrees_port] using hnamed
  · have hmembers : membersOf .nodeId [.node .port offset text children] = membersOf .port children :=
      List.append_nil _
    rw [hmembers, hnone children h]
    exact .nil

/-- The second of two identifiers is a compass point or leaves no trace. -/
theorem standsFor_ofIds_two (first second : ParseTree Rule) :
    List.Forall₂ Named.StandsFor (Part.port (Port.ofIds [Id.ofTree first, Id.ofTree second])).named
      (([first] ++ [second].filter namesCompass).map Id.ofTree) := by
  -- A second name that is no compass point is dropped from the port, and left out on the other side as well.
  rcases hpoint : CompassPoint.ofName? (Id.ofTree second).value with _ | point
  · have hkeep : [second].filter namesCompass = [] := by simp [namesCompass, hpoint]
    rw [hkeep, Port.ofIds, hpoint]
    exact .cons rfl .nil
  · have hkeep : [second].filter namesCompass = [second] := by simp [namesCompass, hpoint]
    rw [hkeep, Port.ofIds, hpoint]
    exact .cons rfl (.cons (CompassPoint.name_of_ofName? hpoint).symm .nil)

/-- A single identifier is a compass point or a name. -/
theorem standsFor_ofIds_one (id : Id) :
    List.Forall₂ Named.StandsFor (Part.port (Port.ofIds [id])).named [id] := by
  rw [Port.ofIds]
  rcases hpoint : CompassPoint.ofName? id.value with _ | point
  · exact .cons rfl .nil
  · exact .cons (CompassPoint.name_of_ofName? hpoint).symm .nil

/-- A port accounts for the identifiers in its tree, except for a second one that is no compass point. -/
theorem accounts_port (h : Spells accounts (production .port).body trees tokens) (offset : Nat)
    (text : List Char) : accounts .port [.node .port offset text trees] tokens := by
  obtain ⟨_, _, _, _, rfl, rfl, hmark, _, _, _, _, rfl, rfl, ⟨first, rfl, hfirst⟩, hsecond⟩ := h
  obtain ⟨rfl, rfl⟩ := spells_mark hmark
  refine ⟨offset, text, _, rfl, ?_⟩
  -- With two identifiers and with one.
  rcases hsecond with ⟨_, _, _, _, rfl, rfl, hmark, ⟨second, rfl, hsecond⟩⟩ | ⟨rfl, rfl⟩
  · obtain ⟨rfl, rfl⟩ := spells_mark hmark
    exact accountFor_port (by simpa using ⟨hfirst, hsecond⟩) (standsFor_ofIds_two first second) offset text
  · exact accountFor_port (by simpa using hfirst) (standsFor_ofIds_one (Id.ofTree first)) offset text

/-- A node accounts for its name and its port. -/
theorem accounts_nodeId (h : Spells accounts (production .nodeId).body trees tokens) (offset : Nat)
    (text : List Char) : accounts .nodeId [.node .nodeId offset text trees] tokens := by
  obtain ⟨_, _, _, _, rfl, rfl, ⟨id, rfl, hid⟩, hport⟩ := h
  refine ⟨offset, text, _, rfl, fun node hnode => ?_⟩
  obtain rfl := Except.ok.inj hnode
  have hfirst : AccountFor [.id (Id.ofTree id)] [] .nodeId [id] := hid.accountFor rfl
  -- The port is told after the identifier, as it stands behind it.
  rcases hport with ⟨place, inner, children, rfl, hport⟩ | ⟨rfl, rfl⟩
  · exact hfirst.append hport
  · exact hfirst.append .nil

/-! ## Statements -/

/-- A node statement accounts for its node and its attributes. -/
theorem accounts_nodeStmt (h : Spells accounts (production .nodeStmt).body trees tokens) (offset : Nat)
    (text : List Char) : accounts .nodeStmt [.node .nodeStmt offset text trees] tokens := by
  obtain ⟨_, lists, _, _, rfl, rfl, ⟨place, inner, children, rfl, hnode⟩, hlists⟩ := h
  obtain ⟨-, hlists⟩ := accountFor_lists .nodeStmt rfl hlists
  refine ⟨offset, text, _, rfl, fun kind statement hstatement => ?_⟩
  rw [List.singleton_append, Statement.ofTree] at hstatement
  obtain ⟨node, hbuilt, hstatement⟩ := exists_of_bind_eq_ok hstatement
  obtain ⟨pairs, hpairs, hstatement⟩ := exists_of_bind_eq_ok hstatement
  obtain rfl := Except.ok.inj hstatement
  have hparts : AccountFor node.parts [] .nodeId children := hnode node hbuilt
  -- The tree of the node is no member, so its names are passed on to the statement.
  have hfirst : AccountFor node.parts [] .nodeStmt [.node .nodeId place inner children] :=
    hparts.node (by decide) (by decide) rfl place inner
  exact ⟨rfl, hfirst.append (hlists pairs hpairs)⟩

/-- An assignment accounts for its two identifiers. -/
theorem accounts_assignment (h : Spells accounts (production .assignment).body trees tokens) (offset : Nat)
    (text : List Char) : accounts .assignment [.node .assignment offset text trees] tokens := by
  refine ⟨offset, text, trees, rfl, fun kind statement hstatement => ?_⟩
  rw [Statement.ofTree] at hstatement
  obtain ⟨pair, hpair, hstatement⟩ := exists_of_bind_eq_ok hstatement
  obtain rfl := Except.ok.inj hstatement
  exact ⟨rfl, accountFor_pair h rfl hpair⟩

/-- An attribute statement accounts for its attributes; its keyword names nothing. -/
theorem accounts_attrStmt (h : Spells accounts (production .attrStmt).body trees tokens) (offset : Nat)
    (text : List Char) : accounts .attrStmt [.node .attrStmt offset text trees] tokens := by
  obtain ⟨_, lists, _, _, rfl, rfl, ⟨target, rfl, hrule, hbare⟩, hlists⟩ := h
  obtain ⟨-, hlists⟩ := accountFor_lists .attrStmt rfl (.inl hlists)
  refine ⟨offset, text, _, rfl, fun kind statement hstatement => ?_⟩
  rw [Statement.ofTree, attributeLists_append (by simp [hrule])] at hstatement
  obtain ⟨pairs, hpairs, hstatement⟩ := exists_of_bind_eq_ok hstatement
  obtain rfl := Except.ok.inj hstatement
  have hfirst : AccountFor [] [] .attrStmt [target] := hbare.accountFor (by rw [hrule]; rfl)
  exact ⟨rfl, hfirst.append (hlists pairs hpairs)⟩

/-- A statement of each sort accounts for its tree. -/
theorem accounts_stmt (h : Spells accounts (production .stmt).body trees tokens) :
    accounts .stmt trees tokens := by
  -- A subgraph becomes a statement here; the other four are statements already.
  rcases h with ⟨_, _, _, rfl, h⟩ | ⟨_, _, _, rfl, h⟩ | ⟨_, _, _, rfl, h⟩ | ⟨_, _, _, rfl, h⟩ | ⟨_, _, _, rfl, h⟩
  · exact ⟨_, rfl, h⟩
  · exact ⟨_, rfl, h⟩
  · exact ⟨_, rfl, h⟩
  · exact ⟨_, rfl, h⟩
  · refine ⟨_, rfl, fun kind statement hstatement => ?_⟩
    rw [Statement.ofTree] at hstatement
    obtain ⟨statements, hbody, hstatement⟩ := exists_of_bind_eq_ok hstatement
    obtain rfl := Except.ok.inj hstatement
    exact ⟨rfl, h kind statements hbody⟩

/-- Among the trees of a list, the tree of a statement has the role of one. -/
theorem role?_stmtList (statement : Statement) : role? .stmtList statement.rule = some .statement := by
  cases statement <;> rfl

/-- The tree of a statement is neither an identifier nor a port. -/
theorem rule_ne (statement : Statement) : statement.rule ≠ .id ∧ statement.rule ≠ .port := by
  cases statement <;> exact ⟨nofun, nofun⟩

/-- The statements that are built from a list account for the trees in it. -/
theorem accounts_stmtList (h : Spells accounts (production .stmtList).body trees tokens) (offset : Nat)
    (text : List Char) : accounts .stmtList [.node .stmtList offset text trees] tokens := by
  refine ⟨offset, text, trees, rfl, fun kind => ?_⟩
  have hrounds : Repeats (Follows (accounts .stmt) (Spells accounts (.opt (mark ';')))) trees tokens := h
  show ∀ statements, Statement.ofTrees kind trees = .ok statements →
    AccountFor (Statement.listParts statements) (Statement.listMembers statements) .stmtList trees
  -- Every round is a statement and perhaps a semicolon, which leaves no tree.
  induction hrounds with
  | nil =>
    intro statements hstatements
    obtain rfl := Except.ok.inj hstatements
    exact .nil
  | cons hround hmore ih =>
    intro statements hstatements
    obtain ⟨_, _, _, _, rfl, rfl, ⟨⟨rule, place, inner, children⟩, rfl, htree⟩, hseparator⟩ := hround
    obtain ⟨rfl, -⟩ := optional_of_spells [';'] hseparator
    obtain ⟨first, hfirst, hstatements⟩ := exists_of_bind_eq_ok hstatements
    obtain ⟨later, hlater, hstatements⟩ := exists_of_bind_eq_ok hstatements
    obtain rfl := Except.ok.inj hstatements
    obtain ⟨hrule, haccount⟩ := htree kind first hfirst
    obtain rfl : rule = first.rule := hrule
    exact (haccount.member (.statement first) rfl (rule_ne first).1 (rule_ne first).2 (role?_stmtList first) place
      inner).append (ih hmore later hlater)

/-! ## Bodies -/

/-- The list of statements between braces, which is all that there is. -/
theorem braces_of_spells (h : Spells accounts braces trees tokens) :
    ∃ offset text children, trees = [.node .stmtList offset text children] ∧
      ∀ kind statements, Statement.ofBody kind trees = .ok statements → ∀ parent, role? parent .stmtList = none →
        AccountFor (Statement.listParts statements) (Statement.listMembers statements) parent trees := by
  obtain ⟨_, _, _, _, rfl, rfl, hopen, _, _, _, _, rfl, rfl, ⟨offset, text, children, rfl, hlist⟩, hclose⟩ := h
  obtain ⟨rfl, rfl⟩ := spells_mark hopen
  obtain ⟨rfl, rfl⟩ := spells_mark hclose
  refine ⟨offset, text, children, rfl, fun kind statements hstatements parent hparent => ?_⟩
  have haccount : AccountFor _ _ .stmtList children := hlist kind statements hstatements
  exact haccount.node (by decide) (by decide) hparent offset text

/-- A name that may be missing, and statements between braces, behind trees that are neither. -/
theorem accountFor_body {front name body : List (ParseTree Rule)} {nameTokens bodyTokens : List Token}
    (hparent : role? parent .id = none ∧ role? parent .stmtList = none) (hfront : AccountFor [] [] parent front)
    (hrule : ∀ tree ∈ front, tree.rule ≠ .id ∧ tree.rule ≠ .stmtList)
    (hname : Spells accounts (.opt (.call .id)) name nameTokens) (hbody : Spells accounts braces body bodyTokens)
    {kind : GraphKind} {statements : List Statement}
    (hstatements : Statement.ofBody kind (front ++ (name ++ body)) = .ok statements) :
    AccountFor ((Id.ofTrees? (front ++ (name ++ body))).toList.map .id ++ Statement.listParts statements)
      (Statement.listMembers statements) parent (front ++ (name ++ body)) := by
  obtain ⟨offset, text, children, rfl, hbody⟩ := braces_of_spells hbody
  rw [ofTrees?_append fun tree htree => (hrule tree htree).1]
  rw [ofBody_append fun tree htree => (hrule tree htree).2] at hstatements
  -- What stands in front of the name accounts for nothing.
  suffices hbehind : AccountFor ((Id.ofTrees? (name ++ [.node .stmtList offset text children])).toList.map .id ++
      Statement.listParts statements) (Statement.listMembers statements) parent
      (name ++ [.node .stmtList offset text children]) from hfront.append hbehind
  rcases hname with ⟨tree, rfl, hid⟩ | ⟨rfl, rfl⟩
  · have hfind : Id.ofTrees? ([tree] ++ [.node .stmtList offset text children]) = some (Id.ofTree tree) := by
      simp [Id.ofTrees?, hid.1]
    rw [ofBody_append (by simp [hid.1])] at hstatements
    rw [hfind]
    exact (hid.accountFor hparent.1).append (hbody kind statements hstatements parent hparent.2)
  · exact hbody kind statements hstatements parent hparent.2

/-- The statements of a subgraph account, together with its name, for its tree. -/
theorem accounts_subgraph (h : Spells accounts (production .subgraph).body trees tokens) (offset : Nat)
    (text : List Char) : accounts .subgraph [.node .subgraph offset text trees] tokens := by
  obtain ⟨_, body, _, _, rfl, rfl, hhead, hbody⟩ := h
  refine ⟨offset, text, _, rfl, fun kind statements hstatements => ?_⟩
  -- Without a word there is no name either.
  rcases hhead with ⟨_, name, _, _, rfl, rfl, ⟨keyword, rfl, hrule, hbare⟩, hname⟩ | ⟨rfl, rfl⟩
  · have hfront : AccountFor [] [] .subgraph [keyword] := hbare.accountFor (by rw [hrule]; rfl)
    rw [List.append_assoc] at hstatements ⊢
    exact accountFor_body ⟨rfl, rfl⟩ hfront (by simp [hrule]) hname hbody hstatements
  · have hname : Spells accounts (.opt (.call .id)) [] [] := .inr ⟨rfl, rfl⟩
    have hfront : AccountFor [] [] .subgraph [] := .nil
    have haccount := accountFor_body ⟨rfl, rfl⟩ hfront (by simp) hname hbody hstatements
    exact haccount

/-- A graph accounts for its name and its statements; its keywords name nothing. -/
theorem accounts_graph (h : Spells accounts (production .graph).body trees tokens) (offset : Nat)
    (text : List Char) : accounts .graph [.node .graph offset text trees] tokens := by
  obtain ⟨strict, _, _, _, rfl, rfl, hstrict, _, _, _, _, rfl, rfl, ⟨keyword, rfl, hrule, hbare⟩,
    name, body, _, _, rfl, rfl, hname, hbody⟩ := h
  refine ⟨offset, text, _, rfl, fun graph hgraph => ?_⟩
  obtain ⟨statements, hstatements, hgraph⟩ := exists_of_bind_eq_ok hgraph
  obtain rfl := Except.ok.inj hgraph
  have hkeyword : AccountFor [] [] .graph [keyword] := hbare.accountFor (by rw [hrule]; rfl)
  have hfront : AccountFor [] [] .graph strict ∧ ∀ tree ∈ strict, tree.rule = .strict := by
    rcases hstrict with ⟨tree, rfl, hrule, hbare⟩ | ⟨rfl, rfl⟩
    · exact ⟨hbare.accountFor (by rw [hrule]; rfl), by simpa using hrule⟩
    · exact ⟨.nil, by simp⟩
  -- The two keywords stand in front of the name and the braces.
  have hassoc : strict ++ ([keyword] ++ (name ++ body)) = (strict ++ [keyword]) ++ (name ++ body) :=
    (List.append_assoc ..).symm
  rw [hassoc] at hstatements ⊢
  refine accountFor_body ⟨rfl, rfl⟩ (hfront.1.append hkeyword) ?_ hname hbody hstatements
  exact List.forall_mem_append.2 ⟨fun tree htree => by simp [hfront.2 tree htree], by simp [hrule]⟩

/-! ## Edges -/

/-- An operand of each sort accounts for its tree. -/
theorem accounts_edgeOperand (h : Spells accounts (production .edgeOperand).body trees tokens) :
    accounts .edgeOperand trees tokens := by
  rcases h with ⟨offset, text, children, rfl, h⟩ | ⟨offset, text, children, rfl, h⟩
  · refine ⟨_, rfl, .inr rfl, fun kind operands hoperands => ?_⟩
    obtain ⟨statements, hstatements, hoperands⟩ := exists_of_bind_eq_ok hoperands
    obtain rfl := Except.ok.inj hoperands
    exact ⟨_, rfl, rfl, h kind statements hstatements⟩
  · refine ⟨_, rfl, .inl rfl, fun kind operands hoperands => ?_⟩
    obtain ⟨node, hnode, hoperands⟩ := exists_of_bind_eq_ok hoperands
    obtain rfl := Except.ok.inj hoperands
    exact ⟨_, rfl, rfl, h node hnode⟩

/-- Operands account for trees of operands and of the operators between them. -/
def AccountedOperands (trees : List (ParseTree Rule)) : Prop :=
  (∀ tree ∈ trees, tree.rule ≠ .attrList) ∧ ∀ kind operands, Operand.ofTrees kind trees = .ok operands →
    AccountFor (Operand.listParts operands) (Operand.listMembers operands) .edgeStmt trees

/-- No operands account for no trees. -/
theorem accountedOperands_nil : AccountedOperands [] := by
  refine ⟨by simp, fun kind operands hoperands => ?_⟩
  obtain rfl := Except.ok.inj hoperands
  exact .nil

/-- Operands account for trees if they do for the first ones and for the others. -/
theorem AccountedOperands.append (h : AccountedOperands trees) (h' : AccountedOperands trees') :
    AccountedOperands (trees ++ trees') := by
  refine ⟨List.forall_mem_append.2 ⟨h.1, h'.1⟩, fun kind operands hoperands => ?_⟩
  rw [operands_append] at hoperands
  obtain ⟨first, hfirst, hoperands⟩ := exists_of_bind_eq_ok hoperands
  obtain ⟨later, hlater, hoperands⟩ := exists_of_bind_eq_ok hoperands
  obtain rfl := Except.ok.inj hoperands
  rw [Operand.listParts_append, Operand.listMembers_append]
  exact (h.2 kind first hfirst).append (h'.2 kind later hlater)

/-- An operand accounts for its own tree. -/
theorem accountedOperands_operand (h : accounts .edgeOperand trees tokens) : AccountedOperands trees := by
  obtain ⟨⟨rule, offset, text, children⟩, rfl, hrule, htree⟩ := h
  -- Nodes and subgraphs are both operands of an edge.
  have hmember : rule ≠ .attrList ∧ rule ≠ .id ∧ rule ≠ .port ∧ role? .edgeStmt rule = some .operand := by
    rcases hrule with hrule | hrule <;> obtain rfl := hrule <;> exact ⟨nofun, nofun, nofun, rfl⟩
  refine ⟨by simpa using hmember.1, fun kind operands hoperands => ?_⟩
  obtain ⟨operand, rfl, hoperand, haccount⟩ := htree kind operands hoperands
  have hone := haccount.member (.operand operand) hoperand hmember.2.1 hmember.2.2.1 hmember.2.2.2 offset text
  exact hone.append .nil

/-- The tree of an operator is accounted for by no operand. -/
theorem accountedOperands_operator (h : accounts .edgeOp trees tokens) : AccountedOperands trees := by
  obtain ⟨⟨rule, offset, text, children⟩, rfl, hrule, hbare⟩ := h
  obtain rfl : rule = .edgeOp := hrule
  refine ⟨by simp, fun kind operands hoperands => ?_⟩
  obtain ⟨-, -, hoperands⟩ := exists_of_bind_eq_ok hoperands
  obtain rfl := Except.ok.inj hoperands
  exact hbare.accountFor rfl

/-- An edge accounts for its operands and its attributes; its operators name nothing. -/
theorem accounts_edgeStmt (h : Spells accounts (production .edgeStmt).body trees tokens) (offset : Nat)
    (text : List Char) : accounts .edgeStmt [.node .edgeStmt offset text trees] tokens := by
  obtain ⟨first, _, _, _, rfl, rfl, hfirst, links, lists, _, _, rfl, rfl, hlinks, hlists⟩ := h
  obtain ⟨hrule, hlists⟩ := accountFor_lists .edgeStmt rfl hlists
  -- The links are operators and operands in turn; the operators add nothing.
  have hchain : AccountedOperands (first ++ links) := by
    refine (accountedOperands_operand hfirst).append (holds_of_usesOnly AccountedOperands
      (fun rule => rule = .edgeOp ∨ rule = .edgeOperand) accountedOperands_nil .append ?_ (by decide) hlinks)
    intro rule trees tokens hrule htrees
    rcases of_decide_eq_true hrule with rfl | rfl
    · exact accountedOperands_operator htrees
    · exact accountedOperands_operand htrees
  refine ⟨offset, text, _, rfl, fun kind statement hstatement => ?_⟩
  -- The operands are built from the chain, and the attributes from what is behind it.
  rw [← List.append_assoc, Statement.ofTree, operands_append, operands_attrList hrule,
    attributeLists_append hchain.1] at hstatement
  obtain ⟨operands, hoperands, hstatement⟩ := exists_of_bind_eq_ok hstatement
  obtain ⟨built, hbuilt, hoperands⟩ := exists_of_bind_eq_ok hoperands
  obtain rfl : built ++ [] = operands := Except.ok.inj hoperands
  obtain ⟨pairs, hpairs, hstatement⟩ := exists_of_bind_eq_ok hstatement
  obtain rfl := Except.ok.inj hstatement
  refine ⟨rfl, ?_⟩
  rw [← List.append_assoc, List.append_nil]
  exact ((hchain.2 kind built hbuilt).append (hlists pairs hpairs)).chain _

/-! ## Texts -/

/-- Every rule's body keeps what accounts for trees. -/
theorem accounts_closed : Closed accounts where
  terminal hrule _ offset := accounts_terminal hrule offset _
  branch {rule trees tokens} hrule hkind h offset text := by
    cases rule with
    | graph => exact accounts_graph h offset text
    | stmtList => exact accounts_stmtList h offset text
    | attrStmt => exact accounts_attrStmt h offset text
    | edgeStmt => exact accounts_edgeStmt h offset text
    | assignment => exact accounts_assignment h offset text
    | nodeStmt => exact accounts_nodeStmt h offset text
    | nodeId => exact accounts_nodeId h offset text
    | port => exact accounts_port h offset text
    | subgraph => exact accounts_subgraph h offset text
    | attrList => exact accounts_attrList h offset text
    | attr => exact ⟨offset, text, trees, rfl, fun pair hpair => accountFor_pair h rfl hpair⟩
    | id => exact ⟨_, rfl, accounts_id h offset text⟩
    | quotedConcat => exact ⟨_, rfl, rfl, bare_quotedConcat h offset text⟩
    -- The other rules are terminals or silent.
    | _ => first | exact absurd hrule (by decide) | exact absurd hkind (by decide)
  silent {rule trees tokens} hrule hkind h := by
    cases rule with
    | stmt => exact accounts_stmt h
    | edgeOperand => exact accounts_edgeOperand h
    | _ => first | exact absurd hrule (by decide) | exact absurd hkind (by decide)

/-- Graphs account for trees of graphs. -/
theorem accountFor_graphs (h : Repeats (accounts .graph) trees tokens) {graphs : List Graph}
    (hgraphs : trees.mapM Graph.ofTree = .ok graphs) :
    AccountFor (graphs.flatMap Graph.parts)
      (graphs.flatMap fun graph => .graph graph :: Statement.listMembers graph.statements) .document trees := by
  induction h generalizing graphs with
  | nil =>
    obtain rfl := Except.ok.inj hgraphs
    exact .nil
  | cons hround _ ih =>
    obtain ⟨offset, text, children, rfl, hround⟩ := hround
    rw [List.singleton_append, List.mapM_cons] at hgraphs
    obtain ⟨graph, hgraph, hgraphs⟩ := exists_of_bind_eq_ok hgraphs
    obtain ⟨later, hlater, hgraphs⟩ := exists_of_bind_eq_ok hgraphs
    obtain rfl := Except.ok.inj hgraphs
    -- The graph accounts for what is below its tree, and is a member of the document itself.
    have haccount : AccountFor graph.parts (Statement.listMembers graph.statements) .graph children :=
      hround graph hgraph
    exact (haccount.member (.graph graph) rfl (by decide) (by decide) rfl offset text).append (ih hlater)

/-- A document accounts for the tree from which it is built. -/
theorem accountFor_of_accepts {text : List Char} {document : Document} (h : Accepts text tree)
    (hdocument : Document.ofTree tree = .ok document) :
    List.Forall₂ Named.StandsFor document.named (saidIds [tree]) ∧
      List.Forall₂ Member.Matches document.members (members tree) := by
  obtain ⟨read, trees, offset, tokens, rfl, -, hspells⟩ := spelled_of_accepts accounts_closed h
  have hrounds : Repeats (accounts .graph) trees tokens := .of_follows hspells
  obtain ⟨built, hbuilt, hdocument⟩ := exists_of_bind_eq_ok hdocument
  obtain rfl := Except.ok.inj hdocument
  have hgraphs := graphs_node (rule_of_repeats (fun ⟨_, _, _, heq, _⟩ => ⟨_, _, _, heq⟩) hrounds) read offset
  rw [graphs] at hgraphs
  rw [hgraphs] at hbuilt
  -- The tree of the end of the input names nothing and is no member.
  have hend : AccountFor [] [] .document [.node .endOfInput offset [] []] :=
    Bare.accountFor ⟨rfl, rfl⟩ rfl
  have haccount := (accountFor_graphs hrounds hbuilt).append hend
  rw [List.append_nil, List.append_nil] at haccount
  refine ⟨?_, haccount.members⟩
  rw [saidIds_node (by decide) (by decide)]
  exact haccount.named

/-! ## All identifiers in a tree -/

open ParseTree (subtrees subtreesOf subtreesOf_append subtreesOf_cons subtreesOf_nil)

/-- The trees of identifiers at every depth in some trees. -/
def idsWithin (trees : List (ParseTree Rule)) : List (ParseTree Rule) :=
  (subtreesOf trees).filter (·.rule == .id)

/-- The identifiers within trees are those within the first ones, and then those within the others. -/
theorem idsWithin_append (trees trees' : List (ParseTree Rule)) :
    idsWithin (trees ++ trees') = idsWithin trees ++ idsWithin trees' := by
  rw [idsWithin, subtreesOf_append, List.filter_append, idsWithin, idsWithin]

/-- Within a tree that is no identifier itself are the identifiers within its children. -/
theorem idsWithin_node (hid : rule ≠ .id) (offset : Nat) (text : List Char) (children : List (ParseTree Rule)) :
    idsWithin [.node rule offset text children] = idsWithin children := by
  have hself : (rule == .id) = false := by simpa using hid
  rw [idsWithin, subtreesOf_cons, subtreesOf_nil, List.append_nil, subtrees, List.filter_cons, ParseTree.rule_node,
    hself]
  rfl

/-- All identifiers in some trees are kept by a test that nothing fails. -/
def KeepsAll (trees : List (ParseTree Rule)) : Prop :=
  idTreesOf (fun _ => true) trees = idsWithin trees

/-- All identifiers in trees are kept if those in the first ones and in the others are. -/
theorem KeepsAll.append (h : KeepsAll trees) (h' : KeepsAll trees') : KeepsAll (trees ++ trees') := by
  rw [KeepsAll, idTreesOf_append, idsWithin_append, h, h']

/-- All identifiers in a tree that is neither an identifier nor a port are kept if those in its children are. -/
theorem KeepsAll.node (h : KeepsAll trees) (hid : rule ≠ .id) (hport : rule ≠ .port) (offset : Nat)
    (text : List Char) : KeepsAll [.node rule offset text trees] := by
  rw [KeepsAll, idTreesOf_cons, idTrees_node hid hport, idTreesOf_nil, List.append_nil, idsWithin_node hid, h]

/-- What the trees of a rule have to do with the identifiers in them: within an identifier there are no others. -/
def keepsAll (rule : Rule) : Spelling := fun trees _ =>
  if isForm rule then idsWithin trees = []
  else KeepsAll trees ∧ (rule = .id → ∃ tree, trees = [tree] ∧ tree.rule = .id)

/-- Within the form of an identifier there are no identifiers. -/
theorem idsWithin_of_form (hform : isForm rule = true) (h : keepsAll rule trees tokens) :
    idsWithin trees = [] := by
  rwa [keepsAll, if_pos hform] at h

/-- What an expression reads keeps all identifiers if it calls no form of an identifier. -/
theorem keepsAll_of_spells {e : Expr Rule} (he : usesOnly (fun _ => true) (fun rule => !isForm rule) e = true)
    (h : Spells keepsAll e trees tokens) : KeepsAll trees := by
  refine holds_of_usesOnly KeepsAll _ rfl .append ?_ he h
  intro rule trees tokens hform hrule
  rw [keepsAll, if_neg (by simpa using hform)] at hrule
  exact hrule.1

/-- Of an identifier, the identifier itself is all that is to be kept. -/
theorem keepsAll_id (h : Spells keepsAll (production .id).body trees tokens) (offset : Nat) (text : List Char) :
    KeepsAll [.node .id offset text trees] := by
  have hnone : idsWithin trees = [] := by
    rcases h with h | h | h | h <;> exact idsWithin_of_form rfl h
  -- The tree itself is one of an identifier, and all there is below it.
  have hself : idsWithin [.node .id offset text trees] = .node .id offset text trees :: idsWithin trees := by
    rw [idsWithin, subtreesOf_cons, subtreesOf_nil, List.append_nil, subtrees]
    rfl
  rw [KeepsAll, hself, hnone]
  rfl

/-- Within strings that are joined there are no identifiers. -/
theorem idsWithin_quotedConcat (h : Spells keepsAll (production .quotedConcat).body trees tokens) :
    idsWithin trees = [] := by
  refine holds_of_usesOnly (fun trees => idsWithin trees = []) (· = .quotedString) rfl
    (fun h h' => by rw [idsWithin_append, h, h']; rfl) ?_ (by decide) h
  intro rule trees tokens hrule hstring
  obtain rfl := of_decide_eq_true hrule
  exact idsWithin_of_form rfl hstring

/-- Where nothing fails the test, both identifiers of a port are kept. -/
theorem keepsAll_port (h : Spells keepsAll (production .port).body trees tokens) (offset : Nat)
    (text : List Char) : KeepsAll [.node .port offset text trees] := by
  -- Only identifiers are among the children, and each of them is kept.
  have hids : idTreesOf (fun _ => true) trees = trees := by
    refine holds_of_usesOnly (fun trees => idTreesOf (fun _ => true) trees = trees) (· = .id) rfl
      (fun h h' => by rw [idTreesOf_append, h, h']) ?_ (by decide) h
    intro rule trees tokens hrule hid
    obtain rfl := of_decide_eq_true hrule
    obtain ⟨-, hone⟩ := hid
    obtain ⟨⟨rule, place, inner, children⟩, rfl, hid⟩ := hone rfl
    obtain rfl : rule = .id := hid
    rfl
  have hall : KeepsAll trees := keepsAll_of_spells (by decide) h
  rw [KeepsAll, idTreesOf_cons, idTrees_port, idTreesOf_nil, List.append_nil, idsWithin_node (by decide), ← hall,
    hids, List.filter_eq_self.2 (by simp), List.take_append_drop]

theorem keepsAll_closed : Closed keepsAll where
  terminal {rule token} hrule _ offset := by
    have hnone : idsWithin [rule.leaf offset token] = [] ∧ KeepsAll [rule.leaf offset token] := by
      cases rule <;> simp [Rule.isTerminal] at hrule <;> cases token <;> exact ⟨rfl, rfl⟩
    rw [keepsAll]
    split
    next => exact hnone.1
    next =>
      refine ⟨hnone.2, ?_⟩
      rintro rfl
      cases hrule
  branch {rule trees tokens} hrule _ h offset text := by
    by_cases hid : rule = .id
    · subst hid
      exact ⟨keepsAll_id h offset text, fun _ => ⟨_, rfl, rfl⟩⟩
    by_cases hconcat : rule = .quotedConcat
    · subst hconcat
      exact (idsWithin_node (by decide) offset text trees).trans (idsWithin_quotedConcat h)
    -- Any other branch is no form of an identifier.
    have hform : isForm rule = false := by
      revert hrule hconcat
      cases rule <;> decide
    rw [keepsAll, hform]
    refine ⟨?_, fun h => absurd h hid⟩
    by_cases hport : rule = .port
    · subst hport
      exact keepsAll_port h offset text
    refine (keepsAll_of_spells ?_ h).node hid hport offset text
    revert hrule hid hconcat hport
    cases rule <;> decide
  silent {rule trees tokens} hrule hkind h := by
    rcases eq_of_isNonterminal_silent hrule hkind with rfl | rfl
    · exact ⟨keepsAll_of_spells (by decide) h, fun hid => absurd hid (by decide)⟩
    · exact ⟨keepsAll_of_spells (by decide) h, fun hid => absurd hid (by decide)⟩

/-- In the tree of a text, a test that nothing fails keeps all trees of identifiers at every depth. -/
theorem idTrees_of_accepts {text : List Char} (h : Accepts text tree) :
    idTrees (fun _ => true) tree = tree.subtrees.filter (·.rule == .id) := by
  obtain ⟨read, trees, offset, tokens, rfl, -, hspells⟩ := spelled_of_accepts keepsAll_closed h
  have hend : KeepsAll [.node .endOfInput offset [] []] := rfl
  have htree : KeepsAll [.node .document 0 read (trees ++ [.node .endOfInput offset [] []])] :=
    ((keepsAll_of_spells (by decide) hspells).append hend).node (by decide) (by decide) 0 read
  simpa [KeepsAll, idsWithin] using htree

end DotLang.Grammar
