import DotLang.Document.Basic
import DotLang.Grammar.Productions
import DotLang.ParseError.Failure
import DotLang.Text.Lexeme

/-!
# Reading DOT

A text is read by the grammar, and the tree it gives is read as a document. Where the grammar fails,
the report names the rules that failed furthest into the text.
-/

namespace DotLang

open Peg

/-!
## Documents of parse trees

What a parse tree of the DOT grammar says. The grammar admits both edge operators everywhere; a graph
admits only the one of its kind, and the first other one in the text is an error.
-/

/-- What a parse tree can have that no document has. -/
inductive Misfit where
  /-- An edge operator that the graph's kind does not admit. -/
  | edgeOperator (found : String) (kind : GraphKind)
  /-- A node without a name. -/
  | missingNode
  /-- A rule that is no statement in a list of statements. -/
  | notAStatement (rule : Rule)
  /-- An attribute without a name or without a value. -/
  | incompleteAttribute
deriving DecidableEq

namespace Misfit

/-- The words for a misfit. -/
def message : Misfit → String
  | edgeOperator found kind =>
    let owner := match kind with
      | .graph => "an undirected graph"
      | .digraph => "a directed graph"
    "`" ++ found ++ "` is not allowed in " ++ owner ++ "; use `" ++ kind.edgeOp ++ "`"
  | missingNode => "missing node id"
  | notAStatement rule => "unexpected " ++ rule.name ++ " in statement list"
  | incompleteAttribute => "attribute needs a name and a value"

/-- The failure of reading a tree that has a misfit. -/
def within (misfit : Misfit) (tree : ParseTree Rule) : Failure :=
  ⟨.invalid misfit.message, .span tree.start tree.stop⟩

end Misfit

namespace Id

/-- The identifier of a tree of one of the four forms. -/
def ofForm : ParseTree Rule → Id
  | .node .numeral _ text _ => .numeral (String.ofList text)
  -- Each string is unescaped for itself, before they are put together.
  | .node .quotedConcat _ _ strings =>
    .quoted (String.ofList (strings.flatMap fun string =>
      (string.children.head?.map fun inner => Text.Quoted.unescape inner.text).getD []))
  | .node .htmlString _ _ parts =>
    .html (String.ofList ((parts.head?.map ParseTree.text).getD []))
  | .node _ _ text _ => .identifier (String.ofList text)

/-- The identifier of a tree. -/
def ofTree (tree : ParseTree Rule) : Id :=
  if tree.rule = .id then
    match tree.children with
    | form :: _ => ofForm form
    | [] => .identifier ""
  else ofForm tree

/-- The first identifier among some trees. -/
def ofTrees? (trees : List (ParseTree Rule)) : Option Id :=
  (trees.find? (·.rule == .id)).map ofTree

end Id

namespace Attribute

/-- The attribute of a tree: its two identifiers. -/
def ofTree (tree : ParseTree Rule) : Except Failure Attribute :=
  match tree.children with
  | key :: value :: _ => .ok ⟨Id.ofTree key, Id.ofTree value⟩
  | _ => .error (Misfit.incompleteAttribute.within tree)

/-- The attributes among some trees. -/
def ofTrees (trees : List (ParseTree Rule)) : Except Failure (List Attribute) :=
  (trees.filter (·.rule == .attr)).mapM ofTree

/-- The attributes of the first attribute list among some trees. -/
def ofLists (trees : List (ParseTree Rule)) : Except Failure (List Attribute) :=
  match trees.find? (·.rule == .attrList) with
  | some list => ofTrees list.children
  | none => .ok []

end Attribute

namespace Port

/-- The port of one or two identifiers. One alone is a compass point if it names one, and the name of
the port otherwise. -/
def ofIds : List Id → Port
  | name :: compass :: _ => ⟨some name, CompassPoint.ofName? compass.value⟩
  | [single] =>
    match CompassPoint.ofName? single.value with
    | some compass => ⟨none, some compass⟩
    | none => ⟨some single, none⟩
  | [] => ⟨none, none⟩

/-- The port of a tree. -/
def ofTree (tree : ParseTree Rule) : Port :=
  ofIds (tree.children.map Id.ofTree)

end Port

namespace NodeId

/-- The node of a tree: an identifier, and a port if there is one. -/
def ofTree (tree : ParseTree Rule) : Except Failure NodeId :=
  match tree.children with
  | id :: rest => .ok ⟨Id.ofTree id, rest.head?.map Port.ofTree⟩
  | [] => .error (Misfit.missingNode.within tree)

end NodeId

namespace Target

/-- The target that a keyword names. -/
def ofWord (word : List Char) : Target :=
  if Text.sameWord word Keyword.node then .node
  else if Text.sameWord word Keyword.edge then .edge
  else .graph

/-- The target among some trees. -/
def ofTrees (trees : List (ParseTree Rule)) : Target :=
  match trees.find? (·.rule == .attrTarget) with
  | some tree => ofWord tree.text
  | none => .graph

end Target

namespace GraphKind

/-- Accepts the operator of the graph's kind and no other. -/
def checkOperator (kind : GraphKind) (operator : ParseTree Rule) : Except Failure Unit :=
  let found := String.ofList operator.text
  if found = kind.edgeOp then .ok ()
  else .error ((Misfit.edgeOperator found kind).within operator)

/-- The kind of graph that a keyword names. -/
def ofWord (word : List Char) : GraphKind :=
  if Text.sameWord word Keyword.digraph then .digraph else .graph

/-- The kind of graph among some trees. -/
def ofTrees (trees : List (ParseTree Rule)) : GraphKind :=
  match trees.find? (·.rule == .graphKind) with
  | some tree => ofWord tree.text
  | none => .graph

end GraphKind

mutual

/-- The statement of a tree in a graph of the given kind. -/
def Statement.ofTree (kind : GraphKind) : ParseTree Rule → Except Failure Statement
  | .node .attrStmt _ _ children => do
    let attributes ← Attribute.ofLists children
    return .attributes (Target.ofTrees children) attributes
  | .node .edgeStmt _ _ children => do
    let operands ← Operand.ofTrees kind children
    let attributes ← Attribute.ofLists children
    return .edge operands attributes
  | .node .assignment start text children => do
    let pair ← Attribute.ofTree (.node .assignment start text children)
    return .assignment pair
  -- The grammar puts the node first, so the other trees can only be lists.
  | .node .nodeStmt start text children =>
    match children with
    | node :: rest => do
      let node ← NodeId.ofTree node
      let attributes ← Attribute.ofLists rest
      return .node node attributes
    | [] => .error (Misfit.missingNode.within (.node .nodeStmt start text []))
  | .node .subgraph _ _ children => do
    let statements ← Statement.ofBody kind children
    return .subgraph (Id.ofTrees? children) statements
  | .node rule start text children =>
    .error ((Misfit.notAStatement rule).within (.node rule start text children))

/-- The statements of some trees. -/
def Statement.ofTrees (kind : GraphKind) : List (ParseTree Rule) → Except Failure (List Statement)
  | [] => .ok []
  | tree :: trees => do
    let statement ← Statement.ofTree kind tree
    let statements ← Statement.ofTrees kind trees
    return statement :: statements

/-- The statements of the first list of statements among some trees. -/
def Statement.ofBody (kind : GraphKind) : List (ParseTree Rule) → Except Failure (List Statement)
  | [] => .ok []
  | .node .stmtList _ _ statements :: _ => Statement.ofTrees kind statements
  | _ :: trees => Statement.ofBody kind trees

/-- The operands among some trees, where the operators between them are those of the graph's kind. -/
def Operand.ofTrees (kind : GraphKind) : List (ParseTree Rule) → Except Failure (List Operand)
  | [] => .ok []
  | .node .nodeId start text children :: trees => do
    let node ← NodeId.ofTree (.node .nodeId start text children)
    let operands ← Operand.ofTrees kind trees
    return .node node :: operands
  | .node .subgraph _ _ children :: trees => do
    let statements ← Statement.ofBody kind children
    let operands ← Operand.ofTrees kind trees
    return .subgraph (Id.ofTrees? children) statements :: operands
  -- The operator adds no operand, but a wrong one is reported before what is behind it.
  | .node .edgeOp start text children :: trees => do
    kind.checkOperator (.node .edgeOp start text children)
    Operand.ofTrees kind trees
  | _ :: trees => Operand.ofTrees kind trees

end

/-- A body looks for its statements behind a tree that is no list of statements. -/
theorem Statement.ofBody_cons {tree : ParseTree Rule} (h : tree.rule ≠ .stmtList) (kind : GraphKind)
    (trees : List (ParseTree Rule)) : Statement.ofBody kind (tree :: trees) = Statement.ofBody kind trees := by
  rw [Statement.ofBody]
  rintro offset text statements rfl
  exact h rfl

/-- A list of attributes adds no operand. -/
theorem Operand.ofTrees_attrList_cons (kind : GraphKind) (offset : Nat) (text : List Char)
    (children trees : List (ParseTree Rule)) :
    Operand.ofTrees kind (.node .attrList offset text children :: trees) = Operand.ofTrees kind trees := by
  simp [Operand.ofTrees]

namespace Graph

/-- The graph of a tree. -/
def ofTree (tree : ParseTree Rule) : Except Failure Graph := do
  let kind := GraphKind.ofTrees tree.children
  let statements ← Statement.ofBody kind tree.children
  return {
    strict := tree.children.any (·.rule == .strict)
    kind := kind
    id := Id.ofTrees? tree.children
    statements := statements }

end Graph

namespace Document

/-- The document of a tree: its graphs in order. -/
def ofTree (tree : ParseTree Rule) : Except Failure Document := do
  let graphs ← (tree.children.filter (·.rule == .graph)).mapM Graph.ofTree
  return ⟨graphs⟩

end Document

/-! ## Texts -/

namespace Grammar

/-- The failure of a reading: the rules that failed furthest into the text, in the order of reports. -/
def failure (attempts : Attempts Rule) : Failure :=
  ⟨.expected (Rule.all.filter (· ∈ attempts.rules)), .at attempts.offset⟩

/-- The trees that a rule gives at the start of a text. The text may go on behind what is read. -/
def trees (rule : Rule) (text : List Char) : Except Failure (List (ParseTree Rule)) :=
  let reply := grammar.parse rule text
  match reply.found with
  | some found => .ok found.trees
  | none => .error (failure reply.attempts)

end Grammar

/-- The document that a text says, or why it says none. -/
def read (text : List Char) : Except Failure Document := do
  match ← Grammar.trees .document text with
  | tree :: _ => Document.ofTree tree
  | [] => return ⟨[]⟩

/-- The document that a text says, or a report of why it says none. -/
def parse (text : String) : Except ParseError Document :=
  (read text.toList).mapError (·.report text.toList)

/-! ## Building that succeeds -/

section

variable {ε α β : Type}

/-- A computation of two steps succeeds as its second step does on what the first step gives. -/
theorem exists_of_bind_eq_ok {first : Except ε α} {next : α → Except ε β} {result : β}
    (h : first >>= next = .ok result) : ∃ value, first = .ok value ∧ next value = .ok result := by
  cases first with
  | error => cases h
  | ok value => exact ⟨value, rfl, h⟩

/-- What is built from two stretches of a list, one element after the other, is built from each of them. -/
theorem exists_of_mapM_append {build : α → Except ε β} {front behind : List α} {results : List β}
    (h : (front ++ behind).mapM build = .ok results) :
    ∃ first later, front.mapM build = .ok first ∧ behind.mapM build = .ok later ∧ results = first ++ later := by
  rw [List.mapM_append] at h
  obtain ⟨first, hfirst, h⟩ := exists_of_bind_eq_ok h
  obtain ⟨later, hlater, h⟩ := exists_of_bind_eq_ok h
  exact ⟨first, later, hfirst, hlater, (Except.ok.inj h).symm⟩

end

end DotLang
