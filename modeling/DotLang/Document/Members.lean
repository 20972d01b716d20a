import Mathlib.Data.List.Forall2
import DotLang.Document.Names
import DotLang.Document.WellFormed

/-!
# Members and names

What a document has in the order of the text: its members, which are graphs, statements, operands and attributes
at every depth, and what it names, which are identifiers and compass points. The same is read off the tree of a
text without building anything: there, what a tree stands for is told by its rule and the rule around it.
-/

namespace DotLang

open Peg

/-! ## In documents -/

/-- What a part of a document names. -/
inductive Named where
  /-- An identifier. -/
  | id (id : Id)
  /-- A compass point, for which the text has an identifier too. -/
  | compass (point : CompassPoint)
deriving DecidableEq

namespace Named

/-- Whether what is named stands for an identifier. A compass point stands for every identifier that has the
point's name as its text. -/
def StandsFor : Named → Id → Prop
  | id name, other => name = other
  | compass point, other => other.value = point.name

end Named

namespace Part

/-- What a part names: the name of a port comes before its compass point. -/
def named : Part → List Named
  | .id name => [.id name]
  | .port ending => ending.name.toList.map .id ++ ending.compass.toList.map .compass
  | .chain _ => []

end Part

/-- What a document names. -/
def Document.named (document : Document) : List Named :=
  document.parts.flatMap Part.named

/-- What a member of a document is. -/
inductive Role where
  | graph
  | statement
  | operand
  | attribute
deriving DecidableEq

/-- A member of a document. -/
inductive Member where
  | graph (graph : Graph)
  | statement (statement : Statement)
  | operand (operand : Operand)
  | attribute (pair : Attribute)

mutual

/-- The members within a statement. -/
def Statement.members : Statement → List Member
  | .node _ attributes => attributes.map .attribute
  | .edge operands attributes => Operand.listMembers operands ++ attributes.map .attribute
  | .attributes _ attributes => attributes.map .attribute
  | .assignment _ => []
  | .subgraph _ statements => Statement.listMembers statements

/-- Some statements, each with the members within it. -/
def Statement.listMembers : List Statement → List Member
  | [] => []
  | statement :: statements => .statement statement :: (statement.members ++ Statement.listMembers statements)

/-- The members within an operand. -/
def Operand.members : Operand → List Member
  | .node _ => []
  | .subgraph _ statements => Statement.listMembers statements

/-- Some operands, each with the members within it. -/
def Operand.listMembers : List Operand → List Member
  | [] => []
  | operand :: operands => .operand operand :: (operand.members ++ Operand.listMembers operands)

end

/-- The parts of operands are those of the first ones, and then those of the others. -/
theorem Operand.listParts_append (operands operands' : List Operand) :
    Operand.listParts (operands ++ operands') = Operand.listParts operands ++ Operand.listParts operands' := by
  induction operands with
  | nil => rfl
  | cons operand operands ih => rw [List.cons_append, Operand.listParts, Operand.listParts, ih, List.append_assoc]

/-- The members in operands are those in the first ones, and then those in the others. -/
theorem Operand.listMembers_append (operands operands' : List Operand) :
    Operand.listMembers (operands ++ operands') =
      Operand.listMembers operands ++ Operand.listMembers operands' := by
  induction operands with
  | nil => rfl
  | cons operand operands ih =>
    rw [List.cons_append, Operand.listMembers, Operand.listMembers, ih, List.cons_append, List.append_assoc]

/-- The members of a document. -/
def Document.members (document : Document) : List Member :=
  document.graphs.flatMap fun graph => .graph graph :: Statement.listMembers graph.statements

/-- The rule of the trees that a statement has. -/
def Statement.rule : Statement → Rule
  | .node _ _ => .nodeStmt
  | .edge _ _ => .edgeStmt
  | .attributes _ _ => .attrStmt
  | .assignment _ => .assignment
  | .subgraph _ _ => .subgraph

/-- The rule of the trees that an operand has. -/
def Operand.rule : Operand → Rule
  | .node _ => .nodeId
  | .subgraph _ _ => .subgraph

namespace Member

/-- What a member is. -/
def role : Member → Role
  | .graph _ => .graph
  | .statement _ => .statement
  | .operand _ => .operand
  | .attribute _ => .attribute

/-- The rule of the trees that a member has. -/
def rule : Member → Rule
  | .graph _ => .graph
  | .statement value => value.rule
  | .operand value => value.rule
  | .attribute _ => .attr

/-- The parts of a member. -/
def parts : Member → List Part
  | .graph value => value.parts
  | .statement value => value.parts
  | .operand value => value.parts
  | .attribute value => value.parts

/-- What a member names. -/
def named (member : Member) : List Named :=
  member.parts.flatMap Part.named

end Member

/-! ## In trees -/

namespace Grammar

/-- What a tree of a rule is, right below a tree of another rule. -/
def role? : Rule → Rule → Option Role
  | _, .graph => some .graph
  | _, .attr => some .attribute
  | .stmtList, _ => some .statement
  | .edgeStmt, .nodeId | .edgeStmt, .subgraph => some .operand
  | _, _ => none

mutual

/-- The members within a tree. -/
def members : ParseTree Rule → List (Role × ParseTree Rule)
  | .node rule _ _ children => membersOf rule children

/-- Those of some trees right below a tree of a rule that are members, and the members within them. -/
def membersOf (parent : Rule) : List (ParseTree Rule) → List (Role × ParseTree Rule)
  | [] => []
  | tree :: trees =>
    (role? parent tree.rule).toList.map (·, tree) ++ (members tree ++ membersOf parent trees)

end

mutual

/-- The trees of the identifiers in a tree. The second identifier of a port is kept only if it passes a test. -/
def idTrees (keep : ParseTree Rule → Bool) : ParseTree Rule → List (ParseTree Rule)
  | .node rule start text children =>
    if rule = .id then [.node rule start text children]
    else if rule = .port then children.take 1 ++ (children.drop 1).filter keep
    else idTreesOf keep children

/-- The trees of the identifiers in some trees. -/
def idTreesOf (keep : ParseTree Rule → Bool) : List (ParseTree Rule) → List (ParseTree Rule)
  | [] => []
  | tree :: trees => idTrees keep tree ++ idTreesOf keep trees

end

/-- Whether the text of an identifier is the name of a compass point. -/
def namesCompass (tree : ParseTree Rule) : Bool :=
  (CompassPoint.ofName? (Id.ofTree tree).value).isSome

section

variable {parent : Rule} {keep : ParseTree Rule → Bool}

@[simp] theorem membersOf_nil : membersOf parent [] = [] := rfl

@[simp] theorem membersOf_cons (tree : ParseTree Rule) (trees : List (ParseTree Rule)) :
    membersOf parent (tree :: trees) =
      (role? parent tree.rule).toList.map (·, tree) ++ (members tree ++ membersOf parent trees) := rfl

/-- The members among trees are those among the first ones, and then those among the others. -/
@[simp] theorem membersOf_append (trees trees' : List (ParseTree Rule)) :
    membersOf parent (trees ++ trees') = membersOf parent trees ++ membersOf parent trees' := by
  induction trees with
  | nil => rfl
  | cons tree trees ih => simp [ih]

@[simp] theorem idTreesOf_nil : idTreesOf keep [] = [] := rfl

@[simp] theorem idTreesOf_cons (tree : ParseTree Rule) (trees : List (ParseTree Rule)) :
    idTreesOf keep (tree :: trees) = idTrees keep tree ++ idTreesOf keep trees := rfl

/-- The identifiers among trees are those among the first ones, and then those among the others. -/
@[simp] theorem idTreesOf_append (trees trees' : List (ParseTree Rule)) :
    idTreesOf keep (trees ++ trees') = idTreesOf keep trees ++ idTreesOf keep trees' := by
  induction trees with
  | nil => rfl
  | cons tree trees ih => simp [ih]

/-- A tree that is neither an identifier nor a port has the identifiers of its children. -/
theorem idTrees_node {rule : Rule} (hid : rule ≠ .id) (hport : rule ≠ .port) (start : Nat) (text : List Char)
    (children : List (ParseTree Rule)) :
    idTrees keep (.node rule start text children) = idTreesOf keep children := by
  rw [idTrees, if_neg hid, if_neg hport]

/-- Of a port, the identifier of its first child counts, and those behind it that are kept. -/
theorem idTrees_port (start : Nat) (text : List Char) (children : List (ParseTree Rule)) :
    idTrees keep (.node .port start text children) = children.take 1 ++ (children.drop 1).filter keep := rfl

end

/-- The identifiers in some trees, in the order of the text, without those that leave no trace: the second one of
a port, unless it names a compass point. -/
def saidIds (trees : List (ParseTree Rule)) : List Id :=
  (idTreesOf namesCompass trees).map Id.ofTree

end Grammar

/-- Whether a member is that of a tree: it is the same kind of thing, and it names what the tree does. -/
structure Member.Matches (member : Member) (tree : Role × ParseTree Rule) : Prop where
  /-- The tree has the role of the member. -/
  role : tree.1 = member.role
  /-- The tree is one of the rule for such a member. -/
  rule : tree.2.rule = member.rule
  /-- What the member names stands for the identifiers in the tree. -/
  named : List.Forall₂ Named.StandsFor member.named (Grammar.saidIds [tree.2])

end DotLang
