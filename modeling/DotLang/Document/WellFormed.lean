import DotLang.Document.Basic
import DotLang.Text.Lexeme

/-!
# Well-formed documents

The types of documents admit values that no text can say, such as an identifier with a blank in it or an
edge with a single operand. `Document.WellFormed` rules those out at every depth.
`Document.Writable` asks for a little more: that what is written for a port is read as that port again.
-/

namespace DotLang

/-!
## The parts of a document

The identifiers, ports and edge chains of a document at every depth, in the order in which a text that
says the document mentions them.
-/

/-- A part of a document. -/
inductive Part where
  /-- An identifier outside a port. -/
  | id (id : Id)
  /-- A port. -/
  | port (port : Port)
  /-- An edge statement that joins so many operands. -/
  | chain (operands : Nat)
deriving DecidableEq

/-- The parts of an attribute. -/
def Attribute.parts (pair : Attribute) : List Part :=
  [.id pair.key, .id pair.value]

/-- The parts of a node. -/
def NodeId.parts (node : NodeId) : List Part :=
  .id node.id :: node.port.toList.map .port

mutual

/-- The parts of a statement. -/
def Statement.parts : Statement → List Part
  | .node node attributes => node.parts ++ attributes.flatMap Attribute.parts
  | .edge operands attributes =>
    .chain operands.length :: (Operand.listParts operands ++ attributes.flatMap Attribute.parts)
  | .attributes _ attributes => attributes.flatMap Attribute.parts
  | .assignment pair => pair.parts
  | .subgraph id statements => id.toList.map .id ++ Statement.listParts statements

/-- The parts of some statements. -/
def Statement.listParts : List Statement → List Part
  | [] => []
  | statement :: statements => statement.parts ++ Statement.listParts statements

/-- The parts of an operand. -/
def Operand.parts : Operand → List Part
  | .node node => node.parts
  | .subgraph id statements => id.toList.map .id ++ Statement.listParts statements

/-- The parts of some operands. -/
def Operand.listParts : List Operand → List Part
  | [] => []
  | operand :: operands => operand.parts ++ Operand.listParts operands

end

/-- The parts of a graph. -/
def Graph.parts (graph : Graph) : List Part :=
  graph.id.toList.map .id ++ Statement.listParts graph.statements

/-- The parts of a document. -/
def Document.parts (document : Document) : List Part :=
  document.graphs.flatMap Graph.parts

/-! ## Well-formed parts -/

/-- Whether an identifier has a form that a text can give it. -/
def Id.WellFormed : Id → Prop
  | .identifier value => Text.IsWord value.toList ∧ Keyword.isKeyword value.toList = false
  | .numeral value => Text.IsNumeral value.toList
  | .quoted value => Text.IsQuotable value.toList
  | .html value => Text.IsBalanced value.toList

namespace Port

/-- The identifier of a port, if it is named by one. -/
def ids (port : Port) : List Id := port.name.toList

/-- Whether a port says anything. -/
def WellFormed (port : Port) : Prop :=
  (port.name.isSome ∨ port.compass.isSome) ∧ ∀ id ∈ port.ids, id.WellFormed

/-- Whether what is written for a port is read as that port: a name alone must not be that of a compass
point. -/
def Writable (port : Port) : Prop :=
  port.WellFormed ∧
    (port.compass = none → ∀ id ∈ port.ids, CompassPoint.ofName? id.value = none)

end Port

namespace Part

/-- Whether a part is one that a text can say. -/
def WellFormed : Part → Prop
  | .id name => name.WellFormed
  | .port ending => ending.WellFormed
  | .chain length => 2 ≤ length

/-- Whether what is written for a part is read as that part. -/
def Writable : Part → Prop
  | .port ending => ending.Writable
  | part => part.WellFormed

end Part

namespace Document

/-- Whether a document is one that a text can say: it has a graph, and all its parts are well formed. -/
def WellFormed (document : Document) : Prop :=
  document.graphs ≠ [] ∧ ∀ part ∈ document.parts, part.WellFormed

/-- Whether what is written for a document is read as that document. -/
def Writable (document : Document) : Prop :=
  document.graphs ≠ [] ∧ ∀ part ∈ document.parts, part.Writable

end Document

end DotLang
