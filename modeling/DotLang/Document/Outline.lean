import DotLang.Document.WellFormed

/-!
# The outline of a document

A document is its outline and its names: the names are its identifiers outside ports, in the order in which a
text mentions them, and the outline is everything else, down to the ports.
-/

namespace DotLang

/-- The identifiers outside ports among some parts. -/
def Part.names (parts : List Part) : List Id :=
  parts.filterMap fun
    | .id name => some name
    | _ => none

/-- The identifiers of a document outside its ports, in order. -/
def Document.names (document : Document) : List Id :=
  Part.names document.parts

/-- What stands for every identifier in an outline. -/
def Id.blank : Id := .identifier ""

/-- An attribute without its identifiers. -/
def Attribute.outline (_ : Attribute) : Attribute := ⟨.blank, .blank⟩

/-- A node without its identifier, but with its port. -/
def NodeId.outline (node : NodeId) : NodeId := ⟨.blank, node.port⟩

mutual

/-- A statement without its names. -/
def Statement.outline : Statement → Statement
  | .node node attributes => .node node.outline (attributes.map Attribute.outline)
  | .edge operands attributes => .edge (Operand.listOutline operands) (attributes.map Attribute.outline)
  | .attributes target attributes => .attributes target (attributes.map Attribute.outline)
  | .assignment pair => .assignment pair.outline
  | .subgraph id statements => .subgraph (id.map fun _ => .blank) (Statement.listOutline statements)

/-- Statements without their names. -/
def Statement.listOutline : List Statement → List Statement
  | [] => []
  | statement :: statements => statement.outline :: Statement.listOutline statements

/-- An operand without its names. -/
def Operand.outline : Operand → Operand
  | .node node => .node node.outline
  | .subgraph id statements => .subgraph (id.map fun _ => .blank) (Statement.listOutline statements)

/-- Operands without their names. -/
def Operand.listOutline : List Operand → List Operand
  | [] => []
  | operand :: operands => operand.outline :: Operand.listOutline operands

end

/-- A graph without its names. -/
def Graph.outline (graph : Graph) : Graph :=
  { graph with id := graph.id.map fun _ => .blank, statements := Statement.listOutline graph.statements }

/-- A document without its names. -/
def Document.outline (document : Document) : Document :=
  ⟨document.graphs.map Graph.outline⟩

/-! ## Names of parts one after the other -/

@[simp] theorem Part.names_nil : Part.names [] = [] := rfl

@[simp] theorem Part.names_id (id : Id) (parts : List Part) :
    Part.names (.id id :: parts) = id :: Part.names parts := rfl

@[simp] theorem Part.names_port (port : Port) (parts : List Part) :
    Part.names (.port port :: parts) = Part.names parts := rfl

@[simp] theorem Part.names_chain (length : Nat) (parts : List Part) :
    Part.names (.chain length :: parts) = Part.names parts := rfl

/-- The names in parts are those in the first ones, and then those in the others. -/
@[simp] theorem Part.names_append (parts parts' : List Part) :
    Part.names (parts ++ parts') = Part.names parts ++ Part.names parts' :=
  List.filterMap_append

end DotLang
