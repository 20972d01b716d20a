import DotLang.Document.Basic
import DotLang.Json.Basic

/-!
# Documents of JSON

The document that a JSON value holds, found by its tags and by the names and the order of its members.
-/

namespace DotLang

/-- A value that may be missing: `null` stands for a missing one. -/
def Json.toOption? {α : Type} (ofJson? : Json → Option α) : Json → Option (Option α)
  | .null => some none
  | value => (ofJson? value).map some

/-- What is not `null` stands for a value that is there. -/
theorem Json.toOption?_of_ne_null {α : Type} {value : Json} (h : value ≠ .null) (ofJson? : Json → Option α) :
    toOption? ofJson? value = (ofJson? value).map some := by
  rw [toOption?]
  assumption

/-- The kind of graph of a JSON word. -/
def GraphKind.ofJson? : Json → Option GraphKind
  | .str "graph" => some .graph
  | .str "digraph" => some .digraph
  | _ => none

/-- The identifier of a JSON object. -/
def Id.ofJson? : Json → Option Id
  | .obj [("kind", .str kind), ("value", .str value)] =>
    match kind with
    | "identifier" => some (.identifier value)
    | "numeral" => some (.numeral value)
    | "quoted" => some (.quoted value)
    | "html" => some (.html value)
    | _ => none
  | _ => none

/-- The attribute of the members of a JSON object. -/
def Attribute.ofMembers? : List (String × Json) → Option Attribute
  | [("key", key), ("value", value)] => do
    let key ← Id.ofJson? key
    let value ← Id.ofJson? value
    return ⟨key, value⟩
  | _ => none

/-- The attribute of a JSON object. -/
def Attribute.ofJson? : Json → Option Attribute
  | .obj members => Attribute.ofMembers? members
  | _ => none

/-- The attributes of a JSON array. -/
def Attribute.listOfJson? : Json → Option (List Attribute)
  | .arr items => items.mapM Attribute.ofJson?
  | _ => none

/-- The compass point of a JSON word. -/
def CompassPoint.ofJson? : Json → Option CompassPoint
  | .str name => CompassPoint.ofName? name
  | _ => none

/-- The port of a JSON object. -/
def Port.ofJson? : Json → Option Port
  | .obj [("name", name), ("compass", compass)] => do
    let name ← name.toOption? Id.ofJson?
    let compass ← compass.toOption? CompassPoint.ofJson?
    return ⟨name, compass⟩
  | _ => none

/-- The node of the members of a JSON object. -/
def NodeId.ofMembers? : List (String × Json) → Option NodeId
  | [("id", id), ("port", port)] => do
    let id ← Id.ofJson? id
    let port ← port.toOption? Port.ofJson?
    return ⟨id, port⟩
  | _ => none

/-- The target of a JSON word. -/
def Target.ofJson? : Json → Option Target
  | .str "graph" => some .graph
  | .str "node" => some .node
  | .str "edge" => some .edge
  | _ => none

mutual

/-- The statement of a JSON object. -/
def Statement.ofJson? : Json → Option Statement
  | .obj [("type", .str "node"), ("node", .obj node), ("attributes", attributes)] => do
    let node ← NodeId.ofMembers? node
    let attributes ← Attribute.listOfJson? attributes
    return .node node attributes
  | .obj [("type", .str "edge"), ("operands", .arr operands), ("attributes", attributes)] => do
    let operands ← Operand.listOfJson? operands
    let attributes ← Attribute.listOfJson? attributes
    return .edge operands attributes
  | .obj [("type", .str "attributes"), ("target", target), ("attributes", attributes)] => do
    let target ← Target.ofJson? target
    let attributes ← Attribute.listOfJson? attributes
    return .attributes target attributes
  | .obj [("type", .str "subgraph"), ("id", id), ("statements", .arr statements)] => do
    let id ← id.toOption? Id.ofJson?
    let statements ← Statement.listOfJson? statements
    return .subgraph id statements
  | .obj (("type", .str "assignment") :: members) =>
    (Attribute.ofMembers? members).map .assignment
  | _ => none

/-- The statements of JSON objects. -/
def Statement.listOfJson? : List Json → Option (List Statement)
  | [] => some []
  | item :: items => do
    let statement ← Statement.ofJson? item
    let statements ← Statement.listOfJson? items
    return statement :: statements

/-- The operand of a JSON object. -/
def Operand.ofJson? : Json → Option Operand
  | .obj [("type", .str "subgraph"), ("id", id), ("statements", .arr statements)] => do
    let id ← id.toOption? Id.ofJson?
    let statements ← Statement.listOfJson? statements
    return .subgraph id statements
  | .obj (("type", .str "node") :: members) => (NodeId.ofMembers? members).map .node
  | _ => none

/-- The operands of JSON objects. -/
def Operand.listOfJson? : List Json → Option (List Operand)
  | [] => some []
  | item :: items => do
    let operand ← Operand.ofJson? item
    let operands ← Operand.listOfJson? items
    return operand :: operands

end

/-- The graph of a JSON object. -/
def Graph.ofJson? : Json → Option Graph
  | .obj [("strict", .bool strict), ("kind", kind), ("id", id), ("statements", .arr statements)] => do
    let kind ← GraphKind.ofJson? kind
    let id ← id.toOption? Id.ofJson?
    let statements ← Statement.listOfJson? statements
    return ⟨strict, kind, id, statements⟩
  | _ => none

/-- The document of a JSON object. -/
def Document.ofJson? : Json → Option Document
  | .obj [("graphs", .arr graphs)] => (graphs.mapM Graph.ofJson?).map Document.mk
  | _ => none

end DotLang
