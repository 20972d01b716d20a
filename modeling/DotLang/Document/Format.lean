import DotLang.Document.Basic
import DotLang.Json.Basic
import DotLang.Dump.Basic

/-!
# Written documents

The formats in which a document can be written: as JSON, and as a dump.
-/

namespace DotLang

/-!
## Documents as JSON

Every record becomes an object with its fields in order. A choice becomes an object whose first member,
the tag, names the alternative.
-/

/-- The JSON word for a kind of graph. -/
def GraphKind.toJson : GraphKind → Json
  | graph => .str "graph"
  | digraph => .str "digraph"

/-- The JSON object of an identifier, tagged with its form. -/
def Id.toJson : Id → Json
  | identifier value => .obj [("kind", .str "identifier"), ("value", .str value)]
  | numeral value => .obj [("kind", .str "numeral"), ("value", .str value)]
  | quoted value => .obj [("kind", .str "quoted"), ("value", .str value)]
  | html value => .obj [("kind", .str "html"), ("value", .str value)]

/-- The members of an attribute's JSON object. -/
def Attribute.members (pair : Attribute) : List (String × Json) :=
  [("key", pair.key.toJson), ("value", pair.value.toJson)]

/-- The JSON array of some attributes. -/
def Attribute.listToJson (pairs : List Attribute) : Json :=
  .arr (pairs.map fun pair => .obj pair.members)

/-- The JSON object of a port. -/
def Port.toJson (port : Port) : Json :=
  .obj [("name", .ofOption Id.toJson port.name),
    ("compass", .ofOption (fun point => .str point.name) port.compass)]

/-- The members of a node's JSON object. -/
def NodeId.members (node : NodeId) : List (String × Json) :=
  [("id", node.id.toJson), ("port", .ofOption Port.toJson node.port)]

/-- The JSON word for what an attribute statement sets defaults for. -/
def Target.toJson : Target → Json
  | graph => .str "graph"
  | node => .str "node"
  | edge => .str "edge"

mutual

/-- The JSON object of a statement, tagged with its form. -/
def Statement.toJson : Statement → Json
  | .node node attributes =>
    .obj [("type", .str "node"), ("node", .obj node.members),
      ("attributes", Attribute.listToJson attributes)]
  | .edge operands attributes =>
    .obj [("type", .str "edge"), ("operands", .arr (Operand.listToJson operands)),
      ("attributes", Attribute.listToJson attributes)]
  | .attributes target attributes =>
    .obj [("type", .str "attributes"), ("target", target.toJson),
      ("attributes", Attribute.listToJson attributes)]
  | .assignment pair => .obj (("type", .str "assignment") :: pair.members)
  | .subgraph id statements =>
    .obj [("type", .str "subgraph"), ("id", .ofOption Id.toJson id),
      ("statements", .arr (Statement.listToJson statements))]

/-- The JSON objects of some statements. -/
def Statement.listToJson : List Statement → List Json
  | [] => []
  | statement :: statements => statement.toJson :: Statement.listToJson statements

/-- The JSON object of an operand, tagged with its form. -/
def Operand.toJson : Operand → Json
  | .node node => .obj (("type", .str "node") :: node.members)
  | .subgraph id statements =>
    .obj [("type", .str "subgraph"), ("id", .ofOption Id.toJson id),
      ("statements", .arr (Statement.listToJson statements))]

/-- The JSON objects of some operands. -/
def Operand.listToJson : List Operand → List Json
  | [] => []
  | operand :: operands => operand.toJson :: Operand.listToJson operands

end

/-- The JSON object of a graph. -/
def Graph.toJson (graph : Graph) : Json :=
  .obj [("strict", .bool graph.strict), ("kind", graph.kind.toJson),
    ("id", .ofOption Id.toJson graph.id),
    ("statements", .arr (Statement.listToJson graph.statements))]

/-- The JSON object of a document. -/
def Document.toJson (document : Document) : Json :=
  .obj [("graphs", .arr (document.graphs.map Graph.toJson))]

/-!
## Documents as dumps

Records and alternatives are shown under their names, with their fields in order. Names of alternatives
begin with a capital letter.
-/

/-- The dump of a kind of graph. -/
def GraphKind.dump : GraphKind → Dump
  | graph => .atom "Graph"
  | digraph => .atom "Digraph"

/-- The dump of an identifier. -/
def Id.dump : Id → Dump
  | identifier value => .apply "Identifier" [.text value]
  | numeral value => .apply "Numeral" [.text value]
  | quoted value => .apply "Quoted" [.text value]
  | html value => .apply "Html" [.text value]

/-- The dump of an attribute. -/
def Attribute.dump (pair : Attribute) : Dump :=
  .record "Attribute" [("key", pair.key.dump), ("value", pair.value.dump)]

/-- The dump of some attributes. -/
def Attribute.dumpList (pairs : List Attribute) : Dump :=
  .list (pairs.map Attribute.dump)

/-- The dump of a compass point. -/
def CompassPoint.dump : CompassPoint → Dump
  | n => .atom "N"
  | ne => .atom "Ne"
  | e => .atom "E"
  | se => .atom "Se"
  | s => .atom "S"
  | sw => .atom "Sw"
  | w => .atom "W"
  | nw => .atom "Nw"
  | c => .atom "C"
  | any => .atom "Any"

/-- The dump of a port. -/
def Port.dump (port : Port) : Dump :=
  .record "Port" [("name", .ofOption Id.dump port.name),
    ("compass", .ofOption CompassPoint.dump port.compass)]

/-- The dump of a node. -/
def NodeId.dump (node : NodeId) : Dump :=
  .record "NodeId" [("id", node.id.dump), ("port", .ofOption Port.dump node.port)]

/-- The dump of what an attribute statement sets defaults for. -/
def Target.dump : Target → Dump
  | graph => .atom "Graph"
  | node => .atom "Node"
  | edge => .atom "Edge"

mutual

/-- The dump of a statement. -/
def Statement.dump : Statement → Dump
  | .node node attributes =>
    .record "Node" [("node", node.dump), ("attributes", Attribute.dumpList attributes)]
  | .edge operands attributes =>
    .record "Edge" [("operands", .list (Operand.dumpList operands)),
      ("attributes", Attribute.dumpList attributes)]
  | .attributes target attributes =>
    .record "Attributes" [("target", target.dump), ("attributes", Attribute.dumpList attributes)]
  | .assignment pair => .apply "Assignment" [pair.dump]
  | .subgraph id statements =>
    .apply "Subgraph" [.record "Subgraph" [("id", .ofOption Id.dump id),
      ("statements", .list (Statement.dumpList statements))]]

/-- The dumps of some statements. -/
def Statement.dumpList : List Statement → List Dump
  | [] => []
  | statement :: statements => statement.dump :: Statement.dumpList statements

/-- The dump of an operand. -/
def Operand.dump : Operand → Dump
  | .node node => .apply "Node" [node.dump]
  | .subgraph id statements =>
    .apply "Subgraph" [.record "Subgraph" [("id", .ofOption Id.dump id),
      ("statements", .list (Statement.dumpList statements))]]

/-- The dumps of some operands. -/
def Operand.dumpList : List Operand → List Dump
  | [] => []
  | operand :: operands => operand.dump :: Operand.dumpList operands

end

/-- The dump of a graph. -/
def Graph.dump (graph : Graph) : Dump :=
  .record "Graph" [("strict", .ofBool graph.strict), ("kind", graph.kind.dump),
    ("id", .ofOption Id.dump graph.id),
    ("statements", .list (Statement.dumpList graph.statements))]

/-- The dump of a document. -/
def Document.dump (document : Document) : Dump :=
  .record "Document" [("graphs", .list (document.graphs.map Graph.dump))]

/-!
## Output formats

The formats in which a document can be written.
-/

/-- A format for documents. -/
inductive Format where
  /-- JSON over several lines. -/
  | json
  /-- A dump over several lines. -/
  | debug
deriving DecidableEq

namespace Format

/-- The name of a format. -/
def name : Format → String
  | json => "json"
  | debug => "debug"

/-- The format of a name. -/
def ofName? (name : String) : Option Format :=
  [json, debug].find? (·.name == name)

/-- A document written in a format. -/
def render (format : Format) (document : Document) : String :=
  match format with
  | json => document.toJson.pretty
  | debug => document.dump.pretty

end Format

end DotLang
