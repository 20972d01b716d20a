/-!
# DOT documents

What a DOT text says, without its layout: graphs, their statements, and the identifiers in them.
Identifiers keep the form in which they were written, since a quoted numeral is not a numeral.
-/

namespace DotLang

/-- Whether the edges of a graph are directed. -/
inductive GraphKind where
  | graph
  | digraph
deriving DecidableEq

namespace GraphKind

/-- The only edge operator that a graph of this kind admits. -/
def edgeOp : GraphKind → String
  | graph => "--"
  | digraph => "->"

end GraphKind

/-- An identifier and the form in which it was written. -/
inductive Id where
  /-- A word. -/
  | identifier (value : String)
  /-- A decimal numeral, as written. -/
  | numeral (value : String)
  /-- A quoted string: its content with escaped quotes replaced by quotes. -/
  | quoted (value : String)
  /-- An HTML string: the text between the outer angle brackets. -/
  | html (value : String)
deriving DecidableEq

namespace Id

/-- The text of an identifier, whatever its form. -/
def value : Id → String
  | identifier value | numeral value | quoted value | html value => value

end Id

/-- An attribute: a name and what it is set to. -/
structure Attribute where
  /-- The name. -/
  key : Id
  /-- What it is set to. -/
  value : Id
deriving DecidableEq

/-- A side or corner of a node at which an edge may end. -/
inductive CompassPoint where
  | n | ne | e | se | s | sw | w | nw | c
  /-- Any side. -/
  | any
deriving DecidableEq

namespace CompassPoint

/-- The name of a compass point in DOT. -/
def name : CompassPoint → String
  | n => "n"
  | ne => "ne"
  | e => "e"
  | se => "se"
  | s => "s"
  | sw => "sw"
  | w => "w"
  | nw => "nw"
  | c => "c"
  | any => "_"

/-- All compass points. -/
def all : List CompassPoint := [n, ne, e, se, s, sw, w, nw, c, any]

/-- The compass point of a name; upper and lower case differ. -/
def ofName? (name : String) : Option CompassPoint :=
  all.find? (·.name == name)

/-- Each compass point is found under its name. -/
theorem ofName?_name (point : CompassPoint) : ofName? point.name = some point := by
  cases point <;> decide

/-- A name under which a compass point is found is the name of that point. -/
theorem name_of_ofName? {name : String} {point : CompassPoint} (h : ofName? name = some point) :
    point.name = name := by
  simpa using List.find?_some h

end CompassPoint

/-- The part of a node at which an edge ends. -/
structure Port where
  /-- The name of the part. -/
  name : Option Id
  /-- The side of the part, or of the node if no part is named. -/
  compass : Option CompassPoint
deriving DecidableEq

/-- A node, with a port where one is given. -/
structure NodeId where
  /-- The name of the node. -/
  id : Id
  /-- The port. -/
  port : Option Port
deriving DecidableEq

/-- What an attribute statement sets defaults for. -/
inductive Target where
  | graph
  | node
  | edge
deriving DecidableEq

mutual

/-- A statement of a graph or subgraph. -/
inductive Statement where
  /-- A node and its attributes. -/
  | node (node : NodeId) (attributes : List Attribute)
  /-- A chain of edges, given by the operands they join. -/
  | edge (operands : List Operand) (attributes : List Attribute)
  /-- Default attributes. -/
  | attributes (target : Target) (attributes : List Attribute)
  /-- An attribute of the graph itself. -/
  | assignment (pair : Attribute)
  /-- A subgraph. -/
  | subgraph (id : Option Id) (statements : List Statement)

/-- What an edge joins. -/
inductive Operand where
  /-- A node. -/
  | node (node : NodeId)
  /-- All nodes of a subgraph. -/
  | subgraph (id : Option Id) (statements : List Statement)

end

/-- A graph. -/
structure Graph where
  /-- Whether two nodes are joined by at most one edge. -/
  strict : Bool
  /-- Whether the edges are directed. -/
  kind : GraphKind
  /-- The name of the graph. -/
  id : Option Id
  /-- What the graph consists of. -/
  statements : List Statement

/-- What a DOT text says: one graph after the other. -/
structure Document where
  /-- The graphs in the order of the text. -/
  graphs : List Graph

end DotLang
