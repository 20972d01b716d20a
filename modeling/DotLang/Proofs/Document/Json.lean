import DotLang.Document.Format
import DotLang.Document.OfJson
import DotLang.Proofs.Json.Printer
import DotLang.Proofs.Json.Reader

/-!
# Documents written as JSON

The JSON value of a document keeps all of it: each tag tells which alternative was written, and the fields behind it
are read as they were written (`Document.ofJson?_toJson`). A printed document is the text of this one value
(`render_json`), so no two documents are printed alike.
-/

namespace DotLang

open Json

/-! ## What is read again -/

/-- An identifier is read back from its object. -/
theorem Id.ofJson?_toJson (id : Id) : Id.ofJson? id.toJson = some id := by
  cases id <;> rfl

/-- An attribute is read back from its members. -/
theorem Attribute.ofMembers?_members (pair : Attribute) : Attribute.ofMembers? pair.members = some pair := by
  simp [Attribute.members, Attribute.ofMembers?, Id.ofJson?_toJson]

section

variable {α : Type} {toJson : α → Json} {ofJson? : Json → Option α}

/-- Values are read back one by one if each of them is. -/
theorem Json.mapM_map (h : ∀ value, ofJson? (toJson value) = some value) (values : List α) :
    (values.map toJson).mapM ofJson? = some values := by
  induction values with
  | nil => rfl
  | cons value values ih => simp [List.mapM_cons, h, ih]

/-- A value that may be missing is read again, since what is written for a value is not what stands for none. -/
theorem Json.toOption?_ofOption (h : ∀ value, ofJson? (toJson value) = some value)
    (hnull : ∀ value, toJson value ≠ .null) (value : Option α) :
    toOption? ofJson? (ofOption toJson value) = some value := by
  cases value with
  | none => rfl
  | some value => rw [ofOption, toOption?_of_ne_null (hnull value), h, Option.map_some]

end

/-- Attributes are read back in order. -/
theorem Attribute.listOfJson?_listToJson (pairs : List Attribute) :
    Attribute.listOfJson? (Attribute.listToJson pairs) = some pairs :=
  Json.mapM_map Attribute.ofMembers?_members pairs

/-- A name that may be missing is read back. -/
theorem Id.toOption?_ofOption (id : Option Id) : toOption? Id.ofJson? (ofOption Id.toJson id) = some id :=
  Json.toOption?_ofOption Id.ofJson?_toJson (fun id => by cases id <;> nofun) id

/-- A port is read back from its object. -/
theorem Port.ofJson?_toJson (port : Port) : Port.ofJson? port.toJson = some port := by
  have hpoint : ∀ point : CompassPoint, CompassPoint.ofJson? (.str point.name) = some point :=
    CompassPoint.ofName?_name
  have hcompass := Json.toOption?_ofOption hpoint nofun port.compass
  simp [Port.toJson, Port.ofJson?, Id.toOption?_ofOption, hcompass]

/-- A node is read back from its members. -/
theorem NodeId.ofMembers?_members (node : NodeId) : NodeId.ofMembers? node.members = some node := by
  have hport := Json.toOption?_ofOption Port.ofJson?_toJson nofun node.port
  simp [NodeId.members, NodeId.ofMembers?, Id.ofJson?_toJson, hport]

/-- A target is read back from its word. -/
theorem Target.ofJson?_toJson (target : Target) : Target.ofJson? target.toJson = some target := by
  cases target <;> rfl

mutual

/-- A statement is read back from its object. -/
theorem Statement.ofJson?_toJson : ∀ statement : Statement, Statement.ofJson? statement.toJson = some statement
  | .node node attributes => by
    simp [Statement.toJson, Statement.ofJson?, NodeId.ofMembers?_members, Attribute.listOfJson?_listToJson]
  | .edge operands attributes => by
    simp [Statement.toJson, Statement.ofJson?, Operand.listOfJson?_listToJson operands,
      Attribute.listOfJson?_listToJson]
  | .attributes target attributes => by
    simp [Statement.toJson, Statement.ofJson?, Target.ofJson?_toJson, Attribute.listOfJson?_listToJson]
  | .assignment pair => by
    -- The other alternatives are told apart by names of members too, so these are shown until the tag is read.
    rw [Statement.toJson, Attribute.members, Statement.ofJson?, ← Attribute.members, Attribute.ofMembers?_members]
    rfl
  | .subgraph id statements => by
    simp [Statement.toJson, Statement.ofJson?, Id.toOption?_ofOption, Statement.listOfJson?_listToJson statements]

/-- Statements are read back in order. -/
theorem Statement.listOfJson?_listToJson :
    ∀ statements, Statement.listOfJson? (Statement.listToJson statements) = some statements
  | [] => rfl
  | statement :: statements => by
    simp [Statement.listToJson, Statement.listOfJson?, Statement.ofJson?_toJson statement,
      Statement.listOfJson?_listToJson statements]

/-- An operand is read back from its object. -/
theorem Operand.ofJson?_toJson : ∀ operand : Operand, Operand.ofJson? operand.toJson = some operand
  | .node node => by
    rw [Operand.toJson, NodeId.members, Operand.ofJson?, ← NodeId.members, NodeId.ofMembers?_members]
    rfl
  | .subgraph id statements => by
    simp [Operand.toJson, Operand.ofJson?, Id.toOption?_ofOption, Statement.listOfJson?_listToJson statements]

/-- Operands are read back in order. -/
theorem Operand.listOfJson?_listToJson :
    ∀ operands, Operand.listOfJson? (Operand.listToJson operands) = some operands
  | [] => rfl
  | operand :: operands => by
    simp [Operand.listToJson, Operand.listOfJson?, Operand.ofJson?_toJson operand,
      Operand.listOfJson?_listToJson operands]

end

/-- A graph is read back from its object. -/
theorem Graph.ofJson?_toJson (graph : Graph) : Graph.ofJson? graph.toJson = some graph := by
  have hkind : GraphKind.ofJson? graph.kind.toJson = some graph.kind := by
    cases graph.kind <;> rfl
  simp [Graph.toJson, Graph.ofJson?, hkind, Id.toOption?_ofOption, Statement.listOfJson?_listToJson]

/-- What is read of the JSON value of a document is the document. -/
theorem Document.ofJson?_toJson (document : Document) : Document.ofJson? document.toJson = some document := by
  rw [Document.toJson, Document.ofJson?, Json.mapM_map Graph.ofJson?_toJson]
  rfl

/-! ## Names of members -/

/-- An object has distinct names if its own are and those within its values are. -/
theorem Json.namesDistinct_obj {members : List (String × Json)} (names : List String)
    (hnames : members.map Prod.fst = names) (hnodup : names.Nodup) (hvalues : MembersDistinct members) :
    (obj members).NamesDistinct :=
  ⟨hnames ▸ hnodup, hvalues⟩

/-- The items of an array have distinct names if what is written for each value has. -/
theorem Json.itemsDistinct_map {α : Type} {toJson : α → Json} (h : ∀ value, (toJson value).NamesDistinct)
    (values : List α) : ItemsDistinct (values.map toJson) := by
  induction values with
  | nil => trivial
  | cons value values ih => exact ⟨h value, ih⟩

/-- What is written for a value that may be missing has distinct names if this is so for each value. -/
theorem Json.namesDistinct_ofOption {α : Type} {toJson : α → Json} (h : ∀ value, (toJson value).NamesDistinct)
    (value : Option α) : (ofOption toJson value).NamesDistinct := by
  cases value with
  | none => trivial
  | some value => exact h value

/-- The object of an identifier has distinct names. -/
theorem Id.namesDistinct_toJson (id : Id) : id.toJson.NamesDistinct := by
  cases id <;> simp [Id.toJson, NamesDistinct, MembersDistinct]

/-- Within the members of an attribute, names are distinct. -/
theorem Attribute.membersDistinct (pair : Attribute) : MembersDistinct pair.members :=
  ⟨pair.key.namesDistinct_toJson, pair.value.namesDistinct_toJson, trivial⟩

/-- The objects of attributes have distinct names. -/
theorem Attribute.namesDistinct_listToJson (pairs : List Attribute) :
    (Attribute.listToJson pairs).NamesDistinct := by
  have hpair (pair : Attribute) : (obj pair.members).NamesDistinct :=
    Json.namesDistinct_obj ["key", "value"] rfl (by decide) pair.membersDistinct
  exact Json.itemsDistinct_map hpair pairs

/-- The object of a port has distinct names. -/
theorem Port.namesDistinct_toJson (port : Port) : port.toJson.NamesDistinct := by
  have hpoint (point : CompassPoint) : (str point.name).NamesDistinct := trivial
  exact Json.namesDistinct_obj ["name", "compass"] rfl (by decide)
    ⟨Json.namesDistinct_ofOption Id.namesDistinct_toJson port.name, Json.namesDistinct_ofOption hpoint port.compass,
      trivial⟩

/-- Within the members of a node, names are distinct. -/
theorem NodeId.membersDistinct (node : NodeId) : MembersDistinct node.members :=
  ⟨node.id.namesDistinct_toJson, Json.namesDistinct_ofOption Port.namesDistinct_toJson node.port, trivial⟩

/-- The word of a target has no names at all. -/
theorem Target.namesDistinct_toJson (target : Target) : target.toJson.NamesDistinct := by
  cases target <;> trivial

/-- The members of a node have distinct names. -/
theorem NodeId.namesDistinct_members (node : NodeId) : (obj node.members).NamesDistinct :=
  Json.namesDistinct_obj ["id", "port"] rfl (by decide) node.membersDistinct

/-- A subgraph is written alike as a statement and as an operand. -/
theorem Json.namesDistinct_subgraph (id : Option Id) {statements : List Json} (h : ItemsDistinct statements) :
    (obj [("type", str "subgraph"), ("id", ofOption Id.toJson id), ("statements", arr statements)]).NamesDistinct :=
  Json.namesDistinct_obj ["type", "id", "statements"] rfl (by decide)
    ⟨trivial, Json.namesDistinct_ofOption Id.namesDistinct_toJson id, h, trivial⟩

mutual

/-- The object of a statement has distinct names. -/
theorem Statement.namesDistinct_toJson : ∀ statement : Statement, statement.toJson.NamesDistinct
  | .node node attributes =>
    Json.namesDistinct_obj ["type", "node", "attributes"] rfl (by decide)
      ⟨trivial, node.namesDistinct_members, Attribute.namesDistinct_listToJson attributes, trivial⟩
  -- The names are fixed for each sort, so that they can be compared by evaluation.
  | .edge operands attributes =>
    Json.namesDistinct_obj ["type", "operands", "attributes"] rfl (by decide)
      ⟨trivial, Operand.itemsDistinct_listToJson operands, Attribute.namesDistinct_listToJson attributes, trivial⟩
  | .attributes target attributes =>
    Json.namesDistinct_obj ["type", "target", "attributes"] rfl (by decide)
      ⟨trivial, target.namesDistinct_toJson, Attribute.namesDistinct_listToJson attributes, trivial⟩
  | .assignment pair =>
    Json.namesDistinct_obj ["type", "key", "value"] rfl (by decide) ⟨trivial, pair.membersDistinct⟩
  | .subgraph id statements => Json.namesDistinct_subgraph id (Statement.itemsDistinct_listToJson statements)

/-- The objects of statements have distinct names. -/
theorem Statement.itemsDistinct_listToJson : ∀ statements, ItemsDistinct (Statement.listToJson statements)
  | [] => trivial
  | statement :: statements =>
    ⟨Statement.namesDistinct_toJson statement, Statement.itemsDistinct_listToJson statements⟩

/-- The object of an operand has distinct names. -/
theorem Operand.namesDistinct_toJson : ∀ operand : Operand, operand.toJson.NamesDistinct
  | .node node => Json.namesDistinct_obj ["type", "id", "port"] rfl (by decide) ⟨trivial, node.membersDistinct⟩
  | .subgraph id statements => Json.namesDistinct_subgraph id (Statement.itemsDistinct_listToJson statements)

/-- The objects of operands have distinct names. -/
theorem Operand.itemsDistinct_listToJson : ∀ operands, ItemsDistinct (Operand.listToJson operands)
  | [] => trivial
  | operand :: operands => ⟨Operand.namesDistinct_toJson operand, Operand.itemsDistinct_listToJson operands⟩

end

/-- The object of a graph has distinct names. -/
theorem Graph.namesDistinct_toJson (graph : Graph) : graph.toJson.NamesDistinct := by
  have hkind : graph.kind.toJson.NamesDistinct := by
    cases graph.kind <;> trivial
  exact Json.namesDistinct_obj ["strict", "kind", "id", "statements"] rfl (by decide)
    ⟨trivial, hkind, Json.namesDistinct_ofOption Id.namesDistinct_toJson graph.id,
      Statement.itemsDistinct_listToJson graph.statements, trivial⟩

/-- No object of a document has two members of one name, although tags stand in front of the fields of records. -/
theorem Document.namesDistinct_toJson (document : Document) : document.toJson.NamesDistinct :=
  Json.namesDistinct_obj ["graphs"] rfl (by decide)
    ⟨Json.itemsDistinct_map Graph.namesDistinct_toJson document.graphs, trivial⟩

/-! ## Printed documents -/

/-- A printed document is the text of one JSON value and of no other. No object in this value has two members of one
name, and the document is what is read of it. So no two documents are printed alike. -/
theorem render_json (document : Document) :
    (∀ value, Json.Written value (Format.json.render document).toList ↔ value = document.toJson) ∧
    document.toJson.NamesDistinct ∧
    Json.parse? (Format.json.render document) = some document.toJson ∧
    Document.ofJson? document.toJson = some document ∧
    ∀ other, Format.json.render other = Format.json.render document → other = document := by
  -- The printer writes the value, and what is written for a value is read as that value only.
  have hwritten (document : Document) : Json.Written document.toJson (Format.json.render document).toList :=
    Json.written_pretty document.toJson
  have hread (document : Document) : Json.parse? (Format.json.render document) = some document.toJson :=
    Json.parse?_written (hwritten document)
  refine ⟨fun value => ⟨fun h => ?_, ?_⟩, document.namesDistinct_toJson, hread document, document.ofJson?_toJson,
    fun other heq => ?_⟩
  · exact Option.some.inj ((Json.parse?_written h).symm.trans (hread document))
  · rintro rfl
    exact hwritten document
  · have hvalue : other.toJson = document.toJson :=
      Option.some.inj ((hread other).symm.trans (heq ▸ hread document))
    have hdocument := other.ofJson?_toJson
    rw [hvalue, document.ofJson?_toJson] at hdocument
    exact (Option.some.inj hdocument).symm

end DotLang
