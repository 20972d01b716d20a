import DotLang.Document.Outline

/-!
# Documents are their outlines and names

Two documents with the same outline have the same number of names, in the same places. So a document is known
from its outline and its names (`Document.eq_of_outline`).
-/

namespace DotLang

/-- Whether a value is known from its outline and its names, even where other names follow. -/
def Outlined {α : Type} (outline : α → α) (parts : α → List Part) (value : α) : Prop :=
  ∀ value' rest rest', outline value = outline value' →
    Part.names (parts value) ++ rest = Part.names (parts value') ++ rest' → value = value' ∧ rest = rest'

section

variable {α : Type} {outline : α → α} {parts : α → List Part} {value value' : α}

/-- A value in front of other parts is told from them. -/
theorem Outlined.front (h : Outlined outline parts value) (houtline : outline value = outline value')
    {more more' : List Part} {rest rest' : List Id}
    (hnames : Part.names (parts value ++ more) ++ rest = Part.names (parts value' ++ more') ++ rest') :
    value = value' ∧ Part.names more ++ rest = Part.names more' ++ rest' := by
  rw [Part.names_append, Part.names_append, List.append_assoc, List.append_assoc] at hnames
  exact h value' _ _ houtline hnames

/-- Values in a list are known one after the other. -/
theorem Outlined.list (h : ∀ value, Outlined outline parts value) (values : List α) :
    Outlined (List.map outline) (List.flatMap parts) values := by
  intro values' rest rest' houtline hnames
  induction values generalizing values' with
  | nil =>
    obtain rfl : values' = [] := List.map_eq_nil_iff.1 houtline.symm
    exact ⟨rfl, hnames⟩
  | cons value values ih =>
    rcases values' with _ | ⟨value', values'⟩
    · cases houtline
    · obtain ⟨hfirst, hmore⟩ := List.cons.inj houtline
      rw [List.flatMap_cons, List.flatMap_cons] at hnames
      -- The first value takes its own names from the front; what is left are the names of the others.
      obtain ⟨rfl, htail⟩ := (h value).front hfirst hnames
      obtain ⟨rfl, hrest⟩ := ih values' hmore htail
      exact ⟨rfl, hrest⟩

end

/-- A name that may be missing is known from its outline and its parts. -/
theorem Id.outlined (id : Option Id) :
    Outlined (Option.map fun _ => Id.blank) (fun id => id.toList.map .id) id := by
  intro id' rest rest' houtline hnames
  cases id <;> cases id' <;> simp_all

/-- An attribute is known from its outline and its parts. -/
theorem Attribute.outlined (pair : Attribute) : Outlined Attribute.outline Attribute.parts pair := by
  rintro ⟨key', value'⟩ rest rest' - hnames
  obtain ⟨rfl, heq⟩ := List.cons.inj hnames
  obtain ⟨rfl, rfl⟩ := List.cons.inj heq
  exact ⟨rfl, rfl⟩

/-- A port has no names. -/
theorem NodeId.names_parts (node : NodeId) : Part.names node.parts = [node.id] := by
  obtain ⟨id, _ | port⟩ := node <;> rfl

/-- A node is known from its outline and its parts. -/
theorem NodeId.outlined (node : NodeId) : Outlined NodeId.outline NodeId.parts node := by
  obtain ⟨id, port⟩ := node
  rintro ⟨id', port'⟩ rest rest' houtline hnames
  obtain ⟨-, rfl⟩ := NodeId.mk.inj houtline
  rw [NodeId.names_parts, NodeId.names_parts] at hnames
  obtain ⟨rfl, rfl⟩ := List.cons.inj hnames
  exact ⟨rfl, rfl⟩

-- Each case goes through the parts of a statement from left to right: what comes first is known from the
-- first names, which leaves the other names for what comes behind it.
mutual

/-- A statement is known from its outline and its parts. -/
theorem Statement.outlined : ∀ statement, Outlined Statement.outline Statement.parts statement
  | .node node attributes => by
    intro statement' rest rest' houtline hnames
    cases statement' with
    | node node' attributes' =>
      obtain ⟨hnode, hattributes⟩ := Statement.node.inj houtline
      -- The names of the node stand in front, so those behind them belong to the attributes.
      obtain ⟨rfl, htail⟩ := (NodeId.outlined node).front hnode hnames
      obtain ⟨rfl, rfl⟩ := Outlined.list Attribute.outlined attributes attributes' _ _ hattributes htail
      exact ⟨rfl, rfl⟩
    | _ => cases houtline
  | .edge operands attributes => by
    intro statement' rest rest' houtline hnames
    cases statement' with
    | edge operands' attributes' =>
      obtain ⟨hoperands, hattributes⟩ := Statement.edge.inj houtline
      obtain ⟨rfl, htail⟩ := (Operand.listOutlined operands).front hoperands hnames
      obtain ⟨rfl, rfl⟩ := Outlined.list Attribute.outlined attributes attributes' _ _ hattributes htail
      exact ⟨rfl, rfl⟩
    | _ => cases houtline
  | .attributes target attributes => by
    intro statement' rest rest' houtline hnames
    cases statement' with
    | attributes target' attributes' =>
      obtain ⟨rfl, hattributes⟩ := Statement.attributes.inj houtline
      obtain ⟨rfl, rfl⟩ := Outlined.list Attribute.outlined attributes attributes' _ _ hattributes hnames
      exact ⟨rfl, rfl⟩
    | _ => cases houtline
  | .assignment pair => by
    intro statement' rest rest' houtline hnames
    cases statement' with
    | assignment pair' =>
      obtain ⟨rfl, rfl⟩ := Attribute.outlined pair pair' _ _ rfl hnames
      exact ⟨rfl, rfl⟩
    | _ => cases houtline
  | .subgraph id statements => by
    intro statement' rest rest' houtline hnames
    cases statement' with
    | subgraph id' statements' =>
      obtain ⟨hid, hstatements⟩ := Statement.subgraph.inj houtline
      obtain ⟨rfl, htail⟩ := (Id.outlined id).front hid hnames
      obtain ⟨rfl, rfl⟩ := Statement.listOutlined statements statements' _ _ hstatements htail
      exact ⟨rfl, rfl⟩
    | _ => cases houtline

/-- Statements are known from their outlines and their parts. -/
theorem Statement.listOutlined :
    ∀ statements, Outlined Statement.listOutline Statement.listParts statements
  | [] => by
    intro statements' rest rest' houtline hnames
    cases statements' with
    | nil => exact ⟨rfl, hnames⟩
    | cons => cases houtline
  | statement :: statements => by
    intro statements' rest rest' houtline hnames
    cases statements' with
    | nil => cases houtline
    | cons statement' statements' =>
      obtain ⟨hfirst, hmore⟩ := List.cons.inj houtline
      obtain ⟨rfl, htail⟩ := (Statement.outlined statement).front hfirst hnames
      obtain ⟨rfl, rfl⟩ := Statement.listOutlined statements statements' _ _ hmore htail
      exact ⟨rfl, rfl⟩

/-- An operand is known from its outline and its parts. -/
theorem Operand.outlined : ∀ operand, Outlined Operand.outline Operand.parts operand
  | .node node => by
    intro operand' rest rest' houtline hnames
    cases operand' with
    | node node' =>
      obtain ⟨rfl, rfl⟩ := NodeId.outlined node node' _ _ (Operand.node.inj houtline) hnames
      exact ⟨rfl, rfl⟩
    -- Outlines show which sort of operand it is, so there are no cases across sorts.
    | subgraph => cases houtline
  | .subgraph id statements => by
    intro operand' rest rest' houtline hnames
    cases operand' with
    | node => cases houtline
    | subgraph id' statements' =>
      obtain ⟨hid, hstatements⟩ := Operand.subgraph.inj houtline
      obtain ⟨rfl, htail⟩ := (Id.outlined id).front hid hnames
      obtain ⟨rfl, rfl⟩ := Statement.listOutlined statements statements' _ _ hstatements htail
      exact ⟨rfl, rfl⟩

/-- Operands are known from their outlines and their parts. -/
theorem Operand.listOutlined : ∀ operands, Outlined Operand.listOutline Operand.listParts operands
  | [] => by
    intro operands' rest rest' houtline hnames
    cases operands' with
    | nil => exact ⟨rfl, hnames⟩
    | cons => cases houtline
  | operand :: operands => by
    intro operands' rest rest' houtline hnames
    cases operands' with
    | nil => cases houtline
    | cons operand' operands' =>
      obtain ⟨hfirst, hmore⟩ := List.cons.inj houtline
      obtain ⟨rfl, htail⟩ := (Operand.outlined operand).front hfirst hnames
      obtain ⟨rfl, rfl⟩ := Operand.listOutlined operands operands' _ _ hmore htail
      exact ⟨rfl, rfl⟩

end

/-- A graph is known from its outline and its parts. -/
theorem Graph.outlined (graph : Graph) : Outlined Graph.outline Graph.parts graph := by
  obtain ⟨strict, kind, id, statements⟩ := graph
  rintro ⟨strict', kind', id', statements'⟩ rest rest' houtline hnames
  obtain ⟨rfl, rfl, hid, hstatements⟩ := Graph.mk.inj houtline
  obtain ⟨rfl, htail⟩ := (Id.outlined id).front hid hnames
  obtain ⟨rfl, rfl⟩ := Statement.listOutlined statements statements' _ _ hstatements htail
  exact ⟨rfl, rfl⟩

/-- A document is known from its outline and its names. -/
theorem Document.eq_of_outline {document document' : Document} (houtline : document.outline = document'.outline)
    (hnames : document.names = document'.names) : document = document' := by
  have hgraphs := Outlined.list Graph.outlined document.graphs document'.graphs [] []
    (Document.mk.inj houtline) (congrArg (· ++ []) hnames)
  exact congrArg Document.mk hgraphs.1

end DotLang
