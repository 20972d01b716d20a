import DotLang.Document.Format
import DotLang.Proofs.Dump.Printer
import Mathlib.Data.List.Basic
import Mathlib.Logic.Function.Basic

/-!
# Documents shown as dumps

The dump of a document keeps all of it: each alternative is shown under a name of its own, and so is what may be
missing (`Document.dump_injective`). All names in it are words (`Document.wellNamed_dump`), so it can be told from the
text over several lines. Identifiers can hold any text, also one that looks like a dump.

## Main results

* `render_debug_eq_iff`: no two documents are shown alike.
-/

namespace DotLang

open Dump

/-! ## What a dump keeps -/

/-- Records are equal if their names and their members are. -/
theorem Dump.record_inj {name name' : String} {members members' : List (String × Dump)} :
    record name members = record name' members' ↔ name = name' ∧ members = members' := by
  simp [record]

/-- The dump of a truth value tells the value. -/
theorem Dump.ofBool_injective : Function.Injective ofBool := by
  intro first second h
  cases first <;> cases second <;> first | rfl | simp [ofBool] at h

/-- What stands for none is not what is shown for a value. -/
theorem Dump.ofOption_injective {α : Type} {dump : α → Dump} (h : Function.Injective dump) :
    Function.Injective (ofOption dump) := by
  intro first second heq
  cases first <;> cases second
  · rfl
  · cases heq
  · cases heq
  · simp only [ofOption, apply.injEq, List.cons.injEq, true_and, and_true] at heq
    exact congrArg some (h heq)

/-- The dump of a kind of graph tells the kind. -/
theorem GraphKind.dump_injective : Function.Injective GraphKind.dump := by
  intro first second h
  cases first <;> cases second <;> first | rfl | simp [GraphKind.dump] at h

/-- The dump of an identifier tells its form and its text. -/
theorem Id.dump_injective : Function.Injective Id.dump := by
  intro first second h
  cases first <;> cases second <;> simp_all [Id.dump]

/-- The dump of an attribute tells its name and its value. -/
theorem Attribute.dump_injective : Function.Injective Attribute.dump := by
  rintro ⟨key, value⟩ ⟨key', value'⟩ h
  simpa [Attribute.dump, record_inj, Id.dump_injective.eq_iff] using h

/-- The dump of some attributes tells each of them, in order. -/
theorem Attribute.dumpList_injective : Function.Injective Attribute.dumpList := by
  intro first second h
  rw [Attribute.dumpList, Attribute.dumpList, list.injEq] at h
  exact Attribute.dump_injective.list_map h

/-- The dump of a compass point tells the point. -/
theorem CompassPoint.dump_injective : Function.Injective CompassPoint.dump := by
  intro first second h
  cases first <;> cases second <;> first | rfl | simp [CompassPoint.dump] at h

/-- The dump of a port tells its name and its compass point, and which of them are missing. -/
theorem Port.dump_injective : Function.Injective Port.dump := by
  rintro ⟨name, compass⟩ ⟨name', compass'⟩ h
  simpa [Port.dump, record_inj, (ofOption_injective Id.dump_injective).eq_iff,
    (ofOption_injective CompassPoint.dump_injective).eq_iff] using h

/-- The dump of a node tells its name and its port. -/
theorem NodeId.dump_injective : Function.Injective NodeId.dump := by
  rintro ⟨id, port⟩ ⟨id', port'⟩ h
  simpa [NodeId.dump, record_inj, Id.dump_injective.eq_iff,
    (ofOption_injective Port.dump_injective).eq_iff] using h

/-- The dump of a target tells the target. -/
theorem Target.dump_injective : Function.Injective Target.dump := by
  intro first second h
  cases first <;> cases second <;> first | rfl | simp [Target.dump] at h

/-- A subgraph is shown alike as a statement and as an operand. -/
theorem Dump.subgraph_inj {id id' : Option Id} {statements statements' : List Dump}
    (h : apply "Subgraph" [record "Subgraph" [("id", ofOption Id.dump id), ("statements", list statements)]] =
      apply "Subgraph" [record "Subgraph" [("id", ofOption Id.dump id'), ("statements", list statements')]]) :
    id = id' ∧ statements = statements' := by
  simpa [record_inj, (ofOption_injective Id.dump_injective).eq_iff] using h

mutual

/-- The dump of a statement tells the statement. -/
theorem Statement.eq_of_dump : ∀ first second : Statement, first.dump = second.dump → first = second
  | .node node attributes, second, h => by
    cases second with
    | node node' attributes' =>
      simp only [Statement.dump, record_inj, List.cons.injEq, Prod.mk.injEq, true_and, and_true] at h
      rw [NodeId.dump_injective h.1, Attribute.dumpList_injective h.2]
    | _ => simp [Statement.dump, record] at h
  -- Dumps of different sorts differ in their names, those of one sort only in their members.
  | .edge operands attributes, second, h => by
    cases second with
    | edge operands' attributes' =>
      simp only [Statement.dump, record_inj, List.cons.injEq, Prod.mk.injEq, list.injEq, true_and, and_true] at h
      rw [Operand.eq_of_dumpList operands operands' h.1, Attribute.dumpList_injective h.2]
    | _ => simp [Statement.dump, record] at h
  | .attributes target attributes, second, h => by
    cases second with
    | attributes target' attributes' =>
      simp only [Statement.dump, record_inj, List.cons.injEq, Prod.mk.injEq, true_and, and_true] at h
      rw [Target.dump_injective h.1, Attribute.dumpList_injective h.2]
    | _ => simp [Statement.dump, record] at h
  | .assignment pair, second, h => by
    cases second with
    | assignment pair' =>
      simp only [Statement.dump, apply.injEq, List.cons.injEq, true_and, and_true] at h
      rw [Attribute.dump_injective h]
    | _ => simp [Statement.dump, record] at h
  | .subgraph id statements, second, h => by
    cases second with
    | subgraph id' statements' =>
      obtain ⟨rfl, hstatements⟩ := subgraph_inj h
      rw [Statement.eq_of_dumpList statements statements' hstatements]
    | _ => simp [Statement.dump, record] at h

/-- The dumps of statements tell each of them, in order. -/
theorem Statement.eq_of_dumpList : ∀ first second : List Statement,
    Statement.dumpList first = Statement.dumpList second → first = second
  | [], second, h => by
    cases second with
    | nil => rfl
    | cons => cases h
  | statement :: statements, second, h => by
    cases second with
    | nil => cases h
    | cons statement' statements' =>
      obtain ⟨hfirst, hrest⟩ := List.cons.inj h
      rw [Statement.eq_of_dump statement statement' hfirst, Statement.eq_of_dumpList statements statements' hrest]

/-- The dump of an operand tells the operand. -/
theorem Operand.eq_of_dump : ∀ first second : Operand, first.dump = second.dump → first = second
  | .node node, second, h => by
    cases second with
    | node node' =>
      simp only [Operand.dump, apply.injEq, List.cons.injEq, true_and, and_true] at h
      rw [NodeId.dump_injective h]
    -- A node and a subgraph are dumped under different names.
    | subgraph => simp [Operand.dump] at h
  | .subgraph id statements, second, h => by
    cases second with
    | node => simp [Operand.dump] at h
    | subgraph id' statements' =>
      obtain ⟨rfl, hstatements⟩ := subgraph_inj h
      rw [Statement.eq_of_dumpList statements statements' hstatements]

/-- The dumps of operands tell each of them, in order. -/
theorem Operand.eq_of_dumpList : ∀ first second : List Operand,
    Operand.dumpList first = Operand.dumpList second → first = second
  | [], second, h => by
    cases second with
    | nil => rfl
    | cons => cases h
  | operand :: operands, second, h => by
    cases second with
    | nil => cases h
    | cons operand' operands' =>
      obtain ⟨hfirst, hrest⟩ := List.cons.inj h
      rw [Operand.eq_of_dump operand operand' hfirst, Operand.eq_of_dumpList operands operands' hrest]

end

/-- The dump of a graph tells the graph. -/
theorem Graph.dump_injective : Function.Injective Graph.dump := by
  rintro ⟨strict, kind, id, statements⟩ ⟨strict', kind', id', statements'⟩ h
  simp only [Graph.dump, record_inj, List.cons.injEq, Prod.mk.injEq, list.injEq, true_and, and_true] at h
  obtain ⟨hstrict, hkind, hid, hstatements⟩ := h
  rw [ofBool_injective hstrict, GraphKind.dump_injective hkind, ofOption_injective Id.dump_injective hid,
    Statement.eq_of_dumpList statements statements' hstatements]

/-- Different documents have different dumps. -/
theorem Document.dump_injective : Function.Injective Document.dump := by
  rintro ⟨graphs⟩ ⟨graphs'⟩ h
  simp only [Document.dump, record_inj, List.cons.injEq, Prod.mk.injEq, list.injEq, true_and, and_true] at h
  rw [Graph.dump_injective.list_map h]

/-! ## Names in dumps -/

/-- An atom is well named if its word is a name. -/
theorem Dump.wellNamed_atom {word : String} (h : IsName word) : (atom word).WellNamed := h

/-- The dumps of some values are well named if the dump of each value is. -/
theorem Dump.itemsWellNamed_map {α : Type} {dump : α → Dump} (h : ∀ value, (dump value).WellNamed)
    (values : List α) : ItemsWellNamed (values.map dump) := by
  induction values with
  | nil => trivial
  | cons value values ih => exact ⟨h value, ih⟩

/-- The dump of a value that may be missing is well named if the dump of each value is. -/
theorem Dump.wellNamed_ofOption {α : Type} {dump : α → Dump} (h : ∀ value, (dump value).WellNamed)
    (value : Option α) : (ofOption dump value).WellNamed := by
  cases value with
  | none => exact wellNamed_atom (by decide)
  | some value => exact ⟨by decide, h value, trivial⟩

/-- The dump of a truth value is well named. -/
theorem Dump.wellNamed_ofBool (value : Bool) : (ofBool value).WellNamed := by
  cases value <;> exact wellNamed_atom (by decide)

/-- The dump of a kind of graph is well named. -/
theorem GraphKind.wellNamed_dump (kind : GraphKind) : kind.dump.WellNamed := by
  cases kind <;> exact wellNamed_atom (by decide)

/-- The dump of an identifier is well named, whatever its text. -/
theorem Id.wellNamed_dump (id : Id) : id.dump.WellNamed := by
  cases id <;> exact ⟨by decide, trivial, trivial⟩

/-- The dump of an attribute is well named. -/
theorem Attribute.wellNamed_dump (pair : Attribute) : pair.dump.WellNamed :=
  ⟨by decide, by decide, pair.key.wellNamed_dump, by decide, pair.value.wellNamed_dump, trivial⟩

/-- The dump of some attributes is well named. -/
theorem Attribute.wellNamed_dumpList (pairs : List Attribute) : (Attribute.dumpList pairs).WellNamed :=
  itemsWellNamed_map Attribute.wellNamed_dump pairs

/-- The dump of a compass point is well named. -/
theorem CompassPoint.wellNamed_dump (point : CompassPoint) : point.dump.WellNamed := by
  cases point <;> exact wellNamed_atom (by decide)

/-- The dump of a port is well named. -/
theorem Port.wellNamed_dump (port : Port) : port.dump.WellNamed :=
  ⟨by decide, by decide, wellNamed_ofOption Id.wellNamed_dump port.name, by decide,
    wellNamed_ofOption CompassPoint.wellNamed_dump port.compass, trivial⟩

/-- The dump of a node is well named. -/
theorem NodeId.wellNamed_dump (node : NodeId) : node.dump.WellNamed :=
  ⟨by decide, by decide, node.id.wellNamed_dump, by decide,
    wellNamed_ofOption Port.wellNamed_dump node.port, trivial⟩

/-- The dump of a target is well named. -/
theorem Target.wellNamed_dump (target : Target) : target.dump.WellNamed := by
  cases target <;> exact wellNamed_atom (by decide)

/-- The dump of a subgraph is well named if those of its statements are. -/
theorem Dump.wellNamed_subgraph (id : Option Id) {statements : List Dump} (h : ItemsWellNamed statements) :
    (apply "Subgraph" [record "Subgraph" [("id", ofOption Id.dump id), ("statements", list statements)]]).WellNamed :=
  ⟨by decide, ⟨by decide, by decide, wellNamed_ofOption Id.wellNamed_dump id, by decide, h, trivial⟩, trivial⟩

mutual

/-- The dump of a statement is well named. -/
theorem Statement.wellNamed_dump : ∀ statement : Statement, statement.dump.WellNamed
  | .node node attributes =>
    ⟨by decide, by decide, node.wellNamed_dump, by decide, Attribute.wellNamed_dumpList attributes, trivial⟩
  | .edge operands attributes =>
    ⟨by decide, by decide, Operand.itemsWellNamed_dumpList operands, by decide,
      Attribute.wellNamed_dumpList attributes, trivial⟩
  | .attributes target attributes =>
    ⟨by decide, by decide, target.wellNamed_dump, by decide, Attribute.wellNamed_dumpList attributes, trivial⟩
  | .assignment pair => ⟨by decide, pair.wellNamed_dump, trivial⟩
  | .subgraph id statements => wellNamed_subgraph id (Statement.itemsWellNamed_dumpList statements)

/-- The dumps of statements are well named. -/
theorem Statement.itemsWellNamed_dumpList : ∀ statements, ItemsWellNamed (Statement.dumpList statements)
  | [] => trivial
  | statement :: statements =>
    ⟨Statement.wellNamed_dump statement, Statement.itemsWellNamed_dumpList statements⟩

/-- The dump of an operand is well named. -/
theorem Operand.wellNamed_dump : ∀ operand : Operand, operand.dump.WellNamed
  | .node node => ⟨by decide, node.wellNamed_dump, trivial⟩
  | .subgraph id statements => wellNamed_subgraph id (Statement.itemsWellNamed_dumpList statements)

/-- The dumps of operands are well named. -/
theorem Operand.itemsWellNamed_dumpList : ∀ operands, ItemsWellNamed (Operand.dumpList operands)
  | [] => trivial
  | operand :: operands => ⟨Operand.wellNamed_dump operand, Operand.itemsWellNamed_dumpList operands⟩

end

/-- The dump of a graph is well named. -/
theorem Graph.wellNamed_dump (graph : Graph) : graph.dump.WellNamed :=
  ⟨by decide, by decide, wellNamed_ofBool graph.strict, by decide, graph.kind.wellNamed_dump, by decide,
    wellNamed_ofOption Id.wellNamed_dump graph.id, by decide,
    Statement.itemsWellNamed_dumpList graph.statements, trivial⟩

/-- All names in the dump of a document consist of letters and digits, whatever its identifiers hold. -/
theorem Document.wellNamed_dump (document : Document) : document.dump.WellNamed :=
  ⟨by decide, by decide, itemsWellNamed_map Graph.wellNamed_dump document.graphs, trivial⟩

/-! ## Shown documents -/

/-- Documents that are shown alike are the same document. -/
theorem render_debug_eq_iff (first second : Document) :
    Format.debug.render first = Format.debug.render second ↔ first = second := by
  constructor
  · intro h
    exact Document.dump_injective (pretty_inj first.wellNamed_dump second.wellNamed_dump h)
  · rintro rfl
    rfl

end DotLang
