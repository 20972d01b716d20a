import DotLang.Parse

/-!
# Misplaced edge operators

A tree of the grammar may have edge operators that the graph's kind does not admit. Building a document
from a tree stops at the first of them in the text, and there is no other reason for which it fails.
`Settles` says so of one building function, and is kept by putting such functions one after the other
(`Settles.bind`).
-/

namespace DotLang

open Peg

mutual

/-- The edge operators in a tree at every depth, in the order of the text. -/
def Grammar.operators : ParseTree Rule → List (ParseTree Rule)
  | .node rule start text children =>
    if rule = .edgeOp then [.node rule start text children] else Grammar.operatorsOf children

/-- The edge operators in some trees. -/
def Grammar.operatorsOf : List (ParseTree Rule) → List (ParseTree Rule)
  | [] => []
  | tree :: trees => Grammar.operators tree ++ Grammar.operatorsOf trees

end

namespace Grammar

@[simp] theorem operatorsOf_nil : operatorsOf [] = [] := rfl

@[simp] theorem operatorsOf_cons (tree : ParseTree Rule) (trees : List (ParseTree Rule)) :
    operatorsOf (tree :: trees) = operators tree ++ operatorsOf trees := rfl

/-- The operators in trees are those in the first ones, and then those in the others. -/
@[simp] theorem operatorsOf_append (trees trees' : List (ParseTree Rule)) :
    operatorsOf (trees ++ trees') = operatorsOf trees ++ operatorsOf trees' := by
  induction trees with
  | nil => rfl
  | cons tree trees ih => simp [ih]

/-- A tree that is no operator itself has the operators of its children. -/
theorem operators_node {rule : Rule} (hrule : rule ≠ .edgeOp) (start : Nat) (text : List Char)
    (children : List (ParseTree Rule)) :
    operators (.node rule start text children) = operatorsOf children := by
  rw [operators, if_neg hrule]

end Grammar

namespace GraphKind

/-- Whether an edge operator is not the one of the graph's kind. -/
def Misplaces (kind : GraphKind) (operator : ParseTree Rule) : Prop :=
  String.ofList operator.text ≠ kind.edgeOp

instance (kind : GraphKind) (operator : ParseTree Rule) : Decidable (kind.Misplaces operator) :=
  inferInstanceAs (Decidable (String.ofList operator.text ≠ kind.edgeOp))

/-- The first operator that a graph of a kind does not admit. -/
def misplaced? (kind : GraphKind) (operators : List (ParseTree Rule)) : Option (ParseTree Rule) :=
  operators.find? (kind.Misplaces ·)

/-- The failure at an operator that a graph of a kind does not admit. -/
def misplacement (kind : GraphKind) (operator : ParseTree Rule) : Failure :=
  (Misfit.edgeOperator (String.ofList operator.text) kind).within operator

/-- The check fails exactly for an operator that the kind of graph misplaces. -/
theorem checkOperator_eq (kind : GraphKind) (operator : ParseTree Rule) :
    kind.checkOperator operator =
      if kind.Misplaces operator then .error (kind.misplacement operator) else .ok () := by
  by_cases h : String.ofList operator.text = kind.edgeOp
  · have hnot : ¬ kind.Misplaces operator := fun hne => hne h
    rw [if_neg hnot, checkOperator, if_pos h]
  · have hmisplaced : kind.Misplaces operator := h
    rw [if_pos hmisplaced, checkOperator, if_neg h]
    rfl

end GraphKind

variable {α β : Type} {kind : GraphKind} {operators operators' : List (ParseTree Rule)}

/-- Whether a result fails at the first misplaced operator, and is a value with a property where there is
none. -/
structure Settles (kind : GraphKind) (operators : List (ParseTree Rule)) (result : Except Failure α)
    (W : α → Prop) : Prop where
  /-- The first misplaced operator is the reason of the failure. -/
  error : ∀ {operator}, kind.misplaced? operators = some operator →
    result = .error (kind.misplacement operator)
  /-- There is no other reason to fail. -/
  ok : kind.misplaced? operators = none → ∃ value, result = .ok value ∧ W value

namespace Settles

variable {result : Except Failure α} {later : α → Except Failure β} {W W₁ : α → Prop} {W' : β → Prop}

/-- Where there are no operators, a value with the property is all there is to show. -/
theorem pure {value : α} (h : W value) : Settles kind [] (.ok value) W :=
  ⟨by simp [GraphKind.misplaced?], fun _ => ⟨value, rfl, h⟩⟩

/-- One operator settles what the check of it says. -/
theorem check (kind : GraphKind) (operator : ParseTree Rule) :
    Settles kind [operator] (kind.checkOperator operator) fun _ =>
      String.ofList operator.text = kind.edgeOp := by
  rw [GraphKind.checkOperator_eq]
  by_cases h : kind.Misplaces operator
  · rw [if_pos h]
    exact ⟨by simp [GraphKind.misplaced?, h], by simp [GraphKind.misplaced?, h]⟩
  · rw [if_neg h]
    exact ⟨by simp [GraphKind.misplaced?, h], fun _ => ⟨(), rfl, Decidable.not_not.1 h⟩⟩

/-- What settles for tokens of one sort does so for every wider sort. -/
theorem imp (h : Settles kind operators result W) (himp : ∀ value, W value → W₁ value) :
    Settles kind operators result W₁ := by
  refine ⟨h.error, fun hnone => ?_⟩
  obtain ⟨value, hvalue, hW⟩ := h.ok hnone
  exact ⟨value, hvalue, himp value hW⟩

/-- One function after another settles the operators that either of them has to do with. -/
theorem bind (h : Settles kind operators result W)
    (hlater : ∀ value, W value → Settles kind operators' (later value) W') :
    Settles kind (operators ++ operators') (result >>= later) W' := by
  -- The first misplaced operator of both is that of the first function, if it has one.
  rcases hfirst : kind.misplaced? operators with _ | operator
  · obtain ⟨value, rfl, hvalue⟩ := h.ok hfirst
    have heq : kind.misplaced? (operators ++ operators') = kind.misplaced? operators' := by
      rw [GraphKind.misplaced?, List.find?_append, ← GraphKind.misplaced?, hfirst, Option.none_or]
      rfl
    exact ⟨fun hsome => (hlater value hvalue).error (heq ▸ hsome),
      fun hnone => (hlater value hvalue).ok (heq ▸ hnone)⟩
  · have heq : kind.misplaced? (operators ++ operators') = some operator := by
      rw [GraphKind.misplaced?, List.find?_append, ← GraphKind.misplaced?, hfirst, Option.some_or]
    rw [h.error hfirst]
    refine ⟨fun hsome => ?_, fun hnone => ?_⟩
    · obtain rfl := Option.some.inj (heq.symm.trans hsome)
      rfl
    · simp [heq] at hnone

/-- A value is changed at the end. -/
theorem map {f : α → β} (h : Settles kind operators result W) (hf : ∀ value, W value → W' (f value)) :
    Settles kind operators (result >>= fun value => .ok (f value)) W' :=
  List.append_nil operators ▸ h.bind fun value hvalue => pure (hf value hvalue)

end Settles

end DotLang
