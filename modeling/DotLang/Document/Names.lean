import DotLang.Parse
import DotLang.Text.Continuation

/-!
# Identifiers in trees

The identifiers outside ports in the tree of a document, in the order of the text, and what they say when
their continued lines are joined.
-/

namespace DotLang

open Peg

namespace Peg.ParseTree

variable {R : Type}

mutual

/-- The trees in a tree at every depth, in the order of the text; the tree itself comes first. -/
def subtrees : ParseTree R → List (ParseTree R)
  | .node rule start text children => .node rule start text children :: subtreesOf children

/-- The trees in some trees at every depth. -/
def subtreesOf : List (ParseTree R) → List (ParseTree R)
  | [] => []
  | tree :: trees => subtrees tree ++ subtreesOf trees

end

@[simp] theorem subtreesOf_nil : subtreesOf ([] : List (ParseTree R)) = [] := rfl

@[simp] theorem subtreesOf_cons (tree : ParseTree R) (trees : List (ParseTree R)) :
    subtreesOf (tree :: trees) = subtrees tree ++ subtreesOf trees := rfl

/-- The subtrees of trees are those of the first ones, and then those of the others. -/
@[simp] theorem subtreesOf_append (trees trees' : List (ParseTree R)) :
    subtreesOf (trees ++ trees') = subtreesOf trees ++ subtreesOf trees' := by
  induction trees with
  | nil => rfl
  | cons tree trees ih => simp [ih]

end Peg.ParseTree

namespace Grammar

mutual

/-- The trees of the identifiers in a tree that are not in a port, in the order of the text. -/
def names : ParseTree Rule → List (ParseTree Rule)
  | .node rule start text children =>
    if rule = .id then [.node rule start text children] else if rule = .port then [] else namesOf children

/-- The trees of the identifiers in some trees that are not in a port. -/
def namesOf : List (ParseTree Rule) → List (ParseTree Rule)
  | [] => []
  | tree :: trees => names tree ++ namesOf trees

end

@[simp] theorem namesOf_nil : namesOf [] = [] := rfl

@[simp] theorem namesOf_cons (tree : ParseTree Rule) (trees : List (ParseTree Rule)) :
    namesOf (tree :: trees) = names tree ++ namesOf trees := rfl

/-- The names in trees are those in the first ones, and then those in the others. -/
@[simp] theorem namesOf_append (trees trees' : List (ParseTree Rule)) :
    namesOf (trees ++ trees') = namesOf trees ++ namesOf trees' := by
  induction trees with
  | nil => rfl
  | cons tree trees ih => simp [ih]

/-- A tree that is neither an identifier nor a port has the names of its children. -/
theorem names_node {rule : Rule} (hid : rule ≠ .id) (hport : rule ≠ .port) (start : Nat) (text : List Char)
    (children : List (ParseTree Rule)) : names (.node rule start text children) = namesOf children := by
  rw [names, if_neg hid, if_neg hport]

end Grammar

namespace Id

/-- The identifier of a tree of one of the four forms, with the continued lines of each of its strings
joined. -/
def joinedOfForm : ParseTree Rule → Id
  | .node .quotedConcat _ _ strings =>
    .quoted (String.ofList (strings.flatMap fun string => Continuation.strip
      ((string.children.head?.map fun inner => Text.Quoted.unescape inner.text).getD [])))
  | .node .htmlString _ _ parts =>
    .html (String.ofList (Continuation.strip ((parts.head?.map ParseTree.text).getD [])))
  | form => ofForm form

/-- The identifier of a tree, with the continued lines of each of its strings joined. -/
def joinedOfTree (tree : ParseTree Rule) : Id :=
  match tree.children with
  | form :: _ => joinedOfForm form
  | [] => ofTree tree

end Id

end DotLang
