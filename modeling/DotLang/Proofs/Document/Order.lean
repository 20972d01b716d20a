import DotLang.Proofs.Document.Outcome
import DotLang.Proofs.Peg.Kept

/-!
# The order of edge operators

The edge operators in the trees of a match lie in its text, where their trees say, and one behind the
other (`Grammar.Ordered`). So the first of them in the list is the first in the text.
-/

namespace DotLang.Grammar

open Peg Token

/-- The edge operators of a match lie in its text, one behind the other. -/
structure Ordered (cursor : Cursor) (found : Match Rule) : Prop where
  /-- The match begins at the cursor. -/
  startsAt : found.StartsAt cursor
  /-- An operator is a piece of the text, at its offset. -/
  located : ∀ operator ∈ operatorsOf found.trees, ∃ front behind,
    found.text = front ++ (operator.text ++ behind) ∧
      operator.start = cursor.offset + Text.byteLength front
  /-- An operator ends before the next one begins. -/
  apart : (operatorsOf found.trees).Pairwise fun operator operator' => operator.stop ≤ operator'.start

variable {cursor : Cursor} {found first second : Match Rule}

/-- Operators in what was found begin at the cursor or behind it. -/
theorem Ordered.start_le (h : Ordered cursor found) {operator : ParseTree Rule}
    (hmem : operator ∈ operatorsOf found.trees) : cursor.offset ≤ operator.start := by
  obtain ⟨front, behind, -, hstart⟩ := h.located operator hmem
  omega

/-- Operators in what was found end where it ends or before. -/
theorem Ordered.stop_le (h : Ordered cursor found) {operator : ParseTree Rule}
    (hmem : operator ∈ operatorsOf found.trees) : operator.stop ≤ found.next.offset := by
  obtain ⟨front, behind, htext, hstart⟩ := h.located operator hmem
  rw [ParseTree.stop, h.startsAt.2, htext, Text.byteLength_append, Text.byteLength_append]
  omega

/-- Two ordered matches, the second right behind the first, are an ordered match. -/
theorem Ordered.append (h : Ordered cursor first) (h' : Ordered first.next second) :
    Ordered cursor (first.append second) := by
  refine ⟨h.startsAt.append h'.startsAt, fun operator hmem => ?_, ?_⟩
  · rw [Match.append_trees, operatorsOf_append, List.mem_append] at hmem
    rw [Match.append_text]
    rcases hmem with hmem | hmem
    · obtain ⟨front, behind, htext, hstart⟩ := h.located operator hmem
      exact ⟨front, behind ++ second.text, by simp [htext], hstart⟩
    · obtain ⟨front, behind, htext, hstart⟩ := h'.located operator hmem
      -- The second match begins where the first one ends, so its operators stand behind the first text.
      refine ⟨first.text ++ front, behind, by simp [htext], ?_⟩
      rw [hstart, h.startsAt.2, Text.byteLength_append]
      omega
  · rw [Match.append_trees, operatorsOf_append, List.pairwise_append]
    -- Across the two matches, the place between them lies between the operators.
    refine ⟨h.apart, h'.apart, fun operator hmem operator' hmem' => ?_⟩
    exact Nat.le_trans (h.stop_le hmem) (h'.start_le hmem')

/-- Order is kept by every way to put matches together. -/
theorem ordered_kept : Match.Kept Ordered where
  piece hstarts htrees := by
    refine ⟨hstarts, ?_, ?_⟩
    · rw [htrees]
      exact fun _ hmem => absurd hmem List.not_mem_nil
    · rw [htrees]
      exact .nil
  append := Ordered.append

/-- A match stays ordered where it becomes the tree of a rule. -/
theorem Ordered.asTree (h : Ordered cursor found) (rule : Rule) : Ordered cursor (found.asTree rule cursor) := by
  -- A tree of the rule for operators is one; any other tree has those of its children.
  by_cases hrule : rule = .edgeOp
  · subst hrule
    have hoperators : operatorsOf (found.asTree .edgeOp cursor).trees =
        [.node .edgeOp cursor.offset found.text found.trees] := by simp [operators]
    refine ⟨h.startsAt, fun operator hmem => ?_, ?_⟩
    · rw [hoperators] at hmem
      obtain rfl := List.mem_singleton.1 hmem
      exact ⟨[], [], by simp [Match.asTree], by simp⟩
    · rw [hoperators]
      exact List.pairwise_singleton _ _
  · have hoperators : operatorsOf (found.asTree rule cursor).trees = operatorsOf found.trees := by
      simp [operators_node hrule]
    refine ⟨h.startsAt, fun operator hmem => ?_, ?_⟩
    · exact h.located operator (hoperators ▸ hmem)
    · rw [hoperators]
      exact h.apart

/-- The edge operators of what a rule finds lie in its text, one behind the other. -/
theorem ordered_of_find {rule : Rule} {mode : Mode} (h : find (.call rule) mode cursor = some found) :
    Ordered cursor found := by
  have hlayout : ∀ mode cursor, Ordered cursor (grammar.gap grammar.phrase mode cursor) := by
    intro mode cursor
    -- Layout adds no operators, and in the other modes there is none.
    by_cases hmode : mode = .spaced
    · exact hmode ▸ ordered_kept.piece (gap_startsAt cursor) (gap_trees cursor)
    · rw [gap_tight hmode]
      exact ordered_kept.empty cursor
  exact Peg.Grammar.phrase_kept grammar_ranked ordered_kept hlayout (fun h => h.asTree _) h

/-! ## Accepted texts -/

variable {text : List Char} {tree : ParseTree Rule} {kind : GraphKind} {operator : ParseTree Rule}

/-- The operators in the tree of a text stand in the text where they say, one behind the other. -/
theorem ordered_of_accepts (h : Accepts text tree) :
    (∀ operator ∈ operators tree, ∃ front behind, text = front ++ (operator.text ++ behind) ∧
      operator.start = Text.byteLength front) ∧
    (operators tree).Pairwise fun operator operator' => operator.stop ≤ operator'.start := by
  obtain ⟨found, hfound, htrees⟩ := h
  have hordered : Ordered (.start text) found := ordered_of_find hfound
  have hoperators : operatorsOf found.trees = operators tree := by simp [htrees]
  refine ⟨fun operator hmem => ?_, hoperators ▸ hordered.apart⟩
  obtain ⟨front, behind, htext, hstart⟩ := hordered.located operator (hoperators ▸ hmem)
  refine ⟨front, behind ++ found.next.rest, ?_, by simpa [Cursor.start] using hstart⟩
  -- What is read begins the text, so places in the one are places in the other.
  have hrest : text = found.text ++ found.next.rest := hordered.startsAt.1
  rw [hrest, htext]
  simp

/-- The edge operators in the tree of an accepted text are those among its tokens, in the same order. -/
theorem sameOperators_of_accepts (h : Accepts text tree) :
    ∃ tokens, lex text = some tokens ∧
      (operators tree).map ParseTree.text = (tokens.filter isOperator).map Token.text := by
  obtain ⟨read, trees, offset, tokens, rfl, hlex, hspells⟩ := spelled_of_accepts sameOperators_closed h
  refine ⟨tokens, hlex, ?_⟩
  have hoperators : operators (.node .document 0 read (trees ++ [.node .endOfInput offset [] []])) =
      operatorsOf trees := by
    simp [operators_node]
  rw [hoperators]
  exact sameOperators_of_spells hspells

/-- The text of each operator in the tree of a text is that of one of the two edge operators. -/
theorem text_of_accepts (h : Accepts text tree) (hmem : operator ∈ operators tree) :
    ∃ kind, operator.text = (Token.operator kind).text := by
  obtain ⟨tokens, -, hsame⟩ := sameOperators_of_accepts h
  have hsame : SameOperators [tree] tokens := by simpa [SameOperators] using hsame
  obtain ⟨kind, htext, -⟩ := hsame.exists_operator (by simpa using hmem)
  exact ⟨kind, htext⟩

/-! ## Misplaced operators -/

/-- An operator is misplaced if it is in a graph whose kind has another one. -/
theorem mem_misplaced : (kind, operator) ∈ misplaced tree ↔
    ∃ graph ∈ graphs tree, kind = GraphKind.ofTrees graph.children ∧ operator ∈ operators graph ∧
      String.ofList operator.text ≠ kind.edgeOp := by
  simp only [misplaced, misplacedIn, List.mem_flatMap, List.mem_map, List.mem_filter, decide_eq_true_eq,
    Prod.mk.injEq]
  constructor
  · rintro ⟨graph, hgraph, _, ⟨hmem, hmisplaced⟩, rfl, rfl⟩
    exact ⟨graph, hgraph, rfl, hmem, hmisplaced⟩
  · rintro ⟨graph, hgraph, rfl, hmem, hmisplaced⟩
    exact ⟨graph, hgraph, operator, ⟨hmem, hmisplaced⟩, rfl, rfl⟩

/-- The operators in some of the trees are among those in all of them, in the same order. -/
theorem operatorsOf_filter_sublist (p : ParseTree Rule → Bool) (trees : List (ParseTree Rule)) :
    List.Sublist (operatorsOf (trees.filter p)) (operatorsOf trees) := by
  induction trees with
  | nil => exact .slnil
  | cons tree trees ih =>
    rw [List.filter_cons, operatorsOf_cons]
    split
    · rw [operatorsOf_cons]
      exact (List.Sublist.refl _).append ih
    · exact ih.trans (List.sublist_append_right _ _)

/-- The misplaced operators of a document are some of its operators, in their order. -/
theorem misplaced_sublist (h : Accepts text tree) :
    List.Sublist ((misplaced tree).map Prod.snd) (operators tree) := by
  have hrule : tree.rule ≠ .edgeOp := by
    obtain ⟨inner, -, -, rfl⟩ := accepts_iff.1 h
    simp
  -- Those of each graph are some of its operators, and the graphs are some of the children.
  obtain ⟨rule, start, read, children⟩ := tree
  rw [ParseTree.rule_node] at hrule
  rw [operators_node hrule, misplaced, graphs, ParseTree.children_node]
  refine List.Sublist.trans ?_ (operatorsOf_filter_sublist (·.rule == .graph) children)
  generalize children.filter (·.rule == .graph) = trees
  induction trees with
  | nil => exact .slnil
  | cons graph trees ih =>
    have hgraph : (misplacedIn graph).map Prod.snd =
        (operators graph).filter ((GraphKind.ofTrees graph.children).Misplaces ·) := by
      simp [misplacedIn, Function.comp_def]
    rw [List.flatMap_cons, List.map_append, operatorsOf_cons, hgraph]
    exact List.filter_sublist.append ih

/-- A misplaced operator is one of the operators in the tree. -/
theorem mem_operators_of_mem_misplaced (h : Accepts text tree) (hmem : (kind, operator) ∈ misplaced tree) :
    operator ∈ operators tree :=
  (misplaced_sublist h).subset (List.mem_map_of_mem (f := Prod.snd) hmem)

/-- Whether an operator is the first in the text of those that are misplaced: all others are behind it. -/
def FirstMisplaced (tree : ParseTree Rule) (kind : GraphKind) (operator : ParseTree Rule) : Prop :=
  (kind, operator) ∈ misplaced tree ∧
    ∀ other ∈ misplaced tree, other = (kind, operator) ∨ operator.stop ≤ other.2.start

/-- The first misplaced operator in the list is the first in the text. -/
theorem firstMisplaced_of_head? (h : Accepts text tree)
    (hhead : (misplaced tree).head? = some (kind, operator)) : FirstMisplaced tree kind operator := by
  obtain ⟨more, hmore⟩ := List.head?_eq_some_iff.1 hhead
  -- The operators of the whole text stand apart in their order, hence so do those that are misplaced.
  have hapart := (ordered_of_accepts h).2.sublist (misplaced_sublist h)
  rw [hmore, List.map_cons, List.pairwise_cons] at hapart
  refine ⟨by simp [hmore], fun other hother => ?_⟩
  rw [hmore, List.mem_cons] at hother
  exact hother.imp id fun hother => hapart.1 other.2 (List.mem_map_of_mem hother)

end DotLang.Grammar
