import DotLang.Proofs.Document.Placement

/-!
# Trees with nothing missing

The functions that build identifiers and ports fall back to empty ones where a tree lacks the children
that they look for. No tree of an accepted text lacks them (`Grammar.filled_of_accepts`), so an empty
identifier or port never stands for something that was not there.
-/

namespace DotLang

open Peg Token

/-- Whether what is built from a rule's tree is built from the children of the tree. -/
def Rule.hasParts : Rule → Bool
  | id | port | quotedConcat | quotedString | htmlString => true
  | _ => false

namespace Grammar

mutual

/-- Whether all trees of rules with parts have children, at every depth. -/
def Filled : ParseTree Rule → Prop
  | .node rule _ _ children => (rule.hasParts = true → children ≠ []) ∧ FilledAll children

/-- Whether all of some trees have the children that they need. -/
def FilledAll : List (ParseTree Rule) → Prop
  | [] => True
  | tree :: trees => Filled tree ∧ FilledAll trees

end

@[simp] theorem filledAll_nil : FilledAll [] := by
  rw [FilledAll]
  trivial

@[simp] theorem filledAll_cons {tree : ParseTree Rule} {trees : List (ParseTree Rule)} :
    FilledAll (tree :: trees) ↔ Filled tree ∧ FilledAll trees := by
  rw [FilledAll]

/-- Trees are filled if the first ones and the others are. -/
@[simp] theorem filledAll_append {trees trees' : List (ParseTree Rule)} :
    FilledAll (trees ++ trees') ↔ FilledAll trees ∧ FilledAll trees' := by
  induction trees with
  | nil => simp
  | cons tree trees ih => simp [ih, and_assoc]

/-- Whether an expression calls a rule however it is read. -/
def alwaysCalls : Expr Rule → Bool
  | .seq first second => alwaysCalls first || alwaysCalls second
  | .alt first second => alwaysCalls first && alwaysCalls second
  | .call _ => true
  | _ => false

/-- There are trees, and all of them have the children that they need. -/
def AreFilled : Spelling := fun trees _ => trees ≠ [] ∧ FilledAll trees

/-- What an expression reads is filled if what its calls read is. -/
theorem filledAll_of_spells {e : Expr Rule} {trees : List (ParseTree Rule)} {tokens : List Token}
    (h : Spells (fun _ => AreFilled) e trees tokens) : FilledAll trees :=
  combined_of_spells (W := fun trees _ => FilledAll trees) filledAll_nil
    (fun _ => filledAll_nil) (fun h h' => filledAll_append.2 ⟨h, h'⟩) (fun h => h.2) h

/-- An expression that always calls a rule reads a tree at least. -/
theorem ne_nil_of_spells {e : Expr Rule} (he : alwaysCalls e = true) {trees : List (ParseTree Rule)}
    {tokens : List Token} (h : Spells (fun _ => AreFilled) e trees tokens) : trees ≠ [] := by
  induction e generalizing trees tokens with
  | seq first second ihfirst ihsecond =>
    obtain ⟨_, _, _, _, rfl, rfl, hfirst, hsecond⟩ := h
    rw [alwaysCalls, Bool.or_eq_true] at he
    -- One member that always calls a rule is enough for a sequence, both alternatives for a choice.
    rcases he with he | he
    · exact List.append_ne_nil_of_left_ne_nil (ihfirst he hfirst) _
    · exact List.append_ne_nil_of_right_ne_nil _ (ihsecond he hsecond)
  | alt first second ihfirst ihsecond =>
    rw [alwaysCalls, Bool.and_eq_true] at he
    exact h.elim (ihfirst he.1) (ihsecond he.2)
  | call rule => exact h.1
  | literal | start | caseless | char | not | opt | star => cases he

/-- What a rule reads is filled, if this is so for the rules that its body calls. -/
theorem filled_closed : Closed fun _ => AreFilled where
  terminal {rule token} hrule haccept offset := by
    refine ⟨by simp, ?_⟩
    cases token <;> cases rule <;>
      simp_all [Rule.leaf, Filled, Rule.hasParts, Rule.isTerminal, Rule.accepts, Rule.words]
  branch {rule trees tokens} hrule _ h offset text := by
    refine ⟨by simp, ?_⟩
    rw [filledAll_cons, Filled]
    -- The rules with parts are among those whose bodies call a rule however they are read.
    refine ⟨⟨fun hparts => ne_nil_of_spells ?_ h, filledAll_of_spells h⟩, filledAll_nil⟩
    revert hrule hparts
    cases rule <;> decide
  silent {rule trees tokens} hrule hkind h := by
    refine ⟨ne_nil_of_spells ?_ h, filledAll_of_spells h⟩
    revert hrule hkind
    cases rule <;> decide

/-- The tree of an accepted text has nothing missing. -/
theorem filled_of_accepts {text : List Char} {tree : ParseTree Rule} (h : Accepts text tree) :
    Filled tree := by
  obtain ⟨read, trees, offset, tokens, rfl, -, hspells⟩ := spelled_of_accepts filled_closed h
  have hend : Filled (.node .endOfInput offset [] []) := by simp [Filled, Rule.hasParts]
  rw [Filled, filledAll_append, filledAll_cons]
  exact ⟨by simp, filledAll_of_spells hspells, hend, filledAll_nil⟩

end Grammar

end DotLang
