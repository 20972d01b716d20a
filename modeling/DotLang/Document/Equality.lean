import DotLang.Document.Basic

/-!
# Equality of documents

Two documents can be compared: `Statement.same` and `Operand.same` decide equality, so `Document` has
decidable equality.
-/

namespace DotLang

mutual

/-- Whether two statements are equal. -/
def Statement.same : Statement → Statement → Bool
  | .node n as, .node m bs => n = m && as = bs
  | .edge os as, .edge ps bs => Operand.sameAll os ps && as = bs
  | .attributes t as, .attributes u bs => t = u && as = bs
  | .assignment a, .assignment b => a = b
  | .subgraph i ss, .subgraph j ts => i = j && Statement.sameAll ss ts
  | _, _ => false

/-- Whether two lists of statements are equal. -/
def Statement.sameAll : List Statement → List Statement → Bool
  | [], [] => true
  | s :: ss, t :: ts => s.same t && Statement.sameAll ss ts
  | _, _ => false

/-- Whether two operands are equal. -/
def Operand.same : Operand → Operand → Bool
  | .node n, .node m => n = m
  | .subgraph i ss, .subgraph j ts => i = j && Statement.sameAll ss ts
  | _, _ => false

/-- Whether two lists of operands are equal. -/
def Operand.sameAll : List Operand → List Operand → Bool
  | [], [] => true
  | o :: os, p :: ps => o.same p && Operand.sameAll os ps
  | _, _ => false

end

mutual

/-- The comparison of statements succeeds exactly for equal ones. -/
theorem Statement.same_iff : (s t : Statement) → (s.same t = true ↔ s = t)
  | .node .., t => by cases t <;> simp [Statement.same]
  | .edge os _, t => by cases t <;> simp [Statement.same, Operand.sameAll_iff os]
  | .attributes .., t => by cases t <;> simp [Statement.same]
  | .assignment _, t => by cases t <;> simp [Statement.same]
  | .subgraph _ ss, t => by cases t <;> simp [Statement.same, Statement.sameAll_iff ss]

/-- The comparison of lists of statements succeeds exactly for equal ones. -/
theorem Statement.sameAll_iff : (ss ts : List Statement) → (Statement.sameAll ss ts = true ↔ ss = ts)
  | [], ts => by cases ts <;> simp [Statement.sameAll]
  | s :: ss, ts => by
    cases ts <;> simp [Statement.sameAll, Statement.same_iff s, Statement.sameAll_iff ss]

/-- The comparison of operands succeeds exactly for equal ones. -/
theorem Operand.same_iff : (o p : Operand) → (o.same p = true ↔ o = p)
  | .node _, p => by cases p <;> simp [Operand.same]
  | .subgraph _ ss, p => by cases p <;> simp [Operand.same, Statement.sameAll_iff ss]

/-- The comparison of lists of operands succeeds exactly for equal ones. -/
theorem Operand.sameAll_iff : (os ps : List Operand) → (Operand.sameAll os ps = true ↔ os = ps)
  | [], ps => by cases ps <;> simp [Operand.sameAll]
  | o :: os, ps => by
    cases ps <;> simp [Operand.sameAll, Operand.same_iff o, Operand.sameAll_iff os]

end

instance : DecidableEq Statement := fun s t => decidable_of_iff _ (s.same_iff t)

instance : DecidableEq Operand := fun o p => decidable_of_iff _ (o.same_iff p)

deriving instance DecidableEq for Graph

deriving instance DecidableEq for Document

end DotLang
