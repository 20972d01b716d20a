import DotLang.Proofs.Token.Lex
import DotLang.Text.Lexeme

/-!
# The content of HTML strings

Content of which every bracket has its partner is what is read up to the bracket that closes the string.
The account within brackets that are open already (`BalancedFrom`) makes this an induction.
-/

namespace DotLang.Text

open Token

/-- Content of which every bracket has its partner, where so many brackets are open before it. -/
def BalancedFrom (depth : Nat) (content : List Char) : Prop :=
  (∀ start, start <+: content → start.count '>' ≤ start.count '<' + depth) ∧
    content.count '<' + depth = content.count '>'

variable {depth : Nat} {content rest : List Char}

/-- Content is balanced if no bracket within it is open at either end. -/
theorem isBalanced_iff : IsBalanced content ↔ BalancedFrom 0 content := by
  simp [IsBalanced, BalancedFrom]

/-- No content is balanced if nothing is open. -/
theorem balancedFrom_nil : BalancedFrom depth [] ↔ depth = 0 := by
  simp [BalancedFrom]

/-- A first character opens a bracket or closes one, or it does neither; the rest is balanced with the
brackets that are open behind it. -/
theorem balancedFrom_cons {c : Char} {depth' : Nat}
    (h : [c].count '<' + depth = [c].count '>' + depth') :
    BalancedFrom depth (c :: content) ↔ BalancedFrom depth' content := by
  have hcount : ∀ d (cs : List Char), (c :: cs).count d = [c].count d + cs.count d := by
    intro d cs
    rw [← List.singleton_append, List.count_append]
  have hopen := hcount '<' content
  have hclose := hcount '>' content
  -- A start of the content is one of the whole with the first character in front, and the other way.
  constructor
  · rintro ⟨hstarts, htotal⟩
    refine ⟨fun start hstart => ?_, by omega⟩
    have hle := hstarts (c :: start) (List.cons_prefix_cons.2 ⟨rfl, hstart⟩)
    have hopen' := hcount '<' start
    have hclose' := hcount '>' start
    omega
  · rintro ⟨hstarts, htotal⟩
    refine ⟨fun start hstart => ?_, by omega⟩
    rcases List.prefix_cons_iff.1 hstart with rfl | ⟨tail, rfl, htail⟩
    · simp
    · have hle := hstarts tail htail
      have hopen' := hcount '<' tail
      have hclose' := hcount '>' tail
      omega

/-- A bracket that opens is one more to be closed. -/
theorem balancedFrom_open : BalancedFrom depth ('<' :: content) ↔ BalancedFrom (depth + 1) content :=
  balancedFrom_cons (by simp; omega)

/-- A bracket that closes is one less to be closed. -/
theorem balancedFrom_close : BalancedFrom (depth + 1) ('>' :: content) ↔ BalancedFrom depth content :=
  balancedFrom_cons (by simp; omega)

/-- Other characters change nothing about the brackets. -/
theorem balancedFrom_of_ne {c : Char} (hc : c ≠ '<' ∧ c ≠ '>') :
    BalancedFrom depth (c :: content) ↔ BalancedFrom depth content :=
  balancedFrom_cons (by simp [hc.1, hc.2])

/-- A bracket cannot close what is not open. -/
theorem not_balancedFrom_close : ¬BalancedFrom 0 ('>' :: content) := by
  rintro ⟨hstarts, -⟩
  have hle := hstarts ['>'] ⟨content, rfl⟩
  simp at hle

/-- Balanced content is read up to the bracket behind it. -/
theorem takeHtml_of_balancedFrom (h : BalancedFrom depth content) :
    takeHtml depth (content ++ '>' :: rest) = some (content, rest) := by
  induction content generalizing depth with
  | nil =>
    obtain rfl := balancedFrom_nil.1 h
    rfl
  | cons c content ih =>
    rw [List.cons_append]
    -- Brackets change the depth; a closing one at depth zero cannot stand inside.
    by_cases hopen : c = '<'
    · subst hopen
      rw [takeHtml_open, ih (balancedFrom_open.1 h)]
      rfl
    · by_cases hclose : c = '>'
      · subst hclose
        rcases depth with _ | depth
        · exact absurd h not_balancedFrom_close
        · rw [takeHtml, ih (balancedFrom_close.1 h)]
          rfl
      · rw [takeHtml_cons ⟨hopen, hclose⟩, ih ((balancedFrom_of_ne ⟨hopen, hclose⟩).1 h)]
        rfl

/-- What is read up to a bracket is balanced. -/
theorem balancedFrom_of_takeHtml {cs : List Char} (h : takeHtml depth cs = some (content, rest)) :
    BalancedFrom depth content := by
  fun_induction takeHtml depth cs generalizing content with
  | case1 => cases h
  | case2 cs =>
    cases h
    exact balancedFrom_nil.2 rfl
  | case3 depth cs ih =>
    simp only [Option.map_eq_some_iff, Prod.exists, Prod.mk.injEq] at h
    obtain ⟨content, rest, hmore, rfl, rfl⟩ := h
    exact balancedFrom_close.2 (ih hmore)
  | case4 depth cs ih =>
    simp only [Option.map_eq_some_iff, Prod.exists, Prod.mk.injEq] at h
    obtain ⟨content, rest, hmore, rfl, rfl⟩ := h
    exact balancedFrom_open.2 (ih hmore)
  | case5 depth c cs hzero hclose hopen ih =>
    simp only [Option.map_eq_some_iff, Prod.exists, Prod.mk.injEq] at h
    obtain ⟨content, rest, hmore, rfl, rfl⟩ := h
    -- A closing bracket falls under one of the cases above, whatever the depth is.
    refine (balancedFrom_of_ne ⟨hopen, fun hc => ?_⟩).2 (ih hmore)
    rcases depth with _ | depth
    · exact hzero rfl hc
    · exact hclose depth rfl hc

end DotLang.Text
