import DotLang.ParseError.Failure

/-!
# Lists of what was expected

The labels of rules are those that occur, in the order of their first occurrence and each one once
(`labels_eq`, `nodup_labels`), and the message joins them with commas and a final "or"
(`expectedMessage_cases`).
-/

namespace DotLang.ParseError

variable {seen labels : List String} {rules : List Rule}

/-- Labels that came before do not occur again, so the others are what is left of a list without them. -/
theorem distinctAfter_eq (seen labels : List String) :
    distinctAfter seen labels = (labels.filter (· ∉ seen)).eraseDups := by
  induction labels generalizing seen with
  | nil => rfl
  | cons label labels ih =>
    rw [distinctAfter]
    split
    next hmem => rw [ih, List.filter_cons_of_neg (by simpa using hmem)]
    next hnot =>
      rw [ih, List.filter_cons_of_pos (by simpa using hnot), List.eraseDups_cons, List.filter_filter]
      congr 2
      refine List.filter_congr fun other _ => ?_
      -- Leaving out the labels seen and then this one is leaving out all of them at once.
      simp [not_or, and_comm, Bool.beq_eq_decide_eq]

/-- No label is repeated that was seen before. -/
theorem notMem_of_mem_distinctAfter {label : String} (h : label ∈ distinctAfter seen labels) : label ∉ seen := by
  rw [distinctAfter_eq, List.mem_eraseDups, List.mem_filter] at h
  simpa using h.2

/-- No label is repeated. -/
theorem nodup_distinctAfter (seen labels : List String) : (distinctAfter seen labels).Nodup := by
  induction labels generalizing seen with
  | nil => exact List.nodup_nil
  | cons label labels ih =>
    rw [distinctAfter]
    split
    · exact ih seen
    -- The label counts as seen for those behind it.
    · refine List.nodup_cons.2 ⟨fun hmem => ?_, ih _⟩
      exact notMem_of_mem_distinctAfter hmem (by simp)

/-- The labels of rules, each at the place of its first occurrence. -/
theorem labels_eq (rules : List Rule) : ParseError.labels rules = (rules.filterMap Rule.label).eraseDups := by
  rw [ParseError.labels, distinctAfter_eq, List.filter_eq_self.2 fun label _ => by simp]

/-- The labels of rules are all different. -/
theorem nodup_labels (rules : List Rule) : (ParseError.labels rules).Nodup :=
  nodup_distinctAfter [] _

/-- Each label belongs to one of the rules, and each rule with a label has its label among them. -/
theorem mem_labels {label : String} : label ∈ ParseError.labels rules ↔ ∃ rule ∈ rules, rule.label = some label := by
  rw [labels_eq, List.mem_eraseDups, List.mem_filterMap]

/-- Alternatives are joined by commas, but the last one by "or". -/
theorem alternatives_snoc {front : List String} (hfront : front ≠ []) (last : String) :
    alternatives (front ++ [last]) = ", ".intercalate front ++ " or " ++ last := by
  induction front with
  | nil => exact absurd rfl hfront
  | cons label front ih =>
    rcases front with _ | ⟨next, front⟩
    · rw [String.intercalate_singleton]
      rfl
    -- With two labels or more behind it, the first one is followed by a comma.
    · have hthree : alternatives (label :: next :: front ++ [last]) =
          label ++ ", " ++ alternatives (next :: front ++ [last]) := by
        rcases front with _ | ⟨third, front⟩ <;> rfl
      rw [hthree, ih (List.cons_ne_nil next front), String.intercalate_cons_cons]
      simp only [String.append_assoc]

/-- The message of a list of rules of which at least one has a label. -/
theorem expectedMessage_cases (h : ParseError.labels rules ≠ []) :
    (∃ label, ParseError.labels rules = [label] ∧ expectedMessage rules = "expected " ++ label) ∨
      ∃ front last, front ≠ [] ∧ ParseError.labels rules = front ++ [last] ∧
        expectedMessage rules = "expected " ++ (", ".intercalate front ++ " or " ++ last) := by
  have hmessage : expectedMessage rules = "expected " ++ alternatives (ParseError.labels rules) := by
    rw [expectedMessage]
    split
    next hnil => exact absurd hnil h
    next => rfl
  -- Only the last label matters for the joining.
  obtain ⟨front, last, hlabels⟩ : ∃ front last, ParseError.labels rules = front ++ [last] :=
    ⟨_, _, (List.dropLast_concat_getLast h).symm⟩
  rw [hmessage, hlabels]
  by_cases hfront : front = []
  · subst hfront
    exact .inl ⟨last, rfl, rfl⟩
  · exact .inr ⟨front, last, hfront, rfl, by rw [alternatives_snoc hfront]⟩

/-- A message that lists what was expected is not the one for nothing. -/
theorem expected_ne (words : String) : "expected " ++ words ≠ "unexpected token" := by
  intro h
  have hlist := congrArg String.toList h
  rw [String.toList_append] at hlist
  exact absurd (List.cons.inj hlist).1 (by decide)

end DotLang.ParseError
