import DotLang.Proofs.Text.Html
import DotLang.Proofs.Text.Quoted

/-!
# The end of a string

Where a string ends can be told without a scan. A quote ends a quoted string if the backslashes directly
before it are even in number (`ClosedByQuote`), and a bracket ends an HTML string if it leaves no bracket open.
Wherever a text has such an end, the scans of the lexer find one, and none behind it
(`takeQuoted_of_stepwise`, `takeHtml_of_count`).
-/

namespace DotLang.Text

open Token

variable {c : Char} {content rest : List Char}

/-! ## Backslashes before a quote -/

/-- A quote behind this content ends the string: directly before the quote, the content has an even number of
backslashes. -/
def ClosedByQuote (content : List Char) : Prop :=
  (content.reverse.takeWhile (· == '\\')).length % 2 = 0

/-- Content that can be gone through from left to right, where every backslash takes the character behind it
along. -/
inductive Stepwise : List Char → Prop where
  | nil : Stepwise []
  | pair {c : Char} {cs : List Char} : Stepwise cs → Stepwise ('\\' :: c :: cs)
  | single {c : Char} {cs : List Char} : c ≠ '\\' → Stepwise cs → Stepwise (c :: cs)

/-- Content that a quote would close has no bearing on the content behind it. -/
theorem closedByQuote_append {front : List Char} (hfront : ClosedByQuote front) :
    ClosedByQuote (front ++ content) ↔ ClosedByQuote content := by
  rw [ClosedByQuote] at hfront
  rw [ClosedByQuote, ClosedByQuote, List.reverse_append, List.takeWhile_append]
  split
  next hall =>
    -- The content has nothing but backslashes, and those of the front are counted with them.
    rw [List.length_append, hall]
    omega
  next => rfl

/-- A character that is no backslash is closed by a quote behind it. -/
theorem closedByQuote_single (hc : c ≠ '\\') : ClosedByQuote [c] := by
  simp [ClosedByQuote, hc]

/-- A character with a backslash before it is closed by a quote behind it. -/
theorem closedByQuote_pair (c : Char) : ClosedByQuote ['\\', c] := by
  by_cases hc : c = '\\' <;> simp [ClosedByQuote, hc]

/-- A single backslash takes the quote behind it along. -/
theorem not_closedByQuote_slash : ¬ClosedByQuote ['\\'] := by
  simp [ClosedByQuote]

/-- What is read in steps is closed by a quote behind it. -/
theorem Stepwise.closedByQuote (h : Stepwise content) : ClosedByQuote content := by
  induction h with
  | nil => rfl
  | @pair c cs _ ih => exact (closedByQuote_append (closedByQuote_pair c)).2 ih
  | @single c cs hc _ ih => exact (closedByQuote_append (closedByQuote_single hc)).2 ih

/-- What a quote closes is read in steps. -/
theorem ClosedByQuote.stepwise : ∀ {content : List Char}, ClosedByQuote content → Stepwise content
  | [], _ => .nil
  | [c], h => .single (fun hc => not_closedByQuote_slash (hc ▸ h)) .nil
  | c :: d :: cs, h => by
    by_cases hc : c = '\\'
    · subst hc
      exact .pair ((closedByQuote_append (closedByQuote_pair d)).1 h).stepwise
    · exact .single hc ((closedByQuote_append (closedByQuote_single hc)).1 h).stepwise

/-- What is written for content can be gone through. -/
theorem stepwise_escape {value : List Char} (h : Paired value) : Stepwise (Quoted.escape value) := by
  induction h with
  | nil => exact .nil
  | @pair c cs hc _ ih =>
    rw [Quoted.escape_cons_of_ne (by decide), Quoted.escape_cons_of_ne hc]
    exact .pair ih
  | @single c cs hc _ ih =>
    -- Only quotes get a backslash, and are a pair with it.
    by_cases hquote : c = '"'
    · rw [Quoted.escape, if_pos hquote]
      exact .pair ih
    · rw [Quoted.escape_cons_of_ne hquote]
      exact .single hc ih

/-- A backslash takes any character along. -/
theorem takeQuoted_pair (c : Char) (cs : List Char) : takeQuoted ('\\' :: c :: cs) =
    (takeQuoted cs).map fun (content, rest) => ('\\' :: c :: content, rest) := by
  by_cases hquote : c = '"'
  · rw [hquote, takeQuoted]
  · by_cases hslash : c = '\\'
    · rw [hslash, takeQuoted]
    · exact Quoted.takeQuoted_slash hquote hslash cs

/-- Behind content that can be gone through, a quote ends the string unless an earlier one does. -/
theorem takeQuoted_of_stepwise (h : Stepwise content) (rest : List Char) :
    ∃ read left, takeQuoted (content ++ '"' :: rest) = some (read, left) ∧
      read ++ ['"'] <+: content ++ ['"'] := by
  induction h with
  | nil => exact ⟨[], rest, rfl, List.prefix_rfl⟩
  | @pair c cs _ ih =>
    obtain ⟨read, left, htake, hread⟩ := ih
    refine ⟨'\\' :: c :: read, left, ?_,
      List.cons_prefix_cons.2 ⟨rfl, List.cons_prefix_cons.2 ⟨rfl, hread⟩⟩⟩
    rw [List.cons_append, List.cons_append, takeQuoted_pair, htake]
    rfl
  | @single c cs hc _ ih =>
    -- A quote of its own in the content ends the string early.
    by_cases hquote : c = '"'
    · subst hquote
      exact ⟨[], cs ++ '"' :: rest, rfl, List.cons_prefix_cons.2 ⟨rfl, List.nil_prefix⟩⟩
    · obtain ⟨read, left, htake, hread⟩ := ih
      refine ⟨c :: read, left, ?_, List.cons_prefix_cons.2 ⟨rfl, hread⟩⟩
      rw [List.cons_append, Quoted.takeQuoted_cons_of_ne hquote hc, htake]
      rfl

/-! ## Brackets -/

/-- Where a start of the text closes one bracket more than it opens, on top of those that are open before it,
the string has ended. -/
theorem takeHtml_of_count : ∀ {start cs : List Char} (depth : Nat), start <+: cs →
    start.count '<' + depth + 1 = start.count '>' →
    ∃ content rest, takeHtml depth cs = some (content, rest) ∧ content ++ ['>'] <+: start
  | [], _, _, _, hcount => by simp at hcount
  | c :: start, cs, depth, hstart, hcount => by
    obtain ⟨cs, rfl⟩ : ∃ tail, cs = c :: tail := by
      obtain ⟨behind, rfl⟩ := hstart
      exact ⟨start ++ behind, rfl⟩
    replace hstart := (List.cons_prefix_cons.1 hstart).2
    -- A bracket that opens adds one to the depth, a bracket that closes takes one away.
    by_cases hopen : c = '<'
    · subst hopen
      obtain ⟨content, rest, htake, hcontent⟩ :=
        takeHtml_of_count (depth + 1) hstart (by simp at hcount; omega)
      refine ⟨'<' :: content, rest, ?_, List.cons_prefix_cons.2 ⟨rfl, hcontent⟩⟩
      rw [takeHtml_open, htake]
      rfl
    by_cases hclose : c = '>'
    · subst hclose
      rcases depth with _ | depth
      · exact ⟨[], cs, rfl, List.cons_prefix_cons.2 ⟨rfl, List.nil_prefix⟩⟩
      · obtain ⟨content, rest, htake, hcontent⟩ :=
          takeHtml_of_count depth hstart (by simp at hcount; omega)
        refine ⟨'>' :: content, rest, ?_, List.cons_prefix_cons.2 ⟨rfl, hcontent⟩⟩
        rw [takeHtml, htake]
        rfl
    · obtain ⟨content, rest, htake, hcontent⟩ :=
        takeHtml_of_count depth hstart (by simpa [hopen, hclose] using hcount)
      refine ⟨c :: content, rest, ?_, List.cons_prefix_cons.2 ⟨rfl, hcontent⟩⟩
      rw [takeHtml_cons ⟨hopen, hclose⟩, htake]
      rfl

end DotLang.Text
