import DotLang.Proofs.Text.Place
import Mathlib.Data.List.Basic

/-!
# Spans and lines

The line and the column of a place can be counted in the text before it (`Position.after_eq`), and the column
behind a span in the text of the span (`Position.spanEnd_append`). The last character of a span, not
the place behind it, tells on which line it ends: this may be the line feed at the end of the line.
-/

namespace DotLang.Text

/-- The characters behind the last line feed of a text. -/
def lastLine (read : List Char) : List Char :=
  (read.reverse.takeWhile (· != '\n')).reverse

/-- The text between two byte offsets. -/
def between (text : List Char) (start stop : Nat) : List Char :=
  (before text stop).drop (before text start).length

variable {above left read front inner text : List Char} {start stop offset : Nat}

/-! ## Offsets -/

/-- What stands before an offset is the start of the text. -/
theorem before_prefix (text : List Char) (offset : Nat) : before text offset <+: text := by
  induction text generalizing offset with
  | nil => exact List.prefix_rfl
  | cons c text ih =>
    rw [before]
    split
    · exact (List.prefix_cons_inj c).2 (ih _)
    · exact List.nil_prefix

/-- The place behind some characters of a text lies between characters. -/
theorem isBoundary_byteLength (front behind : List Char) :
    isBoundary (front ++ behind) (byteLength front) = true := by
  rw [isBoundary, before_append, beq_self_eq_true]

/-- What stands before an offset stands before each later one. -/
theorem before_prefix_before (h : start ≤ stop) : before text start <+: before text stop := by
  induction text generalizing start stop with
  | nil => exact List.prefix_rfl
  | cons c text ih =>
    rw [before, before]
    -- A character that fits before the first place fits before the second one.
    by_cases hc : c.utf8Size ≤ start
    · rw [if_pos hc, if_pos (Nat.le_trans hc h)]
      exact (List.prefix_cons_inj c).2 (ih (Nat.sub_le_sub_right h _))
    · rw [if_neg hc]
      exact List.nil_prefix

/-- What is before the end of a span is what is before the span and the span itself. -/
theorem before_append_between (h : start ≤ stop) :
    before text start ++ between text start stop = before text stop := by
  obtain ⟨inner, hinner⟩ : before text start <+: before text stop := before_prefix_before h
  rw [between, ← hinner, List.drop_left]

/-! ## Lines and columns -/

/-- The last line is what stands behind the whole lines. -/
theorem lastLine_append (habove : EndsLine above) (hleft : '\n' ∉ left) : lastLine (above ++ left) = left := by
  have hall : ∀ c ∈ left.reverse, (c != '\n') = true := by
    intro c hc
    rw [bne_iff_ne]
    rintro rfl
    exact hleft (List.mem_reverse.1 hc)
  -- Read backwards, the line ends at the line feed above it, or where the text begins.
  rw [lastLine, List.reverse_append, List.takeWhile_append_of_pos hall]
  rcases habove with rfl | ⟨cs, rfl⟩ <;> simp

/-- Lines are what line feeds separate. -/
theorem lines_eq_splitOn (cs : List Char) : lines cs = cs.splitOn '\n' := by
  induction cs with
  | nil => rfl
  | cons c cs ih =>
    obtain ⟨line, more, hlines⟩ := List.exists_cons_of_ne_nil (lines_ne_nil cs)
    rw [List.splitOn_cons_eq_if_modifyHead, ← ih, hlines]
    -- Both put the character before the first line of what follows, or begin another line.
    by_cases hc : c = '\n'
    · subst hc
      rw [lines, if_pos rfl, hlines]
      rfl
    · rw [lines_cons_of_ne hc hlines, if_neg (by simpa using hc)]
      rfl

namespace Position

/-- A place is on the line behind all line feeds before it, behind the characters of this line. -/
theorem after_eq (read : List Char) :
    after read = ⟨read.count '\n' + 1, (lastLine read).length + 1⟩ := by
  obtain ⟨above, left, rfl, habove, hleft⟩ := exists_above read
  rw [after_above habove hleft, lastLine_append habove hleft, List.count_append,
    List.count_eq_zero_of_not_mem hleft, Nat.add_zero]

/-- A span ends behind its last character, on the line of this character. -/
theorem spanEnd_snoc (read : List Char) (c : Char) :
    spanEnd (read ++ [c]) = ⟨(after read).line, (after read).col + 1⟩ := by
  have hstop : after (read ++ [c]) = (after read).step c := by
    rw [after_append]
    rfl
  have hcol : (after read).col ≠ 0 := by
    rw [after_eq]
    exact Nat.succ_ne_zero _
  -- Only a line feed leads to the first column of a line, and then the end is taken one character before.
  rw [spanEnd, hstop, List.dropLast_concat, step]
  split
  · rfl
  · exact if_neg (fun hfirst => hcol (Nat.succ.inj hfirst))

/-- A span whose last character is on the line on which it begins ends there. -/
theorem spanEnd_append (hne : inner ≠ []) (h : '\n' ∉ inner.dropLast) :
    spanEnd (front ++ inner) = ⟨(after front).line, (after front).col + inner.length⟩ := by
  rw [← List.dropLast_concat_getLast hne, ← List.append_assoc, spanEnd_snoc, after_append_of_not_mem front h,
    List.length_append]
  rfl

/-- A span whose last character is on a later line ends there, too. -/
theorem line_lt_spanEnd (h : '\n' ∈ inner.dropLast) : (after front).line < (spanEnd (front ++ inner)).line := by
  have hne : inner ≠ [] := by
    rintro rfl
    cases h
  have hcount := List.count_pos_iff.2 h
  -- The end is looked up before the last character, and the line feed stands before that.
  rw [← List.dropLast_concat_getLast hne, ← List.append_assoc, spanEnd_snoc, after_line, after_line,
    List.count_append]
  omega

/-- An empty span at the start of a line ends on the line above. -/
theorem spanEnd_lt_line (h : front.getLast? = some '\n') : (spanEnd front).line < (after front).line := by
  obtain ⟨read, rfl⟩ := List.getLast?_eq_some_iff.1 h
  rw [spanEnd_snoc, after_line, after_line, List.count_append]
  exact Nat.lt_succ_self _

/-- Any other empty span ends where it begins, or one column behind it at the start of the text. -/
theorem spanEnd_of_getLast? (h : front.getLast? ≠ some '\n') :
    (spanEnd front).line = (after front).line ∧ (after front).col ≤ (spanEnd front).col := by
  rcases List.eq_nil_or_concat front with rfl | ⟨read, c, rfl⟩
  · decide
  · have hc : c ≠ '\n' := by simpa using h
    rw [List.concat_eq_append, spanEnd_snoc, after_append]
    rw [List.foldl_cons, List.foldl_nil, step, if_neg hc]
    exact ⟨rfl, Nat.le_refl _⟩

end Position

/-- The line of a place, with what is above and below it. -/
theorem exists_line_at (text : List Char) (offset : Nat) :
    ∃ above left right below, text = above ++ (left ++ right ++ below) ∧ before text offset = above ++ left ∧
      EndsLine above ∧ '\n' ∉ left ++ right ∧ BeginsBelow below ∧
      (lines text)[(before text offset).count '\n']? = some (left ++ right) := by
  obtain ⟨behind, htext⟩ := before_prefix text offset
  obtain ⟨above, left, hfront, habove, hleft⟩ := exists_above (before text offset)
  obtain ⟨right, below, rfl, hright, hbelow⟩ := exists_below behind
  have hline : '\n' ∉ left ++ right := by simp [hleft, hright]
  have hsplit : text = above ++ (left ++ right ++ below) := by
    rw [← htext, hfront, List.append_assoc, List.append_assoc]
  refine ⟨above, left, right, below, hsplit, hfront, habove, hline, hbelow, ?_⟩
  rw [hfront, List.count_append, List.count_eq_zero_of_not_mem hleft, Nat.add_zero, hsplit]
  exact lines_at habove hline hbelow

/-- The line of a place, and its column on this line. -/
theorem exists_line (text : List Char) (offset : Nat) :
    ∃ line, (lines text)[(before text offset).count '\n']? = some line ∧
      (lastLine (before text offset)).length ≤ line.length ∧ '\n' ∉ line := by
  obtain ⟨above, left, right, below, -, hfront, habove, hline, -, hlines⟩ := exists_line_at text offset
  refine ⟨left ++ right, hlines, ?_, hline⟩
  rw [hfront, lastLine_append habove fun hleft => hline (List.mem_append_left right hleft), List.length_append]
  exact Nat.le_add_right _ _

end DotLang.Text
