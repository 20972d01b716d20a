import DotLang.Text.Position

/-!
# Places and lines

A place in a text splits it into what is above its line, what is left of it and right of it on its line,
and what is below. These four parts tell its line and column (`Position.after_above`) and the line of the
text that it is on (`lines_at`).
-/

namespace DotLang.Text

/-- Whether a text ends where a line ends: it is empty, or its last character is a line feed. -/
def EndsLine (above : List Char) : Prop := above = [] ∨ ∃ cs, above = cs ++ ['\n']

/-- Whether a text begins where a line ends: it is empty, or its first character is a line feed. -/
def BeginsBelow (below : List Char) : Prop := below = [] ∨ ∃ cs, below = '\n' :: cs

variable {above left right below front behind : List Char}

/-! ## Offsets -/

/-- The text before the bytes of its front is this front. -/
theorem before_append (front behind : List Char) : before (front ++ behind) (byteLength front) = front := by
  induction front with
  | nil =>
    rcases behind with _ | ⟨c, cs⟩
    · rfl
    -- Nothing fits into no bytes.
    · have hpos := c.utf8Size_pos
      rw [List.nil_append, byteLength_nil, before, if_neg (by omega)]
  | cons c front ih =>
    rw [List.cons_append, byteLength_cons, before, if_pos (Nat.le_add_right _ _), Nat.add_sub_cancel_left, ih]

/-! ## Lines and columns -/

namespace Position

/-- The position behind two texts is reached by going on from behind the first one. -/
theorem after_append (front behind : List Char) :
    after (front ++ behind) = behind.foldl step (after front) :=
  List.foldl_append

/-- Without a line feed, each character goes on by one column. -/
theorem foldl_step_of_not_mem (position : Position) (h : '\n' ∉ left) :
    left.foldl step position = ⟨position.line, position.col + left.length⟩ := by
  induction left generalizing position with
  | nil => rfl
  | cons c left ih =>
    rw [List.mem_cons, not_or] at h
    rw [List.foldl_cons, step, if_neg (Ne.symm h.1), ih _ h.2, List.length_cons]
    simp only [mk.injEq, true_and]
    omega

/-- Characters that end no line move a place along its line. -/
theorem after_append_of_not_mem (front : List Char) (h : '\n' ∉ left) :
    after (front ++ left) = ⟨(after front).line, (after front).col + left.length⟩ := by
  rw [after_append, foldl_step_of_not_mem _ h]

/-- Each line feed goes on by one line. -/
theorem foldl_step_line (position : Position) (cs : List Char) :
    (cs.foldl step position).line = position.line + cs.count '\n' := by
  induction cs generalizing position with
  | nil => rfl
  | cons c cs ih =>
    rw [List.foldl_cons, ih, step, List.count_cons]
    by_cases hc : c = '\n'
    · simp only [hc, ↓reduceIte, beq_self_eq_true]
      omega
    · simp [hc]

/-- Lines are counted by the line feeds before a place. -/
theorem after_line (cs : List Char) : (after cs).line = cs.count '\n' + 1 := by
  rw [after, foldl_step_line, start, Nat.add_comm]

/-- Behind the end of a line is the first column. -/
theorem after_col_of_endsLine (h : EndsLine above) : (after above).col = 1 := by
  rcases h with rfl | ⟨cs, rfl⟩
  · rfl
  · rw [after_append]
    rfl

/-- The position of a place, given what is above its line and what is left of it. -/
theorem after_above (habove : EndsLine above) (hleft : '\n' ∉ left) :
    after (above ++ left) = ⟨above.count '\n' + 1, left.length + 1⟩ := by
  rw [after_append_of_not_mem above hleft, after_line, after_col_of_endsLine habove, Nat.add_comm 1]

end Position

/-! ## The line of a place -/

/-- In front of each place there are whole lines and the left part of a line. -/
theorem exists_above (front : List Char) :
    ∃ above left, front = above ++ left ∧ EndsLine above ∧ '\n' ∉ left := by
  induction front with
  | nil => exact ⟨[], [], rfl, .inl rfl, by simp⟩
  | cons c front ih =>
    obtain ⟨above, left, rfl, habove, hleft⟩ := ih
    -- A character in front of the first line of the rest is left of the place or ends a line above it.
    rcases habove with rfl | ⟨cs, rfl⟩
    · by_cases hc : c = '\n'
      · exact ⟨[c], left, rfl, .inr ⟨[], by rw [hc]; rfl⟩, hleft⟩
      · exact ⟨[], c :: left, rfl, .inl rfl, by simp [Ne.symm hc, hleft]⟩
    · exact ⟨c :: (cs ++ ['\n']), left, rfl, .inr ⟨c :: cs, rfl⟩, hleft⟩

/-- Behind each place there are the right part of a line and whole lines. -/
theorem exists_below (behind : List Char) :
    ∃ right below, behind = right ++ below ∧ '\n' ∉ right ∧ BeginsBelow below := by
  induction behind with
  | nil => exact ⟨[], [], rfl, by simp, .inl rfl⟩
  | cons c behind ih =>
    obtain ⟨right, below, rfl, hright, hbelow⟩ := ih
    -- The line goes on up to the first line feed.
    by_cases hc : c = '\n'
    · exact ⟨[], c :: (right ++ below), rfl, by simp, .inr ⟨right ++ below, by rw [hc]⟩⟩
    · exact ⟨c :: right, below, rfl, by simp [Ne.symm hc, hright], hbelow⟩

/-- Each text has a line at least. -/
theorem lines_ne_nil (cs : List Char) : lines cs ≠ [] := by
  rcases cs with _ | ⟨c, cs⟩
  · simp [lines]
  · rw [lines]
    split
    · simp
    · split <;> simp

/-- A character that is no line feed belongs to the first line. -/
theorem lines_cons_of_ne {c : Char} (hc : c ≠ '\n') {cs line : List Char} {more : List (List Char)}
    (h : lines cs = line :: more) : lines (c :: cs) = (c :: line) :: more := by
  rw [lines, if_neg hc, h]

/-- Behind a line feed, the lines are those of the rest. -/
theorem lines_append_lineFeed (cs rest : List Char) :
    lines (cs ++ '\n' :: rest) = lines cs ++ lines rest := by
  induction cs with
  | nil => rfl
  | cons c cs ih =>
    rw [List.cons_append]
    -- A line feed ends a line that is empty so far; any other character belongs to the first line.
    by_cases hc : c = '\n'
    · subst hc
      rw [lines, if_pos rfl, ih, lines, if_pos rfl]
      rfl
    · obtain ⟨line, more, hlines⟩ := List.exists_cons_of_ne_nil (lines_ne_nil cs)
      rw [hlines, List.cons_append] at ih
      rw [lines_cons_of_ne hc ih, lines_cons_of_ne hc hlines]
      rfl

/-- There is one line more than there are line feeds. -/
theorem length_lines (cs : List Char) : (lines cs).length = cs.count '\n' + 1 := by
  induction cs with
  | nil => rfl
  | cons c cs ih =>
    by_cases hc : c = '\n'
    · subst hc
      rw [lines, if_pos rfl, List.length_cons, ih, List.count_cons_self]
    · obtain ⟨line, more, hlines⟩ := List.exists_cons_of_ne_nil (lines_ne_nil cs)
      rw [lines_cons_of_ne hc hlines, List.count_cons_of_ne (by simpa using hc), ← ih, hlines]
      rfl

/-- A text without line feeds is a single line. -/
theorem lines_of_not_mem (h : '\n' ∉ left) : lines left = [left] := by
  induction left with
  | nil => rfl
  | cons c left ih =>
    rw [List.mem_cons, not_or] at h
    rw [lines_cons_of_ne (Ne.symm h.1) (ih h.2)]

/-- The first line of a text, up to what is below it. -/
theorem head_lines (h : '\n' ∉ left) (hbelow : BeginsBelow below) :
    (lines (left ++ below))[0]? = some left := by
  rcases hbelow with rfl | ⟨cs, rfl⟩
  · rw [List.append_nil, lines_of_not_mem h]
    rfl
  · rw [lines_append_lineFeed, lines_of_not_mem h]
    rfl

/-- The line behind so many line feeds lies between what is above it and what is below. -/
theorem lines_at (habove : EndsLine above) (h : '\n' ∉ left) (hbelow : BeginsBelow below) :
    (lines (above ++ (left ++ below)))[above.count '\n']? = some left := by
  rcases habove with rfl | ⟨cs, rfl⟩
  · exact head_lines h hbelow
  · -- There are as many lines above as line feeds, and the line is the first one behind them.
    rw [List.append_assoc, List.singleton_append, lines_append_lineFeed]
    have hcount : (cs ++ ['\n']).count '\n' = (lines cs).length + 0 := by
      rw [length_lines, List.count_append]
      rfl
    rw [hcount, List.getElem?_append_right (Nat.le_add_right _ _), Nat.add_sub_cancel_left]
    exact head_lines h hbelow

end DotLang.Text
