import DotLang.ParseError.Dump
import Mathlib.Data.List.Basic

/-!
# Carets below a line

When an error is shown, its source line and the carets below it are two lines with margins of the same
length, whatever the number of the line is. So the first caret stands below the character at the error's
column (`ParseError.display_points`).
-/

namespace DotLang.ParseError

/-- What stands before the source line: its number. -/
def numberMargin (error : ParseError) : List Char :=
  "   ".toList ++ ((toString error.line).toList ++ " | ".toList)

/-- What stands before the carets: as many blanks. -/
def blankMargin (error : ParseError) : List Char :=
  "   ".toList ++ (List.replicate (toString error.line).length ' ' ++ " | ".toList)

/-- The number of carets: as many as there are columns up to the end, if there is one, and at least one. -/
def carets (error : ParseError) : Nat :=
  max 1 (error.colEnd.getD error.col - error.col)

/-- Whether an error is shown with a line of the text and, on the next line, with carets below it. Margins of
one length stand before both; behind its margin, the second line has blanks for all columns before the
error's and then the carets. So the character of the text that stands at the error's column is above the first
caret. -/
def PointsBelow (error : ParseError) (line : List Char) : Prop :=
  ∃ index shown pointer margin margin',
    (error.display.toList.splitOn '\n')[index]? = some shown ∧
      (error.display.toList.splitOn '\n')[index + 1]? = some pointer ∧
      margin.length = margin'.length ∧
      shown = margin ++ trimReturns line ∧
      pointer = margin' ++ (List.replicate (error.col - 1) ' ' ++ List.replicate error.carets '^') ∧
      pointer.idxOf '^' = margin.length + (error.col - 1) ∧
      shown[pointer.idxOf '^']? = (trimReturns line)[error.col - 1]?

variable {error : ParseError} {line : List Char}

@[simp] theorem toList_repeated (c : Char) (count : Nat) : (repeated c count).toList = List.replicate count c :=
  String.toList_ofList

/-- The underline has blanks up to the column and then carets, one at least. -/
theorem toList_underline (col : Nat) (colEnd : Option Nat) :
    (underline col colEnd).toList =
      List.replicate (col - 1) ' ' ++ List.replicate (max 1 (colEnd.getD col - col)) '^' := by
  cases colEnd <;> simp [underline]

/-- Both margins are equally wide. -/
theorem length_margins (error : ParseError) : error.numberMargin.length = error.blankMargin.length := by
  simp only [numberMargin, blankMargin, List.length_append, String.length_toList, List.length_replicate]

/-- A number is written with digits. -/
theorem lineFeed_notMem_number (error : ParseError) : '\n' ∉ error.numberMargin := by
  -- A number is written with digits only.
  have hnumber : '\n' ∉ (toString error.line).toList := by
    intro hmem
    rw [Nat.toString_eq_repr, Nat.toList_repr] at hmem
    exact absurd (Nat.isDigit_of_mem_toDigits (by decide) (by decide) hmem) (by decide)
  rw [numberMargin, List.mem_append, List.mem_append]
  rintro (hmem | hmem | hmem)
  · exact absurd hmem (by decide)
  · exact hnumber hmem
  · exact absurd hmem (by decide)

/-- Nothing is added to a line where carriage returns are cut off. -/
theorem trimReturns_subset (line : List Char) : trimReturns line ⊆ line := by
  intro c hc
  have hreverse := (List.dropWhile_sublist _).subset (List.mem_reverse.1 hc)
  exact List.mem_reverse.1 hreverse

/-- A line with nothing behind its margin, and two lines with something behind it. It does not matter what the
pieces of these lines are. -/
theorem toList_framed {indent margin bar number separator shown pointer : String} {top : List Char}
    (hbar : bar.toList = top ++ ['\n']) :
    (indent ++ margin ++ bar ++ indent ++ number ++ separator ++ shown ++ "\n" ++ indent ++ margin ++
        separator ++ pointer ++ "\n").toList =
      (indent.toList ++ (margin.toList ++ top)) ++ '\n' ::
        ((indent.toList ++ (number.toList ++ separator.toList)) ++ shown.toList ++ '\n' ::
          ((indent.toList ++ (margin.toList ++ separator.toList)) ++ pointer.toList ++ ['\n'])) := by
  simp [hbar]

/-- A source line with its number, and the line with the carets below it. -/
theorem toList_excerpt (error : ParseError) (line : List Char) :
    ∃ top, (error.excerpt (String.ofList line)).toList =
      top ++ '\n' :: (error.numberMargin ++ trimReturns line ++ '\n' ::
        (error.blankMargin ++ (List.replicate (error.col - 1) ' ' ++ List.replicate error.carets '^') ++
          ['\n'])) := by
  have hbar : " |\n".toList = " |".toList ++ ['\n'] := rfl
  have htrim : (String.ofList (trimReturns (String.ofList line).toList)).toList = trimReturns line := by
    rw [String.toList_ofList, String.toList_ofList]
  have hframed : (error.excerpt (String.ofList line)).toList = _ := toList_framed hbar
  rw [toList_repeated, toList_underline, htrim] at hframed
  exact ⟨_, hframed⟩

/-- The lines that show where an error is are followed by the source line, and this one by the carets. -/
theorem exists_display (h : error.sourceLine = some (String.ofList line)) :
    ∃ front back, error.display.toList = front ++ '\n' :: ((error.numberMargin ++ trimReturns line) ++ '\n' ::
      ((error.blankMargin ++ (List.replicate (error.col - 1) ' ' ++ List.replicate error.carets '^')) ++
        '\n' :: back)) := by
  obtain ⟨top, htop⟩ := toList_excerpt error line
  -- It does not matter here what stands before the excerpt and behind it.
  have hdisplay : ∃ front back : String, error.display = front ++ error.excerpt (String.ofList line) ++ back := by
    rw [display]
    simp only [h]
    exact ⟨_, _, rfl⟩
  obtain ⟨front, back, hdisplay⟩ := hdisplay
  refine ⟨front.toList ++ top, back.toList, ?_⟩
  rw [hdisplay, String.toList_append, String.toList_append, htop]
  simp

/-- Carets stand behind blanks. -/
theorem idxOf_caret {blanks : List Char} (h : '^' ∉ blanks) {count : Nat} (hcount : count ≠ 0) :
    (blanks ++ List.replicate count '^').idxOf '^' = blanks.length := by
  obtain ⟨count, rfl⟩ := Nat.exists_eq_succ_of_ne_zero hcount
  rw [List.idxOf_append, if_neg h, List.replicate_succ, List.idxOf_cons_self, Nat.zero_add]

/-- An error with a line of the text points at this line. -/
theorem display_points (h : error.sourceLine = some (String.ofList line)) (hline : '\n' ∉ line) :
    error.PointsBelow line := by
  obtain ⟨front, back, hdisplay⟩ := exists_display h
  have hshown : '\n' ∉ error.numberMargin ++ trimReturns line := by
    rw [List.mem_append, not_or]
    exact ⟨error.lineFeed_notMem_number, fun hmem => hline (trimReturns_subset line hmem)⟩
  have hblanks : ∀ {c}, c ≠ ' ' → c ≠ '|' → c ∉ error.blankMargin ++ List.replicate (error.col - 1) ' ' := by
    intro c hspace hbar
    simp [blankMargin, hspace, hbar]
  have hpointer : '\n' ∉ error.blankMargin ++
      (List.replicate (error.col - 1) ' ' ++ List.replicate error.carets '^') := by
    rw [← List.append_assoc, List.mem_append, not_or]
    exact ⟨hblanks (by decide) (by decide), by simp⟩
  have hindex : (error.blankMargin ++ (List.replicate (error.col - 1) ' ' ++
      List.replicate error.carets '^')).idxOf '^' = error.numberMargin.length + (error.col - 1) := by
    rw [← List.append_assoc, idxOf_caret (hblanks (by decide) (by decide)), List.length_append,
      List.length_replicate, length_margins]
    exact Nat.ne_of_gt (Nat.le_max_left 1 _)
  -- Neither of the two has a line feed in it, so each of them is a line of what is shown.
  refine ⟨(front.splitOn '\n').length, _, _, _, _, ?_, ?_, error.length_margins, rfl, rfl, hindex, ?_⟩
  · rw [hdisplay, List.splitOn_append_cons_self, List.splitOn_append_cons_self_of_not_mem hshown]
    exact List.getElem?_append_right (Nat.le_refl _) |>.trans (by simp)
  · rw [hdisplay, List.splitOn_append_cons_self, List.splitOn_append_cons_self_of_not_mem hshown,
      List.splitOn_append_cons_self_of_not_mem hpointer]
    exact List.getElem?_append_right (Nat.le_succ _) |>.trans (by simp)
  · rw [hindex, List.getElem?_append_right (Nat.le_add_right _ _), Nat.add_sub_cancel_left]

end DotLang.ParseError
