import DotLang.Proofs.Text.Continuation
import DotLang.Proofs.Text.Place

/-!
# Stranded backslashes

Joining lines is one pass, so it can leave a backslash at the end of a line: one that ends the text, and one
that the removal of markers moves in front of a line feed. These are the only ones
(`strip_eq_append_iff_stranded`).
-/

namespace DotLang.Continuation

open Text

/-- Some markers, one behind the other. -/
def markers (n : Nat) : List Char := (List.replicate n marker).flatten

/-- Whether a backslash in front of a text is stranded: the text is markers up to its end, or it is one or more
markers with a line feed behind them. -/
def Stranded (behind : List Char) : Prop :=
  ∃ n rest, behind = markers n ++ rest ∧ (rest = [] ∨ n ≠ 0 ∧ ∃ cs, rest = '\n' :: cs)

variable {cs front behind : List Char}

/-- One marker more stands in front. -/
theorem markers_succ (n : Nat) : markers (n + 1) = marker ++ markers n := by
  rw [markers, List.replicate_succ, List.flatten_cons, markers]

/-- Markers in front are removed. -/
@[simp]
theorem strip_markers_append (n : Nat) (cs : List Char) : strip (markers n ++ cs) = strip cs := by
  induction n with
  | zero => rfl
  | succ n ih => rw [markers_succ, List.append_assoc, strip_marker, ih]

/-- A line feed in front stays, as it ends no marker. -/
theorem strip_lineFeed_cons (cs : List Char) : strip ('\n' :: cs) = '\n' :: strip cs :=
  strip_cons fun hmeet => absurd hmeet.1 (by decide)

/-- A character of the joined text is one of the text, where it begins no marker. -/
theorem exists_of_strip_eq_append {c : Char} (h : strip cs = front ++ c :: behind) :
    ∃ left right, cs = left ++ c :: right ∧ strip left = front ∧ strip right = behind ∧
      ¬MeetInMarker [c] right := by
  fun_induction strip cs generalizing front with
  | case1 => simp at h
  | case2 cs ih =>
    obtain ⟨left, right, rfl, rfl, hright, hmeet⟩ := ih h
    exact ⟨marker ++ left, right, rfl, strip_marker left, hright, hmeet⟩
  | case3 d cs hnot ih =>
    have hkept : ¬MeetInMarker [d] cs := not_meetInMarker_of_forall hnot
    cases front with
    | nil =>
      obtain ⟨rfl, rfl⟩ := List.cons.inj h
      exact ⟨[], cs, rfl, rfl, rfl, hkept⟩
    | cons d' front =>
      obtain ⟨rfl, hcs⟩ := List.cons.inj h
      obtain ⟨left, right, rfl, rfl, hright, hmeet⟩ := ih hcs
      -- A marker that the left part completes would be one of the whole text.
      refine ⟨d :: left, right, rfl, strip_cons fun hleft => hkept ⟨hleft.1, ?_⟩, hright, hmeet⟩
      rw [List.head?_append, hleft.2, Option.some_or]

/-- Only markers are lost in front of the end of a line. -/
theorem exists_markers_of_beginsBelow (h : BeginsBelow (strip cs)) :
    ∃ n rest, cs = markers n ++ rest ∧ BeginsBelow rest := by
  fun_induction strip cs with
  | case1 => exact ⟨0, [], rfl, .inl rfl⟩
  | case2 cs ih =>
    obtain ⟨n, rest, rfl, hrest⟩ := ih h
    exact ⟨n + 1, rest, by rw [markers_succ]; rfl, hrest⟩
  -- The first character that is kept is the first one of the stripped text.
  | case3 c cs hnot ih =>
    obtain hnil | ⟨tail, htail⟩ := h
    · cases hnil
    · obtain ⟨rfl, -⟩ := List.cons.inj htail
      exact ⟨0, '\n' :: cs, rfl, .inr ⟨cs, rfl⟩⟩

/-- What begins with a line end only once lines are joined is stranded behind a backslash. -/
theorem stranded_of_beginsBelow (h : BeginsBelow (strip behind)) (hmeet : ¬MeetInMarker ['\\'] behind) :
    Stranded behind := by
  obtain ⟨n, rest, rfl, hrest⟩ := exists_markers_of_beginsBelow h
  refine ⟨n, rest, rfl, hrest.imp_right fun ⟨cs, hcs⟩ => ⟨?_, cs, hcs⟩⟩
  rintro rfl
  exact hmeet ⟨rfl, by rw [hcs]; rfl⟩

/-- Where a backslash is stranded, a line ends behind it once lines are joined. -/
theorem Stranded.beginsBelow (h : Stranded behind) : BeginsBelow (strip behind) := by
  obtain ⟨n, rest, rfl, rfl | ⟨-, cs, rfl⟩⟩ := h
  · exact .inl (by rw [strip_markers_append]; rfl)
  · exact .inr ⟨strip cs, by rw [strip_markers_append, strip_lineFeed_cons]⟩

/-- A stranded backslash begins no marker itself. -/
theorem Stranded.not_meetInMarker (h : Stranded behind) : ¬MeetInMarker ['\\'] behind := by
  rintro ⟨-, hline⟩
  obtain ⟨_ | n, rest, rfl, hrest⟩ := h
  · rcases hrest with rfl | ⟨hne, -⟩
    · cases hline
    · exact hne rfl
  · rw [markers_succ] at hline
    cases hline

/-- A joined text has a backslash at the end of a line exactly where the text has a stranded one. -/
theorem strip_eq_append_iff_stranded :
    (∃ below, strip cs = front ++ '\\' :: below ∧ BeginsBelow below) ↔
      ∃ left behind, cs = left ++ '\\' :: behind ∧ strip left = front ∧ Stranded behind := by
  constructor
  · rintro ⟨below, hstrip, hbelow⟩
    obtain ⟨left, behind, rfl, hleft, rfl, hmeet⟩ := exists_of_strip_eq_append hstrip
    exact ⟨left, behind, rfl, hleft, stranded_of_beginsBelow hbelow hmeet⟩
  · rintro ⟨left, behind, rfl, rfl, hstranded⟩
    -- The left part is followed by a backslash, with which no marker ends.
    have hcut : ¬MeetInMarker left ('\\' :: behind) := fun hmeet => absurd hmeet.2 (by simp)
    exact ⟨strip behind, by rw [strip_append hcut, strip_cons hstranded.not_meetInMarker], hstranded.beginsBelow⟩

end DotLang.Continuation
