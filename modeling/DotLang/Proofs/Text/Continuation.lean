import DotLang.Text.Continuation

/-!
# Joined lines

A pass over a text removes the continuation markers that it meets from left to right. A cut through the text
is not seen by the pass unless it goes through a marker, so a text that is cut into pieces without markers,
with one marker put into every cut, has its cuts removed and nothing else.

## Main results

* `strip_append`: a pass over two stretches of text is a pass over each, unless they meet in a marker.
* `join_continued`: joining lines removes the markers that are put between pieces, and only these.
-/

namespace DotLang.Continuation

/-- Whether two neighbouring stretches of text meet in a marker. -/
def MeetInMarker (left right : List Char) : Prop :=
  left.getLast? = some '\\' ∧ right.head? = some '\n'

/-- Whether two texts meet in a marker depends only on the end of the first one. -/
theorem MeetInMarker.cons {c : Char} {left right : List Char} (h : MeetInMarker left right) :
    MeetInMarker (c :: left) right := by
  refine ⟨?_, h.2⟩
  rw [List.getLast?_cons, h.1]
  rfl

/-- A character meets a text in a marker if the two begin with one. -/
theorem meetInMarker_singleton {c : Char} {cs : List Char} :
    MeetInMarker [c] cs ↔ marker <+: c :: cs := by
  cases cs <;> simp [MeetInMarker, marker, List.cons_prefix_cons, eq_comm]

/-- What a pass knows of a character that it keeps. -/
theorem not_meetInMarker_of_forall {c : Char} {cs : List Char}
    (h : ∀ tail, c = '\\' → cs = '\n' :: tail → False) : ¬MeetInMarker [c] cs := by
  rintro ⟨hslash, hline⟩
  obtain ⟨tail, rfl⟩ := List.head?_eq_some_iff.1 hline
  exact h tail (by simpa using hslash) rfl

/-- A marker in front is removed. -/
@[simp]
theorem strip_marker (cs : List Char) : strip (marker ++ cs) = strip cs := by
  rw [marker, List.cons_append, List.cons_append, List.nil_append, strip]

/-- A character that begins no marker is kept. -/
theorem strip_cons {c : Char} {cs : List Char} (h : ¬MeetInMarker [c] cs) :
    strip (c :: cs) = c :: strip cs := by
  rw [strip]
  rintro cs' rfl rfl
  exact h ⟨rfl, rfl⟩

/-- A pass over two neighbouring stretches of text is a pass over each, unless they meet in a marker. -/
theorem strip_append {left right : List Char} (h : ¬MeetInMarker left right) :
    strip (left ++ right) = strip left ++ strip right := by
  fun_induction strip left with
  | case1 => rfl
  | case2 cs ih => exact (strip_marker (cs ++ right)).trans (ih fun hmeet => h hmeet.cons.cons)
  | case3 c cs hnot ih =>
    -- The character is the last one of its stretch, or what comes next is in the same stretch.
    have hkept : ¬MeetInMarker [c] (cs ++ right) := by
      rcases cs with _ | ⟨d, cs⟩
      · exact h
      · rintro ⟨hslash, hline⟩
        exact hnot cs (by simpa using hslash) (by simpa using hline)
    rw [List.cons_append, strip_cons hkept, ih fun hmeet => h hmeet.cons, List.cons_append]

/-- A text without markers is left as it is. -/
theorem strip_eq_self {cs : List Char} (h : ¬marker <:+: cs) : strip cs = cs := by
  induction cs with
  | nil => rfl
  | cons c cs ih =>
    rw [List.infix_cons_iff, not_or] at h
    rw [strip_cons fun hmeet => h.1 (meetInMarker_singleton.1 hmeet), ih h.2]

/-- A text without markers is unchanged. -/
theorem strip_eq_self_of_count {cs : List Char} (h : count cs = 0) : strip cs = cs := by
  fun_induction strip cs with
  | case1 => rfl
  | case2 cs => simp [count] at h
  | case3 c cs hnot ih =>
    rw [count] at h
    · rw [ih h]
    · exact hnot

/-- Lines are joined by the pass over the characters. -/
@[simp]
theorem toList_join (text : String) : (join text).toList = strip text.toList := by
  rw [join, joined?]
  split
  · next hcount => exact (strip_eq_self_of_count hcount).symm
  · exact String.toList_ofList

/-- The joined text has the characters that the pass leaves. -/
theorem join_eq (text : String) : join text = String.ofList (strip text.toList) := by
  rw [← String.toList_inj, toList_join, String.toList_ofList]

/-- Joining the lines of a text of given characters. -/
theorem join_ofList (cs : List Char) : join (String.ofList cs) = String.ofList (strip cs) := by
  rw [join_eq, String.toList_ofList]

/-- A text in which a pass exposes a marker: one more pass would remove it. -/
def twiceContinued : String := String.ofList ['x', '\\', '\\', '\n', '\n', 'y']

/-- Of two markers within each other, the inner one is removed first. -/
theorem join_twiceContinued : join twiceContinued = String.ofList ['x', '\\', '\n', 'y'] :=
  join_ofList _

/-- The outer one is removed when lines are joined again. -/
theorem join_join_twiceContinued : join (join twiceContinued) = String.ofList ['x', 'y'] := by
  rw [join_twiceContinued]
  exact join_ofList _

/-- The lines of pieces without markers, with one marker between neighbours, are joined to what the pieces
are without it. It does not matter where a piece ends: the backslash of a marker ends no piece's own marker,
and what follows the marker is not looked at again. -/
theorem strip_intercalate {pieces : List (List Char)} (h : ∀ piece ∈ pieces, ¬marker <:+: piece) :
    strip (marker.intercalate pieces) = pieces.flatten := by
  induction pieces with
  | nil => rfl
  | cons piece pieces ih =>
    rw [List.forall_mem_cons] at h
    rcases pieces with _ | ⟨next, pieces⟩
    · simp [strip_eq_self h.1]
    -- A marker begins with a backslash, so none is completed where a piece ends.
    · have hmeet : ¬MeetInMarker piece (marker ++ marker.intercalate (next :: pieces)) := by
        simp [MeetInMarker, marker]
      rw [List.intercalate_cons_cons, List.append_assoc, strip_append hmeet, strip_eq_self h.1, strip_marker,
        ih h.2]
      rfl

/-- The text that is continued wherever it is cut into pieces. -/
def continued (pieces : List String) : String :=
  (String.ofList marker).intercalate pieces

/-- Joining the lines of a continued text gives the text that was cut into pieces. -/
theorem join_continued {pieces : List String} (h : ∀ piece ∈ pieces, ¬marker <:+: piece.toList) :
    join (continued pieces) = String.join pieces := by
  rw [← String.toList_inj, toList_join, continued, String.toList_intercalate, String.toList_ofList,
    strip_intercalate (by simpa using h), String.toList_join]
  rfl

end DotLang.Continuation
