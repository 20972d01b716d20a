import DotLang.Proofs.Text.Joined
import DotLang.Text.Position
import Mathlib.Data.String.Basic

/-!
# Removed markers

A pass from left to right removes the characters that belong to a marker of the text, wherever the pass is when
it meets them: markers do not overlap, so what a character belongs to is known from its neighbours. Hence joining
lines can be told place by place, its costs can be counted, and a text can be joined in stretches unless a
marker is cut in two.

## Main results

* `join_removes`: joining lines keeps the characters outside markers, in order, and nothing else.
* `join_append`: the lines of two texts can be joined before the texts are, unless they meet in a marker.
-/

namespace DotLang.Continuation

variable {c : Char} {cs left right text : List Char} {i : Nat}

instance (left right : List Char) : Decidable (MeetInMarker left right) :=
  inferInstanceAs (Decidable (_ ∧ _))

/-- Whether the character at a place of a text belongs to a marker: it is a backslash directly before a line feed,
or a line feed directly behind a backslash. -/
def InMarker (text : List Char) (i : Nat) : Prop :=
  MarkerAt text i ∨ 0 < i ∧ MarkerAt text (i - 1)

instance (text : List Char) (i : Nat) : Decidable (InMarker text i) :=
  inferInstanceAs (Decidable (_ ∨ _))

/-- The characters of a text that belong to no marker. -/
def outside (text : List Char) : List Char :=
  (text.zipIdx.filter fun place => ¬InMarker text place.2).map Prod.fst

/-! ## Markers of two stretches -/

/-- Markers in the first of two texts are where they are in it, if the texts do not meet in one. -/
theorem markerAt_append_left (h : ¬MeetInMarker left right) (hi : i < left.length) :
    MarkerAt (left ++ right) i ↔ MarkerAt left i := by
  rcases Nat.lt_or_eq_of_le (show i + 1 ≤ left.length from hi) with hnext | hlast
  · rw [MarkerAt, MarkerAt, List.getElem?_append_left hi, List.getElem?_append_left hnext]
  · -- The last character of the first stretch would need the first one of the second.
    have hnone : ¬MarkerAt left i := fun hmarker => by
      have hline := hmarker.2
      rw [List.getElem?_eq_none (Nat.le_of_eq hlast.symm)] at hline
      cases hline
    refine iff_of_false (fun hmarker => ?_) hnone
    obtain ⟨hslash, hline⟩ := hmarker
    refine h ⟨?_, ?_⟩
    · rwa [List.getLast?_eq_getElem?, ← hlast, Nat.add_sub_cancel, ← List.getElem?_append_left hi]
    · rwa [hlast, List.getElem?_append_right (Nat.le_refl _), Nat.sub_self, ← List.head?_eq_getElem?] at hline

/-- Markers in the second of two texts are where they are in it, shifted by the first. -/
theorem markerAt_append_right : MarkerAt (left ++ right) (left.length + i) ↔ MarkerAt right i := by
  rw [MarkerAt, MarkerAt, Nat.add_assoc, List.getElem?_append_right (Nat.le_add_right _ _),
    List.getElem?_append_right (Nat.le_add_right _ _), Nat.add_sub_cancel_left, Nat.add_sub_cancel_left]

/-- What belongs to a marker in the first of two texts belongs to one in it alone. -/
theorem inMarker_append_left (h : ¬MeetInMarker left right) (hi : i < left.length) :
    InMarker (left ++ right) i ↔ InMarker left i := by
  rw [InMarker, InMarker, markerAt_append_left h hi,
    markerAt_append_left h (Nat.lt_of_le_of_lt (Nat.sub_le i 1) hi)]

/-- What belongs to a marker in the second of two texts belongs to one in it alone. -/
theorem inMarker_append_right (h : ¬MeetInMarker left right) :
    InMarker (left ++ right) (left.length + i) ↔ InMarker right i := by
  rcases i with _ | i
  -- At the very beginning of the second stretch a marker could only come from the first one.
  · have hbefore : ¬(0 < left.length ∧ MarkerAt (left ++ right) (left.length - 1)) := by
      rintro ⟨hpos, hmarker⟩
      rw [markerAt_append_left h (Nat.sub_one_lt_of_lt hpos)] at hmarker
      exact absurd hmarker.2 (by simp [Nat.sub_add_cancel hpos])
    rw [InMarker, InMarker, markerAt_append_right, Nat.add_zero]
    simp [hbefore]
  · have hpos : 0 < left.length + (i + 1) := by omega
    rw [InMarker, InMarker, markerAt_append_right, ← Nat.add_assoc, Nat.add_sub_cancel, markerAt_append_right,
      Nat.add_sub_cancel]
    simp

/-- Which characters are outside markers is known for each stretch, unless the stretches meet in a marker. -/
theorem outside_append (h : ¬MeetInMarker left right) :
    outside (left ++ right) = outside left ++ outside right := by
  have hleft : left.zipIdx.filter (fun place => ¬InMarker (left ++ right) place.2) =
      left.zipIdx.filter fun place => ¬InMarker left place.2 := by
    refine List.filter_congr fun place hplace => ?_
    have hi : place.2 < left.length := by simpa using List.snd_lt_of_mem_zipIdx hplace
    simp only [inMarker_append_left h hi]
  -- Places of the second stretch count from the end of the first one.
  have hright : (right.zipIdx left.length).filter (fun place => ¬InMarker (left ++ right) place.2) =
      (right.zipIdx.filter fun place => ¬InMarker right place.2).map
        fun place => (place.1, left.length + place.2) := by
    rw [List.zipIdx_eq_map_add, List.filter_map]
    simp only [Function.comp_def, inMarker_append_right h]
  rw [outside, List.zipIdx_append, List.filter_append, List.map_append, hleft, Nat.zero_add, hright, List.map_map]
  rfl

/-- A pass keeps the characters outside markers. -/
theorem strip_eq_outside (text : List Char) : strip text = outside text := by
  fun_induction strip text with
  | case1 => rfl
  | case2 cs ih =>
    -- A marker ends in a line feed, so it is no part of another one.
    have hmeet : ¬MeetInMarker marker cs := fun hmeet => absurd hmeet.1 (by decide)
    have hnone : outside marker = [] := by decide
    exact ih.trans (hnone ▸ outside_append hmeet).symm
  | case3 c cs hnot ih =>
    have hmeet : ¬MeetInMarker [c] cs := not_meetInMarker_of_forall hnot
    have hone : outside [c] = [c] := by simp [outside, InMarker, MarkerAt]
    calc
      c :: strip cs = outside [c] ++ outside cs := by rw [hone, ih, List.singleton_append]
      _ = outside (c :: cs) := (outside_append hmeet).symm

/-! ## Counted markers -/

/-- A marker is counted where its backslash is. -/
theorem count_cons (c : Char) (cs : List Char) :
    count (c :: cs) = count cs + if MeetInMarker [c] cs then 1 else 0 := by
  split
  · next hmeet =>
    obtain ⟨hslash, hline⟩ := hmeet
    obtain ⟨tail, rfl⟩ := List.head?_eq_some_iff.1 hline
    obtain rfl : c = '\\' := by simpa using hslash
    rfl
  · next hmeet =>
    rw [count, Nat.add_zero]
    -- Without a marker in front, the count goes on with the text behind the character.
    rintro tail rfl rfl
    exact hmeet ⟨rfl, rfl⟩

/-- As many markers are counted as there are places at which one begins. -/
theorem count_eq_countP (text : List Char) : count text = (List.range text.length).countP (MarkerAt text ·) := by
  induction text with
  | nil => rfl
  | cons c cs ih =>
    rw [count_cons, ih, List.length_cons, List.range_succ_eq_map, List.countP_cons, List.countP_map]
    simp only [markerAt_zero, decide_eq_true_eq]
    rfl

/-- Two stretches hold the markers of each, and one more if they meet in it. -/
theorem count_append (left right : List Char) :
    count (left ++ right) = count left + count right + if MeetInMarker left right then 1 else 0 := by
  induction left with
  | nil => simp [count, MeetInMarker]
  | cons c left ih =>
    rw [List.cons_append, count_cons, count_cons, ih]
    -- Only a last character looks beyond its stretch.
    rcases left with _ | ⟨d, left⟩
    · simp [count, MeetInMarker]
    · have hfirst : MeetInMarker [c] (d :: left ++ right) ↔ MeetInMarker [c] (d :: left) := Iff.rfl
      have hlast : MeetInMarker (c :: d :: left) right ↔ MeetInMarker (d :: left) right := by
        rw [MeetInMarker, MeetInMarker, List.getLast?_cons_cons]
      simp only [hfirst, hlast]
      omega

/-- Each marker is two bytes long. -/
theorem byteLength_eq_strip (text : List Char) :
    Text.byteLength text = Text.byteLength (strip text) + 2 * count text := by
  fun_induction strip text with
  | case1 => rfl
  | case2 cs ih =>
    -- Both characters of a marker take one byte.
    have hslash : '\\'.utf8Size = 1 := rfl
    have hline : '\n'.utf8Size = 1 := rfl
    rw [Text.byteLength_cons, Text.byteLength_cons, ih, hslash, hline, count]
    omega
  | case3 c cs hnot ih =>
    rw [Text.byteLength_cons, Text.byteLength_cons, ih, count_cons, if_neg (not_meetInMarker_of_forall hnot)]
    omega

/-- Each marker ends a line. -/
theorem count_lineFeed_eq_strip (text : List Char) :
    text.count '\n' = (strip text).count '\n' + count text := by
  fun_induction strip text with
  | case1 => rfl
  | case2 cs ih =>
    rw [List.count_cons_of_ne (by decide), List.count_cons_self, ih, count]
    omega
  | case3 c cs hnot ih =>
    rw [List.count_cons, List.count_cons, ih, count_cons, if_neg (not_meetInMarker_of_forall hnot)]
    omega

/-- Only a text without markers is left as it is. -/
theorem strip_eq_self_iff : strip text = text ↔ count text = 0 := by
  refine ⟨fun h => ?_, strip_eq_self_of_count⟩
  have hbytes := byteLength_eq_strip text
  rw [h] at hbytes
  omega

/-- The size of a text is that of its characters. -/
theorem utf8ByteSize_ofList (cs : List Char) : (String.ofList cs).utf8ByteSize = Text.byteLength cs := by
  rw [String.utf8ByteSize_ofList]
  induction cs with
  | nil => rfl
  | cons c cs ih => rw [String.utf8Len_cons, ih, Text.byteLength_cons, Nat.add_comm]

/-- Joining lines keeps the characters outside markers, in order, and nothing else. As many markers are counted as
there are backslashes directly before a line feed. Each one counted shortens the text by two bytes and by one line
feed, and only a text without them is left as it is. -/
theorem join_removes (text : String) :
    (join text).toList = outside text.toList ∧
    count text.toList = (List.range text.toList.length).countP (MarkerAt text.toList ·) ∧
    text.utf8ByteSize = (join text).utf8ByteSize + 2 * count text.toList ∧
    text.toList.count '\n' = (join text).toList.count '\n' + count text.toList ∧
    (joined? text = none ↔ count text.toList = 0) ∧ (join text = text ↔ count text.toList = 0) := by
  refine ⟨?_, count_eq_countP _, ?_, ?_, ?_, ?_⟩
  · rw [toList_join, strip_eq_outside]
  · rw [join_eq, utf8ByteSize_ofList, ← byteLength_eq_strip, ← utf8ByteSize_ofList, String.ofList_toList]
  · rw [toList_join]
    exact count_lineFeed_eq_strip _
  · simp [joined?]
  · rw [← String.toList_inj, toList_join, strip_eq_self_iff]

/-! ## Stretches that meet in a marker -/

/-- The marker in which two stretches meet is removed, and each stretch for itself keeps its half of it. -/
theorem exists_of_meetInMarker (h : MeetInMarker left right) :
    ∃ front behind, strip left = front ++ ['\\'] ∧ strip right = '\n' :: behind ∧
      strip (left ++ right) = front ++ behind := by
  obtain ⟨hslash, hline⟩ := h
  obtain ⟨front, rfl⟩ := List.getLast?_eq_some_iff.1 hslash
  obtain ⟨behind, rfl⟩ := List.head?_eq_some_iff.1 hline
  -- What stands in front of the backslash is passed alike, whether a line feed follows the backslash or not.
  have hkept : ∀ cs, ¬MeetInMarker front ('\\' :: cs) := fun cs hmeet => absurd hmeet.2 (by simp)
  have hhalf : strip ['\\'] = ['\\'] := rfl
  refine ⟨strip front, strip behind, ?_, strip_cons fun hmeet => absurd hmeet.1 (by decide), ?_⟩
  · rw [strip_append (hkept []), hhalf]
  · rw [List.append_assoc, List.singleton_append, strip_append (hkept _)]
    rfl

/-- A pass over two stretches of text is a pass over each if and only if they do not meet in a marker. -/
theorem strip_append_iff : strip (left ++ right) = strip left ++ strip right ↔ ¬MeetInMarker left right := by
  refine ⟨fun h hmeet => ?_, strip_append⟩
  obtain ⟨front, behind, hleft, hright, hjoined⟩ := exists_of_meetInMarker hmeet
  -- The halves of the marker make the difference.
  have hlength := congrArg List.length (hjoined.symm.trans h)
  simp [hleft, hright] at hlength
  omega

/-- The lines of two texts can be joined before the texts are if and only if the texts do not meet in a marker,
which then is one more than the two texts hold: the last character of the one and the first of the other are the
halves of it, and they are removed only when the texts are joined first. -/
theorem join_append (left right : String) :
    (join (left ++ right) = join left ++ join right ↔ ¬MeetInMarker left.toList right.toList) ∧
    count (left ++ right).toList = count left.toList + count right.toList +
      (if MeetInMarker left.toList right.toList then 1 else 0) ∧
    (MeetInMarker left.toList right.toList → ∃ front behind, join left = front ++ "\\" ∧
      join right = "\n" ++ behind ∧ join (left ++ right) = front ++ behind) := by
  refine ⟨?_, ?_, fun hmeet => ?_⟩
  · rw [← String.toList_inj, String.toList_append, toList_join, toList_join, toList_join, String.toList_append,
      strip_append_iff]
  · rw [String.toList_append, count_append]
  · obtain ⟨front, behind, hleft, hright, hjoined⟩ := exists_of_meetInMarker hmeet
    refine ⟨String.ofList front, String.ofList behind, ?_, ?_, ?_⟩ <;>
      simp [← String.toList_inj, *]

end DotLang.Continuation
