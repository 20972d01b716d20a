import DotLang.Proofs.Text.Removal
import DotLang.Proofs.Text.Stranded
import DotLang.Slot.Session

/-!
# Lines joined again

A pass leaves a text in which a second pass may find a marker again: where markers stood between a backslash and
a line feed, these two meet once the markers are gone. There is no other way for a marker to appear
(`marker_infix_strip_iff`), so these are the texts that a parser is handed differently when preprocessing is put in
front of it twice (`join_join`).
-/

namespace DotLang.Continuation

variable {text : List Char}

/-- Whether a pass over a text makes a new marker: a backslash and a line feed have markers between them, at least
one, and nothing else. -/
def Exposes (text : List Char) : Prop :=
  ∃ n, '\\' :: (markers (n + 1) ++ ['\n']) <:+: text

/-- A text has a marker if and only if one is counted. -/
theorem marker_infix_iff : marker <:+: text ↔ count text ≠ 0 := by
  constructor
  · rintro ⟨left, right, rfl⟩
    rw [List.append_assoc, count_append]
    simp only [marker, List.cons_append, List.nil_append, count]
    omega
  · intro hcount
    by_contra hnone
    exact hcount (strip_eq_self_iff.1 (strip_eq_self hnone))

/-- A joined text has a marker if and only if the pass has made one. -/
theorem marker_infix_strip_iff : marker <:+: strip text ↔ Exposes text := by
  constructor
  · rintro ⟨front, behind, h⟩
    have hslash : strip text = front ++ '\\' :: '\n' :: behind := by simp [← h, marker]
    -- The text is cut in front of the kept backslash: what follows it came down to a line feed.
    obtain ⟨left, right, rfl, -, hright, hmeet⟩ := exists_of_strip_eq_append hslash
    obtain ⟨n, rest, rfl, rfl | ⟨hn, cs, rfl⟩⟩ := stranded_of_beginsBelow (.inr ⟨behind, hright⟩) hmeet
    · rw [strip_markers_append] at hright
      cases hright
    · obtain ⟨n, rfl⟩ := Nat.exists_eq_succ_of_ne_zero hn
      exact ⟨n, left, cs, by simp⟩
  · rintro ⟨n, left, right, rfl⟩
    have hstranded : Stranded (markers (n + 1) ++ '\n' :: right) :=
      ⟨n + 1, _, rfl, .inr ⟨Nat.succ_ne_zero n, right, rfl⟩⟩
    have hcut : ¬MeetInMarker left ('\\' :: (markers (n + 1) ++ '\n' :: right)) := fun hmeet =>
      absurd hmeet.2 (by simp)
    have hstrip : strip (left ++ '\\' :: (markers (n + 1) ++ '\n' :: right)) =
        strip left ++ '\\' :: '\n' :: strip right := by
      rw [strip_append hcut, strip_cons hstranded.not_meetInMarker, strip_markers_append, strip_lineFeed_cons]
    exact ⟨strip left, strip right, by simpa [marker] using hstrip.symm⟩

/-- A second pass finds nothing to remove if and only if the first one has made no marker. -/
theorem strip_strip_eq_iff : strip (strip text) = strip text ↔ ¬Exposes text := by
  rw [strip_eq_self_iff, ← marker_infix_strip_iff, marker_infix_iff, not_not]

/-- A pass makes a marker only where a backslash stands directly before one. -/
theorem Exposes.slash_marker_infix (h : Exposes text) : '\\' :: marker <:+: text := by
  obtain ⟨n, left, right, rfl⟩ := h
  exact ⟨left, markers n ++ '\n' :: right, by simp [markers_succ]⟩

/-- Joining the lines of a text once more changes nothing if and only if the first pass makes no marker, and it
makes none where no backslash stands directly before a marker. A parser is handed the text joined once behind one
wrapper or on a slot with preprocessing, and joined twice behind another wrapper around either: so these hand it
different texts if and only if the first pass makes a marker. -/
theorem join_join (text : String) :
    (join (join text) = join text ↔ ¬Exposes text.toList) ∧
    (¬('\\' :: marker <:+: text.toList) → join (join text) = join text) ∧
    ∀ {ε α : Type} (parser : Parser ε α),
      parser.preprocessed.parse text = parser (join text) ∧
      (Slot.ofParser parser).install.2.parse text = parser (join text) ∧
      parser.preprocessed.parse.preprocessed.parse text = parser (join (join text)) ∧
      (Slot.ofParser parser).install.2.toParser.preprocessed.parse text = parser (join (join text)) := by
  have hsame : join (join text) = join text ↔ ¬Exposes text.toList := by
    rw [← String.toList_inj, toList_join, toList_join, strip_strip_eq_iff]
  refine ⟨hsame, fun h => hsame.2 fun hexposes => h hexposes.slash_marker_infix, fun parser => ?_⟩
  exact ⟨rfl, rfl, rfl, rfl⟩

example : Exposes ['x', '\\', '\\', '\n', '\n', 'y'] := ⟨0, ['x'], ['y'], rfl⟩

end DotLang.Continuation
