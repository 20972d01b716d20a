import DotLang.Proofs.Text.Continuation
import DotLang.Proofs.Text.Html
import DotLang.Proofs.Text.Quoted

/-!
# Joined lines in strings

The content of a string remains content of a string when its continued lines are joined. Brackets are no
part of a marker, so for HTML strings there is nothing to it. In a quoted string a marker could take the
second backslash of a pair, and the first one would then go with what follows; unless this happens, what is
left is read in the same pieces as before (`Paired.strip`), and it does not matter whether lines are joined
before the content is read or afterwards (`Quoted.unescape_strip`).
-/

namespace DotLang

namespace Continuation

variable {left right cs : List Char}

/-- Whether a marker begins at a place of a text. -/
def MarkerAt (text : List Char) (i : Nat) : Prop :=
  text[i]? = some '\\' ∧ text[i + 1]? = some '\n'

instance (text : List Char) (i : Nat) : Decidable (MarkerAt text i) :=
  inferInstanceAs (Decidable (_ ∧ _))

/-- A marker begins within the text. -/
theorem MarkerAt.lt {text : List Char} {i : Nat} (h : MarkerAt text i) : i < text.length :=
  (List.getElem?_eq_some_iff.1 h.1).1

/-- A marker is at the start if the first character meets the rest in one. -/
theorem markerAt_zero {c : Char} : MarkerAt (c :: cs) 0 ↔ MeetInMarker [c] cs := by
  rw [MarkerAt, MeetInMarker, List.head?_eq_getElem?]
  rfl

/-- A stretch of text in which no marker begins is kept. -/
theorem strip_append_of_not_markerAt (h : ∀ i < left.length, ¬MarkerAt (left ++ right) i) :
    strip (left ++ right) = left ++ strip right := by
  induction left with
  | nil => rfl
  | cons c left ih =>
    have hkept : ¬MeetInMarker [c] (left ++ right) := fun hmeet =>
      h 0 (Nat.zero_lt_succ _) (markerAt_zero.2 hmeet)
    -- A marker further on in the tail is one of the whole text.
    have hrest : ∀ i < left.length, ¬MarkerAt (left ++ right) i := fun i hi hmarker =>
      h (i + 1) (Nat.succ_lt_succ hi) (by simpa [MarkerAt] using hmarker)
    rw [List.cons_append, strip_cons hkept, ih hrest, List.cons_append]

/-- A text that begins with no backslash keeps its first character. -/
theorem head?_strip (h : cs.head? ≠ some '\\') : (strip cs).head? = cs.head? := by
  rcases cs with _ | ⟨c, cs⟩
  · rfl
  · have hkept : ¬MeetInMarker [c] cs := fun hmeet => h hmeet.1
    rw [strip_cons hkept, List.head?_cons, List.head?_cons]

end Continuation

open Continuation

namespace Text

namespace Quoted

/-- The pieces in which the content of a quoted string is read: pairs of backslashes, backslashes with the
quotes behind them, and single characters. -/
def pieces : List Char → List (List Char)
  | [] => []
  | '\\' :: '\\' :: cs => ['\\', '\\'] :: pieces cs
  | '\\' :: '"' :: cs => ['\\', '"'] :: pieces cs
  | c :: cs => [c] :: pieces cs

/-- A character that begins no pair with a backslash is read alone. -/
theorem pieces_cons {c : Char} {cs : List Char} (hslash : ∀ tail, c = '\\' → cs ≠ '\\' :: tail)
    (hquote : ∀ tail, c = '\\' → cs ≠ '"' :: tail) : pieces (c :: cs) = [c] :: pieces cs := by
  rw [pieces] <;> assumption

/-- Whether a pair of backslashes stands directly before a line feed in the content of a quoted string. -/
def PairContinued (content : List Char) : Prop :=
  [['\\', '\\'], ['\n']] <:+: pieces content

instance (content : List Char) : Decidable (PairContinued content) :=
  inferInstanceAs (Decidable ([['\\', '\\'], ['\n']] <:+: pieces content))

variable {c : Char} {cs content : List Char}

/-- A character other than a backslash is read alone. -/
theorem pieces_cons_of_ne (hc : c ≠ '\\') (cs : List Char) : pieces (c :: cs) = [c] :: pieces cs :=
  pieces_cons (fun _ h => absurd h hc) (fun _ h => absurd h hc)

/-- A backslash before any character but a backslash and a quote is read alone, and so is that character. -/
theorem pieces_slash (hslash : c ≠ '\\') (hquote : c ≠ '"') (cs : List Char) :
    pieces ('\\' :: c :: cs) = ['\\'] :: [c] :: pieces cs := by
  rw [pieces_cons (by simp [hslash]) (by simp [hquote]), pieces_cons_of_ne hslash]

/-- A continued pair in the last pieces is one in all of them. -/
theorem PairContinued.of_suffix (h : PairContinued content) (hsuffix : pieces content <:+ pieces cs) :
    PairContinued cs :=
  h.trans hsuffix.isInfix

/-- Lines are joined in written content as in the content itself: what is written for a character begins
with a line feed only for a line feed, and ends with a backslash only for a backslash. -/
theorem strip_escape (value : List Char) : strip (escape value) = escape (strip value) := by
  fun_induction strip value with
  | case1 => rfl
  | case2 cs ih => rw [escape_cons_of_ne (by decide), escape_cons_of_ne (by decide), strip, ih]
  | case3 c cs hnot ih =>
    by_cases hquote : c = '"'
    · subst hquote
      rw [escape, if_pos rfl, escape, if_pos rfl, strip_cons (by simp [MeetInMarker]),
        strip_cons (by simp [MeetInMarker]), ih]
    -- Escaping puts a backslash before quotes only, so it makes no marker.
    · have hkept : ¬MeetInMarker [c] (escape cs) := by
        rintro ⟨hslash, hline⟩
        obtain ⟨more, hmore⟩ := List.head?_eq_some_iff.1 hline
        obtain ⟨tail, rfl⟩ := eq_cons_of_escape (by decide) hmore.symm
        exact hnot tail (by simpa using hslash) rfl
      rw [escape_cons_of_ne hquote, escape_cons_of_ne hquote, strip_cons hkept, ih]

end Quoted

/-- Where no pair of backslashes is continued, joining lines leaves the other pieces as they are. -/
theorem Paired.strip {value : List Char} (h : Paired value)
    (hpairs : ¬Quoted.PairContinued (Quoted.escape value)) : Paired (strip value) := by
  induction h with
  | nil => exact .nil
  | @pair c cs hc _ ih =>
    rw [Quoted.escape_cons_of_ne (by decide), Quoted.escape_cons_of_ne hc] at hpairs
    by_cases hslash : c = '\\'
    · -- A pair of backslashes is no start of a marker, nor is its second one.
      subst hslash
      have hkept : ¬MeetInMarker ['\\'] cs := by
        rintro ⟨-, hline⟩
        obtain ⟨more, rfl⟩ := List.head?_eq_some_iff.1 hline
        rw [Quoted.escape_cons_of_ne (by decide)] at hpairs
        exact hpairs ⟨[], Quoted.pieces (Quoted.escape more), rfl⟩
      rw [strip_cons (by simp [MeetInMarker]), strip_cons hkept]
      exact .pair (by decide) (ih fun h => hpairs (h.of_suffix (List.suffix_cons _ _)))
    · have hrest : Paired (Continuation.strip cs) := by
        refine ih fun h => hpairs (h.of_suffix ?_)
        rw [Quoted.pieces_slash hslash hc]
        exact (List.suffix_cons _ _).trans (List.suffix_cons _ _)
      by_cases hline : c = '\n'
      · subst hline
        rwa [Continuation.strip]
      -- Neither of the two characters begins a marker.
      · rw [strip_cons (by simp [MeetInMarker, hline]), strip_cons (by simp [MeetInMarker, hslash])]
        exact .pair hc hrest
  | @single c cs hc _ ih =>
    rw [strip_cons (by simp [MeetInMarker, hc])]
    refine .single hc (ih fun h => hpairs (h.of_suffix ?_))
    by_cases hquote : c = '"'
    · subst hquote
      exact List.suffix_cons ['\\', '"'] _
    · rw [Quoted.escape_cons_of_ne hquote, Quoted.pieces_cons_of_ne hc]
      exact List.suffix_cons _ _

/-- Where no pair of backslashes is continued, lines can be joined before or after content is read. -/
theorem Quoted.unescape_strip {value : List Char} (h : Paired value)
    (hpairs : ¬PairContinued (escape value)) :
    unescape (strip (escape value)) = strip (unescape (escape value)) := by
  rw [strip_escape, unescape_escape (h.strip hpairs), unescape_escape h]

/-- Joining lines leaves all brackets as they are. -/
theorem BalancedFrom.strip {depth : Nat} {content : List Char} (h : BalancedFrom depth content) :
    BalancedFrom depth (strip content) := by
  fun_induction Continuation.strip content generalizing depth with
  | case1 => exact h
  | case2 cs ih =>
    -- Neither character of a marker is a bracket.
    rw [balancedFrom_of_ne (by decide), balancedFrom_of_ne (by decide)] at h
    exact ih h
  | case3 c cs _ ih =>
    by_cases hopen : c = '<'
    · subst hopen
      exact balancedFrom_open.2 (ih (balancedFrom_open.1 h))
    · by_cases hclose : c = '>'
      · subst hclose
        rcases depth with _ | depth
        · exact absurd h not_balancedFrom_close
        · exact balancedFrom_close.2 (ih (balancedFrom_close.1 h))
      · exact (balancedFrom_of_ne ⟨hopen, hclose⟩).2 (ih ((balancedFrom_of_ne ⟨hopen, hclose⟩).1 h))

end Text

end DotLang
