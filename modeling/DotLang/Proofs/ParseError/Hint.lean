import DotLang.ParseError.Failure
import DotLang.Proofs.Text.Region
import Mathlib.Data.List.TakeWhile

/-!
# The hint for an open quote

The advice to close a quoted string looks at one line and knows of quoted strings only. On a line without
comments and HTML strings it finds the same strings as the regions do (`regionsFrom_openAfter`), and so a line
that calls for this advice leaves a string open (`endsQuoted_of_ofLine`).
-/

namespace DotLang.Hint

open Text

/-- Whether regions are those of quoted strings and of what is in no region. -/
def AreStrings (regions : List Region) : Prop :=
  ∀ region ∈ regions, region = .outside ∨ region = .quoted

instance (regions : List Region) : Decidable (AreStrings regions) :=
  inferInstanceAs (Decidable (∀ region ∈ regions, region = .outside ∨ region = .quoted))

/-- Where the reading of a text stands within a quoted string, or else outside. -/
def quoteState (isOpen : Bool) : RegionState :=
  if isOpen then .quoted else .outside

variable {state state' : RegionState} {marks : List Region} {cs rest : List Char}

/-- Where only strings are found, only strings are found in what is left. -/
theorem AreStrings.behind (h : AreStrings (regionsFrom state cs).1)
    (hread : regionsFrom state cs = regionsFrom.note marks (regionsFrom state' rest)) :
    AreStrings (regionsFrom state' rest).1 := by
  intro region hregion
  rw [hread] at h
  exact h region (List.mem_append_right marks hregion)

/-- Where only strings are found, a character outside them begins a string or is passed over. -/
theorem regionsFrom_of_areStrings {c : Char} (h : AreStrings (regionsFrom .outside (c :: cs)).1) (hc : c ≠ '"') :
    regionsFrom .outside (c :: cs) = regionsFrom.note [.outside] (regionsFrom .outside cs) := by
  have hnot {region : Region} {more : List Region} {rest : List Region × RegionState}
      (hread : regionsFrom .outside (c :: cs) = regionsFrom.note (region :: more) rest) :
      region = .outside ∨ region = .quoted := by
    rw [hread] at h
    exact h region (List.mem_cons_self ..)
  -- Each of the other openings would put the character into a region of another sort.
  refine regionsFrom_outside_cons ?_ ?_ ?_ hc ?_
  · rintro tail rfl rfl
    simpa using hnot (rfl : _ = regionsFrom.note _ (regionsFrom .block tail))
  · rintro tail rfl rfl
    simpa using hnot (rfl : _ = regionsFrom.note _ (regionsFrom .line tail))
  · rintro rfl
    simpa using hnot (rfl : _ = regionsFrom.note _ (regionsFrom .line cs))
  · rintro rfl
    simpa using hnot (rfl : _ = regionsFrom.note _ (regionsFrom (.html 0) cs))

/-- Both readings find the same strings, as long as there is nothing else to find. -/
theorem regionsFrom_openAfter {isOpen : Bool} {line : List Char}
    (h : AreStrings (regionsFrom (quoteState isOpen) line).1) :
    (regionsFrom (quoteState isOpen) line).2 = quoteState (openAfter isOpen line) := by
  -- What is read first leads to another state, and the rest is read from there in both ways.
  have hstep {isOpen isOpen' : Bool} {marks : List Region} {line rest : List Char}
      (h : AreStrings (regionsFrom (quoteState isOpen) line).1)
      (ih : AreStrings (regionsFrom (quoteState isOpen') rest).1 →
        (regionsFrom (quoteState isOpen') rest).2 = quoteState (openAfter isOpen' rest))
      (hread : regionsFrom (quoteState isOpen) line =
        regionsFrom.note marks (regionsFrom (quoteState isOpen') rest)) :
      (regionsFrom (quoteState isOpen) line).2 = quoteState (openAfter isOpen' rest) := by
    rw [hread]
    exact ih (h.behind hread)
  fun_induction openAfter isOpen line with
  | case1 => rfl
  | case2 c cs ih =>
    obtain ⟨marks, -, hread⟩ := leads_slash c
    exact hstep h ih (hread cs)
  | case3 isOpen c cs hpair ih =>
    cases isOpen with
    | true =>
      by_cases hquote : c = '"'
      · subst hquote
        exact hstep h ih rfl
      · rw [if_neg hquote] at ih ⊢
        refine hstep h ih (regionsFrom_quoted_cons hquote ?_ ?_)
        · exact fun tail hc hcs => hpair _ tail rfl hc hcs
        · exact fun tail hc hcs => hpair _ tail rfl hc hcs
    | false =>
      by_cases hquote : c = '"'
      · subst hquote
        exact hstep h ih rfl
      · rw [if_neg hquote] at ih ⊢
        exact hstep h ih (regionsFrom_of_areStrings h hquote)

/-- Unless it ends in a backslash, a text can be scanned before what is behind it. -/
theorem openAfter_append {isOpen : Bool} {text : List Char} (h : text.getLast? ≠ some '\\') (behind : List Char) :
    openAfter isOpen (text ++ behind) = openAfter (openAfter isOpen text) behind := by
  fun_induction openAfter isOpen text with
  | case1 => rfl
  -- A backslash and the character behind it are skipped together.
  | case2 c cs ih =>
    rw [List.cons_append, List.cons_append, openAfter]
    exact ih fun hlast => h (by simp [List.getLast?_cons, hlast])
  | case3 isOpen c cs hpair ih =>
    rw [List.cons_append, openAfter_cons]
    · exact ih fun hlast => h (by simp [List.getLast?_cons, hlast])
    · -- A backslash at the end would be read with the character behind it.
      rintro d tail rfl rfl hcs
      cases cs with
      | nil => exact h rfl
      | cons d' cs => exact hpair d' cs rfl rfl rfl

/-- Only carriage returns are cut off. -/
theorem exists_returns (line : List Char) :
    ∃ returns, line = ParseError.trimReturns line ++ returns ∧ ∀ c ∈ returns, c = '\r' := by
  refine ⟨(line.reverse.takeWhile (· == '\r')).reverse, ?_, fun c hc => ?_⟩
  · rw [ParseError.trimReturns, ← List.reverse_append, List.takeWhile_append_dropWhile, List.reverse_reverse]
  · simpa using List.mem_takeWhile_imp (List.mem_reverse.1 hc)

/-- Carriage returns at the end of a line leave an open string open. -/
theorem openAfter_returns {returns : List Char} (h : ∀ c ∈ returns, c = '\r') : openAfter true returns = true := by
  induction returns with
  | nil => rfl
  | cons c returns ih =>
    rw [List.forall_mem_cons] at h
    obtain ⟨rfl, hreturns⟩ := h
    exact ih hreturns

/-- The advice to close a string is given only for a line that leaves one open. -/
theorem hasOpenQuote_of_ofLine {line : List Char} (h : ofLine line = some openQuote) :
    hasOpenQuote line = true := by
  obtain ⟨returns, hline, hreturns⟩ := exists_returns line
  unfold ofLine at h
  dsimp only at h
  split at h
  · split at h <;> cases h
  · next hlast =>
    split at h
    · next hopen =>
      -- The hint is about the line without the returns at its end, which hold no quote.
      rw [hline, hasOpenQuote, openAfter_append hlast, show openAfter false _ = true from hopen]
      exact openAfter_returns hreturns
    · cases h

/-- A line that calls for the advice to close a quoted string ends within one, if nothing but strings is found
on it. -/
theorem quoted_of_ofLine {line : List Char} (h : ofLine line = some openQuote)
    (hstrings : AreStrings (regions line)) : (regionsFrom .outside line).2 = .quoted := by
  have hopen : (regionsFrom .outside line).2 = quoteState (hasOpenQuote line) :=
    @regionsFrom_openAfter false line hstrings
  rw [hopen, hasOpenQuote_of_ofLine h]
  rfl

end DotLang.Hint
