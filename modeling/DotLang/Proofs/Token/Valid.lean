import DotLang.Proofs.Text.Html
import DotLang.Proofs.Text.Quoted
import DotLang.Proofs.Token.Lex
import DotLang.Text.Lexeme

/-!
# Tokens that a text can have

A token of a text has a form that can be said without the lexer (`Token.Valid`), and it ends in front of what
follows it (`endsBefore_of_taken`). Conversely a token of that form is taken from the text that is written
for it, if it ends there (`take?_of_endsBefore`).
-/

namespace DotLang.Token

/-- Whether a token has a form that a text can give it. -/
def Valid : Token → Prop
  | word text => Text.IsWord text
  | numeral text => Text.IsNumeral text
  | quoted content => ∃ value, Text.IsQuotable value ∧ content = Text.Quoted.escape value
  | html content => Text.IsBalanced content
  | operator _ => True
  | mark c => c ∈ marks

/-- Whether a token has no delimiter of its own at its end. -/
def isBare : Token → Bool
  | word _ | numeral _ => true
  | _ => false

variable {cs rest : List Char} {token : Token}

/-- Each keyword is a valid word. -/
theorem valid_keyword {keyword : List Char} (h : keyword ∈ Keyword.all) : (word keyword).Valid := by
  revert h keyword
  simp only [Keyword.all, List.forall_mem_cons]
  refine ⟨?_, ?_, ?_, ?_, ?_, ?_, by simp⟩ <;>
    exact isWord_of_all (by decide) (by decide) (by decide)

/-! ## Tokens of a text are valid -/

/-- What is taken is valid, unless it begins with a byte order mark. -/
theorem valid_of_taken (h : token.Taken cs rest) (hcs : cs.head? ≠ some '\uFEFF') : token.Valid := by
  cases token with
  | word text =>
    obtain ⟨⟨c, hc, hstart⟩, rfl, -⟩ := h
    obtain ⟨tail, rfl⟩ := List.head?_eq_some_iff.1 hc
    -- The byte order mark may stand in a word, but not first in a valid one.
    refine ⟨c, tail.takeWhile Text.isWordChar, ?_, hstart, by simpa using hcs,
      List.all_eq_true.1 List.all_takeWhile⟩
    rw [List.takeWhile_cons, if_pos (isWordChar_of_isWordStart hstart)]
  | numeral text => exact (takeNumeral_spec h).2
  | quoted content =>
    obtain ⟨tail, -, htail⟩ := h
    obtain ⟨value, hvalue, rfl⟩ := Text.Quoted.paired_of_takeQuoted htail
    exact ⟨value, hvalue.isQuotable, rfl⟩
  | html content =>
    obtain ⟨tail, -, htail⟩ := h
    exact Text.isBalanced_iff.2 (Text.balancedFrom_of_takeHtml htail)
  | operator kind => trivial
  | mark c => exact h.1

/-- A byte order mark in front of a token is dropped with the layout. -/
theorem head?_of_dropLayout (h : dropLayout cs = some rest) : rest.head? ≠ some '\uFEFF' := by
  -- Else it would be dropped from what is left, which layout leaves as it is.
  have hidem := dropLayout_idem h
  intro hhead
  obtain ⟨tail, rfl⟩ := List.head?_eq_some_iff.1 hhead
  have hdrop : dropLayout ('\uFEFF' :: tail) = dropLayout tail := rfl
  rw [hdrop] at hidem
  have hlength := (dropLayout_suffix hidem).length_le
  rw [List.length_cons] at hlength
  omega

/-! ## Where tokens end -/

/-- Whether a token ends in front of a text, which does not go on with it. A numeral that has a point
already goes on with digits only. -/
def EndsBefore (rest : List Char) : Token → Prop
  | word _ => ∀ c ∈ rest.head?, Text.isWordChar c = false
  | numeral text => ∀ c ∈ rest.head?, c.isDigit = false ∧ (c = '.' → '.' ∈ text)
  | _ => True

/-- Whether a text does not go on with a token in front of it, nor with any other that has the same class. -/
def Stops (token : Token) (rest : List Char) : Prop :=
  token.isBare = true → ∀ c ∈ rest.head?, Text.isWordChar c = false ∧ c ≠ '.'

/-- A token ends in front of what stops it. -/
theorem Stops.endsBefore (h : token.Stops rest) : token.EndsBefore rest := by
  cases token with
  | word text => exact fun c hc => (h rfl c hc).1
  | numeral text =>
    -- No digit follows, since digits continue words as well.
    refine fun c hc => ⟨?_, fun hpoint => absurd hpoint (h rfl c hc).2⟩
    have hword := (h rfl c hc).1
    rw [Text.isWordChar, Bool.or_eq_false_iff] at hword
    exact hword.2
  | _ => trivial

/-- Only the first character behind a token tells whether it ends. -/
theorem EndsBefore.congr {rest' : List Char} (h : token.EndsBefore rest) (hhead : rest'.head? = rest.head?) :
    token.EndsBefore rest' := by
  cases token with
  | word text | numeral text => rwa [EndsBefore, hhead]
  | _ => trivial

/-- Where characters of a sort have been dropped, none of them is next. -/
theorem head?_dropWhile {p : Char → Bool} {c : Char} (hc : c ∈ (cs.dropWhile p).head?) : p c = false := by
  have hhead := List.head?_dropWhile_not p cs
  rw [Option.mem_def.1 hc] at hhead
  exact hhead

/-- A numeral ends where no digit follows, and no point unless it has one already. -/
theorem head?_of_takeUnsigned {text : List Char} (h : takeUnsigned cs = some (text, rest)) :
    ∀ c ∈ rest.head?, c.isDigit = false ∧ (c = '.' → '.' ∈ text) := by
  by_cases hdigits : cs.takeWhile Char.isDigit = []
  · -- The numeral begins with its point.
    obtain ⟨c, tail, rfl, hc⟩ := head_of_takeUnsigned h
    obtain rfl : c = '.' := hc.resolve_right fun hc => by simp [hc] at hdigits
    rw [takeUnsigned_point] at h
    split at h
    next => cases h
    next =>
      cases h
      exact fun c hc => ⟨head?_dropWhile hc, fun _ => by simp⟩
  -- Behind the digits there is a point, which then belongs to the numeral, or there is none.
  · by_cases htail : ∃ tail, cs.dropWhile Char.isDigit = '.' :: tail
    · obtain ⟨tail, htail⟩ := htail
      rw [takeUnsigned_digits_point hdigits htail] at h
      cases h
      exact fun c hc => ⟨head?_dropWhile hc, fun _ => by simp⟩
    · rw [takeUnsigned_digits hdigits fun tail h => htail ⟨tail, h⟩] at h
      cases h
      refine fun c hc => ⟨head?_dropWhile hc, ?_⟩
      rintro rfl
      exact absurd (List.head?_eq_some_iff.1 hc) htail

/-- A token that is taken ends in front of what is left. -/
theorem endsBefore_of_taken (h : token.Taken cs rest) : token.EndsBefore rest := by
  cases token with
  | word text =>
    obtain ⟨-, -, rfl⟩ := h
    exact fun c hc => head?_dropWhile hc
  | numeral text =>
    -- No digit follows a numeral, and a point only where it has one already.
    have htake : takeNumeral cs = some (text, rest) := h
    rw [takeNumeral.eq_def] at htake
    split at htake
    next tail =>
      simp only [Option.map_eq_some_iff, Prod.exists, Prod.mk.injEq] at htake
      obtain ⟨digits, rest, htake, rfl, rfl⟩ := htake
      have hhead := head?_of_takeUnsigned htake
      exact fun c hc => ⟨(hhead c hc).1, fun hpoint => List.mem_cons_of_mem _ ((hhead c hc).2 hpoint)⟩
    next => exact head?_of_takeUnsigned htake
  | _ => trivial

/-! ## Valid tokens are taken -/

/-- Characters of a sort are taken up to one that is not of the sort. -/
theorem takeWhile_of_all {p : Char → Bool} (hcs : ∀ c ∈ cs, p c = true)
    (hrest : ∀ c ∈ rest.head?, p c = false) :
    (cs ++ rest).takeWhile p = cs ∧ (cs ++ rest).dropWhile p = rest := by
  have hend : rest.takeWhile p = [] ∧ rest.dropWhile p = rest := by
    rcases rest with _ | ⟨c, rest⟩
    · exact ⟨rfl, rfl⟩
    · simp [hrest c rfl]
  rw [List.takeWhile_append_of_pos hcs, List.dropWhile_append_of_pos hcs, hend.1, hend.2, List.append_nil]
  exact ⟨rfl, rfl⟩

/-- A numeral without a sign is taken, where nothing could go on with it. -/
theorem takeUnsigned_of_isUnsigned {text : List Char} (h : Text.IsUnsigned text)
    (hrest : ∀ c ∈ rest.head?, c.isDigit = false ∧ (c = '.' → '.' ∈ text)) :
    takeUnsigned (text ++ rest) = some (text, rest) := by
  have hend : ∀ c ∈ rest.head?, c.isDigit = false := fun c hc => (hrest c hc).1
  have hpoint : ∀ (tail : List Char), ∀ c ∈ ('.' :: tail).head?, c.isDigit = false := by
    rintro tail c ⟨⟩
    rfl
  cases h with
  | @fraction digits hdigits hne =>
    obtain ⟨htake, hdrop⟩ := takeWhile_of_all hdigits hend
    rw [List.cons_append, takeUnsigned_point, htake, hdrop, if_neg hne]
  | whole hdigits hne =>
    obtain ⟨htake, hdrop⟩ := takeWhile_of_all hdigits hend
    rw [takeUnsigned_digits (by rwa [htake]), htake, hdrop]
    -- What follows is no point, since there is none among the digits.
    intro tail htail
    rw [hdrop] at htail
    exact absurd (hdigits '.' ((hrest '.' (by simp [htail])).2 rfl)) (by decide)
  | @both digits fraction hdigits hne hfraction =>
    obtain ⟨htake, hdrop⟩ := takeWhile_of_all hdigits (hpoint (fraction ++ rest))
    obtain ⟨htake', hdrop'⟩ := takeWhile_of_all hfraction hend
    rw [List.append_assoc, List.cons_append, takeUnsigned_digits_point (by rwa [htake]) hdrop, htake,
      htake', hdrop']

/-- A numeral is taken, where nothing could go on with it. -/
theorem takeNumeral_of_isNumeral {text : List Char} (h : Text.IsNumeral text)
    (hrest : ∀ c ∈ rest.head?, c.isDigit = false ∧ (c = '.' → '.' ∈ text)) :
    takeNumeral (text ++ rest) = some (text, rest) := by
  cases h with
  | plain h =>
    have htake := takeUnsigned_of_isUnsigned h hrest
    obtain ⟨c, tail, heq, hc⟩ := head_of_takeUnsigned htake
    rw [heq] at htake ⊢
    rw [takeNumeral_of_ne_minus, htake]
    rintro _ hminus
    obtain ⟨rfl, -⟩ := List.cons.inj hminus
    rcases hc with hc | hc <;> cases hc
  | negative h =>
    -- The sign is no point.
    have hrest : ∀ c ∈ rest.head?, c.isDigit = false ∧ (c = '.' → '.' ∈ _) := fun c hc =>
      ⟨(hrest c hc).1, fun hpoint => by simpa using (hrest c hc).2 hpoint⟩
    rw [List.cons_append, takeNumeral, takeUnsigned_of_isUnsigned h hrest]
    rfl

/-- A valid token that ends in front of a text is taken from what is written for it there. -/
theorem take?_of_endsBefore (h : token.Valid) (hend : token.EndsBefore rest) :
    take? (token.text ++ rest) = some (token, rest) := by
  rw [take?_eq_some_iff]
  cases token with
  | word text =>
    obtain ⟨c, cs, rfl, hstart, -, hcs⟩ := h
    -- The word is the whole run, as no letter follows.
    have hall : ∀ d ∈ c :: cs, Text.isWordChar d = true :=
      List.forall_mem_cons.2 ⟨isWordChar_of_isWordStart hstart, hcs⟩
    obtain ⟨htake, hdrop⟩ := takeWhile_of_all hall hend
    exact ⟨⟨c, rfl, hstart⟩, htake.symm, hdrop.symm⟩
  | numeral text => exact takeNumeral_of_isNumeral h hend
  | quoted content =>
    obtain ⟨value, hvalue, rfl⟩ := h
    refine ⟨Text.Quoted.escape value ++ '"' :: rest, by simp [text], ?_⟩
    exact Text.Quoted.takeQuoted_escape hvalue.paired rest
  | html content =>
    refine ⟨content ++ '>' :: rest, by simp [text], ?_⟩
    exact Text.takeHtml_of_balancedFrom (Text.isBalanced_iff.1 h)
  | operator kind => cases kind <;> rfl
  | mark c => exact ⟨h, rfl⟩

end DotLang.Token
