import DotLang.Text.Lexeme
import DotLang.Token.Lexer

/-!
# The tokens of a text

The lexer drops layout and takes a token, again and again. Each token is written by a piece of the text
that is not empty (`take?_spec`), so the bound on the number of tokens is never reached, and the
tokens of a text are the first one and those of what follows it (`lex_eq`).
-/

namespace DotLang.Token

/-- What is written for a token. -/
def text : Token → List Char
  | word cs => cs
  | numeral cs => cs
  | quoted content => '"' :: (content ++ ['"'])
  | html content => '<' :: (content ++ ['>'])
  | operator .digraph => ['-', '>']
  | operator .graph => ['-', '-']
  | mark c => [c]

/-! ## Layout -/

/-- What layout leaves of a text: an end of it, with no layout at its start. -/
def Leaves (cs rest : List Char) : Prop :=
  rest <:+ cs ∧ dropLayout rest = some rest

/-- What is left of a text is left with one more character dropped in front. -/
theorem Leaves.cons {c : Char} {cs rest : List Char} (h : Leaves cs rest) : Leaves (c :: cs) rest :=
  ⟨h.1.trans (List.suffix_cons c cs), h.2⟩

/-- Of an empty text nothing is left. -/
theorem leaves_nil : Leaves [] [] :=
  ⟨List.suffix_refl _, rfl⟩

/-- Only the start of a text is dropped with its layout, and what is left has no layout at its start. -/
theorem leaves_of_dropLayout :
    (∀ cs rest, dropLayout cs = some rest → Leaves cs rest) ∧
    (∀ cs rest, dropLine cs = some rest → Leaves cs rest) ∧
    (∀ cs rest, dropBlock cs = some rest → Leaves cs rest) := by
  -- The three functions call each other, so the claim about them is one induction.
  apply dropLayout.mutual_induct
  case case1 =>
    rintro rest ⟨⟩
    exact leaves_nil
  case case2 => exact fun cs ih rest h => (ih rest h).cons.cons
  case case3 => exact fun cs ih rest h => (ih rest h).cons.cons
  case case4 => exact fun cs ih rest h => (ih rest h).cons
  case case5 =>
    intro c cs hblock hline hhash hblank ih rest h
    rw [dropLayout_cons hblock hline hhash, if_pos hblank] at h
    exact (ih rest h).cons
  case case6 =>
    -- Only here does layout end, at a character that begins none.
    intro c cs hblock hline hhash hblank rest h
    have heq := dropLayout_cons hblock hline hhash
    rw [if_neg hblank] at heq
    rw [heq, Option.some.injEq] at h
    exact h ▸ ⟨List.suffix_refl _, heq⟩
  case case7 =>
    rintro rest ⟨⟩
    exact leaves_nil
  case case8 =>
    intro c cs hend ih rest h
    rw [dropLine, if_pos hend] at h
    exact (ih rest h).cons
  case case9 =>
    intro c cs hend ih rest h
    rw [dropLine, if_neg hend] at h
    exact (ih rest h).cons
  case case10 => rintro rest ⟨⟩
  case case11 => exact fun cs ih rest h => (ih rest h).cons.cons
  case case12 =>
    intro c cs hclose ih rest h
    rw [dropBlock_cons hclose] at h
    exact (ih rest h).cons

/-- Layout is dropped from the front only. -/
theorem dropLayout_suffix {cs rest : List Char} (h : dropLayout cs = some rest) : rest <:+ cs :=
  (leaves_of_dropLayout.1 cs rest h).1

/-- Where layout has been dropped, there is none left. -/
theorem dropLayout_idem {cs rest : List Char} (h : dropLayout cs = some rest) :
    dropLayout rest = some rest :=
  (leaves_of_dropLayout.1 cs rest h).2

/-! ## Tokens -/

/-- A quoted string is its content and the quote behind it. -/
theorem takeQuoted_eq_append {cs content rest : List Char} (h : takeQuoted cs = some (content, rest)) :
    cs = content ++ '"' :: rest := by
  fun_induction takeQuoted cs generalizing content with
  | case1 => simp at h
  | case2 cs => simp_all
  | case3 cs ih | case4 cs ih | case5 c cs _ _ _ ih =>
    simp only [Option.map_eq_some_iff, Prod.exists, Prod.mk.injEq] at h
    obtain ⟨inner, rest, h, rfl, rfl⟩ := h
    rw [ih h]
    rfl

/-- An HTML string is its content and the bracket behind it. -/
theorem takeHtml_eq_append {depth : Nat} {cs content rest : List Char}
    (h : takeHtml depth cs = some (content, rest)) : cs = content ++ '>' :: rest := by
  fun_induction takeHtml depth cs generalizing content with
  | case1 => simp at h
  | case2 cs => simp_all
  | case3 depth cs ih | case4 depth cs ih | case5 depth c cs _ _ _ ih =>
    simp only [Option.map_eq_some_iff, Prod.exists, Prod.mk.injEq] at h
    obtain ⟨inner, rest, h, rfl, rfl⟩ := h
    rw [ih h]
    rfl

/-- A bracket that opens is one more to be closed. -/
theorem takeHtml_open (depth : Nat) (cs : List Char) :
    takeHtml depth ('<' :: cs) =
      (takeHtml (depth + 1) cs).map fun (content, rest) => ('<' :: content, rest) := by
  rcases depth with _ | depth <;> rfl

/-- A numeral that begins with a point. -/
theorem takeUnsigned_point (tail : List Char) :
    takeUnsigned ('.' :: tail) =
      if tail.takeWhile Char.isDigit = [] then none
      else some ('.' :: tail.takeWhile Char.isDigit, tail.dropWhile Char.isDigit) := by
  have hpoint : takeDigits ('.' :: tail) = ([], '.' :: tail) := rfl
  rw [takeUnsigned, hpoint]
  simp only [takeDigits]
  split
  next h => simp_all
  next h => simp_all

/-- A numeral that begins with a digit and has a point. -/
theorem takeUnsigned_digits_point {cs tail : List Char} (h : cs.takeWhile Char.isDigit ≠ [])
    (htail : cs.dropWhile Char.isDigit = '.' :: tail) :
    takeUnsigned cs = some (cs.takeWhile Char.isDigit ++ '.' :: tail.takeWhile Char.isDigit,
      tail.dropWhile Char.isDigit) := by
  obtain ⟨d, ds, hd⟩ := List.exists_cons_of_ne_nil h
  simp [takeUnsigned, takeDigits, hd, htail]

/-- A numeral that begins with a digit and has no point. -/
theorem takeUnsigned_digits {cs : List Char} (h : cs.takeWhile Char.isDigit ≠ [])
    (htail : ∀ tail, cs.dropWhile Char.isDigit ≠ '.' :: tail) :
    takeUnsigned cs = some (cs.takeWhile Char.isDigit, cs.dropWhile Char.isDigit) := by
  rw [takeUnsigned, takeDigits]
  split <;> simp_all

/-- What begins with neither a digit nor a point is no numeral. -/
theorem takeUnsigned_eq_none {cs : List Char} (h : cs.takeWhile Char.isDigit = [])
    (hpoint : ∀ tail, cs ≠ '.' :: tail) : takeUnsigned cs = none := by
  have hdrop : cs.dropWhile Char.isDigit = cs := by
    simpa [h] using List.takeWhile_append_dropWhile (p := Char.isDigit) (l := cs)
  rw [takeUnsigned, takeDigits, h, hdrop]
  split <;> simp_all

/-- Digits are taken as far as they go. -/
theorem areDigits_takeWhile (cs : List Char) : Text.AreDigits (cs.takeWhile Char.isDigit) :=
  List.all_eq_true.1 List.all_takeWhile

/-- What is taken as a numeral without a sign is one, at the start of the text. -/
theorem takeUnsigned_spec {cs text rest : List Char} (h : takeUnsigned cs = some (text, rest)) :
    cs = text ++ rest ∧ Text.IsUnsigned text := by
  by_cases hdigits : cs.takeWhile Char.isDigit = []
  · -- No digits come first, so it must be a point.
    rcases cs with _ | ⟨c, tail⟩
    · simp [takeUnsigned, takeDigits] at h
    · by_cases hc : c = '.'
      · subst hc
        rw [takeUnsigned_point] at h
        split at h
        next => simp at h
        next hfraction =>
          simp only [Option.some.injEq, Prod.mk.injEq] at h
          obtain ⟨rfl, rfl⟩ := h
          exact ⟨by simp, .fraction (areDigits_takeWhile tail) hfraction⟩
      · simp [takeUnsigned_eq_none hdigits (by simp [hc])] at h
  · -- Digits come first; it depends on what is behind them whether there is a point.
    have hcs := List.takeWhile_append_dropWhile (p := Char.isDigit) (l := cs)
    by_cases htail : ∃ tail, cs.dropWhile Char.isDigit = '.' :: tail
    · obtain ⟨tail, htail⟩ := htail
      rw [takeUnsigned_digits_point hdigits htail] at h
      simp only [Option.some.injEq, Prod.mk.injEq] at h
      obtain ⟨rfl, rfl⟩ := h
      rw [htail] at hcs
      exact ⟨by simp [hcs], .both (areDigits_takeWhile cs) hdigits (areDigits_takeWhile tail)⟩
    · rw [takeUnsigned_digits hdigits fun tail h => htail ⟨tail, h⟩] at h
      simp only [Option.some.injEq, Prod.mk.injEq] at h
      obtain ⟨rfl, rfl⟩ := h
      exact ⟨hcs.symm, .whole (areDigits_takeWhile cs) hdigits⟩

/-- What is taken as a numeral is one, at the start of the text. -/
theorem takeNumeral_spec {cs text rest : List Char} (h : takeNumeral cs = some (text, rest)) :
    cs = text ++ rest ∧ Text.IsNumeral text := by
  rw [takeNumeral.eq_def] at h
  split at h
  next tail =>
    simp only [Option.map_eq_some_iff, Prod.exists, Prod.mk.injEq] at h
    obtain ⟨digits, rest, h, rfl, rfl⟩ := h
    obtain ⟨rfl, hunsigned⟩ := takeUnsigned_spec h
    exact ⟨rfl, .negative hunsigned⟩
  next =>
    obtain ⟨rfl, hunsigned⟩ := takeUnsigned_spec h
    exact ⟨rfl, .plain hunsigned⟩

/-- A numeral without a sign is not empty. -/
theorem ne_nil_of_isUnsigned {text : List Char} (h : Text.IsUnsigned text) : text ≠ [] := by
  cases h with
  | fraction => simp
  | whole _ hne => exact hne
  | both => simp

/-- A numeral is not empty. -/
theorem ne_nil_of_isNumeral {text : List Char} (h : Text.IsNumeral text) : text ≠ [] := by
  cases h with
  | plain h => exact ne_nil_of_isUnsigned h
  | negative => simp

/-- How a token is taken: where it begins, and what is left behind it. -/
def Taken (cs rest : List Char) : Token → Prop
  | word text =>
    (∃ c ∈ cs.head?, Text.isWordStart c = true) ∧ text = cs.takeWhile Text.isWordChar ∧
      rest = cs.dropWhile Text.isWordChar
  | numeral text => takeNumeral cs = some (text, rest)
  | quoted content => ∃ tail, cs = '"' :: tail ∧ takeQuoted tail = some (content, rest)
  | html content => ∃ tail, cs = '<' :: tail ∧ takeHtml 0 tail = some (content, rest)
  | operator .digraph => cs = '-' :: '>' :: rest
  | operator .graph => cs = '-' :: '-' :: rest
  | mark c => c ∈ marks ∧ cs = c :: rest

/-- What a computation finds of every listed character holds of each of them. -/
theorem forall_mem_of_all {cs : List Char} {P : Char → Prop} [DecidablePred P]
    (h : cs.all (fun c => decide (P c)) = true) : ∀ c ∈ cs, P c := by
  simpa using h

/-- Characters of a word behind the start of one are a word, unless that is a byte order mark. -/
theorem isWord_of_all {c : Char} {cs : List Char} (hstart : Text.isWordStart c = true)
    (hmark : c ≠ '\uFEFF') (hcs : cs.all Text.isWordChar = true) : Text.IsWord (c :: cs) :=
  ⟨c, cs, rfl, hstart, hmark, List.all_eq_true.1 hcs⟩

/-- The ASCII digits. -/
def asciiDigits : List Char := ['0', '1', '2', '3', '4', '5', '6', '7', '8', '9']

/-- Each digit is one of ten. -/
theorem mem_asciiDigits {c : Char} (h : c.isDigit = true) : c ∈ asciiDigits := by
  simp only [Char.isDigit, Bool.and_eq_true, decide_eq_true_eq, ge_iff_le] at h
  obtain ⟨h0, h9⟩ := h
  have hlow : 48 ≤ c.toNat := by simpa using UInt32.le_iff_toNat_le.1 h0
  have hhigh : c.toNat ≤ 57 := by simpa using UInt32.le_iff_toNat_le.1 h9
  have hc : c = Char.ofNat c.toNat := by simp
  -- The class is given by a range of code points, which has ten members.
  have hn : c.toNat = 48 ∨ c.toNat = 49 ∨ c.toNat = 50 ∨ c.toNat = 51 ∨ c.toNat = 52 ∨
      c.toNat = 53 ∨ c.toNat = 54 ∨ c.toNat = 55 ∨ c.toNat = 56 ∨ c.toNat = 57 := by omega
  rcases hn with hn | hn | hn | hn | hn | hn | hn | hn | hn | hn <;> rw [hc, hn] <;> decide

/-- What begins a word can stand within one. -/
theorem isWordChar_of_isWordStart {c : Char} (h : Text.isWordStart c = true) :
    Text.isWordChar c = true := by
  simp [Text.isWordChar, h]

/-- What is taken as a token is one of its sort, as long as possible. -/
theorem taken_of_take? {cs rest : List Char} {token : Token} (h : take? cs = some (token, rest)) :
    token.Taken cs rest := by
  rw [take?.eq_def] at h
  split at h
  next => simp at h
  next cs =>
    simp only [Option.map_eq_some_iff, Prod.exists, Prod.mk.injEq] at h
    obtain ⟨content, rest, h, rfl, rfl⟩ := h
    exact ⟨cs, rfl, h⟩
  next cs =>
    simp only [Option.map_eq_some_iff, Prod.exists, Prod.mk.injEq] at h
    obtain ⟨content, rest, h, rfl, rfl⟩ := h
    exact ⟨cs, rfl, h⟩
  next => cases h; rfl
  next => cases h; rfl
  -- Nothing else begins here, so it is a mark, a word or a numeral.
  next c cs _ _ _ _ =>
    split at h
    next hmark => cases h; exact ⟨hmark, rfl⟩
    next =>
      split at h
      next hc =>
        cases h
        exact ⟨⟨c, rfl, hc⟩, by simp [isWordChar_of_isWordStart hc],
          by simp [isWordChar_of_isWordStart hc]⟩
      next =>
        simp only [Option.map_eq_some_iff, Prod.exists, Prod.mk.injEq] at h
        obtain ⟨digits, rest, h, rfl, rfl⟩ := h
        exact h

/-- A character that begins a word begins no other token. -/
theorem take?_of_isWordStart {c : Char} (hc : Text.isWordStart c = true) (cs : List Char) :
    take? (c :: cs) =
      some (word (c :: cs.takeWhile Text.isWordChar), cs.dropWhile Text.isWordChar) := by
  have hne : ∀ d : Char, Text.isWordStart d = false → c ≠ d := by
    rintro d hd rfl
    simp [hc] at hd
  -- No mark and no delimiter begins a word, so none of the earlier clauses fits.
  have hmarks : c ∉ marks := by
    intro h
    simp only [marks, List.mem_cons, List.not_mem_nil, or_false] at h
    rcases h with h | h | h | h | h | h | h | h | h <;> exact hne _ (by decide) h
  rw [take?_cons (hne _ (by decide)) (hne _ (by decide)) (fun _ h => absurd h (hne _ (by decide)))
    (fun _ h => absurd h (hne _ (by decide))), if_neg hmarks, if_pos hc]

/-- A mark is taken. -/
theorem take?_of_mem_marks {c : Char} (hc : c ∈ marks) (cs : List Char) :
    take? (c :: cs) = some (mark c, cs) := by
  simp only [marks, List.mem_cons, List.not_mem_nil, or_false] at hc
  rcases hc with rfl | rfl | rfl | rfl | rfl | rfl | rfl | rfl | rfl <;> rfl

/-- A numeral begins with a point or a digit, perhaps behind a minus sign. -/
theorem head_of_takeUnsigned {cs text rest : List Char} (h : takeUnsigned cs = some (text, rest)) :
    ∃ c tail, cs = c :: tail ∧ (c = '.' ∨ c.isDigit = true) := by
  rcases cs with _ | ⟨c, tail⟩
  · simp [takeUnsigned, takeDigits] at h
  · refine ⟨c, tail, rfl, ?_⟩
    by_cases hc : c.isDigit
    · exact .inr hc
    -- With neither a digit nor a point in front there is no numeral.
    · by_cases hp : c = '.'
      · exact .inl hp
      · rw [takeUnsigned_eq_none (by simp [hc]) (by simp [hp])] at h
        simp at h

/-- A digit or a point begins no other token, and neither continues an operator. -/
theorem numeral_start {c : Char} (hc : c = '.' ∨ c.isDigit = true) :
    c ∉ ['"', '<', '>', '-'] ∧ c ∉ marks ∧ Text.isWordStart c = false := by
  rcases hc with rfl | hc
  · decide
  · have hdigits : ∀ c ∈ asciiDigits,
        c ∉ ['"', '<', '>', '-'] ∧ c ∉ marks ∧ Text.isWordStart c = false :=
      forall_mem_of_all (by decide)
    exact hdigits c (mem_asciiDigits hc)

/-- A numeral is taken, since nothing else begins as it does. -/
theorem take?_of_takeNumeral {cs text rest : List Char} (h : takeNumeral cs = some (text, rest)) :
    take? cs = some (numeral text, rest) := by
  rw [takeNumeral.eq_def] at h
  split at h
  next tail =>
    -- Behind the sign there is a digit or a point, so `-` is not the start of an operator.
    simp only [Option.map_eq_some_iff, Prod.exists, Prod.mk.injEq] at h
    obtain ⟨digits, rest, h, rfl, rfl⟩ := h
    obtain ⟨c, tail, rfl, hc⟩ := head_of_takeUnsigned h
    obtain ⟨hc, -, -⟩ := numeral_start hc
    simp only [List.mem_cons, List.not_mem_nil, or_false, not_or] at hc
    rw [take?_cons (by decide) (by decide)
      (fun _ _ h => hc.2.2.1 (List.cons.inj h).1) (fun _ _ h => hc.2.2.2 (List.cons.inj h).1),
      if_neg (by decide), if_neg (by decide), takeNumeral, h]
    rfl
  next cs hminus =>
    obtain ⟨c, tail, rfl, hc⟩ := head_of_takeUnsigned h
    obtain ⟨hc, hmark, hstart⟩ := numeral_start hc
    simp only [List.mem_cons, List.not_mem_nil, or_false, not_or] at hc
    rw [take?_cons hc.1 hc.2.1 (fun _ h => absurd h hc.2.2.2) (fun _ h => absurd h hc.2.2.2),
      if_neg hmark, if_neg (by simp [hstart]), takeNumeral_of_ne_minus hminus, h]
    rfl

/-- A token is taken exactly where one of its sort stands, as long as possible. -/
theorem take?_eq_some_iff {cs rest : List Char} {token : Token} :
    take? cs = some (token, rest) ↔ token.Taken cs rest := by
  refine ⟨taken_of_take?, fun h => ?_⟩
  -- The lexer tells tokens apart by their first character, which each sort of token fixes.
  cases token with
  | word text =>
    obtain ⟨⟨c, hc, hstart⟩, rfl, rfl⟩ := h
    obtain ⟨tail, rfl⟩ := List.head?_eq_some_iff.1 hc
    rw [take?_of_isWordStart hstart]
    simp [isWordChar_of_isWordStart hstart]
  | numeral text => exact take?_of_takeNumeral h
  | quoted content =>
    obtain ⟨tail, rfl, h⟩ := h
    simp [take?, h]
  | html content =>
    obtain ⟨tail, rfl, h⟩ := h
    simp [take?, h]
  | operator kind => cases kind <;> cases h <;> rfl
  | mark c =>
    obtain ⟨hc, rfl⟩ := h
    exact take?_of_mem_marks hc rest

/-- A token is taken from the start of a text, where it is written by at least one character. -/
theorem take?_spec {cs rest : List Char} {token : Token} (h : take? cs = some (token, rest)) :
    cs = token.text ++ rest ∧ token.text ≠ [] := by
  have htaken := taken_of_take? h
  cases token with
  | word text =>
    obtain ⟨⟨c, hc, hstart⟩, rfl, rfl⟩ := htaken
    obtain ⟨tail, rfl⟩ := List.head?_eq_some_iff.1 hc
    simp [text, isWordChar_of_isWordStart hstart]
  | numeral text =>
    obtain ⟨heq, hnumeral⟩ := takeNumeral_spec htaken
    exact ⟨heq, ne_nil_of_isNumeral hnumeral⟩
  | quoted content =>
    obtain ⟨tail, rfl, htail⟩ := htaken
    simp [text, takeQuoted_eq_append htail]
  | html content =>
    obtain ⟨tail, rfl, htail⟩ := htaken
    simp [text, takeHtml_eq_append htail]
  | operator kind => cases kind <;> cases htaken <;> simp [text]
  | mark c =>
    obtain ⟨-, rfl⟩ := htaken
    simp [text]

/-- A token takes at least one character. -/
theorem length_lt_of_take? {cs rest : List Char} {token : Token}
    (h : take? cs = some (token, rest)) : rest.length < cs.length := by
  obtain ⟨heq, hne⟩ := take?_spec h
  have hpos := List.length_pos_iff.2 hne
  rw [heq, List.length_append]
  omega

/-! ## All tokens -/

/-- A bound beyond the length of the text is as good as any other. -/
theorem lexWithin_congr : ∀ (bound bound' : Nat) (cs : List Char), cs.length < bound →
    cs.length < bound' → lexWithin bound cs = lexWithin bound' cs
  | 0, _, _, h, _ => absurd h (Nat.not_lt_zero _)
  | _, 0, _, _, h => absurd h (Nat.not_lt_zero _)
  | bound + 1, bound' + 1, cs, h, h' => by
    rw [lexWithin, lexWithin]
    rcases hd : dropLayout cs with _ | _ | ⟨c, rest⟩
    · rfl
    · rfl
    · -- What is left behind a token is shorter than the text, so both bounds are still beyond it.
      have hle := (dropLayout_suffix hd).length_le
      rcases ht : take? (c :: rest) with _ | ⟨token, after⟩
      · simp [ht]
      · have hlt := length_lt_of_take? ht
        simp [ht, lexWithin_congr bound bound' after (by omega) (by omega)]

/-- The tokens of a text are the first one behind its layout and those of what follows. -/
theorem lex_eq (cs : List Char) :
    lex cs = (dropLayout cs).bind fun rest =>
      if rest = [] then some []
      else (take? rest).bind fun (token, after) => (lex after).map (token :: ·) := by
  rw [lex, lexWithin]
  rcases hd : dropLayout cs with _ | _ | ⟨c, rest⟩
  · rfl
  · rfl
  · have hle := (dropLayout_suffix hd).length_le
    rcases ht : take? (c :: rest) with _ | ⟨token, after⟩
    · simp [ht]
    · have hlt := length_lt_of_take? ht
      simp only [Option.bind_eq_bind, Option.bind_some, ht, Option.pure_def, reduceCtorEq, if_false]
      -- The bound left over from this text is enough for what is behind the token.
      rw [lexWithin_congr cs.length (after.length + 1) after (by omega) (by omega),
        Option.map_eq_bind]
      rfl

/-- Layout makes no difference to the tokens of a text. -/
theorem lex_eq_of_dropLayout {cs rest : List Char} (h : dropLayout cs = dropLayout rest) :
    lex cs = lex rest := by
  rw [lex_eq, h, ← lex_eq]

end DotLang.Token
