import DotLang.Proofs.Token.Composed

/-!
# Tokens with layout between them

A text lays tokens out if it writes them one after the other with gaps between them (`LaidOut`). Where two
words or numerals stand next to each other, the gap between them is not empty. However the gaps are chosen,
the lexer finds the tokens again (`lex_of_laidOut`).
-/

namespace DotLang.Token

/-- Spaces, tabs, ends of lines and comments that have an end. -/
inductive Gap : List Char → Prop where
  /-- Nothing. -/
  | nil : Gap []
  /-- A space, a tab or the end of a line, and more behind it. -/
  | blank {c : Char} {gap : List Char} : c ∈ ' ' :: '\t' :: lineEnds → Gap gap → Gap (c :: gap)
  /-- A block comment, which ends where that is first possible, and more behind it. -/
  | block {body gap : List Char} : ¬['*', '/'] <:+: body → Gap gap →
      Gap ('/' :: '*' :: (body ++ '*' :: '/' :: gap))
  /-- A comment that goes to the end of its line, and more behind it. -/
  | line {mark body gap : List Char} {stop : Char} : mark ∈ lineMarks → (∀ c ∈ body, c ∉ lineEnds) →
      stop ∈ lineEnds → Gap gap → Gap (mark ++ (body ++ stop :: gap))

/-- Texts that write tokens one after the other with gaps between them. -/
inductive LaidOut : List Token → List Char → Prop where
  /-- A gap behind the last token. -/
  | nil {gap : List Char} : Gap gap → LaidOut [] gap
  /-- A gap behind the last token and a comment that goes to the end of the text. -/
  | comment {gap mark body : List Char} : Gap gap → mark ∈ lineMarks → (∀ c ∈ body, c ∉ lineEnds) →
      LaidOut [] (gap ++ (mark ++ body))
  /-- A gap and a token. If it is bare and the next one is, then there is something between them. -/
  | cons {token : Token} {tokens : List Token} {gap text : List Char} : Gap gap → token.Valid →
      (token.isBare = true → ∀ next ∈ tokens.head?, next.isBare = true →
        ∃ between rest, text = between ++ rest ∧ Gap between ∧ between ≠ []) →
      LaidOut tokens text → LaidOut (token :: tokens) (gap ++ (token.text ++ text))

variable {token : Token} {tokens : List Token} {gap body rest text : List Char}

/-! ## Gaps -/

/-- What stands between tokens is layout. -/
theorem Gap.isLayout (h : Gap gap) : Layout gap := by
  induction h with
  | nil => exact .nil
  | blank hc _ ih =>
    have hblanks : ∀ c ∈ ' ' :: '\t' :: lineEnds, Text.isBlank c = true := forall_mem_of_all (by decide)
    exact .blank (hblanks _ hc) ih
  | block hbody _ ih => exact .block hbody ih
  | line hmark hbody hstop _ ih => exact .line hmark hbody hstop ih

/-- A gap begins with a character that continues no word or numeral. -/
theorem Gap.head (h : Gap gap) (hne : gap ≠ []) :
    ∃ c tail, gap = c :: tail ∧ c ∈ ' ' :: '\t' :: '/' :: '#' :: lineEnds := by
  cases h with
  | nil => exact absurd rfl hne
  | blank hc _ =>
    refine ⟨_, _, rfl, ?_⟩
    simp only [lineEnds, List.mem_cons, List.not_mem_nil, or_false] at hc ⊢
    rcases hc with hc | hc | hc | hc <;> simp [hc]
  | block => exact ⟨_, _, rfl, by simp⟩
  | line hmark =>
    simp only [lineMarks, List.mem_cons, List.not_mem_nil, or_false] at hmark
    rcases hmark with rfl | rfl
    · exact ⟨_, _, rfl, by simp⟩
    · exact ⟨_, _, rfl, by simp⟩

/-- What a gap begins with goes on with no word and with no numeral. -/
theorem not_isWordChar_of_gap {c : Char} (hc : c ∈ ' ' :: '\t' :: '/' :: '#' :: lineEnds) :
    Text.isWordChar c = false ∧ c ≠ '.' := by
  have hgap : ∀ c ∈ ' ' :: '\t' :: '/' :: '#' :: lineEnds, Text.isWordChar c = false ∧ c ≠ '.' :=
    forall_mem_of_all (by decide)
  exact hgap c hc

/-! ## Tokens -/

/-- What is written for a token with a delimiter begins with no character of a word or numeral. -/
theorem head_of_not_isBare (h : token.Valid) (hbare : token.isBare = false) :
    ∃ c tail, token.text = c :: tail ∧ Text.isWordChar c = false ∧ c ≠ '.' := by
  cases token with
  | word text => cases hbare
  | numeral text => cases hbare
  | quoted content => exact ⟨'"', _, rfl, by decide⟩
  | html content => exact ⟨'<', _, rfl, by decide⟩
  | operator kind => cases kind <;> exact ⟨'-', _, rfl, by decide⟩
  | mark c =>
    have hmarks : ∀ c ∈ marks, Text.isWordChar c = false ∧ c ≠ '.' := forall_mem_of_all (by decide)
    exact ⟨c, [], rfl, hmarks c h⟩

/-- Where something is left between bare tokens, none of them goes on behind its text. -/
theorem stops_of_laidOut (h : LaidOut tokens text)
    (hspaced : token.isBare = true → ∀ next ∈ tokens.head?, next.isBare = true →
      ∃ between rest, text = between ++ rest ∧ Gap between ∧ between ≠ []) : token.Stops text := by
  -- A gap that is not empty settles it, wherever it stands.
  have hgap : ∀ {gap rest : List Char}, Gap gap → gap ≠ [] → token.Stops (gap ++ rest) := by
    intro gap rest hgap hne _ d hd
    obtain ⟨c, tail, rfl, hc⟩ := hgap.head hne
    obtain rfl : c = d := by simpa using hd
    exact not_isWordChar_of_gap hc
  cases h with
  | nil h =>
    rcases text with _ | ⟨c, gap⟩
    · exact fun _ d hd => by simp at hd
    · exact List.append_nil (c :: gap) ▸ hgap h (by simp)
  | @comment gap mark body h hmark _ =>
    rcases gap with _ | ⟨c, gap⟩
    · simp only [lineMarks, List.mem_cons, List.not_mem_nil, or_false] at hmark
      intro _ d hd
      rcases hmark with rfl | rfl <;> obtain rfl := Option.some.inj hd <;> decide
    · exact hgap h (by simp)
  | @cons next tokens gap later h hvalid _ _ =>
    rcases gap with _ | ⟨c, gap⟩
    · -- Nothing is between the tokens, so the next one has a delimiter, or what follows begins with a gap.
      rcases hnext : next.isBare with _ | _
      · obtain ⟨c, tail, heq, hc⟩ := head_of_not_isBare hvalid hnext
        intro _ d hd
        obtain rfl : c = d := by simpa [heq] using hd
        exact hc
      · intro hbare
        obtain ⟨between, rest, heq, hbetween, hne⟩ := hspaced hbare next rfl hnext
        rw [heq]
        exact hgap hbetween hne hbare
    · exact hgap h (by simp)

/-- A text that is laid out is composed of its tokens. -/
theorem LaidOut.composed (h : LaidOut tokens text) : Composed tokens text := by
  induction h with
  | nil hgap => exact .nil hgap.isLayout
  | comment hgap hmark hbody => exact .comment hgap.isLayout ⟨_, hmark, _, rfl, hbody⟩
  | cons hgap hvalid hspaced hlater ih =>
    exact .cons hgap.isLayout hvalid (stops_of_laidOut hlater hspaced).endsBefore ih

/-- The lexer finds the tokens that a text lays out. -/
theorem lex_of_laidOut (h : LaidOut tokens text) : lex text = some tokens :=
  lex_eq_some_iff.2 h.composed

/-- Valid tokens can be laid out, with a space before each of them. -/
theorem exists_laidOut : ∀ {tokens : List Token}, (∀ token ∈ tokens, token.Valid) →
    ∃ text, LaidOut tokens text ∧ (tokens ≠ [] → ∃ rest, text = ' ' :: rest)
  | [], _ => ⟨[], .nil .nil, fun hne => absurd rfl hne⟩
  | token :: tokens, hvalid => by
    obtain ⟨text, htext, hspace⟩ := exists_laidOut fun next hnext => hvalid next (List.mem_cons_of_mem _ hnext)
    refine ⟨[' '] ++ (token.text ++ text), ?_, fun _ => ⟨_, rfl⟩⟩
    refine .cons (.blank (by decide) .nil) (hvalid token List.mem_cons_self) (fun _ next hnext _ => ?_) htext
    obtain ⟨rest, rfl⟩ := hspace fun hnil => by simp [hnil] at hnext
    exact ⟨[' '], rest, rfl, .blank (by decide) .nil, by simp⟩

/-- Valid tokens of which no two bare ones are neighbours can be laid out with nothing between them. -/
theorem laidOut_flatMap (hvalid : ∀ token ∈ tokens, token.Valid)
    (hapart : ∀ pair ∈ tokens.zip tokens.tail, pair.1.isBare = true → pair.2.isBare = false) :
    LaidOut tokens (tokens.flatMap Token.text) := by
  induction tokens with
  | nil => exact .nil .nil
  | cons token tokens ih =>
    rcases tokens with _ | ⟨next, tokens⟩
    · exact .cons .nil (hvalid token List.mem_cons_self) (by simp) (.nil .nil)
    · rw [List.tail_cons, List.zip_cons_cons, List.forall_mem_cons] at hapart
      -- The gaps are empty, so two words or numerals in a row would run together.
      refine .cons .nil (hvalid token List.mem_cons_self) (fun hbare other hother hotherBare => ?_)
        (ih (fun other hother => hvalid other (List.mem_cons_of_mem _ hother)) hapart.2)
      obtain rfl : next = other := Option.some.inj hother
      simp [hapart.1 hbare] at hotherBare

end DotLang.Token
