import DotLang.Proofs.Text.Region
import DotLang.Proofs.Token.Composed

/-!
# Regions of what a text is composed of

The regions of a text are those of its pieces. In layout, everything but blanks and the ends of lines is in a
comment (`Layout.leads`). A token is in no comment, and what is in a token but in no string has neither
delimiters nor backslashes (`Valid.leads`).
-/

namespace DotLang.Token

open Text

variable {token : Token} {tokens : List Token} {layout comment text : List Char}

/-! ## Layout -/

/-- What the characters of layout are: those in comments can be any, and others are blanks. -/
def InLayout (c : Char) (region : Region) : Prop :=
  region = .comment ∨ region = .outside ∧ isBlank c = true

/-- What is in a comment is in layout. -/
theorem InLayout.of_inComment {c : Char} {region : Region} (h : InComment c region) : InLayout c region :=
  .inl h

/-- No blank begins a region. -/
theorem not_mem_openers_of_isBlank {c : Char} (hc : isBlank c = true) : c ∉ openers := by
  have hopeners : ∀ c ∈ openers, isBlank c = false := forall_mem_of_all (by decide)
  intro hmem
  simp [hopeners c hmem] at hc

/-- A blank leaves the reading outside any region. -/
theorem leads_blank {c : Char} (hc : isBlank c = true) : Leads InLayout .outside [c] .outside :=
  leads_singleton (.inr ⟨rfl, hc⟩) (regionsFrom_outside (not_mem_openers_of_isBlank hc))

/-- The mark of a line comment opens it. -/
theorem leads_lineMark {mark : List Char} (hmark : mark ∈ lineMarks) :
    Leads InComment .outside mark .line := by
  simp only [lineMarks, List.mem_cons, List.not_mem_nil, or_false] at hmark
  rcases hmark with rfl | rfl
  · exact ⟨[.comment, .comment], .cons rfl (.cons rfl .nil), fun _ => rfl⟩
  · exact leads_singleton rfl fun _ => rfl

/-- A comment that has to be closed leaves nothing open. -/
theorem leads_blockComment {body : List Char} (hbody : ¬['*', '/'] <:+: body) :
    Leads InComment .outside ('/' :: '*' :: (body ++ ['*', '/'])) .outside := by
  have hmark : Leads InComment .outside ['/', '*'] .block :=
    ⟨[.comment, .comment], .cons rfl (.cons rfl .nil), fun _ => rfl⟩
  exact hmark.append (leads_block hbody)

/-- A comment leaves its line open, up to the end of that line. -/
theorem IsOpenComment.leads (h : IsOpenComment comment) : Leads InComment .outside comment .line := by
  obtain ⟨mark, hmark, body, rfl, hbody⟩ := h
  exact (leads_lineMark hmark).append (leads_line fun c hc => by simpa [lineEnds] using hbody c hc)

/-- The end of a line closes a line comment. -/
theorem leads_lineEnd {stop : Char} (hstop : stop ∈ lineEnds) : Leads InLayout .line [stop] .outside := by
  have hblank : ∀ stop ∈ lineEnds, isBlank stop = true := forall_mem_of_all (by decide)
  refine leads_singleton (.inr ⟨rfl, hblank stop hstop⟩) fun rest => ?_
  rw [regionsFrom_line_cons, if_pos (by simpa [lineEnds] using hstop)]

/-- The regions of layout are comments, except where it is blank. -/
theorem Layout.leads (h : Layout layout) : Leads InLayout .outside layout .outside := by
  induction h with
  | nil => exact .nil
  | blank hc _ ih => exact (leads_blank hc).append ih
  | @block body layout hbody _ ih =>
    have hcomment := (leads_blockComment hbody).imp fun _ _ => InLayout.of_inComment
    simpa using hcomment.append ih
  | @line mark body layout stop hmark hbody hstop _ ih =>
    -- A line comment runs up to its stop, which leads outside again.
    have hcomment : Leads InComment .outside (mark ++ body) .line :=
      IsOpenComment.leads ⟨mark, hmark, body, rfl, hbody⟩
    have hline := (hcomment.imp fun _ _ => InLayout.of_inComment).append (leads_lineEnd hstop)
    simpa using hline.append ih

/-! ## Tokens -/

/-- What the characters of a token are: those in a string can be any, and others are no backslashes. -/
def InToken (c : Char) (region : Region) : Prop :=
  region = .quoted ∨ region = .html ∨ region = .outside ∧ c ≠ '\\'

/-- The characters that no token without delimiters has: those that begin regions, and the backslash. -/
theorem isWordChar_of_mem_openers {c : Char} (hc : c ∈ '\\' :: openers) :
    isWordChar c = false ∧ c ∉ ['-', '>', '.'] ∧ c ∉ marks := by
  have hall : ∀ c ∈ '\\' :: openers, isWordChar c = false ∧ c ∉ ['-', '>', '.'] ∧ c ∉ marks :=
    forall_mem_of_all (by decide)
  exact hall c hc

/-- A numeral without a sign has only digits and a point. -/
theorem isDigit_or_eq_of_isUnsigned (h : IsUnsigned text) : ∀ c ∈ text, c.isDigit = true ∨ c = '.' := by
  cases h with
  | fraction hdigits =>
    intro c hc
    exact (List.mem_cons.1 hc).symm.imp (hdigits c) id
  | whole hdigits => exact fun c hc => .inl (hdigits c hc)
  | both hdigits _ hfraction =>
    intro c hc
    rcases List.mem_append.1 hc with hc | hc
    · exact .inl (hdigits c hc)
    · exact (List.mem_cons.1 hc).symm.imp (hfraction c) id

/-- A numeral is made of digits, points and minus signs. -/
theorem isWordChar_or_mem_of_isNumeral (h : IsNumeral text) :
    ∀ c ∈ text, isWordChar c = true ∨ c ∈ ['-', '>', '.'] := by
  have hunsigned : ∀ {digits : List Char}, IsUnsigned digits →
      ∀ c ∈ digits, isWordChar c = true ∨ c ∈ ['-', '>', '.'] := fun h c hc =>
    (isDigit_or_eq_of_isUnsigned h c hc).imp (fun hc => by simp [isWordChar, hc]) (by rintro rfl; simp)
  cases h with
  | plain h => exact hunsigned h
  | negative h => exact List.forall_mem_cons.2 ⟨.inr (by simp), hunsigned h⟩

/-- Whether a token is a string. -/
def isString : Token → Bool
  | quoted _ | html _ => true
  | _ => false

/-- A token that is no string has no characters that begin regions, and no backslashes. -/
theorem not_mem_of_not_isString (h : token.Valid) (hstring : token.isString = false) :
    ∀ c ∈ token.text, c ∉ '\\' :: openers := by
  -- No such character is a backslash or opens a region.
  have hall : ∀ c ∈ token.text, isWordChar c = true ∨ c ∈ ['-', '>', '.'] ∨ c ∈ marks := by
    cases token with
    | word text =>
      obtain ⟨c, cs, rfl, hstart, -, hcs⟩ := h
      have hall : ∀ d ∈ c :: cs, isWordChar d = true :=
        List.forall_mem_cons.2 ⟨isWordChar_of_isWordStart hstart, hcs⟩
      exact fun d hd => .inl (hall d hd)
    | numeral text => exact fun c hc => (isWordChar_or_mem_of_isNumeral h c hc).imp id .inl
    | operator kind => cases kind <;> simp [Token.text]
    | mark c => exact fun d hd => .inr (.inr (List.mem_singleton.1 hd ▸ h))
    | quoted | html => cases hstring
  intro c hc hmem
  obtain ⟨hword, hsign, hmark⟩ := isWordChar_of_mem_openers hmem
  rcases hall c hc with hc | hc | hc
  · simp [hword] at hc
  · exact hsign hc
  · exact hmark hc

/-- Whether a region is that of a string, whatever the character. -/
def InString (_ : Char) (region : Region) : Prop :=
  region = .quoted ∨ region = .html

/-- All of a string is in its region. -/
theorem leads_of_isString (h : token.Valid) (hstring : token.isString = true) :
    Leads InString .outside token.text .outside := by
  cases token with
  | quoted content =>
    obtain ⟨value, hvalue, rfl⟩ := h
    have hopen : Leads InQuoted .outside ['"'] .quoted := leads_singleton rfl fun _ => rfl
    exact (hopen.append (leads_quoted hvalue.paired)).imp fun _ _ => .inl
  | html content =>
    have hopen : Leads InHtml .outside ['<'] (.html 0) := leads_singleton rfl fun _ => rfl
    exact (hopen.append (leads_html (isBalanced_iff.1 h))).imp fun _ _ => .inr
  | word | numeral | operator | mark => cases hstring

/-- The regions of a token are strings, except where it has no backslash. -/
theorem Valid.leads (h : token.Valid) : Leads InToken .outside token.text .outside := by
  rcases hstring : token.isString with _ | _
  · -- Without delimiters, all of it is outside any region.
    refine leads_outside fun c hc => ?_
    have hnot := not_mem_of_not_isString h hstring c hc
    rw [List.mem_cons, not_or] at hnot
    exact ⟨hnot.2, .inr (.inr ⟨rfl, hnot.1⟩)⟩
  · exact (leads_of_isString h hstring).imp fun _ _ hregion => hregion.imp id .inl

/-! ## Texts -/

/-- Whether a character is in a region, unless it is no backslash. -/
def Guarded (c : Char) (region : Region) : Prop := c = '\\' → region ≠ .outside

/-- A backslash in layout is in a comment. -/
theorem InLayout.guarded {c : Char} {region : Region} (h : InLayout c region) : Guarded c region := by
  rintro rfl rfl
  rcases h with h | ⟨-, h⟩
  · cases h
  · exact absurd h (by decide)

/-- A backslash in a token is in a string. -/
theorem InToken.guarded {c : Char} {region : Region} (h : InToken c region) : Guarded c region := by
  rintro rfl rfl
  rcases h with h | h | ⟨-, h⟩
  · cases h
  · cases h
  · exact h rfl

/-- All backslashes of a text that has tokens are in regions. -/
theorem Composed.leads (h : Composed tokens text) : ∃ state, Leads Guarded .outside text state := by
  induction h with
  | nil hlayout => exact ⟨.outside, hlayout.leads.imp fun _ _ => InLayout.guarded⟩
  -- The text ends inside the comment, which nothing closes.
  | comment hlayout hcomment =>
    have hopen := hcomment.leads.imp fun _ _ hregion => (InLayout.of_inComment hregion).guarded
    exact ⟨.line, (hlayout.leads.imp fun _ _ => InLayout.guarded).append hopen⟩
  | cons hlayout hvalid _ _ ih =>
    obtain ⟨state, hrest⟩ := ih
    have htoken := (hvalid.leads.imp fun _ _ => InToken.guarded).append hrest
    exact ⟨state, (hlayout.leads.imp fun _ _ => InLayout.guarded).append htoken⟩

end DotLang.Token
