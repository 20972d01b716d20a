import DotLang.Proofs.Token.Lex

/-!
# The text of layout

Blanks and comments as they are written. Layout in which every comment has its end is dropped whatever
follows it (`dropLayout_layout`), and nothing else is dropped, apart from a comment that goes to the end of
the text (`behind_of_dropLayout`).
-/

namespace DotLang.Token

/-- What opens a comment that goes to the end of its line. -/
def lineMarks : List (List Char) := [['/', '/'], ['#']]

/-- The characters at which a line ends. -/
def lineEnds : List Char := ['\n', '\r']

/-- Blanks and comments, each of which has its end. -/
inductive Layout : List Char → Prop where
  /-- Nothing. -/
  | nil : Layout []
  /-- A blank and more behind it. -/
  | blank {c : Char} {layout : List Char} : Text.isBlank c = true → Layout layout → Layout (c :: layout)
  /-- A block comment, which ends where that is first possible, and more behind it. -/
  | block {body layout : List Char} : ¬['*', '/'] <:+: body → Layout layout →
      Layout ('/' :: '*' :: (body ++ '*' :: '/' :: layout))
  /-- A comment that goes to the end of its line, this end, and more behind it. -/
  | line {mark body layout : List Char} {stop : Char} : mark ∈ lineMarks → (∀ c ∈ body, c ∉ lineEnds) →
      stop ∈ lineEnds → Layout layout → Layout (mark ++ (body ++ stop :: layout))

/-- A comment that goes to the end of its line, without that end. -/
def IsOpenComment (text : List Char) : Prop :=
  ∃ mark ∈ lineMarks, ∃ body, text = mark ++ body ∧ ∀ c ∈ body, c ∉ lineEnds

variable {body cs layout layout' rest : List Char}

/-- Layout behind layout is layout. -/
theorem Layout.append (h : Layout layout) (h' : Layout layout') : Layout (layout ++ layout') := by
  induction h with
  | nil => exact h'
  | blank hc _ ih => exact .blank hc ih
  | block hbody _ ih => simpa using Layout.block hbody ih
  | line hmark hbody hstop _ ih => simpa using Layout.line hmark hbody hstop ih

/-! ## Layout is dropped -/

/-- The body of a line comment is dropped. -/
theorem dropLine_append (hbody : ∀ c ∈ body, c ∉ lineEnds) :
    dropLine (body ++ rest) = dropLine rest := by
  induction body with
  | nil => rfl
  | cons c body ih =>
    have hc := hbody c List.mem_cons_self
    simp only [lineEnds, List.mem_cons, List.not_mem_nil, or_false] at hc
    rw [List.cons_append, dropLine, if_neg hc, ih fun d hd => hbody d (List.mem_cons_of_mem _ hd)]

/-- A line comment ends with its line. -/
theorem dropLine_cons {stop : Char} (hstop : stop ∈ lineEnds) : dropLine (stop :: rest) = dropLayout rest := by
  simp only [lineEnds, List.mem_cons, List.not_mem_nil, or_false] at hstop
  rw [dropLine, if_pos hstop]

/-- A line comment is dropped behind its mark. -/
theorem dropLayout_line {mark : List Char} (hmark : mark ∈ lineMarks) :
    dropLayout (mark ++ rest) = dropLine rest := by
  simp only [lineMarks, List.mem_cons, List.not_mem_nil, or_false] at hmark
  rcases hmark with rfl | rfl <;> rfl

/-- A block comment is dropped up to its closing sign. -/
theorem dropBlock_append (hbody : ¬['*', '/'] <:+: body) :
    dropBlock (body ++ '*' :: '/' :: rest) = dropLayout rest := by
  induction body with
  | nil => rfl
  | cons c body ih =>
    have hshorter : ¬['*', '/'] <:+: body := fun h => hbody (h.trans (List.suffix_cons c body).isInfix)
    rw [List.cons_append, dropBlock_cons, ih hshorter]
    -- Neither does the comment end here, nor does its end begin here.
    rintro cs rfl heq
    rcases body with _ | ⟨d, body⟩
    · cases heq
    · obtain ⟨rfl, -⟩ := List.cons.inj heq
      exact hbody ⟨[], body, rfl⟩

/-- A blank is dropped. -/
theorem dropLayout_blank {c : Char} (hc : Text.isBlank c = true) (cs : List Char) :
    dropLayout (c :: cs) = dropLayout cs := by
  have hne : c ≠ '/' ∧ c ≠ '#' := by
    constructor <;> rintro rfl <;> simp [Text.isBlank] at hc
  rw [dropLayout_cons (fun _ h => absurd h hne.1) (fun _ h => absurd h hne.1) hne.2, if_pos hc]

/-- Layout is dropped, whatever follows it. -/
theorem dropLayout_layout (h : Layout layout) : dropLayout (layout ++ rest) = dropLayout rest := by
  induction h with
  | nil => rfl
  | blank hc _ ih => rw [List.cons_append, dropLayout_blank hc, ih]
  | @block body layout hbody _ ih =>
    have hopen : ∀ cs, dropLayout ('/' :: '*' :: cs) = dropBlock cs := fun _ => rfl
    rw [List.cons_append, List.cons_append, hopen, List.append_assoc, List.cons_append, List.cons_append,
      dropBlock_append hbody, ih]
  | line hmark hbody hstop _ ih =>
    -- The character that ends the comment is layout as well.
    rw [List.append_assoc, List.append_assoc, dropLayout_line hmark, dropLine_append hbody,
      List.cons_append, dropLine_cons hstop, ih]

/-- A comment that is open at the end of a text is dropped. -/
theorem dropLayout_isOpenComment (h : IsOpenComment cs) : dropLayout cs = some [] := by
  obtain ⟨mark, hmark, body, rfl, hbody⟩ := h
  rw [dropLayout_line hmark, ← List.append_nil body, dropLine_append hbody]
  rfl

/-! ## What is dropped is layout -/

/-- What is left of a text stands behind layout, or nothing is left of a comment that is open at its end. -/
def Behind (cs rest : List Char) : Prop :=
  ∃ layout tail, cs = layout ++ tail ∧ Layout layout ∧ (tail = rest ∨ rest = [] ∧ IsOpenComment tail)

/-- What is behind a text is behind more layout in front of it. -/
theorem Behind.prepend (h : Behind cs rest) (hlayout : Layout layout) : Behind (layout ++ cs) rest := by
  obtain ⟨layout', tail, rfl, hlayout', htail⟩ := h
  exact ⟨layout ++ layout', tail, by simp, hlayout.append hlayout', htail⟩

/-- Nothing is left of an empty text. -/
theorem Behind.eq_nil (h : Behind [] rest) : rest = [] := by
  obtain ⟨layout, tail, heq, -, rfl | ⟨hrest, -⟩⟩ := h
  · exact (List.append_eq_nil_iff.1 heq.symm).2
  · exact hrest

/-- Blanks may be put in front of a text. -/
theorem Behind.of_dropWhile (h : Behind (cs.dropWhile Text.isBlank) rest) : Behind cs rest := by
  induction cs with
  | nil => exact h
  | cons c cs ih =>
    by_cases hc : Text.isBlank c = true
    · rw [List.dropWhile_cons_of_pos hc] at h
      exact (ih h).prepend (.blank hc .nil)
    · rwa [List.dropWhile_cons_of_neg hc] at h

/-- What is left of a text that goes on with a line, behind its first mark. -/
theorem Behind.line {mark : List Char} (hmark : mark ∈ lineMarks) (hbody : ∀ c ∈ body, c ∉ lineEnds)
    (h : cs = [] ∧ rest = [] ∨ ∃ stop cs', cs = stop :: cs' ∧ stop ∈ lineEnds ∧ Behind cs' rest) :
    Behind (mark ++ (body ++ cs)) rest := by
  rcases h with ⟨rfl, rfl⟩ | ⟨stop, cs', rfl, hstop, h⟩
  · exact ⟨[], mark ++ body, by simp, .nil, .inr ⟨rfl, mark, hmark, body, rfl, hbody⟩⟩
  · simpa using h.prepend (.line hmark hbody hstop .nil)

/-- With a character in front that does not begin the closing sign, there is still no closing sign within. -/
theorem not_infix_cons {c : Char} (hbody : ¬['*', '/'] <:+: body)
    (hclose : ∀ tail, c = '*' → body ++ '*' :: '/' :: cs ≠ '/' :: tail) : ¬['*', '/'] <:+: c :: body := by
  rw [List.infix_cons_iff]
  rintro (⟨tail, heq⟩ | hwithin)
  · -- The end of the comment would begin with the first character.
    obtain ⟨rfl, rfl⟩ := List.cons.inj heq
    exact hclose _ rfl rfl
  · exact hbody hwithin

/-- What the lexer drops is layout, in front of it and within comments. -/
theorem behind_of_drop :
    (∀ cs rest, dropLayout cs = some rest → Behind cs rest) ∧
    (∀ cs rest, dropLine cs = some rest → ∃ body tail, cs = body ++ tail ∧ (∀ c ∈ body, c ∉ lineEnds) ∧
      (tail = [] ∧ rest = [] ∨ ∃ stop cs', tail = stop :: cs' ∧ stop ∈ lineEnds ∧ Behind cs' rest)) ∧
    (∀ cs rest, dropBlock cs = some rest → ∃ body cs', cs = body ++ '*' :: '/' :: cs' ∧
      ¬['*', '/'] <:+: body ∧ Behind cs' rest) := by
  -- The three functions call each other, so the claim about them is one induction.
  apply dropLayout.mutual_induct
  case case1 =>
    rintro rest ⟨⟩
    exact ⟨[], [], rfl, .nil, .inl rfl⟩
  case case2 =>
    intro cs ih rest h
    obtain ⟨body, cs', rfl, hbody, hbehind⟩ := ih rest h
    simpa using hbehind.prepend (.block hbody .nil)
  case case3 =>
    intro cs ih rest h
    obtain ⟨body, tail, rfl, hbody, htail⟩ := ih rest h
    have hmark : ['/', '/'] ∈ lineMarks := by simp [lineMarks]
    exact .line hmark hbody htail
  case case4 =>
    intro cs ih rest h
    obtain ⟨body, tail, rfl, hbody, htail⟩ := ih rest h
    have hmark : ['#'] ∈ lineMarks := by simp [lineMarks]
    exact .line hmark hbody htail
  case case5 =>
    intro c cs _ _ _ hblank ih rest h
    rw [dropLayout_blank hblank] at h
    exact (ih rest h).prepend (.blank hblank .nil)
  case case6 =>
    intro c cs hblock hline hhash hblank rest h
    rw [dropLayout_cons hblock hline hhash, if_neg hblank, Option.some.injEq] at h
    exact ⟨[], _, rfl, .nil, .inl h⟩
  case case7 =>
    rintro rest ⟨⟩
    exact ⟨[], [], rfl, by simp, .inl ⟨rfl, rfl⟩⟩
  case case8 =>
    intro c cs hend ih rest h
    have hstop : c ∈ lineEnds := by simpa [lineEnds] using hend
    rw [dropLine_cons hstop] at h
    exact ⟨[], c :: cs, rfl, by simp, .inr ⟨c, cs, rfl, hstop, ih rest h⟩⟩
  case case9 =>
    intro c cs hend ih rest h
    rw [dropLine, if_neg hend] at h
    obtain ⟨body, tail, rfl, hbody, htail⟩ := ih rest h
    have hc : c ∉ lineEnds := by simpa [lineEnds] using hend
    exact ⟨c :: body, tail, rfl, List.forall_mem_cons.2 ⟨hc, hbody⟩, htail⟩
  case case10 => rintro rest ⟨⟩
  case case11 => exact fun cs ih rest h => ⟨[], cs, rfl, by simp, ih rest h⟩
  case case12 =>
    intro c cs hclose ih rest h
    rw [dropBlock_cons hclose] at h
    obtain ⟨body, cs', rfl, hbody, hbehind⟩ := ih rest h
    exact ⟨c :: body, cs', rfl, not_infix_cons hbody fun tail hc heq => hclose tail hc heq, hbehind⟩

/-- What is left where layout is dropped is behind it. -/
theorem behind_of_dropLayout (h : dropLayout cs = some rest) : Behind cs rest :=
  behind_of_drop.1 cs rest h

/-- Dropping goes on from what is behind layout. -/
theorem dropLayout_of_behind (h : Behind cs rest) : dropLayout cs = dropLayout rest := by
  obtain ⟨layout, tail, rfl, hlayout, htail⟩ := h
  rw [dropLayout_layout hlayout]
  rcases htail with rfl | ⟨rfl, hcomment⟩
  · rfl
  · exact dropLayout_isOpenComment hcomment

end DotLang.Token
