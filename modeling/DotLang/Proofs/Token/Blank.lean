import DotLang.Proofs.Token.Region

/-!
# Blanks between tokens

A blank that is in no region, ends no comment and continues no word is part of the layout between the tokens of a
text. Any other blank can stand in its place without a change of the tokens (`Composed.replace_blank`), apart from a
byte order mark directly behind a word: there it is a letter, and the word goes on with it.
-/

namespace DotLang

namespace Text

variable {P : Char → Region → Prop} {state : RegionState} {c : Char} {i : Nat}
variable {before after front piece text : List Char}

/-! ## Words at the end of a text -/

/-- Whether a text ends in a word, which would go on with a letter behind it. -/
def EndsInWord (text : List Char) : Prop :=
  ∃ word, word <:+ text ∧ IsWord word

/-- What ends in a word still does with more text in front. -/
theorem EndsInWord.prepend (h : EndsInWord text) (front : List Char) : EndsInWord (front ++ text) := by
  obtain ⟨word, hword, hvalid⟩ := h
  exact ⟨word, hword.trans (List.suffix_append front text), hvalid⟩

/-- All characters of a word are characters of words. -/
theorem IsWord.isWordChar {word : List Char} (h : IsWord word) : ∀ c ∈ word, isWordChar c = true := by
  obtain ⟨c, cs, rfl, hstart, -, hcs⟩ := h
  exact List.forall_mem_cons.2 ⟨Token.isWordChar_of_isWordStart hstart, hcs⟩

/-- A text that ends in a word has a letter or a digit of it at its end. -/
theorem EndsInWord.getLast? (h : EndsInWord text) : ∃ c ∈ text.getLast?, isWordChar c = true := by
  obtain ⟨word, ⟨front, rfl⟩, hvalid⟩ := h
  -- A word has a first letter at least.
  have hne : word ≠ [] := by
    obtain ⟨c, cs, rfl, -⟩ := hvalid
    exact List.cons_ne_nil c cs
  refine ⟨word.getLast hne, ?_, hvalid.isWordChar _ (List.getLast_mem hne)⟩
  rw [List.getLast?_append, List.getLast?_eq_getLast_of_ne_nil hne]
  rfl

/-- What ends in another character does not end in a word. -/
theorem not_endsInWord_of_getLast? (hlast : text.getLast? = some c) (hc : isWordChar c = false) :
    ¬EndsInWord text := by
  intro h
  obtain ⟨d, hd, hletter⟩ := h.getLast?
  obtain rfl : c = d := Option.some.inj (hlast.symm.trans hd)
  simp [hc] at hletter

/-- A word at the end of a text begins in the second part of it, or it goes on from the first part. -/
theorem EndsInWord.of_append (h : EndsInWord (front ++ text)) :
    EndsInWord text ∨ EndsInWord front ∧ ∀ c ∈ text, isWordChar c = true := by
  obtain ⟨word, ⟨start, heq⟩, hvalid⟩ := h
  rcases List.append_eq_append_iff.1 heq with ⟨middle, rfl, rfl⟩ | ⟨middle, rfl, rfl⟩
  -- The word begins in front, so all of the text belongs to it.
  · obtain ⟨c, cs, heq, hstart, hne, hcs⟩ := hvalid
    cases middle with
    | nil => exact .inl ⟨text, List.suffix_rfl, c, cs, heq, hstart, hne, hcs⟩
    | cons d middle =>
      obtain ⟨rfl, rfl⟩ := List.cons.inj heq
      refine .inr ⟨⟨d :: middle, List.suffix_append start _, d, middle, rfl, hstart, hne, fun e he => ?_⟩,
        fun e he => ?_⟩
      · exact hcs e (List.mem_append_left text he)
      · exact hcs e (List.mem_append_right middle he)
  · exact .inl ⟨word, List.suffix_append middle word, hvalid⟩

/-! ## Blanks outside regions -/

/-- Whether a reading from left to right stands outside any region behind a text. -/
def StandsOutside (text : List Char) : Prop :=
  (regionsFrom .outside text).2 = .outside

/-- There is one region for each character. -/
theorem length_regionsFrom (state : RegionState) (text : List Char) :
    (regionsFrom state text).1.length = text.length := by
  fun_induction regionsFrom state text <;> simp_all [regionsFrom.note]

/-- No blank is read together with the character before it. -/
theorem blank_not_mem_seconds (hc : isBlank c = true) : c ∉ seconds := by
  have hseconds : ∀ c ∈ seconds, isBlank c = false := Token.forall_mem_of_all (by decide)
  intro hmem
  simp [hseconds c hmem] at hc

/-- The region of a blank is told by where the reading stands in front of it. -/
theorem getElem?_regions_blank (hc : isBlank c = true) (before after : List Char) :
    (regions (before ++ c :: after))[before.length]? =
      (regionsFrom (regionsFrom .outside before).2 (c :: after)).1[0]? := by
  rw [regions, regionsFrom_append_cons (blank_not_mem_seconds hc), regionsFrom.note]
  dsimp only
  rw [List.getElem?_append_right (Nat.le_of_eq (length_regionsFrom .outside before)), length_regionsFrom,
    Nat.sub_self]

/-- There are five blanks. -/
theorem eq_of_isBlank (hc : isBlank c = true) : c ∈ [' ', '\t', '\r', '\n', '\uFEFF'] := by
  simpa [isBlank, or_assoc] using hc

/-- A blank in no region stands outside any, or ends a comment. -/
theorem standsOutside_or_line (hc : isBlank c = true)
    (h : (regions (before ++ c :: after))[before.length]? = some .outside) :
    StandsOutside before ∨ (regionsFrom .outside before).2 = .line := by
  rw [getElem?_regions_blank hc] at h
  rw [StandsOutside]
  have hblank := eq_of_isBlank hc
  simp only [List.mem_cons, List.not_mem_nil, or_false] at hblank
  -- A blank ends neither strings nor comments that have to be closed.
  cases hstate : (regionsFrom .outside before).2 with
  | outside => exact .inl rfl
  | line => exact .inr rfl
  | quoted | html | block =>
    rw [hstate] at h
    rcases hblank with rfl | rfl | rfl | rfl | rfl <;> simp [regionsFrom, regionsFrom.note] at h

/-- A blank that stands outside any region is in none. -/
theorem region_of_standsOutside (hc : isBlank c = true) (h : StandsOutside before) :
    (regions (before ++ c :: after))[before.length]? = some .outside := by
  rw [StandsOutside] at h
  rw [getElem?_regions_blank hc, h, regionsFrom_outside (Token.not_mem_openers_of_isBlank hc)]
  rfl

/-- A piece has no such blank if none of its characters can be outside regions. -/
theorem Leads.outside_of_blank (h : Leads P .outside (before ++ c :: after) state) (hc : isBlank c = true)
    (hout : StandsOutside before) : P c .outside := by
  obtain ⟨region, hregion, hP⟩ := h.exists_region [] (show (before ++ c :: after)[before.length]? = some c by simp)
  rw [List.append_nil, region_of_standsOutside hc hout] at hregion
  exact Option.some.inj hregion ▸ hP

/-- What a piece leads to is where the reading stands behind it. -/
theorem Leads.state_eq (h : Leads P .outside piece state) : (regionsFrom .outside piece).2 = state := by
  obtain ⟨marks, -, hread⟩ := h
  have hpiece := hread []
  rw [List.append_nil] at hpiece
  rw [hpiece]
  rfl

/-- Behind a piece that leaves no region open, what is outside any region is so without the piece. -/
theorem Leads.standsOutside_append (h : Leads P .outside piece .outside) :
    StandsOutside (piece ++ before) ↔ StandsOutside before := by
  obtain ⟨marks, -, hread⟩ := h
  rw [StandsOutside, StandsOutside, hread]
  rfl

/-- A character behind a piece is in the text that follows it. -/
theorem split_of_append_eq {rest : List Char} (h : piece ++ rest = before ++ c :: after) :
    (∃ behind, piece = before ++ c :: behind ∧ after = behind ++ rest) ∨
      ∃ front, before = piece ++ front ∧ rest = front ++ c :: after := by
  rcases List.append_eq_append_iff.1 h with ⟨front, rfl, hrest⟩ | ⟨behind, rfl, hafter⟩
  · exact .inr ⟨front, rfl, hrest⟩
  · cases behind with
    -- The character is the first one behind the piece.
    | nil => exact .inr ⟨[], by simp, by simpa using hafter.symm⟩
    | cons d behind =>
      obtain ⟨rfl, rfl⟩ := List.cons.inj hafter
      exact .inl ⟨behind, rfl, rfl⟩

/-- The character at a place of a text is skipped as a blank: it is in no region, and nothing ends or goes on
with it. -/
structure SkippedAt (text : List Char) (i : Nat) : Prop where
  /-- It is a blank. -/
  blank : ∃ c ∈ text[i]?, isBlank c = true
  /-- It is in no string and in no comment. -/
  outside : (regions text)[i]? = some .outside
  /-- It does not end the line of a comment. -/
  not_lineEnd : (regionsFrom .outside (text.take i)).2 ≠ .line
  /-- It is not a letter of a word, as a byte order mark behind the first letter is. -/
  not_letter : text[i]? = some '\uFEFF' → ¬EndsInWord (text.take i)

/-- The text in front of a blank that is skipped, the blank, and the text behind it. -/
theorem SkippedAt.exists_split (h : SkippedAt text i) : ∃ c after, text = text.take i ++ c :: after ∧
    isBlank c = true ∧ StandsOutside (text.take i) ∧ (c = '\uFEFF' → ¬EndsInWord (text.take i)) ∧
    ∀ d, text.set i d = text.take i ++ d :: after := by
  obtain ⟨c, hi, hc⟩ := h.blank
  obtain ⟨hlt, rfl⟩ := List.getElem?_eq_some_iff.1 hi
  have hlength : (text.take i).length = i := by simp; omega
  have htext : text = text.take i ++ text[i] :: text.drop (i + 1) := by simp
  refine ⟨text[i], text.drop (i + 1), htext, hc, ?_, fun hmark => h.not_letter (hmark ▸ hi), fun d => ?_⟩
  -- A blank can stand outside all regions without ending a line comment.
  · have hregion :
        (regions (text.take i ++ text[i] :: text.drop (i + 1)))[(text.take i).length]? = some .outside := by
      rw [hlength, ← htext]
      exact h.outside
    exact (standsOutside_or_line hc hregion).resolve_right h.not_lineEnd
  · rw [List.set_eq_take_append_cons_drop, if_pos hlt]

end Text

namespace Token

open Text

variable {tokens : List Token} {token : Token} {c c' : Char} {after before layout text : List Char}

/-! ## Layout -/

/-- Layout can be cut at a blank that is in no comment and ends none. -/
theorem Layout.split (h : Layout (before ++ c :: after)) (hc : isBlank c = true) (hout : StandsOutside before) :
    Layout before ∧ Layout after := by
  generalize hlayout : before ++ c :: after = layout at h
  -- By induction on the layout: a comment in front holds no such blank.
  induction h generalizing before with
  | nil => simp at hlayout
  | @blank d layout hd hmore ih =>
    cases before with
    | nil =>
      obtain ⟨-, rfl⟩ := List.cons.inj hlayout
      exact ⟨.nil, hmore⟩
    | cons _ front =>
      obtain ⟨rfl, hrest⟩ := List.cons.inj hlayout
      obtain ⟨hfront, hafter⟩ := ih ((leads_blank hd).standsOutside_append.1 hout) hrest
      exact ⟨.blank hd hfront, hafter⟩
  | @block body layout hbody _ ih =>
    have hcomment := leads_blockComment hbody
    have hpieces : '/' :: '*' :: (body ++ ['*', '/']) ++ layout = before ++ c :: after := by simp [hlayout]
    rcases split_of_append_eq hpieces with ⟨behind, hpiece, -⟩ | ⟨front, rfl, hrest⟩
    · rw [hpiece] at hcomment
      cases hcomment.outside_of_blank hc hout
    · obtain ⟨hfront, hafter⟩ := ih (hcomment.standsOutside_append.1 hout) hrest.symm
      exact ⟨by simpa using Layout.block hbody hfront, hafter⟩
  | @line mark body layout stop hmark hbody hstop _ ih =>
    have hcomment : Leads InComment .outside (mark ++ body) .line :=
      IsOpenComment.leads ⟨mark, hmark, body, rfl, hbody⟩
    have hpieces : mark ++ body ++ stop :: layout = before ++ c :: after := by simp [hlayout]
    rcases split_of_append_eq hpieces with ⟨behind, hpiece, -⟩ | ⟨front, rfl, hrest⟩
    · rw [hpiece] at hcomment
      cases hcomment.outside_of_blank hc hout
    cases front with
    | nil =>
      -- The blank would be the end of the comment.
      rw [List.append_nil, StandsOutside, hcomment.state_eq] at hout
      cases hout
    | cons _ front =>
      obtain ⟨rfl, hmore⟩ := List.cons.inj hrest
      have hline := (hcomment.imp fun _ _ => InLayout.of_inComment).append (leads_lineEnd hstop)
      rw [← List.singleton_append, ← List.append_assoc] at hout
      obtain ⟨hfront, hafter⟩ := ih (hline.standsOutside_append.1 hout) hmore.symm
      exact ⟨by simpa using Layout.line hmark hbody hstop hfront, hafter⟩

/-- A blank in layout outside its comments can be replaced by any other. -/
theorem Layout.replace_blank (h : Layout (before ++ c :: after)) (hc : isBlank c = true)
    (hout : StandsOutside before) (hc' : isBlank c' = true) : Layout (before ++ c' :: after) := by
  obtain ⟨hbefore, hafter⟩ := h.split hc hout
  exact hbefore.append (.blank hc' hafter)

/-! ## Tokens -/

/-- Among blanks, only the byte order mark is a letter as well, and none is a part of a numeral or a mark. -/
theorem blank_spec (hc : isBlank c = true) : (isWordChar c = true → c = '\uFEFF') ∧ c ∉ '.' :: '-' :: asciiDigits ∧
    c ≠ '>' ∧ c ∉ marks := by
  have hall : ∀ c ∈ [' ', '\t', '\r', '\n', '\uFEFF'], (isWordChar c = true → c = '\uFEFF') ∧
      c ∉ '.' :: '-' :: asciiDigits ∧ c ≠ '>' ∧ c ∉ marks := forall_mem_of_all (by decide)
  exact hall c (eq_of_isBlank hc)

/-- A numeral consists of digits, points and minus signs. -/
theorem mem_of_isNumeral {text : List Char} (h : IsNumeral text) : ∀ c ∈ text, c ∈ '.' :: '-' :: asciiDigits := by
  have hunsigned {digits : List Char} (hdigits : IsUnsigned digits) :
      ∀ c ∈ digits, c ∈ '.' :: '-' :: asciiDigits := by
    intro c hc
    rcases isDigit_or_eq_of_isUnsigned hdigits c hc with hdigit | rfl
    · exact List.mem_cons_of_mem _ (List.mem_cons_of_mem _ (mem_asciiDigits hdigit))
    · exact List.mem_cons_self
  cases h with
  | plain hdigits => exact hunsigned hdigits
  | negative hdigits => exact List.forall_mem_cons.2 ⟨by simp, hunsigned hdigits⟩

/-- No token has a blank outside strings, except a word: it can have byte order marks behind its first character. -/
theorem Valid.endsInWord (h : token.Valid) (htext : token.text = before ++ c :: after) (hc : isBlank c = true)
    (hout : StandsOutside before) : c = '\uFEFF' ∧ EndsInWord before := by
  have hmem : c ∈ token.text := by simp [htext]
  obtain ⟨hletter, hnumeral, hangle, hmark⟩ := blank_spec hc
  have hstring (hstring : token.isString = true) : False := by
    have hleads := leads_of_isString h hstring
    rw [htext] at hleads
    rcases hleads.outside_of_blank hc hout with hregion | hregion <;> cases hregion
  cases token with
  | word text =>
    have hmarked := hletter (h.isWordChar c hmem)
    refine ⟨hmarked, before, List.suffix_rfl, ?_⟩
    obtain ⟨d, cs, rfl, hstart, hne, hcs⟩ := h
    -- The mark is not the first character, so the part of the word in front of it is a word.
    cases before with
    | nil => exact absurd ((List.cons.inj htext).1.trans hmarked) hne
    | cons _ front =>
      obtain ⟨rfl, rfl⟩ := List.cons.inj htext
      exact ⟨d, front, rfl, hstart, hne, fun e he => hcs e (List.mem_append_left _ he)⟩
  | numeral text => exact absurd (mem_of_isNumeral h c hmem) hnumeral
  | operator kind =>
    have hminus : c ≠ '-' := fun hminus => hnumeral (by simp [hminus])
    cases kind <;> simp [Token.text, hminus, hangle] at hmem
  | mark d => exact absurd (List.mem_singleton.1 hmem ▸ h) hmark
  | quoted | html => exact (hstring rfl).elim

/-- Behind a valid token, what is outside any region is so without the token. -/
theorem Valid.standsOutside_append (h : token.Valid) :
    StandsOutside (token.text ++ before) ↔ StandsOutside before :=
  h.leads.standsOutside_append

/-- A token ends in front of any blank, unless it is a word, which goes on with a byte order mark. -/
theorem Valid.endsBefore_blank (h : token.Valid) (hc : isBlank c = true)
    (hmark : c = '\uFEFF' → ¬EndsInWord token.text) (rest : List Char) : token.EndsBefore (c :: rest) := by
  obtain ⟨hletter, hnumeral, -⟩ := blank_spec hc
  cases token with
  | word text =>
    rintro _ ⟨⟩
    exact Bool.eq_false_iff.2 fun hword => hmark (hletter hword) ⟨text, List.suffix_rfl, h⟩
  | numeral text =>
    rintro _ ⟨⟩
    refine ⟨Bool.eq_false_iff.2 fun hdigit => hnumeral ?_, fun hpoint => absurd (by simp [hpoint]) hnumeral⟩
    exact List.mem_cons_of_mem _ (List.mem_cons_of_mem _ (mem_asciiDigits hdigit))
  | _ => trivial

/-! ## Texts -/

/-- The tokens of a text do not change when a blank between them is replaced by another one. -/
theorem Composed.replace_blank (h : Composed tokens (before ++ c :: after)) (hc : isBlank c = true)
    (hout : StandsOutside before) (hword : c = '\uFEFF' → ¬EndsInWord before) (hc' : isBlank c' = true)
    (hword' : c' = '\uFEFF' → ¬EndsInWord before) : Composed tokens (before ++ c' :: after) := by
  generalize htext : before ++ c :: after = text at h
  -- By induction on the tokens: the blank is in the layout in front of one, or behind it.
  induction h generalizing before with
  | nil hlayout =>
    subst htext
    exact .nil (hlayout.replace_blank hc hout hc')
  | @comment layout comment hlayout hcomment =>
    rcases split_of_append_eq htext.symm with ⟨behind, rfl, rfl⟩ | ⟨front, rfl, rfl⟩
    · simpa using Composed.comment (hlayout.replace_blank hc hout hc') hcomment
    · cases hcomment.leads.outside_of_blank hc (hlayout.leads.standsOutside_append.1 hout)
  | @cons token tokens layout text hlayout hvalid hend hrest ih =>
    rcases split_of_append_eq htext.symm with ⟨behind, rfl, rfl⟩ | ⟨front, rfl, hmore⟩
    · simpa using Composed.cons (hlayout.replace_blank hc hout hc') hvalid hend hrest
    have hfront := hlayout.leads.standsOutside_append.1 hout
    rcases split_of_append_eq hmore with ⟨behind, hpiece, rfl⟩ | ⟨front, rfl, rfl⟩
    · -- The blank would be a part of the token.
      obtain ⟨hmark, hends⟩ := hvalid.endsInWord hpiece hc hfront
      exact absurd (hends.prepend layout) (hword hmark)
    · rw [List.append_assoc, List.append_assoc]
      have hmore := ih (hvalid.standsOutside_append.1 hfront)
        (fun hmark hends => hword hmark ((hends.prepend _).prepend _))
        (fun hmark hends => hword' hmark ((hends.prepend _).prepend _)) rfl
      refine .cons hlayout hvalid ?_ hmore
      -- The token still ends in front of what follows it, also if that is the blank.
      cases front with
      | nil =>
        refine hvalid.endsBefore_blank hc' (fun hmark hends => hword' hmark ?_) after
        simpa using hends.prepend layout
      | cons => exact hend.congr rfl

/-! ## Words that go on -/

/-- Layout ends with a blank or with the end of a comment. -/
theorem Layout.not_endsInWord (h : Layout layout) : ¬EndsInWord layout := by
  induction h with
  | nil => exact fun hends => by simpa using hends.getLast?
  | @blank d layout hd _ ih =>
    rintro ⟨word, hword, hvalid⟩
    rcases List.suffix_cons_iff.1 hword with rfl | hword
    · -- A word begins with no blank.
      obtain ⟨c, cs, heq, hstart, hne, -⟩ := hvalid
      obtain ⟨rfl, -⟩ := List.cons.inj heq
      exact hne ((blank_spec hd).1 (isWordChar_of_isWordStart hstart))
    · exact ih ⟨word, hword, hvalid⟩
  -- A comment ends with its closing sign or with the end of its line, and neither is in a word.
  | @block body layout hbody _ ih =>
    have hpiece : ¬EndsInWord ('/' :: '*' :: (body ++ ['*', '/'])) :=
      not_endsInWord_of_getLast? (c := '/') (by simp [List.getLast?_cons]) (by decide)
    intro hends
    have hpieces : EndsInWord ('/' :: '*' :: (body ++ ['*', '/']) ++ layout) := by simpa using hends
    exact hpieces.of_append.elim ih fun hends => hpiece hends.1
  | @line mark body layout stop hmark hbody hstop _ ih =>
    have hletter : ∀ stop ∈ lineEnds, isWordChar stop = false := forall_mem_of_all (by decide)
    have hpiece : ¬EndsInWord (mark ++ body ++ [stop]) :=
      not_endsInWord_of_getLast? (by simp) (hletter stop hstop)
    intro hends
    have hpieces : EndsInWord (mark ++ body ++ [stop] ++ layout) := by simpa using hends
    exact hpieces.of_append.elim ih fun hends => hpiece hends.1

/-- Only a word ends in a word. -/
theorem Valid.exists_word (h : token.Valid) (hends : EndsInWord token.text) : ∃ text, token = word text := by
  have hlast {c : Char} (hc : token.text.getLast? = some c) (hletter : isWordChar c = false) : False :=
    not_endsInWord_of_getLast? hc hletter hends
  cases token with
  | word text => exact ⟨text, rfl⟩
  | numeral text =>
    -- A numeral has no character with which a word begins.
    have hnumeral : ∀ c ∈ '.' :: '-' :: asciiDigits, isWordStart c = false := forall_mem_of_all (by decide)
    obtain ⟨_, hword, c, cs, rfl, hstart, -⟩ := hends
    have hfirst := hnumeral c (mem_of_isNumeral h c (hword.subset List.mem_cons_self))
    simp [hstart] at hfirst
  | quoted content => exact (hlast (c := '"') (by simp [Token.text, List.getLast?_cons]) (by decide)).elim
  | html content => exact (hlast (c := '>') (by simp [Token.text, List.getLast?_cons]) (by decide)).elim
  | operator kind => cases kind <;> exact (hlast rfl (by decide)).elim
  | mark c =>
    have hmarks : ∀ c ∈ marks, isWordChar c = false := forall_mem_of_all (by decide)
    exact (hlast rfl (hmarks c h)).elim

/-- Directly behind a word, a byte order mark between tokens is taken into the word, so the tokens change. -/
theorem Composed.lex_ne (h : Composed tokens (before ++ c :: after)) (hc : isBlank c = true)
    (hout : StandsOutside before) (hmark : c ≠ '\uFEFF') (hends : EndsInWord before) :
    lex (before ++ '\uFEFF' :: after) ≠ some tokens := by
  generalize htext : before ++ c :: after = text at h
  -- By induction up to the word, which is no part of the layout.
  induction h generalizing before with
  | nil hlayout =>
    subst htext
    exact absurd hends (hlayout.split hc hout).1.not_endsInWord
  | @comment layout comment hlayout hcomment =>
    rcases split_of_append_eq htext.symm with ⟨behind, rfl, rfl⟩ | ⟨front, rfl, rfl⟩
    · exact absurd hends (hlayout.split hc hout).1.not_endsInWord
    · cases hcomment.leads.outside_of_blank hc (hlayout.leads.standsOutside_append.1 hout)
  | @cons token tokens layout text hlayout hvalid hend hrest ih =>
    rcases split_of_append_eq htext.symm with ⟨behind, rfl, rfl⟩ | ⟨front, rfl, hmore⟩
    · exact absurd hends (hlayout.split hc hout).1.not_endsInWord
    have hfront := hlayout.leads.standsOutside_append.1 hout
    rcases split_of_append_eq hmore with ⟨behind, hpiece, rfl⟩ | ⟨front, rfl, rfl⟩
    · exact absurd (hvalid.endsInWord hpiece hc hfront).1 hmark
    rw [List.append_assoc, List.append_assoc]
    have htoken := hends.of_append.resolve_right fun h => hlayout.not_endsInWord h.1
    rcases htoken.of_append with hends | ⟨hends, hletters⟩
    · -- The word is behind the token, which ends where it did.
      cases front with
      | nil => exact absurd hends (by simpa using fun hends : EndsInWord [] => hends.getLast?)
      | cons d front =>
        have hends' : token.EndsBefore (d :: front ++ '\uFEFF' :: after) := hend.congr rfl
        intro hlex
        rw [lex_cons hlayout hvalid hends', Option.map_eq_some_iff] at hlex
        obtain ⟨more, hmore, heq⟩ := hlex
        obtain ⟨-, rfl⟩ := List.cons.inj heq
        exact ih (hvalid.standsOutside_append.1 hfront) hends rfl hmore
    · -- The token is the word. What follows it begins with no letter, so it is the blank.
      obtain ⟨text, rfl⟩ := hvalid.exists_word hends
      cases front with
      | cons d front => simp [hend d rfl] at hletters
      | nil =>
        intro hlex
        rw [lex_eq, dropLayout_layout hlayout, dropLayout_text hvalid, Option.bind_some, List.nil_append] at hlex
        split at hlex
        · cases hlex
        simp only [Option.bind_eq_some_iff, Option.map_eq_some_iff, Prod.exists] at hlex
        obtain ⟨token, rest, htake, more, -, heq⟩ := hlex
        obtain ⟨rfl, -⟩ := List.cons.inj heq
        obtain rfl := List.append_cancel_left (take?_spec htake).1
        exact absurd (endsBefore_of_taken (taken_of_take? htake) '\uFEFF' rfl) (by decide)

/-- The tokens of a text are the same behind another blank in the place of one that is skipped, unless a word takes
the blank in. -/
theorem lex_set_blank_iff {i : Nat} (h : lex text = some tokens) (hskip : SkippedAt text i) (hc : isBlank c = true) :
    lex (text.set i c) = some tokens ↔ (c = '\uFEFF' → ¬EndsInWord (text.take i)) := by
  obtain ⟨d, after, htext, hd, hout, hword, hset⟩ := hskip.exists_split
  have hcomposed := composed_of_lex h
  rw [htext] at hcomposed
  rw [hset]
  constructor
  -- A byte order mark behind a word would be one of its letters.
  · rintro hlex rfl hends
    exact hcomposed.lex_ne hd hout (fun hmark => hword hmark hends) hends hlex
  · exact fun hword' => lex_of_composed (hcomposed.replace_blank hd hout hword hc hword')

end Token

end DotLang
