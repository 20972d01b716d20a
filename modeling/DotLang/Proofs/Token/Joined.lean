import DotLang.Proofs.Text.Joined
import DotLang.Proofs.Token.Region

/-!
# Joined lines and the lexer

If no continued line has its backslash in a comment, joining the lines of a text changes its strings only:
the tokens of the joined text are those of the text, with the lines of each string joined
(`lex_strip`). No string gets another end, as long as no pair of backslashes in it is continued, and
no two tokens grow together, because no marker is outside strings and comments.
-/

namespace DotLang.Token

open Text Continuation

/-- A token with the continued lines of its content joined. -/
def strip : Token → Token
  | quoted content => quoted (Continuation.strip content)
  | html content => html (Continuation.strip content)
  | token => token

variable {token : Token} {tokens : List Token} {layout comment piece rest text : List Char}
variable {P : Char → Region → Prop}

/-! ## Layout -/

/-- Whether no continuation marker of a text has its backslash in a comment. -/
def SparesComments (text : List Char) : Prop :=
  ∀ i, MarkerAt text i → (regions text)[i]? ≠ some .comment

instance (text : List Char) : Decidable (SparesComments text) :=
  decidable_of_iff (∀ i < text.length, MarkerAt text i → (regions text)[i]? ≠ some .comment)
    ⟨fun h i hmarker => h i hmarker.lt hmarker, fun h i _ => h i⟩

/-- Behind a piece that leaves no region open, comments are spared if they are in the whole text. -/
theorem SparesComments.of_append (h : SparesComments (piece ++ rest))
    (hpiece : Leads P .outside piece .outside) : SparesComments rest := by
  intro i hmarker
  have hregion := h (piece.length + i) (by
    rw [MarkerAt, Nat.add_assoc, List.getElem?_append_right (by omega), List.getElem?_append_right (by omega)]
    simpa [MarkerAt] using hmarker)
  rwa [hpiece.getElem?_regions rest i] at hregion

/-- In layout, only comments have backslashes. -/
theorem not_markerAt_of_layout (h : Layout layout) (hspares : SparesComments (layout ++ rest)) :
    ∀ i < layout.length, ¬MarkerAt (layout ++ rest) i := by
  intro i hi hmarker
  have hslash : layout[i]? = some '\\' := List.getElem?_append_left hi ▸ hmarker.1
  obtain ⟨region, hregion, hin⟩ := h.leads.exists_region rest hslash
  rcases hin with rfl | ⟨-, hblank⟩
  · exact hspares i hmarker hregion
  · exact absurd hblank (by decide)

/-- A comment without an end has no line feed, hence no marker. -/
theorem strip_isOpenComment (h : IsOpenComment comment) : Continuation.strip comment = comment := by
  refine strip_eq_self fun hwithin => ?_
  have hmem : '\n' ∈ comment := hwithin.subset (by simp [marker])
  obtain ⟨mark, hmark, body, rfl, hbody⟩ := h
  -- A marker would bring a line feed into the comment, which ends before one.
  rcases List.mem_append.1 hmem with hmem | hmem
  · simp only [lineMarks, List.mem_cons, List.not_mem_nil, or_false] at hmark
    rcases hmark with rfl | rfl <;> simp at hmem
  · exact hbody '\n' hmem (by simp [lineEnds])

/-! ## Tokens -/

/-- Only strings have backslashes. -/
theorem notMem_slash_of_not_isString (h : token.Valid) (hstring : token.isString = false) :
    '\\' ∉ token.text :=
  fun hmem => not_mem_of_not_isString h hstring '\\' hmem List.mem_cons_self

/-- No marker begins at the end of a token. -/
theorem Valid.not_meetInMarker (h : token.Valid) : ¬MeetInMarker token.text rest := by
  rintro ⟨hslash, -⟩
  rcases hstring : token.isString with _ | _
  · exact notMem_slash_of_not_isString h hstring (List.mem_of_getLast? hslash)
  · cases token with
    | quoted content | html content => simp [Token.text, List.getLast?_cons] at hslash
    | word | numeral | operator | mark => cases hstring

/-- The lines of a string that has one character before its content and one behind it. -/
theorem strip_delimited {first last : Char} (hfirst : first ≠ '\\') (hlast : last ≠ '\n' ∧ last ≠ '\\')
    (content : List Char) :
    Continuation.strip (first :: (content ++ [last])) = first :: (Continuation.strip content ++ [last]) := by
  rw [strip_cons (by simp [MeetInMarker, hfirst]), strip_append (by simp [MeetInMarker, hlast.1]),
    strip_cons (by simp [MeetInMarker])]
  rfl

/-- Joining the lines of what is written for a token joins those of its content. -/
theorem Valid.strip_text (h : token.Valid) : Continuation.strip token.text = token.strip.text := by
  -- Only strings can hold a backslash, and so a marker.
  rcases hstring : token.isString with _ | _
  · have hkept : Continuation.strip token.text = token.text := strip_eq_self fun hwithin =>
      notMem_slash_of_not_isString h hstring (hwithin.subset (by simp [marker]))
    rw [hkept]
    cases token with
    | quoted | html => cases hstring
    | word | numeral | operator | mark => rfl
  · cases token with
    | quoted content => exact strip_delimited (by decide) (by decide) content
    | html content => exact strip_delimited (by decide) (by decide) content
    | word | numeral | operator | mark => cases hstring

/-- Whether a token is a quoted string in which a pair of backslashes is continued. -/
def PairContinued : Token → Prop
  | quoted content => Quoted.PairContinued content
  | _ => False

/-- A valid token stays valid when its lines are joined, unless a pair in it is continued. -/
theorem Valid.strip (h : token.Valid) (hpairs : ¬token.PairContinued) : token.strip.Valid := by
  cases token with
  | quoted content =>
    obtain ⟨value, hvalue, rfl⟩ := h
    exact ⟨_, (hvalue.paired.strip hpairs).isQuotable, Quoted.strip_escape value⟩
  | html content => exact isBalanced_iff.2 (isBalanced_iff.1 h).strip
  | word | numeral | operator | mark => exact h

/-- A token still ends where it did when lines are joined, unless the text behind it begins with a backslash. -/
theorem EndsBefore.strip (h : token.EndsBefore text) (hhead : text.head? ≠ some '\\') :
    token.strip.EndsBefore (Continuation.strip text) := by
  have hkept := h.congr (head?_strip hhead)
  cases token with
  | quoted | html => trivial
  | word | numeral | operator | mark => exact hkept

/-! ## Texts -/

/-- A backslash at the start of a text would be outside any region. -/
theorem Composed.head?_ne (h : Composed tokens text) : text.head? ≠ some '\\' := by
  intro hhead
  obtain ⟨rest, rfl⟩ := List.head?_eq_some_iff.1 hhead
  obtain ⟨state, hleads⟩ := h.leads
  obtain ⟨region, hregion, hguarded⟩ := hleads.exists_region [] (show ('\\' :: rest)[0]? = some '\\' from rfl)
  rw [List.append_nil, regions, regionsFrom_outside (by decide)] at hregion
  exact hguarded rfl (Option.some.inj hregion).symm

/-- A text with its lines joined is composed of the tokens with theirs joined, if no comment has a backslash
before its end and no pair is continued. -/
theorem Composed.strip (h : Composed tokens text) (hspares : SparesComments text)
    (hpairs : ∀ token ∈ tokens, ¬token.PairContinued) :
    Composed (tokens.map Token.strip) (Continuation.strip text) := by
  induction h with
  | @nil layout hlayout =>
    have hspares' : SparesComments (layout ++ []) := by rwa [List.append_nil]
    have hstrip := strip_append_of_not_markerAt (not_markerAt_of_layout hlayout hspares')
    rw [List.append_nil] at hstrip
    rw [hstrip, Continuation.strip, List.append_nil]
    exact .nil hlayout
  | comment hlayout hcomment =>
    rw [strip_append_of_not_markerAt (not_markerAt_of_layout hlayout hspares), strip_isOpenComment hcomment]
    exact .comment hlayout hcomment
  | @cons token tokens layout text hlayout hvalid hend hrest ih =>
    rw [List.forall_mem_cons] at hpairs
    -- The layout is kept, and the token and the text behind it are joined on their own.
    rw [strip_append_of_not_markerAt (not_markerAt_of_layout hlayout hspares),
      strip_append hvalid.not_meetInMarker, hvalid.strip_text]
    have hspares' := (hspares.of_append hlayout.leads).of_append hvalid.leads
    exact .cons hlayout (hvalid.strip hpairs.1) (hend.strip hrest.head?_ne) (ih hspares' hpairs.2)

/-- The lexer finds the tokens of a text again when its lines are joined, with those of the strings joined. -/
theorem lex_strip (h : lex text = some tokens) (hspares : SparesComments text)
    (hpairs : ∀ token ∈ tokens, ¬token.PairContinued) :
    lex (Continuation.strip text) = some (tokens.map Token.strip) :=
  lex_of_composed ((composed_of_lex h).strip hspares hpairs)

end DotLang.Token
