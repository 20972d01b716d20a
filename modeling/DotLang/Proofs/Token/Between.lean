import DotLang.Proofs.Token.Composed

/-!
# What lies between two places

Tokens and layout between two places of a text, whatever stands behind the second one. Stretches that follow
one another are put together (`Between.trans`), which texts alone do not allow: what stands behind a token
tells where it ends. What has been passed is composed of these tokens (`Between.composed`).
-/

namespace DotLang.Token

/-- From one place of a text to a later one, tokens are passed, and layout before, between and behind them. -/
inductive Between : List Token → List Char → List Char → Prop where
  /-- Nothing is passed. -/
  | nil {rest : List Char} : Between [] rest rest
  /-- Layout is passed first. -/
  | layout {tokens : List Token} {layout cs rest : List Char} : Layout layout → Between tokens cs rest →
      Between tokens (layout ++ cs) rest
  /-- A comment is passed that goes to the end of the text. -/
  | comment {comment : List Char} : IsOpenComment comment → Between [] comment []
  /-- A token is passed first. -/
  | cons {token : Token} {tokens : List Token} {cs rest : List Char} : token.Valid → token.EndsBefore cs →
      Between tokens cs rest → Between (token :: tokens) (token.text ++ cs) rest

variable {token : Token} {tokens tokens' : List Token} {cs middle rest : List Char}

/-- At the end of a text there is nothing to pass. -/
theorem Between.eq_nil (h : Between tokens cs rest) (hcs : cs = []) : tokens = [] ∧ rest = [] := by
  induction h with
  | nil => exact ⟨rfl, hcs⟩
  | layout _ _ ih => exact ih (List.append_eq_nil_iff.1 hcs).2
  | comment _ => exact ⟨rfl, rfl⟩
  | cons hvalid _ _ _ =>
    obtain ⟨c, tail, htext, -⟩ := head_of_valid hvalid
    rw [htext] at hcs
    cases hcs

/-- Tokens between two places and tokens between the second and a third are those between the first and the
third. -/
theorem Between.trans (h : Between tokens cs middle) (h' : Between tokens' middle rest) :
    Between (tokens ++ tokens') cs rest := by
  induction h with
  | nil => exact h'
  | layout hlayout _ ih => exact .layout hlayout (ih h')
  | comment hcomment =>
    -- Behind an open comment there is nothing left to read.
    obtain ⟨rfl, rfl⟩ := h'.eq_nil rfl
    exact .comment hcomment
  | cons hvalid hend _ ih => exact .cons hvalid hend (ih h')

/-- A token that ends in front of a text ends in front of a part of it. -/
theorem EndsBefore.of_append (h : token.EndsBefore (cs ++ rest)) : token.EndsBefore cs := by
  rcases cs with _ | ⟨c, cs⟩
  · cases token with
    | word text | numeral text => exact fun c hc => absurd hc (by simp)
    | _ => trivial
  · exact h.congr rfl

/-- What has been passed is composed of the tokens. -/
theorem Between.composed (h : Between tokens cs rest) : ∃ read, cs = read ++ rest ∧ Composed tokens read := by
  induction h with
  | nil => exact ⟨[], rfl, .nil .nil⟩
  | @layout tokens layout cs rest hlayout _ ih =>
    obtain ⟨read, rfl, hread⟩ := ih
    exact ⟨layout ++ read, by simp, hread.prepend hlayout⟩
  | @comment comment hcomment => exact ⟨comment, by simp, .comment .nil hcomment⟩
  | @cons token tokens cs rest hvalid hend _ ih =>
    obtain ⟨read, rfl, hread⟩ := ih
    exact ⟨token.text ++ read, by simp, .cons .nil hvalid hend.of_append hread⟩

/-- There are no tokens in layout. -/
theorem between_of_behind (h : Behind cs rest) : Between [] cs rest := by
  obtain ⟨layout, tail, rfl, hlayout, htail⟩ := h
  refine .layout hlayout ?_
  rcases htail with rfl | ⟨rfl, hcomment⟩
  · exact .nil
  · exact .comment hcomment

/-- A token that the lexer takes is passed. -/
theorem between_of_take? (h : take? cs = some (token, rest)) (hcs : cs.head? ≠ some '\uFEFF') :
    Between [token] cs rest := by
  have htaken := taken_of_take? h
  obtain ⟨rfl, -⟩ := take?_spec h
  exact .cons (valid_of_taken htaken hcs) (endsBefore_of_taken htaken) .nil

end DotLang.Token
