import DotLang.Proofs.Token.Layout
import DotLang.Proofs.Token.Valid

/-!
# What a text is composed of

A text that has tokens is composed of them and of layout: layout stands in front of each token and behind
the last one, and each token ends in front of what follows it. Conversely the lexer finds the tokens that
a text is composed of (`lex_eq_some_iff`). So what is true of every text that has tokens can be shown piece
by piece.
-/

namespace DotLang.Token

/-- Texts that are composed of tokens and layout. -/
inductive Composed : List Token → List Char → Prop where
  /-- Layout behind the last token. -/
  | nil {layout : List Char} : Layout layout → Composed [] layout
  /-- Layout behind the last token and a comment that goes to the end of the text. -/
  | comment {layout comment : List Char} : Layout layout → IsOpenComment comment →
      Composed [] (layout ++ comment)
  /-- Layout and a token, which ends in front of the pieces behind it. -/
  | cons {token : Token} {tokens : List Token} {layout text : List Char} : Layout layout → token.Valid →
      token.EndsBefore text → Composed tokens text → Composed (token :: tokens) (layout ++ (token.text ++ text))

variable {token : Token} {tokens : List Token} {layout rest text : List Char}

/-- Layout may be put in front of a text. -/
theorem Composed.prepend (h : Composed tokens text) (hlayout : Layout layout) :
    Composed tokens (layout ++ text) := by
  cases h with
  | nil hlayout' => exact .nil (hlayout.append hlayout')
  | comment hlayout' hcomment =>
    rw [← List.append_assoc]
    exact .comment (hlayout.append hlayout') hcomment
  | cons hlayout' hvalid hend hcomposed =>
    rw [← List.append_assoc]
    exact .cons (hlayout.append hlayout') hvalid hend hcomposed

/-! ## How tokens begin -/

/-- The characters with which a token other than a word can begin. -/
def otherStarts : List Char := '-' :: '.' :: '"' :: '<' :: (asciiDigits ++ marks)

/-- A numeral without a sign begins with a digit or a point. -/
theorem head_of_isUnsigned {text : List Char} (h : Text.IsUnsigned text) :
    ∃ c tail, text = c :: tail ∧ c ∈ otherStarts := by
  have hdigit : ∀ {digits rest : List Char}, Text.AreDigits digits → digits ≠ [] →
      ∃ c tail, digits ++ rest = c :: tail ∧ c ∈ otherStarts := by
    intro digits rest hdigits hne
    obtain ⟨c, tail, rfl⟩ := List.exists_cons_of_ne_nil hne
    refine ⟨c, tail ++ rest, rfl, ?_⟩
    simp [otherStarts, mem_asciiDigits (hdigits c List.mem_cons_self)]
  cases h with
  | fraction => exact ⟨'.', _, rfl, by decide⟩
  | whole hdigits hne => exact List.append_nil text ▸ hdigit hdigits hne
  | both hdigits hne => exact hdigit hdigits hne

/-- A valid token begins with the start of a word, or with one of the other starts. -/
theorem head_of_valid (h : token.Valid) :
    ∃ c tail, token.text = c :: tail ∧
      ((Text.isWordStart c = true ∧ c ≠ '\uFEFF') ∨ c ∈ otherStarts) := by
  cases token with
  | word text =>
    obtain ⟨c, cs, rfl, hstart, hmark, -⟩ := h
    exact ⟨c, cs, rfl, .inl ⟨hstart, hmark⟩⟩
  | numeral text =>
    cases h with
    | plain h =>
      obtain ⟨c, tail, rfl, hc⟩ := head_of_isUnsigned h
      exact ⟨c, tail, rfl, .inr hc⟩
    | negative => exact ⟨'-', _, rfl, .inr (by decide)⟩
  | quoted content => exact ⟨'"', _, rfl, .inr (by decide)⟩
  | html content => exact ⟨'<', _, rfl, .inr (by decide)⟩
  | operator kind => cases kind <;> exact ⟨'-', _, rfl, .inr (by decide)⟩
  | mark c => exact ⟨c, [], rfl, .inr (by simp [otherStarts, show c ∈ marks from h])⟩

/-- Layout ends where a token begins. -/
theorem dropLayout_text (h : token.Valid) : dropLayout (token.text ++ rest) = some (token.text ++ rest) := by
  obtain ⟨c, tail, heq, hc⟩ := head_of_valid h
  -- No token begins with a blank or with the first character of a comment.
  have hlayout : c ≠ '/' ∧ c ≠ '#' ∧ Text.isBlank c = false := by
    rcases hc with ⟨hstart, hmark⟩ | hc
    · have hne : ∀ d, Text.isWordStart d = false → c ≠ d := by
        rintro _ hd rfl
        simp [hstart] at hd
      refine ⟨hne _ (by decide), hne _ (by decide), ?_⟩
      simp [Text.isBlank, hne ' ' (by decide), hne '\t' (by decide), hne '\r' (by decide),
        hne '\n' (by decide), hmark]
    · have hother : ∀ c ∈ otherStarts, c ≠ '/' ∧ c ≠ '#' ∧ Text.isBlank c = false :=
        forall_mem_of_all (by decide)
      exact hother c hc
  rw [heq, List.cons_append, dropLayout_cons (fun _ h => absurd h hlayout.1)
    (fun _ h => absurd h hlayout.1) hlayout.2.1, hlayout.2.2]
  rfl

/-! ## Composition and the lexer -/

/-- The lexer goes on behind layout and a token that ends in front of what follows it. -/
theorem lex_cons (hlayout : Layout layout) (hvalid : token.Valid) (hend : token.EndsBefore text) :
    lex (layout ++ (token.text ++ text)) = (lex text).map (token :: ·) := by
  have htake := take?_of_endsBefore hvalid hend
  rw [lex_eq, dropLayout_layout hlayout, dropLayout_text hvalid, Option.bind_some,
    if_neg (by simp [(take?_spec htake).2]), htake, Option.bind_some]

/-- The lexer gives the tokens of which a text is composed. -/
theorem lex_of_composed (h : Composed tokens text) : lex text = some tokens := by
  induction h with
  -- Layout alone is dropped to the end of the text.
  | nil hlayout =>
    have hdrop : dropLayout _ = some [] := List.append_nil _ ▸ dropLayout_layout hlayout
    rw [lex_eq, hdrop]
    rfl
  | comment hlayout hcomment =>
    rw [lex_eq, dropLayout_layout hlayout, dropLayout_isOpenComment hcomment]
    rfl
  | cons hlayout hvalid hend _ ih => rw [lex_cons hlayout hvalid hend, ih, Option.map_some]

/-- A text is composed of the tokens that the lexer gives. -/
theorem composed_of_lex (h : lex text = some tokens) : Composed tokens text := by
  -- By induction on the length of the text, which the first token makes shorter.
  induction hn : text.length using Nat.strongRecOn generalizing text tokens
  rename_i length ih
  subst hn
  rw [lex_eq, Option.bind_eq_some_iff] at h
  obtain ⟨rest, hrest, h⟩ := h
  obtain ⟨layout, tail, rfl, hlayout, htail⟩ := behind_of_dropLayout hrest
  split at h
  next hnil =>
    obtain rfl := Option.some.inj h
    rcases htail with rfl | ⟨-, hcomment⟩
    · rw [hnil, List.append_nil]
      exact .nil hlayout
    · exact .comment hlayout hcomment
  next hne =>
    -- Something is left, so it is all that is behind the layout, and begins with a token.
    obtain rfl := htail.resolve_right fun hcomment => hne hcomment.1
    simp only [Option.bind_eq_some_iff, Option.map_eq_some_iff, Prod.exists] at h
    obtain ⟨token, after, htake, more, hmore, rfl⟩ := h
    have htaken := taken_of_take? htake
    obtain ⟨rfl, -⟩ := take?_spec htake
    have hshorter := length_lt_of_take? htake
    exact .cons hlayout (valid_of_taken htaken (head?_of_dropLayout hrest)) (endsBefore_of_taken htaken)
      (ih after.length (by rw [List.length_append]; omega) hmore rfl)

/-- The lexer finds the tokens that a text is composed of, and no others. -/
theorem lex_eq_some_iff : lex text = some tokens ↔ Composed tokens text :=
  ⟨composed_of_lex, lex_of_composed⟩

/-- The tokens of a text are valid. -/
theorem valid_of_lex (h : lex text = some tokens) : ∀ token ∈ tokens, token.Valid := by
  induction composed_of_lex h with
  | nil | comment => simp
  | cons _ hvalid _ hcomposed ih =>
    exact List.forall_mem_cons.2 ⟨hvalid, ih (lex_of_composed hcomposed)⟩

end DotLang.Token
