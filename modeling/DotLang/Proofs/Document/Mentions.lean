import DotLang.Proofs.Document.Reader
import DotLang.Proofs.Token.Joined

/-!
# The identifiers that tokens mention

Which tokens make up an identifier, and which identifiers stand in ports, can be told from the tokens alone:
they mention identifiers in one way at most (`Mentions.unique`). With the lines of all strings joined, they
mention the same ones with their lines joined (`Mentions.strip`).
-/

namespace DotLang

open Token

namespace Token

/-- Whether tokens write an identifier. -/
def IsName (tokens : List Token) : Prop :=
  ∃ id : Id, id.Written tokens

/-- Whether a token is part of no identifier and does not tell where one stands. -/
def separates : Token → Bool
  | word text => Keyword.isKeyword text
  | operator _ => true
  | mark c => c ∉ [':', '+']
  | _ => false

/-- An identifier that is mentioned, given by its tokens. -/
inductive Mention where
  /-- One that stands outside ports. -/
  | name (tokens : List Token)
  /-- One that stands in a port. -/
  | portName (tokens : List Token)

/-- The tokens of the identifiers that are mentioned outside ports. -/
def Mention.names (mentions : List Mention) : List (List Token) :=
  mentions.filterMap fun
    | .name tokens => some tokens
    | .portName _ => none

/-- The identifiers that tokens mention, in order. -/
inductive Mentions : List Token → List Mention → Prop where
  /-- Nothing. -/
  | nil : Mentions [] []
  /-- A token that mentions nothing, and more behind it. -/
  | separator {token : Token} {tokens : List Token} {mentions : List Mention} : token.separates = true →
      Mentions tokens mentions → Mentions (token :: tokens) mentions
  /-- An identifier and more behind it. -/
  | name {name tokens : List Token} {mentions : List Mention} : IsName name →
      Mentions tokens mentions → Mentions (name ++ tokens) (.name name :: mentions)
  /-- An identifier behind a colon, which puts it into a port, and more behind it. -/
  | portName {name tokens : List Token} {mentions : List Mention} : IsName name →
      Mentions tokens mentions → Mentions (mark ':' :: (name ++ tokens)) (.portName name :: mentions)

variable {token : Token} {tokens tokens' name : List Token} {mentions mentions' : List Mention}

/-- Tokens, one stretch behind the other, mention what each stretch does. -/
theorem Mentions.append (h : Mentions tokens mentions) (h' : Mentions tokens' mentions') :
    Mentions (tokens ++ tokens') (mentions ++ mentions') := by
  induction h with
  | nil => exact h'
  | separator htoken _ ih => exact .separator htoken ih
  | name hname _ ih => simpa using Mentions.name hname ih
  | portName hname _ ih => simpa using Mentions.portName hname ih

/-! ## Tokens mention identifiers in one way at most -/

/-- A name begins with a token that can begin an identifier. -/
theorem IsName.begins (h : IsName name) : Begin beginsId name := by
  obtain ⟨id, hid⟩ := h
  exact hid.begins

/-- A token that begins an identifier neither separates names nor is a mark. -/
theorem not_separates_of_beginsId (h : token.beginsId = true) :
    token.separates = false ∧ ∀ c, token ≠ mark c := by
  cases token <;> simp_all [beginsId, separates]

/-- A plus sign goes on with the string before it, so it is never the first of the tokens behind an
identifier. -/
theorem Mentions.notAhead (h : Mentions tokens mentions) : NotAhead ['+'] tokens := by
  intro c hc hhead
  obtain rfl := List.mem_singleton.1 hc
  -- A plus sign stands only within a name, hence at no start of what is mentioned.
  cases h with
  | nil => cases hhead
  | separator htoken =>
    obtain rfl := Option.some.inj hhead
    simp [separates] at htoken
  | name hname =>
    obtain ⟨token, tail, rfl, htoken⟩ := hname.begins
    exact (not_separates_of_beginsId htoken).2 _ (Option.some.inj hhead)
  | portName => cases hhead

/-- An identifier is told from the tokens behind it. -/
theorem IsName.cancel {name' rest rest' : List Token} (h : IsName name) (h' : IsName name')
    (hrest : NotAhead ['+'] rest) (hrest' : NotAhead ['+'] rest') (heq : name ++ rest = name' ++ rest') :
    name = name' ∧ rest = rest' := by
  obtain ⟨id, hid⟩ := h
  obtain ⟨id', hid'⟩ := h'
  -- Whoever reads an identifier from these tokens is left with the rest.
  have hread := readId_of_written hid hrest
  rw [heq, readId_of_written hid' hrest'] at hread
  obtain ⟨-, rfl⟩ := Prod.mk.inj (Option.some.inj hread)
  exact ⟨List.append_cancel_right heq, rfl⟩

/-- No tokens mention nothing. -/
theorem Mentions.of_nil (h : Mentions [] mentions) : mentions = [] := by
  generalize hnothing : [] = tokens at h
  cases h with
  | nil => rfl
  -- Whatever is mentioned takes a token at least.
  | separator | portName => cases hnothing
  | name hname =>
    obtain ⟨token, tail, rfl, -⟩ := hname.begins
    cases hnothing

/-- A token that separates is never the first one of an identifier or of a port. -/
theorem Mentions.of_separator (h : Mentions (token :: tokens) mentions) (htoken : token.separates = true) :
    Mentions tokens mentions := by
  generalize hall : token :: tokens = all at h
  cases h with
  | nil => cases hall
  | separator _ hmore =>
    obtain ⟨-, rfl⟩ := List.cons.inj hall
    exact hmore
  -- No name begins with a token that separates names.
  | name hname =>
    obtain ⟨first, tail, rfl, hfirst⟩ := hname.begins
    obtain ⟨rfl, -⟩ := List.cons.inj hall
    simp [(not_separates_of_beginsId hfirst).1] at htoken
  | portName =>
    obtain ⟨rfl, -⟩ := List.cons.inj hall
    simp [separates] at htoken

/-- Tokens that begin with an identifier mention it first. -/
theorem Mentions.of_name (h : Mentions (name ++ tokens) mentions) (hname : IsName name)
    (htokens : NotAhead ['+'] tokens) :
    ∃ more, mentions = .name name :: more ∧ Mentions tokens more := by
  obtain ⟨first, tail, hcons, hfirst⟩ := hname.begins
  generalize hall : name ++ tokens = all at h
  cases h with
  | nil => simp [hcons] at hall
  | separator htoken =>
    rw [hcons] at hall
    obtain ⟨rfl, -⟩ := List.cons.inj hall
    simp [(not_separates_of_beginsId hfirst).1] at htoken
  -- Both names are in front, and neither goes on with a plus sign, so they are the same.
  | name hname' hmore =>
    obtain ⟨rfl, rfl⟩ := hname.cancel hname' htokens hmore.notAhead hall
    exact ⟨_, rfl, hmore⟩
  | portName =>
    rw [hcons] at hall
    exact absurd (List.cons.inj hall).1 ((not_separates_of_beginsId hfirst).2 _)

/-- Tokens that begin with a colon mention the identifier behind it first, as one in a port. -/
theorem Mentions.of_portName (h : Mentions (mark ':' :: (name ++ tokens)) mentions) (hname : IsName name)
    (htokens : NotAhead ['+'] tokens) :
    ∃ more, mentions = .portName name :: more ∧ Mentions tokens more := by
  generalize hall : mark ':' :: (name ++ tokens) = all at h
  cases h with
  | nil => cases hall
  | separator htoken =>
    obtain ⟨rfl, -⟩ := List.cons.inj hall
    simp [separates] at htoken
  | name hname' =>
    obtain ⟨first, tail, rfl, hfirst⟩ := hname'.begins
    exact absurd (List.cons.inj hall).1.symm ((not_separates_of_beginsId hfirst).2 _)
  -- Behind the colon, both names are in front.
  | portName hname' hmore =>
    obtain ⟨-, heq⟩ := List.cons.inj hall
    obtain ⟨rfl, rfl⟩ := hname.cancel hname' htokens hmore.notAhead heq
    exact ⟨_, rfl, hmore⟩

/-- Tokens mention identifiers in one way at most. -/
theorem Mentions.unique (h : Mentions tokens mentions) (h' : Mentions tokens mentions') :
    mentions = mentions' := by
  -- What comes first among the tokens decides what they mention first.
  induction h generalizing mentions' with
  | nil => exact h'.of_nil.symm
  | separator htoken _ ih => exact ih (h'.of_separator htoken)
  | name hname hmore ih =>
    obtain ⟨more, rfl, hmore'⟩ := h'.of_name hname hmore.notAhead
    rw [ih hmore']
  | portName hname hmore ih =>
    obtain ⟨more, rfl, hmore'⟩ := h'.of_portName hname hmore.notAhead
    rw [ih hmore']

/-! ## Joined lines -/

@[simp] theorem strip_word (text : List Char) : (word text).strip = word text := rfl

@[simp] theorem strip_operator (kind : GraphKind) : (operator kind).strip = operator kind := rfl

@[simp] theorem strip_mark (c : Char) : (mark c).strip = mark c := rfl

/-- Strings that are joined still are, with the lines of each of them joined. -/
theorem exists_joined_strip {value : List Char} (h : Id.Joined value name) :
    ∃ value', Id.Joined value' (name.map Token.strip) := by
  induction h with
  | single content => exact ⟨_, .single _⟩
  | more content _ ih =>
    obtain ⟨value', hvalue'⟩ := ih
    exact ⟨_, .more _ hvalue'⟩

/-- Joining lines leaves an identifier an identifier. -/
theorem exists_written_strip {id : Id} (h : id.Written name) : ∃ id' : Id, id'.Written (name.map Token.strip) := by
  cases id with
  | identifier value =>
    obtain ⟨rfl, hkeyword⟩ := h
    exact ⟨.identifier value, rfl, hkeyword⟩
  | numeral value =>
    obtain rfl := h
    exact ⟨.numeral value, rfl⟩
  | html value =>
    obtain rfl := h
    exact ⟨_, Id.written_html _⟩
  -- Only strings have lines to be joined.
  | quoted value =>
    obtain ⟨value', hvalue'⟩ := exists_joined_strip h
    exact ⟨_, Id.written_quoted hvalue'⟩

/-- What is mentioned, with the lines of all strings joined. -/
def Mention.strip : Mention → Mention
  | .name tokens => .name (tokens.map Token.strip)
  | .portName tokens => .portName (tokens.map Token.strip)

/-- Joining the lines of what is mentioned joins the lines of the names. -/
theorem Mention.names_strip (mentions : List Mention) :
    names (mentions.map Mention.strip) = (names mentions).map (List.map Token.strip) := by
  induction mentions with
  | nil => rfl
  | cons mention mentions ih => cases mention <;> simpa [names, Mention.strip] using ih

/-- Tokens with the lines of their strings joined mention the same, with its lines joined. -/
theorem Mentions.strip (h : Mentions tokens mentions) :
    Mentions (tokens.map Token.strip) (mentions.map Mention.strip) := by
  have hstripped : ∀ {name}, IsName name → IsName (name.map Token.strip) := fun ⟨_, hid⟩ => exists_written_strip hid
  induction h with
  | nil => exact .nil
  | @separator token _ _ htoken _ ih =>
    -- A token between identifiers is no string.
    have hkept : token.strip = token := by cases token <;> simp_all [separates, Token.strip]
    simpa [hkept] using Mentions.separator htoken ih
  | name hname _ ih => simpa [Mention.strip] using Mentions.name (hstripped hname) ih
  | portName hname _ ih => simpa [Mention.strip] using Mentions.portName (hstripped hname) ih

end Token

end DotLang
