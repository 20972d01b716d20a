import DotLang.Proofs.Document.Ahead
import DotLang.Token.Reader

/-!
# The reader of tokens

The predictive reader accepts exactly the tokens by which a document can be written. What it reads is
written by the tokens it has passed (`Document.written_of_ofTokens?`), and it reads whatever is written,
given what may follow (`Document.ofTokens?_of_written`). Its bound on nested calls is never reached.
-/

namespace DotLang

open Token

namespace Token.Reader

variable {α β : Type}

@[simp] theorem bind_apply (reader : Reader α) (later : α → Reader β) (tokens : List Token) :
    (reader >>= later) tokens = (reader tokens).bind fun result => later result.1 result.2 := rfl

/-- Changing what a reader gives changes nothing about what it leaves. -/
@[simp] theorem map_apply (f : α → β) (reader : Reader α) (tokens : List Token) :
    (f <$> reader) tokens = (reader tokens).map fun result => (f result.1, result.2) := by
  have hmap : (f <$> reader) tokens = (reader tokens).bind fun result => some (f result.1, result.2) := rfl
  rw [hmap]
  rcases reader tokens <;> rfl

@[simp] theorem pure_apply (value : α) (tokens : List Token) :
    (pure value : Reader α) tokens = some (value, tokens) := rfl

@[simp] theorem failure_apply (tokens : List Token) : (failure : Reader α) tokens = none := rfl

@[simp] theorem peek_apply (tokens : List Token) : peek tokens = some (tokens.head?, tokens) := rfl

@[simp] theorem skip_apply (tokens : List Token) : skip tokens = some ((), tokens.tail) := rfl

/-- A token is expected with success exactly where it is next. -/
theorem expect_eq_some_iff {token : Token} {tokens rest : List Token} {value : Unit} :
    expect token tokens = some (value, rest) ↔ tokens = token :: rest := by
  rcases tokens with _ | ⟨head, tail⟩
  · simp [expect]
  · by_cases h : head = token
    · simp [expect, h]
    · simp [expect, h]

/-- A token that may be skipped is skipped where it is next. -/
theorem skipIf_cons (token : Token) (tokens : List Token) :
    skipIf token (token :: tokens) = some ((), tokens) := by
  simp [skipIf]

/-- Nothing is skipped where another token is next. -/
theorem skipIf_of_ne {token : Token} {tokens : List Token} (h : tokens.head? ≠ some token) :
    skipIf token tokens = some ((), tokens) := by
  simp [skipIf, h]

/-- A mark that may be skipped is one of the marks that may stand there. -/
theorem skipIf_of_optional {c : Char} {separator rest : List Token} (h : Optional [c] separator)
    (hrest : NotAhead [c] rest) : skipIf (.mark c) (separator ++ rest) = some ((), rest) := by
  rcases h with rfl | ⟨d, hd, rfl⟩
  · exact skipIf_of_ne (hrest c List.mem_cons_self)
  · obtain rfl := List.mem_singleton.1 hd
    exact skipIf_cons _ _

/-- What is skipped is a mark that may be missing. -/
theorem optional_of_skipIf {c : Char} {tokens rest : List Token} {value : Unit}
    (h : skipIf (.mark c) tokens = some (value, rest)) :
    ∃ separator, Optional [c] separator ∧ tokens = separator ++ rest := by
  by_cases hnext : tokens.head? = some (.mark c)
  · obtain ⟨tail, rfl⟩ := List.head?_eq_some_iff.1 hnext
    rw [skipIf_cons] at h
    cases h
    exact ⟨[.mark c], .inr ⟨c, by simp, rfl⟩, rfl⟩
  · rw [skipIf_of_ne hnext] at h
    cases h
    exact ⟨[], .inl rfl, rfl⟩

/-- A reader has passed some tokens that have a property. -/
def Passed (W : List Token → Prop) (tokens rest : List Token) : Prop :=
  ∃ read, tokens = read ++ rest ∧ W read

end Token.Reader

namespace Token

open Reader

variable {tokens rest : List Token}

/-! ## Identifiers -/

section

variable (tokens)

/-- A word is an identifier, unless it is a keyword. -/
theorem readId_word (text : List Char) :
    readId (.word text :: tokens) =
      if Keyword.isKeyword text then none else some (.identifier (String.ofList text), tokens) := by
  by_cases h : Keyword.isKeyword text <;> simp [readId, h]

/-- A numeral is an identifier. -/
theorem readId_numeral (text : List Char) :
    readId (.numeral text :: tokens) = some (.numeral (String.ofList text), tokens) := rfl

/-- An HTML string is an identifier. -/
theorem readId_html (content : List Char) :
    readId (.html content :: tokens) = some (.html (String.ofList content), tokens) := rfl

/-- A quoted string is an identifier together with those behind plus signs. -/
theorem readId_quoted (content : List Char) :
    readId (.quoted content :: tokens) =
      (readMoreQuoted tokens).map fun (more, rest) =>
        (.quoted (String.ofList (Text.Quoted.unescape content ++ more)), rest) := by
  simp only [readId, bind_apply, peek_apply, skip_apply, Option.bind_some, List.head?_cons, List.tail_cons]
  rcases readMoreQuoted tokens <;> rfl

end

/-- No identifier is read where the next token begins none. -/
theorem readId_eq_none (h : ∀ token ∈ tokens.head?, token.beginsId = false) : readId tokens = none := by
  rcases tokens with _ | ⟨token, tokens⟩
  · rfl
  · have htoken := h token rfl
    cases token with
    | word text =>
      -- A word that begins no identifier is a keyword.
      have hkeyword : Keyword.isKeyword text = true := by simpa [beginsId] using htoken
      rw [readId_word, if_pos hkeyword]
    | operator kind => rfl
    | mark c => rfl
    | numeral text => simp [beginsId] at htoken
    | quoted content => simp [beginsId] at htoken
    | html content => simp [beginsId] at htoken

/-- The strings behind plus signs are joined to the one in front of them. -/
theorem joined_of_readMoreQuoted {more : List Char} (h : readMoreQuoted tokens = some (more, rest))
    (content : List Char) :
    Passed (Id.Joined (Text.Quoted.unescape content ++ more)) (.quoted content :: tokens) rest := by
  fun_induction readMoreQuoted tokens generalizing more content with
  | case1 next tokens ih =>
    simp only [Option.bind_eq_bind, Option.bind_eq_some_iff, Prod.exists, Option.pure_def,
      Option.some.injEq, Prod.mk.injEq] at h
    obtain ⟨inner, rest, hinner, rfl, rfl⟩ := h
    obtain ⟨read, hread, hjoined⟩ := ih hinner next
    exact ⟨.quoted content :: .mark '+' :: read, by rw [hread]; rfl, .more content hjoined⟩
  | case2 => cases h
  | case3 tokens =>
    cases h
    exact ⟨[.quoted content], rfl, by simpa using .single content⟩

/-- What is read as an identifier writes it. -/
theorem written_of_readId {id : Id} (h : readId tokens = some (id, rest)) :
    Passed id.Written tokens rest := by
  rcases tokens with _ | ⟨token, tokens⟩
  · rw [readId_eq_none (by simp)] at h
    cases h
  -- A token that begins no identifier is not read; each of the others writes one.
  · cases token with
    | word text =>
      rw [readId_word] at h
      split at h
      next => simp at h
      next hkeyword =>
        simp only [Option.some.injEq, Prod.mk.injEq] at h
        obtain ⟨rfl, rfl⟩ := h
        exact ⟨[.word text], rfl, Id.written_identifier (by simpa using hkeyword)⟩
    | numeral text =>
      rw [readId_numeral] at h
      cases h
      exact ⟨[.numeral text], rfl, Id.written_numeral text⟩
    | html content =>
      rw [readId_html] at h
      cases h
      exact ⟨[.html content], rfl, Id.written_html content⟩
    | quoted content =>
      rw [readId_quoted] at h
      simp only [Option.map_eq_some_iff, Prod.exists, Prod.mk.injEq] at h
      obtain ⟨more, rest, hmore, rfl, rfl⟩ := h
      obtain ⟨read, hread, hjoined⟩ := joined_of_readMoreQuoted hmore content
      exact ⟨read, hread, Id.written_quoted hjoined⟩
    | operator kind =>
      rw [readId_eq_none (by simp [beginsId])] at h
      cases h
    | mark c =>
      rw [readId_eq_none (by simp [beginsId])] at h
      cases h

/-- Where no plus sign is ahead, no more strings follow. -/
theorem readMoreQuoted_of_notAhead (h : NotAhead ['+'] rest) : readMoreQuoted rest = some ([], rest) := by
  exact readMoreQuoted_of_head?_ne (h '+' List.mem_cons_self)

/-- Strings that are joined are read as one identifier. -/
theorem readId_of_joined {value : List Char} (h : Id.Joined value tokens) (hrest : NotAhead ['+'] rest) :
    readId (tokens ++ rest) = some (.quoted (String.ofList value), rest) := by
  -- What follows the first string is read by the function for strings behind plus signs.
  have hmore : ∀ {value tokens}, Id.Joined value tokens →
      readMoreQuoted (.mark '+' :: (tokens ++ rest)) = some (value, rest) := by
    intro value tokens h
    induction h with
    | single content => simp [readMoreQuoted, readMoreQuoted_of_notAhead hrest]
    | more content _ ih => simp [readMoreQuoted, ih]
  cases h with
  | single content => simp [readId_quoted, readMoreQuoted_of_notAhead hrest]
  | more content h => simp [readId_quoted, hmore h]

/-- An identifier is read as it is written, in front of anything but a plus sign. -/
theorem readId_of_written {id : Id} (h : id.Written tokens) (hrest : NotAhead ['+'] rest) :
    readId (tokens ++ rest) = some (id, rest) := by
  cases id with
  | identifier value =>
    obtain ⟨rfl, hkeyword⟩ := h
    simp [readId_word, hkeyword]
  | numeral value =>
    obtain rfl := h
    simp [readId_numeral]
  | quoted value =>
    -- Only strings could go on behind a plus sign, so only here does it matter what follows.
    rw [readId_of_joined h hrest, String.ofList_toList]
  | html value =>
    obtain rfl := h
    simp [readId_html]

/-! ## Attributes -/

/-- What is read as an attribute writes it. -/
theorem written_of_readAttribute {pair : Attribute} (h : readAttribute tokens = some (pair, rest)) :
    Passed pair.Written tokens rest := by
  simp only [readAttribute, bind_apply, pure_apply, Option.bind_eq_some_iff, Prod.exists,
    expect_eq_some_iff, Option.some.injEq, Prod.mk.injEq] at h
  obtain ⟨key, _, hkey, _, _, rfl, value, rest, hvalue, rfl, rfl⟩ := h
  obtain ⟨read, hread, hkeyWritten⟩ := written_of_readId hkey
  obtain ⟨read', rfl, hvalueWritten⟩ := written_of_readId hvalue
  exact ⟨read ++ .mark '=' :: read', by simp [hread], read, read', rfl, hkeyWritten, hvalueWritten⟩

/-- An attribute is read as it is written, in front of anything but a plus sign. -/
theorem readAttribute_of_written {pair : Attribute} (h : pair.Written tokens)
    (hrest : NotAhead ['+'] rest) : readAttribute (tokens ++ rest) = some (pair, rest) := by
  obtain ⟨key, value, rfl, hkey, hvalue⟩ := h
  have hmark : expect (.mark '=') (.mark '=' :: (value ++ rest)) = some ((), value ++ rest) :=
    expect_eq_some_iff.2 rfl
  rw [List.append_assoc]
  simp only [readAttribute, bind_apply, List.cons_append]
  rw [readId_of_written hkey (notAhead_cons.2 (by simp)), Option.bind_some, hmark, Option.bind_some,
    readId_of_written hvalue hrest]
  rfl

/-- One attribute, and what the token behind it decides. -/
theorem readAttributes_succ (bound : Nat) (tokens : List Token) :
    readAttributes (bound + 1) tokens =
      (readAttribute tokens).bind fun (first, rest) =>
        if rest.head? = some (.mark ']') then some ([first], rest.tail)
        else if rest.head? = some (.mark ',') ∨ rest.head? = some (.mark ';') then
          (readAttributes bound rest.tail).map fun (more, rest) => (first :: more, rest)
        else (readAttributes bound rest).map fun (more, rest) => (first :: more, rest) := by
  rw [readAttributes, bind_apply]
  refine congrArg _ (funext fun ⟨first, rest⟩ => ?_)
  rw [bind_apply, peek_apply, Option.bind_some]
  -- Only a mark can be one of the three tokens that are asked for.
  rcases rest with _ | ⟨token, rest⟩
  · cases hmore : readAttributes bound [] <;> simp [hmore]
  · cases hmore : readAttributes bound (token :: rest) with
    | none | some =>
      cases token with
      | mark c =>
        by_cases hclose : c = ']'
        · simp [hclose]
        · by_cases hcomma : c = ','
          · simp [hcomma]
          · by_cases hsemicolon : c = ';'
            · simp [hsemicolon]
            · simp [hclose, hcomma, hsemicolon, hmore]
      | _ => simp [hmore]

/-- What is read as the attributes of a group lists them, up to the end of the group. -/
theorem listed_of_readAttributes {bound : Nat} {pairs : List Attribute}
    (h : readAttributes bound tokens = some (pairs, rest)) :
    Passed (fun read => ∃ inner, read = inner ++ [.mark ']'] ∧ Attribute.Listed pairs inner)
      tokens rest := by
  induction bound generalizing tokens pairs with
  | zero => cases h
  | succ bound ih =>
    rw [readAttributes_succ, Option.bind_eq_some_iff] at h
    obtain ⟨⟨first, behind⟩, hfirst, h⟩ := h
    obtain ⟨read, rfl, hpair⟩ := written_of_readAttribute hfirst
    -- More attributes, perhaps behind a separator.
    have hmore : ∀ {separator others pairs}, Optional [',', ';'] separator → behind = separator ++ others →
        (readAttributes bound others).map (fun (more, rest) => (first :: more, rest)) = some (pairs, rest) →
        Passed (fun read => ∃ inner, read = inner ++ [.mark ']'] ∧ Attribute.Listed pairs inner)
          (read ++ behind) rest := by
      rintro separator others pairs hseparator rfl h
      simp only [Option.map_eq_some_iff, Prod.exists, Prod.mk.injEq] at h
      obtain ⟨more, rest, hothers, rfl, rfl⟩ := h
      obtain ⟨_, rfl, inner, rfl, hlisted⟩ := ih hothers
      exact ⟨read ++ (separator ++ inner) ++ [.mark ']'], by simp, _, rfl, .more hpair hseparator hlisted⟩
    dsimp only at h
    split at h
    next hclose =>
      obtain ⟨tail, rfl⟩ := List.head?_eq_some_iff.1 hclose
      simp only [List.tail_cons, Option.some.injEq, Prod.mk.injEq] at h
      obtain ⟨rfl, rfl⟩ := h
      exact ⟨read ++ [.mark ']'], by simp, read, rfl, .single hpair⟩
    next =>
      split at h
      next hseparator =>
        rcases hseparator with hseparator | hseparator
        · obtain ⟨tail, rfl⟩ := List.head?_eq_some_iff.1 hseparator
          exact hmore (.inr ⟨',', by simp, rfl⟩) rfl h
        · obtain ⟨tail, rfl⟩ := List.head?_eq_some_iff.1 hseparator
          exact hmore (.inr ⟨';', by simp, rfl⟩) rfl h
      next => exact hmore (.inl rfl) rfl h

/-- The attributes of a group are read as they are listed, given a bound that is no less than their tokens. -/
theorem readAttributes_of_listed {bound : Nat} {pairs : List Attribute} (h : Attribute.Listed pairs tokens)
    (hbound : tokens.length ≤ bound) :
    readAttributes bound (tokens ++ .mark ']' :: rest) = some (pairs, rest) := by
  induction h generalizing bound with
  | single hpair =>
    -- A pair has a token at least, so the bound allows for one more call.
    obtain ⟨_, _, rfl, -⟩ := hpair.begins
    obtain ⟨bound, rfl⟩ : ∃ less, bound = less + 1 := ⟨bound - 1, by simp at hbound; omega⟩
    rw [readAttributes_succ, readAttribute_of_written hpair (notAhead_cons.2 (by simp))]
    rfl
  | @more pair pairs read separator others hpair hseparator hlisted ih =>
    obtain ⟨_, _, rfl, -⟩ := hpair.begins
    obtain ⟨bound, rfl⟩ : ∃ less, bound = less + 1 := ⟨bound - 1, by simp at hbound; omega⟩
    have hothers : readAttributes bound (others ++ .mark ']' :: rest) = some (pairs, rest) :=
      ih (by simp at hbound; omega)
    have hahead : ∀ marks, NotAhead marks (others ++ .mark ']' :: rest) := fun marks =>
      notAhead_of_beginsId marks hlisted.begins
    rw [List.append_assoc, List.append_assoc, readAttributes_succ,
      readAttribute_of_written hpair (notAhead_separator hseparator (hahead _)), Option.bind_some]
    rcases hseparator with rfl | ⟨c, hc, rfl⟩
    · -- The next attribute follows at once, and it begins with none of the three marks.
      have hnone := hahead [']', ',', ';']
      dsimp only [List.nil_append]
      rw [if_neg (hnone ']' (by simp)),
        if_neg (not_or.2 ⟨hnone ',' (by simp), hnone ';' (by simp)⟩), hothers]
      rfl
    · simp only [List.mem_cons, List.not_mem_nil, or_false] at hc
      rcases hc with rfl | rfl <;> simp [hothers]

/-- Without a bracket there are no groups. -/
theorem readGroups_of_ne {bound : Nat} (h : tokens.head? ≠ some (.mark '[')) :
    readGroups (bound + 1) tokens = some ([], tokens) := by
  simp [readGroups, h]

/-- An empty group adds no attributes. -/
theorem readGroups_empty (bound : Nat) (tokens : List Token) :
    readGroups (bound + 1) (.mark '[' :: .mark ']' :: tokens) = readGroups bound tokens := by
  simp only [readGroups, bind_apply, peek_apply, skip_apply, Option.bind_some, List.head?_cons,
    List.tail_cons, ↓reduceIte, pure_apply, List.nil_append]
  rcases readGroups bound tokens <;> rfl

/-- A group that is not empty adds its attributes to those of the groups behind it. -/
theorem readGroups_open {bound : Nat} (h : tokens.head? ≠ some (.mark ']')) :
    readGroups (bound + 1) (.mark '[' :: tokens) =
      (readAttributes bound tokens).bind fun (first, rest) =>
        (readGroups bound rest).map fun (more, rest) => (first ++ more, rest) := by
  simp only [readGroups, bind_apply, peek_apply, skip_apply, Option.bind_some, List.head?_cons,
    List.tail_cons, ↓reduceIte, if_neg h, pure_apply, Option.map_eq_bind, Function.comp_def]

/-- What is read as groups of attributes writes them, and no further group stands behind them. -/
theorem grouped_of_readGroups {bound : Nat} {pairs : List Attribute}
    (h : readGroups bound tokens = some (pairs, rest)) :
    Passed (Attribute.Grouped pairs) tokens rest ∧ rest.head? ≠ some (.mark '[') := by
  induction bound generalizing tokens pairs with
  | zero => cases h
  | succ bound ih =>
    by_cases hopen : tokens.head? = some (.mark '[')
    · obtain ⟨tokens, rfl⟩ := List.head?_eq_some_iff.1 hopen
      by_cases hclose : tokens.head? = some (.mark ']')
      · obtain ⟨tokens, rfl⟩ := List.head?_eq_some_iff.1 hclose
        rw [readGroups_empty] at h
        obtain ⟨⟨read, rfl, hgrouped⟩, hrest⟩ := ih h
        exact ⟨⟨.mark '[' :: .mark ']' :: read, rfl, .empty hgrouped⟩, hrest⟩
      · -- Attributes are read up to the end of their group, and then the other groups.
        rw [readGroups_open hclose] at h
        simp only [Option.bind_eq_some_iff, Option.map_eq_some_iff, Prod.exists, Prod.mk.injEq] at h
        obtain ⟨first, _, hfirst, more, rest, hmore, rfl, rfl⟩ := h
        obtain ⟨_, rfl, inner, rfl, hlisted⟩ := listed_of_readAttributes hfirst
        obtain ⟨⟨read, rfl, hgrouped⟩, hrest⟩ := ih hmore
        exact ⟨⟨.mark '[' :: (inner ++ .mark ']' :: read), by simp, .group hlisted hgrouped⟩, hrest⟩
    · -- Reading stops only where no bracket is next.
      rw [readGroups_of_ne hopen] at h
      simp only [Option.some.injEq, Prod.mk.injEq] at h
      obtain ⟨rfl, rfl⟩ := h
      exact ⟨⟨[], rfl, .none⟩, hopen⟩

/-- Groups of attributes are read as they are written, given a bound that exceeds the number of their tokens. -/
theorem readGroups_of_grouped {bound : Nat} {pairs : List Attribute} (h : Attribute.Grouped pairs tokens)
    (hrest : NotAhead ['['] rest) (hbound : tokens.length < bound) :
    readGroups bound (tokens ++ rest) = some (pairs, rest) := by
  induction h generalizing bound with
  | none =>
    obtain ⟨bound, rfl⟩ : ∃ less, bound = less + 1 := ⟨bound - 1, by omega⟩
    exact readGroups_of_ne (hrest '[' List.mem_cons_self)
  | empty _ ih =>
    obtain ⟨bound, rfl⟩ : ∃ less, bound = less + 1 := ⟨bound - 1, by omega⟩
    simp only [List.length_cons] at hbound
    rw [List.cons_append, List.cons_append, readGroups_empty, ih (by omega)]
  | @group first pairs inner tokens hlisted _ ih =>
    obtain ⟨bound, rfl⟩ : ∃ less, bound = less + 1 := ⟨bound - 1, by omega⟩
    simp only [List.length_cons, List.length_append] at hbound
    -- A group that is not empty begins with an identifier, so it is not taken for an empty one.
    have hclose : (inner ++ .mark ']' :: (tokens ++ rest)).head? ≠ some (.mark ']') :=
      notAhead_of_beginsId [']'] hlisted.begins ']' List.mem_cons_self
    rw [List.cons_append, List.append_assoc, List.cons_append, readGroups_open hclose,
      readAttributes_of_listed hlisted (by omega), Option.bind_some]
    dsimp only
    rw [ih (by omega)]
    rfl

/-! ## Nodes -/

/-- What is read behind a name as a port that may be missing writes, with the name, a node. -/
theorem written_of_readPort {port : Option Port} (h : readPort tokens = some (port, rest)) {id : Id}
    {first : List Token} (hid : id.Written first) :
    Passed (NodeId.Written ⟨id, port⟩) (first ++ tokens) rest := by
  by_cases hcolon : tokens.head? = some (.mark ':')
  · obtain ⟨tokens, rfl⟩ := List.head?_eq_some_iff.1 hcolon
    simp only [readPort, bind_apply, peek_apply, skip_apply, Option.bind_some, List.head?_cons,
      List.tail_cons, ↓reduceIte, Option.bind_eq_some_iff, Prod.exists] at h
    obtain ⟨name, behind, hname, h⟩ := h
    obtain ⟨read, rfl, hread⟩ := written_of_readId hname
    by_cases hsecond : behind.head? = some (.mark ':')
    · -- Of two identifiers the first is a name, whatever it says.
      obtain ⟨behind, rfl⟩ := List.head?_eq_some_iff.1 hsecond
      simp only [bind_apply, skip_apply, Option.bind_some, List.head?_cons, List.tail_cons, ↓reduceIte,
        Option.bind_eq_some_iff, Prod.exists, pure_apply, Option.some.injEq, Prod.mk.injEq] at h
      obtain ⟨compass, rest, hcompass, rfl, rfl⟩ := h
      obtain ⟨read', rfl, hread'⟩ := written_of_readId hcompass
      exact ⟨first ++ .mark ':' :: (read ++ .mark ':' :: read'), by simp, .port hid (.both hread hread')⟩
    · rw [if_neg hsecond] at h
      -- A single identifier is a compass point if it says one.
      rcases hpoint : CompassPoint.ofName? name.value with _ | point
      · rw [hpoint] at h
        cases h
        exact ⟨first ++ .mark ':' :: read, by simp, .port hid (.name hread hpoint)⟩
      · rw [hpoint] at h
        cases h
        exact ⟨first ++ .mark ':' :: read, by simp, .port hid (.compass hread hpoint)⟩
  · simp only [readPort, bind_apply, peek_apply, Option.bind_some, if_neg hcolon, pure_apply,
      Option.some.injEq, Prod.mk.injEq] at h
    obtain ⟨rfl, rfl⟩ := h
    exact ⟨first, rfl, .bare hid⟩

/-- Without a colon there is no port. -/
theorem readPort_of_notAhead (h : NotAhead [':'] rest) : readPort rest = some (none, rest) := by
  simp [readPort, h ':' List.mem_cons_self]

/-- A port is read as it is written, where nothing could go on with it. -/
theorem readPort_of_written {port : Port} (h : port.Written tokens) (hrest : NotAhead ['+', ':'] rest) :
    readPort (tokens ++ rest) = some (some port, rest) := by
  have hplus : NotAhead ['+'] rest := hrest.mono (by simp)
  have hcolon : rest.head? ≠ some (.mark ':') := hrest ':' (by simp)
  cases h with
  | name hid hpoint => simp [readPort, readId_of_written hid hplus, hcolon, hpoint]
  | compass hid hpoint => simp [readPort, readId_of_written hid hplus, hcolon, hpoint]
  | @both id id' tokens tokens' hid hid' =>
    have hahead : NotAhead ['+'] (.mark ':' :: (tokens' ++ rest)) := notAhead_cons.2 (by simp)
    simp [readPort, readId_of_written hid hahead, readId_of_written hid' hplus]

end Token

end DotLang
