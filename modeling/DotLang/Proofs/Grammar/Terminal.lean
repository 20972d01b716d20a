import DotLang.Proofs.Grammar.Layout

/-!
# Terminals

Nine rules of the grammar read exactly one token each. Wherever the lexer could take a token, such a rule
finds it if it is one that the rule accepts, and finds nothing otherwise (`find_terminal`). The lexer
knows nothing of the context, so the rules for keywords and those for identifiers agree on where a word
ends, and the four forms of identifiers never overlap.
-/

namespace DotLang

open Peg Token

namespace Rule

/-- Whether a rule reads exactly one token. -/
def isTerminal : Rule → Bool
  | strict | graphKind | attrTarget | subgraphKeyword | edgeOp => true
  | identifier | numeral | quotedString | htmlString => true
  | _ => false

/-- The words that a rule for words reads. -/
def words : Rule → List (List Char)
  | strict => [Keyword.strict]
  | graphKind => [Keyword.digraph, Keyword.graph]
  | attrTarget => [Keyword.graph, Keyword.node, Keyword.edge]
  | subgraphKeyword => [Keyword.subgraph]
  | _ => []

/-- Whether a token is one that a terminal rule reads. -/
def accepts : Rule → Token → Bool
  | identifier, .word text => !Keyword.isKeyword text
  -- Rules for keywords take them in any case; the other rules have no words.
  | rule, .word text => rule.words.any (Text.sameWord text)
  | numeral, .numeral _ => true
  | quotedString, .quoted _ => true
  | htmlString, .html _ => true
  | edgeOp, .operator _ => true
  | _, _ => false

section

variable {token : Token}

/-- The rule for identifiers accepts words that are no keywords. -/
theorem accepts_identifier : identifier.accepts token = true ↔
    ∃ text, token = .word text ∧ Keyword.isKeyword text = false := by
  cases token <;> simp [accepts]

/-- The rule for numerals accepts numerals. -/
theorem accepts_numeral : numeral.accepts token = true ↔ ∃ text, token = .numeral text := by
  cases token <;> simp [accepts, words]

/-- The rule for quoted strings accepts quoted strings. -/
theorem accepts_quotedString : quotedString.accepts token = true ↔ ∃ content, token = .quoted content := by
  cases token <;> simp [accepts, words]

/-- The rule for HTML strings accepts HTML strings. -/
theorem accepts_htmlString : htmlString.accepts token = true ↔ ∃ content, token = .html content := by
  cases token <;> simp [accepts, words]

/-- The rule for edge operators accepts operators of both kinds. -/
theorem accepts_edgeOp : edgeOp.accepts token = true ↔ ∃ kind, token = .operator kind := by
  cases token <;> simp [accepts, words]

/-- The rules for words accept nothing else. -/
theorem accepts_words {rule : Rule} (hrule : rule.words ≠ []) : rule.accepts token = true ↔
    ∃ text, token = .word text ∧ rule.words.any (Text.sameWord text) = true := by
  cases rule <;> simp [words] at hrule <;> cases token <;> simp [accepts, words]

end

/-- The tree that a terminal rule makes of a token. Strings have a tree for what they enclose. -/
def leaf (rule : Rule) (offset : Nat) (token : Token) : ParseTree Rule :=
  .node rule offset token.text <|
    match token with
    | .quoted content => [.node .quotedInner (offset + 1) content []]
    | .html content => [.node .htmlInner (offset + 1) content []]
    | _ => []

@[simp] theorem leaf_rule (rule : Rule) (offset : Nat) (token : Token) :
    (rule.leaf offset token).rule = rule := rfl

@[simp] theorem leaf_text (rule : Rule) (offset : Nat) (token : Token) :
    (rule.leaf offset token).text = token.text := rfl

end Rule

namespace Grammar

variable {mode : Mode} {offset : Nat}

/-! ## Keywords -/

/-- Of several alternatives, the first one is tried first. -/
theorem find_any_cons (e : Expr Rule) (es : List (Expr Rule)) (cursor : Cursor) :
    find (.any (e :: es)) mode cursor = (find e mode cursor).or (find (.any es) mode cursor) := by
  rcases es with _ | ⟨e', es⟩
  · have hnone : find (.any []) mode cursor = none := by
      obtain ⟨offset, _ | ⟨c, cs⟩⟩ := cursor
      · rfl
      · exact find_class_cons _ c cs
    rw [hnone, Option.or_none]
    rfl
  · exact find_alt e (.any (e' :: es))

/-- Some expression of a choice finds what the choice finds. -/
theorem exists_of_find_any {es : List (Expr Rule)} {cursor : Cursor} {found : Match Rule}
    (h : find (.any es) mode cursor = some found) : ∃ e ∈ es, find e mode cursor = some found := by
  -- With nothing to choose from, the choice is a character that no text has.
  induction es with
  | nil =>
    obtain ⟨offset, _ | ⟨c, cs⟩⟩ := cursor
    · simp [Expr.any, find_char_nil] at h
    · simp [Expr.any, find_class_cons] at h
  | cons e es ih =>
    rw [find_any_cons, Option.or_eq_some_iff] at h
    rcases h with h | ⟨-, h⟩
    · exact ⟨e, List.mem_cons_self, h⟩
    · obtain ⟨e', he', h⟩ := ih h
      exact ⟨e', List.mem_cons_of_mem e he', h⟩

/-- Something is found if one of several alternatives is. -/
theorem find_any_ne_none {es : List (Expr Rule)} {cursor : Cursor} {e : Expr Rule} (he : e ∈ es)
    (h : find e mode cursor ≠ none) : find (.any es) mode cursor ≠ none := by
  induction es with
  | nil => simp at he
  | cons e' es ih =>
    rw [find_any_cons, ne_eq, Option.or_eq_none_iff]
    rcases List.mem_cons.1 he with rfl | he
    · exact fun hnone => h hnone.1
    · exact fun hnone => ih he hnone.2

/-- Words in lower case of which none begins another one. -/
structure Unambiguous (words : List (List Char)) : Prop where
  /-- No word is empty. -/
  ne_nil : ∀ word ∈ words, word ≠ []
  /-- The words consist of letters in lower case. -/
  lower : ∀ word ∈ words, ∀ c ∈ word, c.toLower = c ∧ c.isLower = true
  /-- None begins another one. -/
  eq_of_isPrefix : ∀ word ∈ words, ∀ word' ∈ words, word <+: word' → word = word'

/-- Words of small letters are unambiguous if none of them begins another one. -/
theorem Unambiguous.of_all {words : List (List Char)} (hne : ∀ word ∈ words, word ≠ [])
    (hlower : ∀ word ∈ words, word.all (fun c => c.toLower = c ∧ c.isLower = true) = true)
    (heq : ∀ word ∈ words, ∀ word' ∈ words, word <+: word' → word = word') : Unambiguous words :=
  ⟨hne, fun word hword => forall_mem_of_all (hlower word hword), heq⟩

/-- A character that is a small letter in lower case begins a word. -/
theorem isWordStart_of_toLower {c d : Char} (h : c.toLower = d) (hd : d.isLower = true) :
    Text.isWordStart c = true := by
  -- A character with a letter in lower case is a letter.
  have hc : c.isAlpha = true := by
    unfold Char.toLower at h
    unfold Char.isAlpha Char.isUpper
    split at h
    next hupper => simpa using .inl hupper
    next => simp [h, hd]
  simp [Text.isWordStart, hc]

/-- What reads like a word in lower case consists of characters that may begin a word. -/
theorem isWordStart_of_sameWord {read word : List Char} (h : Text.sameWord read word = true)
    (hword : ∀ c ∈ word, c.toLower = c ∧ c.isLower = true) : ∀ c ∈ read, Text.isWordStart c = true := by
  rw [Text.sameWord, beq_iff_eq] at h
  intro c hc
  have hmem : c.toLower ∈ word.map Char.toLower := h ▸ List.mem_map_of_mem hc
  obtain ⟨d, hd, hcd⟩ := List.mem_map.1 hmem
  obtain ⟨hlower, hd⟩ := hword d hd
  exact isWordStart_of_toLower (hcd.symm.trans hlower) hd

/-- A word of small letters is the same in lower case. -/
theorem map_toLower_of_lower {word : List Char} (hword : ∀ c ∈ word, c.toLower = c ∧ c.isLower = true) :
    word.map Char.toLower = word := by
  rw [List.map_congr_left fun c hc => (hword c hc).1, List.map_id']

/-- What a choice of words reads is like one of them and made of word characters. -/
theorem exists_of_find_words {words : List (List Char)} (hwords : Unambiguous words) {cs : List Char}
    {found : Match Rule} (h : find (.any (words.map .caseless)) mode ⟨offset, cs⟩ = some found) :
    ∃ word ∈ words, ∃ read rest, cs = read ++ rest ∧ Text.sameWord read word = true ∧
      (∀ c ∈ read, Text.isWordStart c = true) ∧ found = piece offset read rest := by
  obtain ⟨e, he, hfind⟩ := exists_of_find_any h
  obtain ⟨word, hword, rfl⟩ := List.mem_map.1 he
  obtain ⟨read, rest, hcs, hread, rfl⟩ := find_caseless_eq_some_iff.1 hfind
  exact ⟨word, hword, read, rest, hcs, hread, isWordStart_of_sameWord hread (hwords.lower word hword),
    rfl⟩

/-- No word character follows where the longest piece of them is empty. -/
theorem find_not_identChar (cs : List Char) :
    find (.not (.call .identChar)) .atomic ⟨offset, cs⟩ =
      if cs.takeWhile Text.isWordChar = [] then some (.empty ⟨offset, cs⟩) else none := by
  rw [find_not, find_silent rfl]
  rcases cs with _ | ⟨c, cs⟩
  · rfl
  · simp only [production, find_class_cons]
    by_cases hc : Text.isWordChar c <;> simp [hc]

/-- Of two words of which neither begins the other, only one can be read at the start of a text. -/
theorem Unambiguous.read_eq {words : List (List Char)} (hwords : Unambiguous words)
    {word word' read more : List Char} (hword : word ∈ words) (hword' : word' ∈ words)
    (hread : Text.sameWord read word = true) (hmore : Text.sameWord (read ++ more) word' = true) :
    more = [] := by
  rw [Text.sameWord, beq_iff_eq, map_toLower_of_lower (hwords.lower word hword)] at hread
  rw [Text.sameWord, beq_iff_eq, map_toLower_of_lower (hwords.lower word' hword'), List.map_append,
    hread] at hmore
  -- One keyword would begin the other, which no two keywords do.
  have heq : word = word' := by
    refine hwords.eq_of_isPrefix word hword word' hword' ?_
    rw [← hmore]
    exact List.prefix_append _ _
  rw [← heq] at hmore
  simpa using hmore

/-- A rule for words reads the longest word there is, if it is one of them. -/
theorem find_wholeWord {words : List (List Char)} (hwords : Unambiguous words) {cs : List Char}
    {found : Match Rule} :
    find (wholeWord words) .atomic ⟨offset, cs⟩ = some found ↔
      words.any (Text.sameWord (cs.takeWhile Text.isWordChar)) = true ∧
        found = piece offset (cs.takeWhile Text.isWordChar) (cs.dropWhile Text.isWordChar) := by
  rw [wholeWord, find_seq_tight atomic_ne_spaced, Option.bind_eq_some_iff]
  constructor
  · -- What the choice reads is the longest word, since no word character follows it.
    rintro ⟨first, hfirst, hmap⟩
    obtain ⟨word, hword, read, rest, rfl, hread, hstarts, rfl⟩ := exists_of_find_words hwords hfirst
    have hchars := fun c hc => isWordChar_of_isWordStart (hstarts c hc)
    rw [piece_next, find_not_identChar] at hmap
    split at hmap
    next hrest =>
      have hdrop : rest.dropWhile Text.isWordChar = rest := by
        simpa [hrest] using List.takeWhile_append_dropWhile (p := Text.isWordChar) (l := rest)
      rw [List.takeWhile_append_of_pos hchars, List.dropWhile_append_of_pos hchars, hrest, hdrop,
        List.append_nil]
      exact ⟨List.any_eq_true.2 ⟨word, hword, hread⟩, by simpa [eq_comm] using hmap⟩
    next => simp at hmap
  · rintro ⟨hwhole, rfl⟩
    obtain ⟨word, hword, hsame⟩ := List.any_eq_true.1 hwhole
    have hsplit := List.takeWhile_append_dropWhile (p := Text.isWordChar) (l := cs)
    have hne : find (.any (words.map .caseless)) .atomic ⟨offset, cs⟩ ≠ none := by
      refine find_any_ne_none (List.mem_map_of_mem hword) ?_
      rw [find_caseless_eq_some_iff.2 ⟨_, _, hsplit.symm, hsame, rfl⟩]
      simp
    obtain ⟨first, hfirst⟩ := Option.ne_none_iff_exists'.1 hne
    obtain ⟨word', hword', read, rest, rfl, hread, hstarts, rfl⟩ := exists_of_find_words hwords hfirst
    have hchars := fun c hc => isWordChar_of_isWordStart (hstarts c hc)
    rw [List.takeWhile_append_of_pos hchars] at hsame ⊢
    rw [List.dropWhile_append_of_pos hchars]
    -- The choice has read the whole word already.
    have hmore := hwords.read_eq hword' hword hread hsame
    have hdrop : rest.dropWhile Text.isWordChar = rest := by
      simpa [hmore] using List.takeWhile_append_dropWhile (p := Text.isWordChar) (l := rest)
    refine ⟨_, hfirst, ?_⟩
    rw [piece_next, find_not_identChar, if_pos hmore, hmore, hdrop]
    simp

/-- No keyword begins another one. -/
theorem unambiguous_all : Unambiguous Keyword.all :=
  .of_all (by decide) (by decide) (by decide)

/-! ## Identifiers -/

/-- The characters of a word are found as far as they go. -/
theorem find_identChars (cs : List Char) :
    find (.star (.call .identChar)) .atomic ⟨offset, cs⟩ =
      some (piece offset (cs.takeWhile Text.isWordChar) (cs.dropWhile Text.isWordChar)) :=
  find_star_class atomic_ne_spaced (by decide) (fun _ => find_silent rfl) cs

/-- An identifier is the longest word there is, unless that is a keyword. -/
theorem find_identifier {cs : List Char} {found : Match Rule} :
    find (production .identifier).body .atomic ⟨offset, cs⟩ = some found ↔
      (∃ c ∈ cs.head?, Text.isWordStart c = true) ∧
        Keyword.isKeyword (cs.takeWhile Text.isWordChar) = false ∧
        found = piece offset (cs.takeWhile Text.isWordChar) (cs.dropWhile Text.isWordChar) := by
  -- The lookahead for keywords compares the same word that is read behind it.
  have hkeyword : find (.not (.call .keyword)) .atomic ⟨offset, cs⟩ =
      if Keyword.isKeyword (cs.takeWhile Text.isWordChar) then none else some (.empty ⟨offset, cs⟩) := by
    rw [find_not, find_token_atomic rfl]
    rcases h : find (production .keyword).body .atomic ⟨offset, cs⟩ with _ | found
    · rw [if_neg]
      intro hany
      rw [production, find_wholeWord unambiguous_all |>.2 ⟨hany, rfl⟩] at h
      simp at h
    · rw [if_pos]
      exact (find_wholeWord unambiguous_all |>.1 h).1
  have hbody : (production .identifier).body = .seq (.not (.call .keyword))
      (.seq (.call .identStart) (.star (.call .identChar))) := rfl
  have hstart : find (.call .identStart) .atomic ⟨offset, cs⟩ =
      find (.char Text.isWordStart) .atomic ⟨offset, cs⟩ := find_silent rfl
  rw [hbody, find_seq_tight atomic_ne_spaced, hkeyword]
  rcases Keyword.isKeyword (cs.takeWhile Text.isWordChar)
  · rw [if_neg (by decide), Option.bind_some, Match.empty_next, find_seq_tight atomic_ne_spaced, hstart]
    rcases cs with _ | ⟨c, cs⟩
    · simp [find_char_nil]
    · rw [find_class_cons]
      by_cases hc : Text.isWordStart c
      · have hchar := isWordChar_of_isWordStart hc
        rw [if_pos hc, Option.bind_some, piece_next, find_identChars, Option.map_some, piece_append,
          Option.map_some, Match.empty_append, List.takeWhile_cons_of_pos hchar,
          List.dropWhile_cons_of_pos hchar]
        simp only [List.cons_append, List.nil_append, Option.some.injEq, List.head?_cons,
          Option.mem_some, exists_eq_left', hc, true_and]
        exact eq_comm
      · simp [hc]
  · simp

/-! ## Numerals -/

/-- Digits are found as far as they go. -/
theorem find_moreDigits (cs : List Char) :
    find (.star (.char Char.isDigit)) .atomic ⟨offset, cs⟩ =
      some (piece offset (cs.takeWhile Char.isDigit) (cs.dropWhile Char.isDigit)) :=
  find_star_class atomic_ne_spaced (by decide) (fun _ => rfl) cs

/-- Digits are found as far as they go, if there is one. -/
theorem find_digits (cs : List Char) :
    find digits .atomic ⟨offset, cs⟩ =
      if cs.takeWhile Char.isDigit = [] then none
      else some (piece offset (cs.takeWhile Char.isDigit) (cs.dropWhile Char.isDigit)) := by
  rw [digits, Expr.plus, find_seq_tight atomic_ne_spaced]
  rcases cs with _ | ⟨c, cs⟩
  · rfl
  · rw [find_class_cons]
    by_cases hc : c.isDigit
    · simp [hc, find_moreDigits]
    · simp [hc]

/-- A numeral without a sign. -/
def unsigned : Expr Rule :=
  .any [.all [mark '.', digits],
    .all [digits, .opt (.all [mark '.', .star (.char Char.isDigit)])]]

/-- A fraction is found if there is a digit behind the point. -/
theorem find_fraction (cs : List Char) :
    find (.seq (mark '.') digits) .atomic ⟨offset, '.' :: cs⟩ =
      if cs.takeWhile Char.isDigit = [] then none
      else some (piece offset ('.' :: cs.takeWhile Char.isDigit) (cs.dropWhile Char.isDigit)) := by
  rw [find_seq_tight atomic_ne_spaced, find_mark_cons, if_pos rfl, Option.bind_some, piece_next, find_digits]
  split <;> simp

/-- What begins with a mark is not found without it. -/
theorem find_mark_seq_eq_none {c : Char} {e : Expr Rule} {cs : List Char}
    (h : ∀ tail, cs ≠ c :: tail) : find (.seq (mark c) e) .atomic ⟨offset, cs⟩ = none := by
  rw [find_seq_tight atomic_ne_spaced, mark, find_literal_eq_none fun rest => h rest]
  rfl

/-- The point of a numeral and the digits behind it, if there is a point. -/
theorem find_opt_fraction (cs : List Char) :
    find (.opt (.seq (mark '.') (.star (.char Char.isDigit)))) .atomic ⟨offset, '.' :: cs⟩ =
      some (piece offset ('.' :: cs.takeWhile Char.isDigit) (cs.dropWhile Char.isDigit)) := by
  rw [find_opt, find_seq_tight atomic_ne_spaced, find_mark_cons, if_pos rfl, Option.bind_some,
    piece_next, find_moreDigits]
  simp

/-- The grammar and the lexer find the same numeral without a sign. -/
theorem find_unsigned (cs : List Char) :
    find unsigned .atomic ⟨offset, cs⟩ =
      (takeUnsigned cs).map fun (text, rest) => piece offset text rest := by
  have hbody : unsigned = .alt (.seq (mark '.') digits)
      (.seq digits (.opt (.seq (mark '.') (.star (.char Char.isDigit))))) := rfl
  rw [hbody, find_alt, find_seq_tight atomic_ne_spaced digits, find_digits]
  -- With no digits at the start there must be a point; else digits are read, and a point may follow.
  by_cases hdigits : cs.takeWhile Char.isDigit = []
  · rw [if_pos hdigits, Option.bind_none, Option.or_none]
    by_cases hpoint : ∃ tail, cs = '.' :: tail
    · obtain ⟨tail, rfl⟩ := hpoint
      rw [find_fraction, takeUnsigned_point]
      split <;> rfl
    · have hpoint := fun tail h => hpoint ⟨tail, h⟩
      rw [find_mark_seq_eq_none hpoint, takeUnsigned_eq_none hdigits hpoint]
      rfl
  · have hpoint : ∀ tail, cs ≠ '.' :: tail := by
      rintro tail rfl
      exact hdigits rfl
    rw [if_neg hdigits, find_mark_seq_eq_none hpoint, Option.none_or, Option.bind_some, piece_next]
    by_cases htail : ∃ tail, cs.dropWhile Char.isDigit = '.' :: tail
    · obtain ⟨tail, htail⟩ := htail
      rw [htail, find_opt_fraction, takeUnsigned_digits_point hdigits htail]
      simp
    · have htail := fun tail h => htail ⟨tail, h⟩
      rw [find_opt, find_mark_seq_eq_none htail, takeUnsigned_digits hdigits htail]
      simp

/-- The grammar and the lexer find the same numeral. -/
theorem find_numeral (cs : List Char) :
    find (production .numeral).body .atomic ⟨offset, cs⟩ =
      (takeNumeral cs).map fun (text, rest) => piece offset text rest := by
  have hbody : (production .numeral).body = .seq (.opt (mark '-')) unsigned := rfl
  rw [hbody, find_seq_tight atomic_ne_spaced, find_opt, Option.bind_some]
  -- A sign may stand in front; without one the option is empty.
  by_cases hminus : ∃ tail, cs = '-' :: tail
  · obtain ⟨tail, rfl⟩ := hminus
    rw [find_mark_cons, if_pos rfl, Option.getD_some, piece_next, find_unsigned, takeNumeral]
    rcases takeUnsigned tail with _ | ⟨text, rest⟩ <;> simp
  · have hminus := fun tail h => hminus ⟨tail, h⟩
    rw [mark, find_literal_eq_none hminus, Option.getD_none, Match.empty_next, find_unsigned,
      takeNumeral_of_ne_minus hminus, Match.map_empty_append]

/-! ## Strings -/

/-- The content of a quoted string, as far as it goes, and the text from there on. -/
def splitQuoted : List Char → List Char × List Char
  | [] => ([], [])
  | '"' :: cs => ([], '"' :: cs)
  | '\\' :: '\\' :: cs => ('\\' :: '\\' :: (splitQuoted cs).1, (splitQuoted cs).2)
  | '\\' :: '"' :: cs => ('\\' :: '"' :: (splitQuoted cs).1, (splitQuoted cs).2)
  | c :: cs => (c :: (splitQuoted cs).1, (splitQuoted cs).2)

/-- A quoted string is its content, where a quote is behind it. -/
theorem takeQuoted_eq (cs : List Char) :
    takeQuoted cs =
      match (splitQuoted cs).2 with
      | _ :: rest => some ((splitQuoted cs).1, rest)
      | [] => none := by
  fun_induction splitQuoted cs with
  | case1 => rfl
  | case2 cs => rfl
  -- Behind a backslash, quotes and backslashes are passed over together with it.
  | case3 cs ih | case4 cs ih =>
    rw [takeQuoted, ih]
    rcases (splitQuoted cs).2 <;> rfl
  | case5 c cs hquote hbackslash hescape ih =>
    rw [takeQuoted_cons hquote hbackslash hescape, ih]
    rcases (splitQuoted cs).2 <;> rfl

/-- Behind the content stands a quote, or the text ends. -/
theorem splitQuoted_rest (cs : List Char) :
    (splitQuoted cs).2 = [] ∨ ∃ rest, (splitQuoted cs).2 = '"' :: rest := by
  fun_induction splitQuoted cs with
  | case1 => exact .inl rfl
  | case2 cs => exact .inr ⟨cs, rfl⟩
  | case3 cs ih | case4 cs ih | case5 c cs _ _ _ ih => exact ih

/-- The grammar finds the content as far as it goes. -/
theorem find_quotedInner (cs : List Char) :
    find (production .quotedInner).body .atomic ⟨offset, cs⟩ =
      some (piece offset (splitQuoted cs).1 (splitQuoted cs).2) := by
  have hbody : (production .quotedInner).body = .star (.alt (.literal ['\\', '\\'])
      (.alt (.literal ['\\', '"']) (.seq (.not (mark '"')) anyChar))) := rfl
  -- One character, which is not a quote.
  have hother : ∀ offset cs, find (.seq (.not (mark '"')) anyChar) .atomic ⟨offset, cs⟩ =
      find (.char fun c => !(c == '"')) .atomic ⟨offset, cs⟩ := by
    intro offset cs
    refine find_not_anyChar atomic_ne_spaced (fun _ => rfl) (fun offset c cs => ?_) _
    rw [find_mark_cons]
    by_cases hc : c = '"' <;> simp [hc]
  rw [hbody]
  fun_induction splitQuoted cs generalizing offset with
  | case1 => rfl
  | case2 cs =>
    rw [find_star_tight atomic_ne_spaced (by decide), find_alt, find_alt, hother, find_class_cons,
      find_literal_eq_none (by simp), find_literal_eq_none (by simp)]
    rfl
  | case3 cs ih =>
    have hpair : find (.literal ['\\', '\\']) .atomic ⟨offset, '\\' :: '\\' :: cs⟩ =
        some (piece offset ['\\', '\\'] cs) := find_literal_append ['\\', '\\'] cs
    rw [find_star_tight atomic_ne_spaced (by decide), find_alt, hpair]
    simp only [Option.some_or, piece_next, ih, Option.map_some, piece_append]
    rfl
  | case4 cs ih =>
    have hpair : find (.literal ['\\', '"']) .atomic ⟨offset, '\\' :: '"' :: cs⟩ =
        some (piece offset ['\\', '"'] cs) := find_literal_append ['\\', '"'] cs
    rw [find_star_tight atomic_ne_spaced (by decide), find_alt, find_alt, hpair,
      find_literal_eq_none (by simp)]
    simp only [Option.some_or, Option.none_or, piece_next, ih, Option.map_some, piece_append]
    rfl
  | case5 c cs hquote hbackslash hescape ih =>
    have hc : (!(c == '"')) = true := by simpa using hquote
    rw [find_star_tight atomic_ne_spaced (by decide), find_alt, find_alt, hother, find_class_cons,
      if_pos hc, find_literal_eq_none, find_literal_eq_none]
    · simp only [Option.none_or, piece_next, ih, Option.map_some, piece_append]
      rfl
    · rintro rest h
      obtain ⟨hc, hcs⟩ := List.cons.inj h
      exact hescape rest hc hcs
    · rintro rest h
      obtain ⟨hc, hcs⟩ := List.cons.inj h
      exact hbackslash rest hc hcs

/-- Whether the lexer passes over a text within an HTML string, at any depth. -/
def Passed (text : List Char) : Prop :=
  ∀ depth rest, takeHtml depth (text ++ rest) =
    (takeHtml depth rest).map fun (content, rest) => (text ++ content, rest)

/-- No text is passed without a change. -/
theorem passed_nil : Passed [] := by
  intro depth rest
  rcases h : takeHtml depth rest with _ | ⟨content, rest⟩ <;> simp [h]

/-- Two texts are passed one behind the other. -/
theorem Passed.append {text text' : List Char} (h : Passed text) (h' : Passed text') :
    Passed (text ++ text') := by
  intro depth rest
  rw [List.append_assoc, h, h', Option.map_map]
  congr 1
  funext
  simp

/-- A character that is no bracket is passed. -/
theorem passed_singleton {c : Char} (hc : c ≠ '<' ∧ c ≠ '>') : Passed [c] :=
  fun depth rest => takeHtml_cons hc depth rest

/-- Text in brackets is passed over if what the brackets enclose is. -/
theorem Passed.nested {text : List Char} (h : Passed text) : Passed ('<' :: (text ++ ['>'])) := by
  intro depth rest
  rw [List.cons_append, takeHtml_open, List.append_assoc, h, List.cons_append, takeHtml, Option.map_map,
    Option.map_map]
  congr 1
  funext
  simp

/-- One character, which is no bracket. -/
theorem find_not_angle (cs : List Char) :
    find (.seq (.not angle) anyChar) .atomic ⟨offset, cs⟩ =
      find (.char fun c => !(c == '<' || c == '>')) .atomic ⟨offset, cs⟩ := by
  refine find_not_anyChar atomic_ne_spaced (fun _ => rfl) (fun offset c cs => ?_) _
  rw [angle, find_alt, find_mark_cons, find_mark_cons]
  by_cases hopen : c = '<'
  · simp [hopen]
  · by_cases hclose : c = '>' <;> simp [hopen, hclose]

/-- A bracket within an HTML string is found with the text up to the bracket that matches it. -/
theorem find_htmlNested (cs : List Char) :
    find (.call .htmlNested) .atomic ⟨offset, '<' :: cs⟩ =
      (find (.seq balanced (mark '>')) .atomic ⟨offset + '<'.utf8Size, cs⟩).map
        (piece offset ['<'] cs).append := by
  have hbody : (production .htmlNested).body = .seq (mark '<') (.seq balanced (mark '>')) := rfl
  rw [find_silent rfl, hbody, find_seq_tight atomic_ne_spaced, find_mark_cons, if_pos rfl]
  rfl

/-- The grammar reads text within an HTML string as far as the lexer passes over it; there, a bracket is
closed, or the lexer does not find the end. -/
theorem find_balanced (offset : Nat) (cs : List Char) :
    ∃ text rest, find balanced .atomic ⟨offset, cs⟩ = some (piece offset text rest) ∧
      cs = text ++ rest ∧ Passed text ∧
      ((∃ after, rest = '>' :: after) ∨ ∀ depth, takeHtml depth rest = none) := by
  -- By induction on the length: behind a closed pair of brackets the reading starts again.
  induction hn : cs.length using Nat.strongRecOn generalizing offset cs
  rename_i bound ih
  subst hn
  rw [balanced, find_star_tight atomic_ne_spaced (by decide), ← balanced, find_alt, find_not_angle]
  rcases cs with _ | ⟨c, cs⟩
  · exact ⟨[], [], rfl, rfl, passed_nil, .inr fun depth => by rw [takeHtml]⟩
  by_cases hopen : c = '<'
  · subst hopen
    obtain ⟨text, rest, hfind, rfl, hpassed, hrest⟩ :=
      ih cs.length (by simp) (offset + '<'.utf8Size) cs rfl
    rw [find_htmlNested, find_seq_tight atomic_ne_spaced, hfind, Option.bind_some, piece_next]
    rcases hrest with ⟨after, rfl⟩ | hrest
    · -- The bracket has its partner: the reading goes on behind it.
      obtain ⟨text', rest', hfind', rfl, hpassed', hrest'⟩ :=
        ih after.length (by simp; omega) (offset + Text.byteLength ('<' :: (text ++ ['>']))) after rfl
      refine ⟨'<' :: (text ++ ['>']) ++ text', rest', ?_, by simp, hpassed.nested.append hpassed',
        hrest'⟩
      rw [find_mark_cons, if_pos rfl, Option.map_some, piece_append, Option.map_some, piece_cons_append,
        Option.some_or]
      simp only [piece_next, hfind', Option.map_some, piece_append]
    · -- It has none, so nothing is read and the lexer does not find the end either.
      have hclose : ∀ place, find (mark '>') .atomic ⟨place, rest⟩ = none := by
        intro place
        refine find_literal_eq_none ?_
        rintro after rfl
        have := hrest 0
        rw [List.cons_append, takeHtml] at this
        simp at this
      refine ⟨[], '<' :: (text ++ rest), ?_, rfl, passed_nil, .inr fun depth => ?_⟩
      · rw [hclose]
        rfl
      · rw [takeHtml_open, hpassed, hrest]
        rfl
  · have hnested : find (.call .htmlNested) .atomic ⟨offset, c :: cs⟩ = none := by
      rw [find_silent rfl]
      exact find_mark_seq_eq_none fun tail h => hopen (List.cons.inj h).1
    rw [hnested, find_class_cons, Option.none_or]
    by_cases hclose : c = '>'
    · subst hclose
      exact ⟨[], '>' :: cs, rfl, rfl, passed_nil, .inl ⟨cs, rfl⟩⟩
    · obtain ⟨text, rest, hfind, rfl, hpassed, hrest⟩ :=
        ih cs.length (by simp) (offset + c.utf8Size) cs rfl
      refine ⟨c :: text, rest, ?_, rfl, (passed_singleton ⟨hopen, hclose⟩).append hpassed, hrest⟩
      rw [if_pos (by simp [hopen, hclose])]
      simp only [piece_next, Text.byteLength_cons, Text.byteLength_nil, Nat.add_zero, hfind,
        Option.map_some, piece_cons_append]

/-! ## One token -/

/-- No word of a rule begins another one of the same rule. -/
theorem Unambiguous.words (rule : Rule) : Unambiguous rule.words := by
  cases rule <;> exact .of_all (by decide) (by decide) (by decide)

/-- Only an empty word is the same as one. -/
theorem eq_nil_of_sameWord {word : List Char} (h : Text.sameWord [] word = true) : word = [] := by
  simpa [Text.sameWord] using h

/-- The longest word is a token wherever it reads like one of some words. -/
theorem take?_word {words : List (List Char)} (hwords : Unambiguous words) {cs : List Char}
    (h : words.any (Text.sameWord (cs.takeWhile Text.isWordChar)) = true) :
    take? cs = some (.word (cs.takeWhile Text.isWordChar), cs.dropWhile Text.isWordChar) := by
  obtain ⟨word, hword, hsame⟩ := List.any_eq_true.1 h
  have hstarts := isWordStart_of_sameWord hsame (hwords.lower word hword)
  refine take?_eq_some_iff.2 ⟨?_, rfl, rfl⟩
  rcases cs with _ | ⟨c, cs⟩
  · exact absurd (eq_nil_of_sameWord hsame) (hwords.ne_nil word hword)
  -- Its first character begins a word, for else the word would be empty.
  · refine ⟨c, rfl, ?_⟩
    by_cases hc : Text.isWordChar c
    · exact hstarts c (by simp [hc])
    · rw [List.takeWhile_cons_of_neg hc] at hsame
      exact absurd (eq_nil_of_sameWord hsame) (hwords.ne_nil word hword)

/-- What the body of a rule for one token without inner trees finds. -/
def ReadsToken (rule : Rule) : Prop :=
  ∀ offset cs found, find (production rule).body .atomic ⟨offset, cs⟩ = some found ↔
    ∃ token rest, take? cs = some (token, rest) ∧ rule.accepts token = true ∧
      found = piece offset token.text rest

/-- A rule for keywords reads the tokens that are one of its words in any case. -/
theorem readsToken_words {rule : Rule} (hbody : (production rule).body = wholeWord rule.words)
    (hwords : rule.words ≠ []) : ReadsToken rule := by
  intro offset cs found
  rw [hbody, find_wholeWord (Unambiguous.words rule)]
  -- Both sides take the longest run of word characters and compare it with the keywords.
  constructor
  · rintro ⟨hany, rfl⟩
    exact ⟨_, _, take?_word (Unambiguous.words rule) hany,
      (Rule.accepts_words hwords).2 ⟨_, rfl, hany⟩, rfl⟩
  · rintro ⟨token, rest, htake, haccept, rfl⟩
    obtain ⟨text, rfl, hany⟩ := (Rule.accepts_words hwords).1 haccept
    obtain ⟨-, rfl, rfl⟩ := take?_eq_some_iff.1 htake
    exact ⟨hany, rfl⟩

/-- The rule for identifiers reads the words that are no keywords. -/
theorem readsToken_identifier : ReadsToken .identifier := by
  intro offset cs found
  rw [find_identifier]
  constructor
  · rintro ⟨hstart, hkeyword, rfl⟩
    exact ⟨.word _, _, take?_eq_some_iff.2 ⟨hstart, rfl, rfl⟩,
      Rule.accepts_identifier.2 ⟨_, rfl, hkeyword⟩, rfl⟩
  · rintro ⟨token, rest, htake, haccept, rfl⟩
    obtain ⟨text, rfl, hkeyword⟩ := Rule.accepts_identifier.1 haccept
    obtain ⟨hstart, rfl, rfl⟩ := take?_eq_some_iff.1 htake
    exact ⟨hstart, hkeyword, rfl⟩

/-- The rule for numerals reads numerals. -/
theorem readsToken_numeral : ReadsToken .numeral := by
  intro offset cs found
  rw [find_numeral, Option.map_eq_some_iff]
  constructor
  · rintro ⟨⟨text, rest⟩, htake, rfl⟩
    exact ⟨.numeral text, rest, take?_eq_some_iff.2 htake, rfl, rfl⟩
  · rintro ⟨token, rest, htake, haccept, rfl⟩
    obtain ⟨text, rfl⟩ := Rule.accepts_numeral.1 haccept
    exact ⟨(text, rest), take?_eq_some_iff.1 htake, rfl⟩

/-- The rule for edge operators reads operators. -/
theorem readsToken_edgeOp : ReadsToken .edgeOp := by
  intro offset cs found
  have hbody : (production .edgeOp).body = .alt (.literal ['-', '>']) (.literal ['-', '-']) := rfl
  rw [hbody, find_alt, Option.or_eq_some_iff, find_literal_eq_some_iff, find_literal_eq_some_iff]
  constructor
  · rintro (⟨rest, rfl, rfl⟩ | ⟨-, rest, rfl, rfl⟩)
    · exact ⟨.operator .digraph, rest, rfl, rfl, rfl⟩
    · exact ⟨.operator .graph, rest, rfl, rfl, rfl⟩
  -- The arrow is tried first, but no text begins with both operators.
  · rintro ⟨token, rest, htake, haccept, rfl⟩
    obtain ⟨kind, rfl⟩ := Rule.accepts_edgeOp.1 haccept
    have htaken := take?_eq_some_iff.1 htake
    rcases kind with _ | _ <;> cases htaken
    · exact .inr ⟨find_literal_eq_none (by simp), rest, rfl, rfl⟩
    · exact .inl ⟨rest, rfl, rfl⟩

/-- The match of a terminal rule. -/
def terminalMatch (rule : Rule) (offset : Nat) (token : Token) (rest : List Char) : Match Rule :=
  ⟨token.text, [rule.leaf offset token], ⟨offset + Text.byteLength token.text, rest⟩⟩

/-- What a terminal rule finds: a token that it accepts, where the lexer takes one. -/
def FindsToken (rule : Rule) : Prop :=
  ∀ offset cs found, find (.call rule) .spaced ⟨offset, cs⟩ = some found ↔
    ∃ token rest, take? cs = some (token, rest) ∧ rule.accepts token = true ∧
      found = terminalMatch rule offset token rest

/-- A rule that reads a token finds it with a leaf. -/
theorem ReadsToken.findsToken {rule : Rule} (h : ReadsToken rule) (hkind : (production rule).kind = .token)
    (hleaf : ∀ offset token, rule.accepts token = true →
      rule.leaf offset token = .node rule offset token.text []) : FindsToken rule := by
  intro offset cs found
  rw [find_token hkind (by decide), Option.map_eq_some_iff]
  constructor
  · rintro ⟨inner, hinner, rfl⟩
    obtain ⟨token, rest, htake, haccept, rfl⟩ := (h offset cs inner).1 hinner
    refine ⟨token, rest, htake, haccept, ?_⟩
    rw [terminalMatch, hleaf offset token haccept]
    rfl
  · rintro ⟨token, rest, htake, haccept, rfl⟩
    refine ⟨_, (h offset cs _).2 ⟨token, rest, htake, haccept, rfl⟩, ?_⟩
    rw [terminalMatch, hleaf offset token haccept]
    rfl

section

variable {rule inner : Rule} {first last : Char}

/-- A string is not found without its first character. -/
theorem find_string_eq_none
    (hrule : production rule = ⟨.tight, .seq (mark first) (.seq (.call inner) (mark last))⟩)
    {cs : List Char} (hcs : ∀ tail, cs ≠ first :: tail) :
    find (.call rule) .spaced ⟨offset, cs⟩ = none := by
  rw [find_tight (by rw [hrule]), hrule, find_seq_tight tight_ne_spaced, mark, find_literal_eq_none hcs]
  rfl

/-- A string between two marks, given what its inner rule reads. -/
theorem find_string
    (hrule : production rule = ⟨.tight, .seq (mark first) (.seq (.call inner) (mark last))⟩)
    (hinner : (production inner).kind = .token) {tail text rest : List Char}
    (hfind : find (production inner).body .atomic ⟨offset + first.utf8Size, tail⟩ =
      some (piece (offset + first.utf8Size) text rest)) :
    find (.call rule) .spaced ⟨offset, first :: tail⟩ =
      if rest.head? = some last then
        some ⟨first :: (text ++ [last]),
          [.node rule offset (first :: (text ++ [last]))
            [.node inner (offset + first.utf8Size) text []]],
          ⟨offset + Text.byteLength (first :: (text ++ [last])), rest.tail⟩⟩
      else none := by
  rw [find_tight (by rw [hrule]), hrule, find_seq_tight tight_ne_spaced, find_mark_cons, if_pos rfl,
    Option.bind_some, find_seq_tight tight_ne_spaced, piece_next, find_token hinner (by decide)]
  simp only [Text.byteLength_cons, Text.byteLength_nil, Nat.add_zero, hfind, Option.map_some,
    Option.bind_some, Match.asTree_next, piece_next]
  -- All that is left is the last mark.
  rcases rest with _ | ⟨c, rest⟩
  · rfl
  · rw [find_mark_cons]
    by_cases hc : c = last
    · simp [hc, Match.append, Match.asTree, piece, Nat.add_assoc]
    · simp [hc]

/-- A rule for strings finds a token, if its inner rule reads as far as the lexer does. -/
theorem findsToken_string (token : List Char → Token)
    (hrule : production rule = ⟨.tight, .seq (mark first) (.seq (.call inner) (mark last))⟩)
    (hinner : (production inner).kind = .token)
    (haccepts : ∀ found, rule.accepts found = true ↔ ∃ content, found = token content)
    (hleaf : ∀ offset content rest, terminalMatch rule offset (token content) rest =
      ⟨first :: (content ++ [last]),
        [.node rule offset (first :: (content ++ [last]))
          [.node inner (offset + first.utf8Size) content []]],
        ⟨offset + Text.byteLength (first :: (content ++ [last])), rest⟩⟩)
    (hstart : ∀ cs content rest, take? cs = some (token content, rest) → ∃ tail, cs = first :: tail)
    (hread : ∀ place tail, ∃ content rest,
      find (production inner).body .atomic ⟨place, tail⟩ = some (piece place content rest) ∧
        take? (first :: tail) =
          if rest.head? = some last then some (token content, rest.tail) else none) :
    FindsToken rule := by
  intro offset cs found
  by_cases hcs : ∃ tail, cs = first :: tail
  · obtain ⟨tail, rfl⟩ := hcs
    obtain ⟨content, rest, hfind, htake⟩ := hread (offset + first.utf8Size) tail
    rw [find_string hrule hinner hfind, htake]
    -- The rule and the lexer both look for the last mark behind the same content.
    split
    next =>
      rw [← hleaf, Option.some.injEq]
      constructor
      · rintro rfl
        exact ⟨token content, rest.tail, rfl, (haccepts _).2 ⟨content, rfl⟩, rfl⟩
      · rintro ⟨_, _, ⟨⟩, -, rfl⟩
        rfl
    next => simp
  · -- No token that the rule accepts begins with another character.
    rw [find_string_eq_none hrule fun tail h => hcs ⟨tail, h⟩]
    simp only [reduceCtorEq, false_iff]
    rintro ⟨found, rest, htake, haccept, -⟩
    obtain ⟨content, rfl⟩ := (haccepts found).1 haccept
    exact hcs (hstart cs content rest htake)

end

/-- The rule for quoted strings finds quoted strings. -/
theorem findsToken_quotedString : FindsToken .quotedString := by
  refine findsToken_string .quoted rfl rfl (fun _ => Rule.accepts_quotedString)
    (fun _ _ _ => rfl) (fun cs content rest htake => ?_) fun place tail => ?_
  · obtain ⟨tail, rfl, -⟩ := take?_eq_some_iff.1 htake
    exact ⟨tail, rfl⟩
  · refine ⟨_, _, find_quotedInner tail, ?_⟩
    rw [take?, takeQuoted_eq]
    rcases splitQuoted_rest tail with hrest | ⟨rest, hrest⟩ <;> rw [hrest] <;> rfl

/-- The rule for HTML strings finds HTML strings. -/
theorem findsToken_htmlString : FindsToken .htmlString := by
  refine findsToken_string .html rfl rfl (fun _ => Rule.accepts_htmlString)
    (fun _ _ _ => rfl) (fun cs content rest htake => ?_) fun place tail => ?_
  · obtain ⟨tail, rfl, -⟩ := take?_eq_some_iff.1 htake
    exact ⟨tail, rfl⟩
  · obtain ⟨text, rest, hfind, rfl, hpassed, hrest⟩ := find_balanced place tail
    refine ⟨text, rest, hfind, ?_⟩
    rw [take?, hpassed]
    -- Either the balanced part ends at a closing bracket, or the lexer finds no end for it at all.
    rcases hrest with ⟨after, rfl⟩ | hrest
    · rw [takeHtml]
      simp
    · -- What is left cannot begin with a bracket, where the lexer would have found the end.
      have hlast : rest.head? ≠ some '>' := by
        intro hlast
        obtain ⟨after, rfl⟩ := List.head?_eq_some_iff.1 hlast
        simpa [takeHtml] using hrest 0
      rw [hrest, if_neg hlast]
      rfl

/-- Only strings have a leaf with a tree below it. -/
theorem leaf_of_accepts {rule : Rule} (hquoted : rule ≠ .quotedString) (hhtml : rule ≠ .htmlString)
    (offset : Nat) {token : Token} (h : rule.accepts token = true) :
    rule.leaf offset token = .node rule offset token.text [] := by
  cases token with
  | quoted content => cases rule <;> simp_all [Rule.accepts]
  | html content => cases rule <;> simp_all [Rule.accepts]
  | _ => rfl

/-- A rule for keywords finds the tokens that are one of its words. -/
theorem findsToken_words {rule : Rule} (hrule : production rule = ⟨.token, wholeWord rule.words⟩)
    (hwords : rule.words ≠ []) : FindsToken rule := by
  refine (readsToken_words (by rw [hrule]) hwords).findsToken (by rw [hrule]) fun offset token h => ?_
  obtain ⟨text, rfl, -⟩ := (Rule.accepts_words hwords).1 h
  rfl

/-- A terminal rule finds a token that it accepts, where the lexer takes one, and nothing elsewhere. -/
theorem find_terminal {rule : Rule} (hrule : rule.isTerminal = true) : FindsToken rule := by
  -- Keywords are found in the same way; each of the other terminals has an expression of its own.
  cases rule with
  | strict | graphKind | attrTarget | subgraphKeyword => exact findsToken_words rfl (by decide)
  | identifier =>
    exact readsToken_identifier.findsToken rfl fun offset _ => leaf_of_accepts (by decide) (by decide) offset
  | numeral =>
    exact readsToken_numeral.findsToken rfl fun offset _ => leaf_of_accepts (by decide) (by decide) offset
  | edgeOp =>
    exact readsToken_edgeOp.findsToken rfl fun offset _ => leaf_of_accepts (by decide) (by decide) offset
  | quotedString => exact findsToken_quotedString
  | htmlString => exact findsToken_htmlString
  | _ => simp [Rule.isTerminal] at hrule

/-- A mark is found where the lexer takes it, and nowhere else. -/
theorem find_mark {c : Char} (hc : c ∈ marks) {cs : List Char} {found : Match Rule} :
    find (mark c) mode ⟨offset, cs⟩ = some found ↔
      ∃ rest, take? cs = some (.mark c, rest) ∧ found = piece offset [c] rest := by
  rw [mark, find_literal_eq_some_iff]
  refine exists_congr fun rest => and_congr_left fun _ => ?_
  rw [take?_eq_some_iff]
  exact (and_iff_right hc).symm

/-! ## The next token -/

/-- What is settled has no tokens, or a first one that the lexer can take at once. -/
theorem lex_of_settled {cs : List Char} (h : Settled cs) :
    lex cs = if cs = [] then some []
      else (take? cs).bind fun (token, rest) => (lex rest).map (token :: ·) := by
  rw [lex_eq]
  -- Either no layout is next, or a comment that is never closed, where no token is found.
  rcases h with h | ⟨tail, rfl, htail⟩
  · rw [h]
    rfl
  · have hdrop : dropLayout ('/' :: '*' :: tail) = none := by
      rw [dropLayout, dropBlock_eq, htail]
    rw [hdrop]
    rfl

/-- Where no layout is in front, a token that can be taken is the first one. -/
theorem lex_of_take? {cs rest : List Char} {token : Token} (h : Settled cs)
    (htake : take? cs = some (token, rest)) : lex cs = (lex rest).map (token :: ·) := by
  have hne : cs ≠ [] := by
    rintro rfl
    simp [take?] at htake
  rw [lex_of_settled h, if_neg hne, htake]
  rfl

/-- Where no layout is in front, the first token can be taken. -/
theorem take?_of_lex {cs : List Char} {token : Token} {tokens : List Token} (h : Settled cs)
    (hlex : lex cs = some (token :: tokens)) :
    ∃ rest, take? cs = some (token, rest) ∧ lex rest = some tokens := by
  rw [lex_of_settled h] at hlex
  split at hlex
  next => simp at hlex
  next =>
    simp only [Option.bind_eq_some_iff, Option.map_eq_some_iff, Prod.exists, List.cons.injEq] at hlex
    obtain ⟨token, rest, htake, tokens, hrest, rfl, rfl⟩ := hlex
    exact ⟨rest, htake, hrest⟩

/-- A text without layout and without tokens is empty. -/
theorem eq_nil_of_lex {cs : List Char} (h : Settled cs) (hlex : lex cs = some []) : cs = [] := by
  rw [lex_of_settled h] at hlex
  split at hlex
  next hnil => exact hnil
  next => simp [Option.bind_eq_some_iff] at hlex

end Grammar

end DotLang
