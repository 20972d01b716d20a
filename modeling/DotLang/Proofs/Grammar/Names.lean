import DotLang.Document.Names
import DotLang.Proofs.Document.Meaning
import DotLang.Proofs.Document.Mentions
import DotLang.Proofs.Document.Placement

/-!
# The names in a tree

The identifiers that the tokens of a text mention outside ports are those of the identifier trees outside
ports in the tree of the text, in the same order, and the strings among the tokens are the literals in the
tree (`mentioning_of_accepts`). What an identifier tree says when the lines of each of its literals are joined
is what its tokens write when their lines are joined.
-/

namespace DotLang

open Peg Token

open ParseTree (subtrees subtreesOf)

namespace Grammar

variable {rule : Rule} {trees trees' : List (ParseTree Rule)} {tokens tokens' : List Token} {token : Token}
variable {content : List Char} {tree : ParseTree Rule}

/-! ## Literals -/

/-- The rule that reads the content of a string, and this content. -/
def literal? : Token → Option (Rule × List Char)
  | .quoted content => some (.quotedInner, content)
  | .html content => some (.htmlInner, content)
  | _ => none

/-- The contents of the strings among some tokens are literals in some trees. -/
def Literals : Spelling := fun trees tokens =>
  ∀ token ∈ tokens, ∀ rule content, literal? token = some (rule, content) →
    ∃ literal ∈ subtreesOf trees, literal.rule = rule ∧ literal.text = content

/-- Tokens that are the literals of more trees are those of fewer. -/
theorem Literals.mono (h : Literals trees tokens) (hsub : ∀ tree ∈ subtreesOf trees, tree ∈ subtreesOf trees') :
    Literals trees' tokens := by
  intro token htoken rule content hliteral
  obtain ⟨literal, hmem, heq⟩ := h token htoken rule content hliteral
  exact ⟨literal, hsub literal hmem, heq⟩

/-- Trees have their literals among the tokens if the first ones and the others have. -/
theorem Literals.append (h : Literals trees tokens) (h' : Literals trees' tokens') :
    Literals (trees ++ trees') (tokens ++ tokens') := by
  intro token htoken
  rcases List.mem_append.1 htoken with htoken | htoken
  · exact h.mono (by simp +contextual) token htoken
  · exact h'.mono (by simp +contextual) token htoken

/-- A token that is no literal asks for none. -/
theorem literals_of_none (h : literal? token = none) : Literals trees [token] := by
  intro other hother rule content hliteral
  rw [List.mem_singleton.1 hother, h] at hliteral
  cases hliteral

/-- The literal of a token is that of its leaf. -/
theorem literals_leaf (rule : Rule) (offset : Nat) (token : Token) :
    Literals [rule.leaf offset token] [token] := by
  intro other hother inner content hliteral
  rw [List.mem_singleton.1 hother] at hliteral
  -- The content of a string has a tree of its own below that of the string.
  cases token with
  | quoted written =>
    obtain ⟨rfl, rfl⟩ := Prod.mk.inj (Option.some.inj hliteral)
    exact ⟨.node .quotedInner (offset + 1) written [], by simp [Rule.leaf, subtrees], rfl, rfl⟩
  | html written =>
    obtain ⟨rfl, rfl⟩ := Prod.mk.inj (Option.some.inj hliteral)
    exact ⟨.node .htmlInner (offset + 1) written [], by simp [Rule.leaf, subtrees], rfl, rfl⟩
  | word | numeral | operator | mark => cases hliteral

/-- The literals in a tree are those below it, and perhaps itself. -/
theorem Literals.node (h : Literals trees tokens) (rule : Rule) (offset : Nat) (text : List Char) :
    Literals [.node rule offset text trees] tokens :=
  h.mono fun tree htree => by simp [subtrees, htree]

/-! ## Identifiers -/

/-- The content of a quoted string as it is written, given its tree. -/
def quotedContent (tree : ParseTree Rule) : List Char :=
  (tree.children.head?.map ParseTree.text).getD []

/-- What a tree of a quoted string says is what its content says. -/
theorem quotedText_eq (tree : ParseTree Rule) : quotedText tree = Text.Quoted.unescape (quotedContent tree) := by
  rw [quotedText, quotedContent]
  rcases tree.children.head? with _ | inner <;> rfl

/-- The tokens of quoted strings with a plus sign before each. -/
def plusTokens (contents : List (List Char)) : List Token :=
  contents.flatMap fun content => [.mark '+', .quoted content]

/-- Contents with plus signs between them say what each of them says, one after the other. -/
theorem joined_plusTokens (first : List Char) (more : List (List Char)) :
    Id.Joined (Text.Quoted.unescape first ++ more.flatMap Text.Quoted.unescape)
      (.quoted first :: plusTokens more) := by
  induction more generalizing first with
  | nil =>
    rw [List.flatMap_nil, List.append_nil]
    exact .single first
  | cons next more ih => exact .more first (ih next)

/-- Joining lines in each content joins them in the tokens. -/
theorem strip_plusTokens (contents : List (List Char)) :
    (plusTokens contents).map Token.strip = plusTokens (contents.map Continuation.strip) := by
  induction contents with
  | nil => rfl
  | cons content contents ih => simpa [plusTokens, Token.strip] using ih

/-- Each content is one of the tokens. -/
theorem quoted_mem_plusTokens {first : List Char} {more : List (List Char)} (h : content ∈ first :: more) :
    .quoted content ∈ Token.quoted first :: plusTokens more := by
  rcases List.mem_cons.1 h with rfl | h
  · exact List.mem_cons_self
  · exact List.mem_cons_of_mem _ (List.mem_flatMap.2 ⟨content, h, by simp⟩)

/-- The tokens from which nothing is lost when their lines are joined. -/
def Sound (tokens : List Token) : Prop :=
  ∀ token ∈ tokens, token.Valid ∧ ¬token.PairContinued

/-- Where no pair of backslashes is continued, it does not matter whether lines are joined before a content is
read or afterwards. -/
theorem unescape_strip_of_sound (h : Sound tokens) (hmem : .quoted content ∈ tokens) :
    Text.Quoted.unescape (Continuation.strip content) = Continuation.strip (Text.Quoted.unescape content) := by
  obtain ⟨⟨value, hvalue, rfl⟩, hpairs⟩ := h _ hmem
  exact Text.Quoted.unescape_strip hvalue.paired hpairs

/-- What the tokens of an identifier say, before their lines are joined and afterwards. -/
def Says (tree : ParseTree Rule) (tokens : List Token) : Prop :=
  (Id.ofTree tree).Written tokens ∧
    (Sound tokens → (Id.joinedOfTree tree).Written (tokens.map Token.strip))

/-- The tree of strings that are joined says what its tokens do. -/
theorem says_quotedConcat {strings : List (ParseTree Rule)} {first : List Char} {more : List (List Char)}
    (hcontents : strings.map quotedContent = first :: more) (offset offset' : Nat) (text text' : List Char) :
    Says (.node .id offset text [.node .quotedConcat offset' text' strings])
      (.quoted first :: plusTokens more) := by
  have htext : strings.flatMap quotedText = (first :: more).flatMap Text.Quoted.unescape := by
    rw [← hcontents, List.flatMap_map]
    exact List.flatMap_congr fun string _ => quotedText_eq string
  refine ⟨Id.written_quoted (htext ▸ joined_plusTokens first more), fun hsound => ?_⟩
  -- Each literal is joined on its own, which is the same before it is read and afterwards.
  have hjoined : strings.flatMap (fun string => Continuation.strip (quotedText string)) =
      ((first :: more).map Continuation.strip).flatMap Text.Quoted.unescape := by
    rw [← hcontents, List.flatMap_map, List.flatMap_map]
    refine List.flatMap_congr fun string hstring => ?_
    have hcontent : quotedContent string ∈ first :: more := hcontents ▸ List.mem_map_of_mem hstring
    rw [quotedText_eq, unescape_strip_of_sound hsound (quoted_mem_plusTokens hcontent)]
  have hwritten := joined_plusTokens (Continuation.strip first) (more.map Continuation.strip)
  rw [← strip_plusTokens] at hwritten
  exact Id.written_quoted (hjoined ▸ hwritten)

/-- The tree of an HTML string says what its token does. -/
theorem says_html (content : List Char) (offset place : Nat) (text : List Char) :
    Says (.node .id offset text [Rule.leaf .htmlString place (.html content)]) [.html content] :=
  ⟨Id.written_html content, fun _ => Id.written_html _⟩

/-- The tree of a numeral says what its token does. -/
theorem says_numeral (digits : List Char) (offset place : Nat) (text : List Char) :
    Says (.node .id offset text [Rule.leaf .numeral place (.numeral digits)]) [.numeral digits] :=
  ⟨Id.written_numeral digits, fun _ => Id.written_numeral digits⟩

/-- The tree of a word says what its token does, unless it is a keyword. -/
theorem says_identifier {word : List Char} (hword : Keyword.isKeyword word = false) (offset place : Nat)
    (text : List Char) :
    Says (.node .id offset text [Rule.leaf .identifier place (.word word)]) [.word word] :=
  ⟨Id.written_identifier hword, fun _ => Id.written_identifier hword⟩

/-! ## What the trees of each rule have to do with mentions -/

/-- The strings among some tokens are literals in some trees, the identifiers outside ports are those in the
trees, and each identifier in a port is in the tree of a port. -/
def Mentioning : Spelling := fun trees tokens =>
  Literals trees tokens ∧ ∃ mentions, Mentions tokens mentions ∧
    List.Forall₂ Says (namesOf trees) (Mention.names mentions) ∧
    ∀ name, .portName name ∈ mentions → ∃ port ∈ subtreesOf trees, port.rule = .port ∧ Literals [port] name

/-- No trees and no tokens mention the same. -/
theorem Mentioning.nil : Mentioning [] [] :=
  ⟨fun _ htoken => absurd htoken List.not_mem_nil, [], .nil, .nil, by simp⟩

/-- A mark mentions nothing, as it leaves no tree. -/
theorem Mentioning.mark {c : Char} (hc : c ∉ [':', '+']) : Mentioning [] [.mark c] :=
  ⟨literals_of_none rfl, [], .separator (decide_eq_true hc) .nil, .nil, by simp⟩

/-- Trees and tokens mention the same if the first ones and the others do. -/
theorem Mentioning.append (h : Mentioning trees tokens) (h' : Mentioning trees' tokens') :
    Mentioning (trees ++ trees') (tokens ++ tokens') := by
  obtain ⟨hliterals, mentions, hmentions, hnames, hports⟩ := h
  obtain ⟨hliterals', mentions', hmentions', hnames', hports'⟩ := h'
  refine ⟨hliterals.append hliterals', mentions ++ mentions', hmentions.append hmentions', ?_, ?_⟩
  -- Names are counted over the whole list, while each port is found in the part it comes from.
  · rw [namesOf_append, Mention.names, List.filterMap_append]
    exact List.rel_append hnames hnames'
  · intro name hname
    rcases List.mem_append.1 hname with hname | hname
    · obtain ⟨port, hport, hrule⟩ := hports name hname
      exact ⟨port, by simp [hport], hrule⟩
    · obtain ⟨port, hport, hrule⟩ := hports' name hname
      exact ⟨port, by simp [hport], hrule⟩

/-- A tree that is no identifier and no port mentions what its children do. -/
theorem Mentioning.node (h : Mentioning trees tokens) (hid : rule ≠ .id) (hport : rule ≠ .port) (offset : Nat)
    (text : List Char) : Mentioning [.node rule offset text trees] tokens := by
  obtain ⟨hliterals, mentions, hmentions, hnames, hports⟩ := h
  refine ⟨hliterals.node rule offset text, mentions, hmentions, ?_, fun name hname => ?_⟩
  · rwa [namesOf_cons, names_node hid hport, namesOf_nil, List.append_nil]
  · obtain ⟨port, hmem, hrule⟩ := hports name hname
    exact ⟨port, by simp [subtrees, hmem], hrule⟩

/-- The tree of one identifier. -/
def OneName : Spelling := fun trees tokens =>
  Literals trees tokens ∧ ∃ tree, trees = [tree] ∧ tree.rule = .id ∧ Says tree tokens

/-- The tokens of one name are a name. -/
theorem OneName.isName (h : OneName trees tokens) : IsName tokens := by
  obtain ⟨-, tree, -, -, hwritten, -⟩ := h
  exact ⟨_, hwritten⟩

/-- A tree of one name mentions what its tokens do. -/
theorem OneName.mentioning (h : OneName trees tokens) : Mentioning trees tokens := by
  have hmentions := Mentions.name h.isName .nil
  rw [List.append_nil] at hmentions
  obtain ⟨hliterals, ⟨_, offset, text, children⟩, rfl, rfl, hsaid⟩ := h
  exact ⟨hliterals, _, hmentions, .cons hsaid .nil, by simp⟩

/-- The trees of identifiers in a port, each of which stands behind a colon. -/
def InPort : Spelling := fun trees tokens =>
  Literals trees tokens ∧ ∃ mentions, Mentions tokens mentions ∧ Mention.names mentions = [] ∧
    ∀ name, .portName name ∈ mentions → Literals trees name

/-- There may be nothing in a port. -/
theorem InPort.nil : InPort [] [] :=
  ⟨fun _ htoken => absurd htoken List.not_mem_nil, [], .nil, rfl, by simp⟩

/-- A name in a port stands behind a colon. -/
theorem InPort.cons (h : OneName trees tokens) (h' : InPort trees' tokens') :
    InPort (trees ++ trees') (.mark ':' :: (tokens ++ tokens')) := by
  obtain ⟨hliterals, mentions, hmentions, hnames, hports⟩ := h'
  have hmark : Literals [] [.mark ':'] := literals_of_none rfl
  refine ⟨hmark.append (h.1.append hliterals), .portName tokens :: mentions, .portName h.isName hmentions,
    hnames, fun name hname => ?_⟩
  rcases List.mem_cons.1 hname with heq | hname
  · obtain rfl := (Mention.portName.inj heq)
    exact h.1.mono (by simp +contextual)
  · exact (hports name hname).mono (by simp +contextual)

/-- What stands in a port is no name, but in a tree of a port. -/
theorem InPort.mentioning (h : InPort trees tokens) (offset : Nat) (text : List Char) :
    Mentioning [.node .port offset text trees] tokens := by
  obtain ⟨hliterals, mentions, hmentions, hnames, hports⟩ := h
  refine ⟨hliterals.node _ _ _, mentions, hmentions, ?_, fun name hname => ?_⟩
  · rw [hnames]
    exact .nil
  · exact ⟨.node .port offset text trees, by simp [subtrees], rfl, (hports name hname).node _ _ _⟩

/-- The tree that a terminal makes of a token. -/
def Leaf (rule : Rule) : Spelling := fun trees tokens =>
  ∃ token offset, rule.accepts token = true ∧ trees = [rule.leaf offset token] ∧ tokens = [token]

/-- The trees of quoted strings with a plus sign before each. -/
def Added : Spelling := fun trees tokens =>
  Literals trees tokens ∧ tokens = plusTokens (trees.map quotedContent)

/-- The tree of quoted strings that are joined. -/
def Concatenated : Spelling := fun trees tokens =>
  Literals trees tokens ∧ ∃ offset text strings first more,
    trees = [.node .quotedConcat offset text strings] ∧ strings.map quotedContent = first :: more ∧
      tokens = .quoted first :: plusTokens more

/-- Whether a rule reads a part of an identifier. -/
def isForm : Rule → Bool
  | .identifier | .numeral | .quotedString | .htmlString | .quotedConcat => true
  | _ => false

/-- What the trees of a rule have to do with the identifiers that their tokens mention. -/
def mentionsBy : Rule → Spelling
  | .id => OneName
  | .quotedConcat => Concatenated
  | .identifier => Leaf .identifier
  | .numeral => Leaf .numeral
  | .quotedString => Leaf .quotedString
  | .htmlString => Leaf .htmlString
  | _ => Mentioning

/-- Every rule but those of identifiers and their forms mentions what its tokens do. -/
theorem mentionsBy_eq (hid : rule ≠ .id) (hform : isForm rule = false) : mentionsBy rule = Mentioning := by
  revert hid hform
  cases rule <;> simp [isForm, mentionsBy]

/-- A word of a rule for keywords is a keyword. -/
theorem isKeyword_of_words {text : List Char} (h : rule.words.any (Text.sameWord text) = true) :
    Keyword.isKeyword text = true := by
  have hall : ∀ keyword ∈ rule.words, keyword ∈ Keyword.all := by cases rule <;> decide
  obtain ⟨keyword, hkeyword, hsame⟩ := List.any_eq_true.1 h
  exact Keyword.isKeyword_of_sameWord (hall keyword hkeyword) hsame

/-- The terminals that are no part of an identifier are keywords and edge operators. -/
theorem separates_of_accepts (hrule : rule.isTerminal = true) (hform : isForm rule = false)
    (haccept : rule.accepts token = true) : token.separates = true := by
  -- The only one without words is the one for edge operators.
  by_cases hwords : rule.words = []
  · obtain rfl : rule = .edgeOp := by
      revert hrule hform hwords
      cases rule <;> decide
    obtain ⟨kind, rfl⟩ := Rule.accepts_edgeOp.1 haccept
    rfl
  · obtain ⟨text, rfl, hany⟩ := (Rule.accepts_words hwords).1 haccept
    exact isKeyword_of_words hany

/-- In the leaf of a token there are no names. -/
theorem namesOf_leaf (hid : rule ≠ .id) (hport : rule ≠ .port) (offset : Nat) (token : Token) :
    namesOf [rule.leaf offset token] = [] := by
  cases token <;> simp [Rule.leaf, names, hid, hport]

/-- The leaf of a token mentions what the token does. -/
theorem mentionsBy_terminal (hrule : rule.isTerminal = true) (haccept : rule.accepts token = true)
    (offset : Nat) : mentionsBy rule [rule.leaf offset token] [token] := by
  have hid : rule ≠ .id := by
    rintro rfl
    cases hrule
  have hport : rule ≠ .port := by
    rintro rfl
    cases hrule
  rcases hform : isForm rule with _ | _
  -- What is no form of an identifier only separates, and mentions nothing.
  · rw [mentionsBy_eq hid hform]
    have hseparates := separates_of_accepts hrule hform haccept
    refine ⟨literals_leaf rule offset token, [], .separator hseparates .nil, ?_, by simp⟩
    rw [namesOf_leaf hid hport]
    exact .nil
  · cases rule with
    | identifier | numeral | quotedString | htmlString => exact ⟨token, offset, haccept, rfl, rfl⟩
    | quotedConcat => cases hrule
    | _ => cases hform

/-- What an expression reads mentions what its tokens do, if it calls no form of an identifier. -/
theorem mentioning_of_spells {e : Expr Rule}
    (he : usesOnly (fun c => c ∉ [':', '+']) (fun rule => !isForm rule) e = true)
    (h : Spells mentionsBy e trees tokens) : Mentioning trees tokens := by
  refine combined_of_usesOnly .nil (fun c hc => .mark (of_decide_eq_true hc)) Mentioning.append ?_ he h
  intro rule trees tokens hform hrule
  by_cases hid : rule = .id
  · subst hid
    exact OneName.mentioning hrule
  · rwa [mentionsBy_eq hid (by simpa using hform)] at hrule

/-- An identifier of each form. -/
theorem oneName_of_spells (h : Spells mentionsBy (production .id).body trees tokens) (offset : Nat)
    (text : List Char) : OneName [.node .id offset text trees] tokens := by
  -- The alternatives are HTML, quoted strings, numerals and words, in this order.
  rcases h with h | h | h | h
  · obtain ⟨token, place, haccept, rfl, rfl⟩ := h
    obtain ⟨content, rfl⟩ := Rule.accepts_htmlString.1 haccept
    exact ⟨(literals_leaf _ _ _).node _ _ _, _, rfl, rfl, says_html content offset place text⟩
  · obtain ⟨hliterals, place, inner, strings, first, more, rfl, hcontents, rfl⟩ := h
    exact ⟨hliterals.node _ _ _, _, rfl, rfl, says_quotedConcat hcontents offset place text inner⟩
  · obtain ⟨token, place, haccept, rfl, rfl⟩ := h
    obtain ⟨digits, rfl⟩ := Rule.accepts_numeral.1 haccept
    exact ⟨(literals_leaf _ _ _).node _ _ _, _, rfl, rfl, says_numeral digits offset place text⟩
  · obtain ⟨token, place, haccept, rfl, rfl⟩ := h
    obtain ⟨word, rfl, hkeyword⟩ := Rule.accepts_identifier.1 haccept
    exact ⟨(literals_leaf _ _ _).node _ _ _, _, rfl, rfl, says_identifier hkeyword offset place text⟩

/-- The leaf of a quoted string has one token with its content. -/
theorem quotedString_of_leaf (h : Leaf .quotedString trees tokens) :
    ∃ tree, trees = [tree] ∧ tokens = [.quoted (quotedContent tree)] ∧ Literals trees tokens := by
  obtain ⟨token, offset, haccept, rfl, rfl⟩ := h
  obtain ⟨content, rfl⟩ := Rule.accepts_quotedString.1 haccept
  exact ⟨_, rfl, rfl, literals_leaf _ _ _⟩

/-- Strings behind plus signs are added to the first one. -/
theorem added_of_repeats
    (h : Repeats (Follows (Spells mentionsBy (mark '+')) (Leaf .quotedString)) trees tokens) :
    Added trees tokens := by
  induction h with
  | nil => exact ⟨fun _ htoken => absurd htoken List.not_mem_nil, rfl⟩
  | cons hround _ ih =>
    obtain ⟨hliterals, rfl⟩ := ih
    -- A round is a plus sign, which has no tree, and a string.
    obtain ⟨_, _, _, _, rfl, rfl, hplus, hstring⟩ := hround
    obtain ⟨rfl, rfl⟩ := spells_mark hplus
    obtain ⟨tree, rfl, rfl, hliteral⟩ := quotedString_of_leaf hstring
    have hmark : Literals [] [.mark '+'] := literals_of_none rfl
    exact ⟨(hmark.append hliteral).append hliterals, rfl⟩

/-- The tree of strings that are joined has their contents. -/
theorem concatenated_of_spells (h : Spells mentionsBy (production .quotedConcat).body trees tokens)
    (offset : Nat) (text : List Char) : Concatenated [.node .quotedConcat offset text trees] tokens := by
  obtain ⟨_, more, _, _, rfl, rfl, hstring, hmore⟩ := h
  obtain ⟨first, rfl, rfl, hliteral⟩ := quotedString_of_leaf hstring
  obtain ⟨hliterals, rfl⟩ := added_of_repeats hmore
  exact ⟨(hliteral.append hliterals).node _ _ _, offset, text, _, _, _, rfl, rfl, rfl⟩

/-- One identifier behind a colon, or two. -/
theorem inPort_of_spells (h : Spells mentionsBy (production .port).body trees tokens) :
    InPort trees tokens := by
  obtain ⟨_, _, _, _, rfl, rfl, hmark, _, _, _, _, rfl, rfl, hfirst, hsecond⟩ := h
  obtain ⟨rfl, rfl⟩ := spells_mark hmark
  -- The second identifier is optional, and has a colon of its own.
  rcases hsecond with ⟨_, _, _, _, rfl, rfl, hmark, hsecond⟩ | ⟨rfl, rfl⟩
  · obtain ⟨rfl, rfl⟩ := spells_mark hmark
    simpa using InPort.cons hfirst (InPort.cons hsecond .nil)
  · simpa using InPort.cons hfirst .nil

/-- What a rule reads mentions what its tokens do, if this is so for the rules that its body calls. -/
theorem mentionsBy_closed : Closed mentionsBy where
  terminal hrule haccept offset := mentionsBy_terminal hrule haccept offset
  branch {rule trees tokens} hrule _ h offset text := by
    -- Identifiers, their strings and ports are read in their own ways, all other rules in the same way.
    by_cases hid : rule = .id
    · subst hid
      exact oneName_of_spells h offset text
    by_cases hconcat : rule = .quotedConcat
    · subst hconcat
      exact concatenated_of_spells h offset text
    by_cases hport : rule = .port
    · subst hport
      exact (inPort_of_spells h).mentioning offset text
    have hform : isForm rule = false := by
      revert hrule hconcat
      cases rule <;> decide
    rw [mentionsBy_eq hid hform]
    refine (mentioning_of_spells ?_ h).node hid hport offset text
    revert hrule hid hconcat hport
    cases rule <;> decide
  silent {rule trees tokens} hrule hkind h := by
    rcases eq_of_isNonterminal_silent hrule hkind with rfl | rfl
    · exact mentioning_of_spells (by decide) h
    · exact mentioning_of_spells (by decide) h

/-- The identifiers outside ports that the tokens of a text mention are those in the tree of the text. -/
theorem mentioning_of_accepts {text : List Char} (h : Accepts text tree) :
    ∃ tokens, lex text = some tokens ∧ Mentioning [tree] tokens := by
  obtain ⟨read, trees, offset, tokens, rfl, hlex, hspells⟩ := spelled_of_accepts mentionsBy_closed h
  refine ⟨tokens, hlex, ?_⟩
  -- The end of the input has a tree and no token.
  have hend : Mentioning [.node .endOfInput offset [] []] [] :=
    Mentioning.nil.node (by decide) (by decide) offset []
  have htrees := (mentioning_of_spells (by decide) hspells).append hend
  rw [List.append_nil] at htrees
  exact htrees.node (by decide) (by decide) 0 read

end Grammar

end DotLang
