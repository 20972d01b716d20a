import DotLang.Proofs.Document.Written

/-!
# The next token

Whoever reads a document from left to right decides by the next token. The first token of anything written
tells what it may be (`Id.Written.begins` and its companions), and what stands behind a statement never
goes on with it (`Ended`).
-/

namespace DotLang

namespace Keyword

variable {text word word' : List Char}

/-- A word is at most one keyword. -/
theorem unique (hword : word ∈ all) (hword' : word' ∈ all) (h : Text.sameWord text word = true)
    (h' : Text.sameWord text word' = true) : word = word' := by
  rw [Text.sameWord, beq_iff_eq] at h h'
  have hinjective : ∀ word ∈ all, ∀ word' ∈ all,
      word.map Char.toLower = word'.map Char.toLower → word = word' := by decide
  exact hinjective word hword word' hword' (h.symm.trans h')

/-- A word that is the same as a keyword in any case is a keyword. -/
theorem isKeyword_of_sameWord (hword : word ∈ all) (h : Text.sameWord text word = true) :
    isKeyword text = true :=
  List.any_eq_true.2 ⟨word, hword, h⟩

end Keyword

namespace GraphKind

variable {kind kind' : GraphKind} {text : List Char}

/-- The keyword of each kind of graph is a keyword. -/
theorem keyword_mem (kind : GraphKind) : kind.keyword ∈ Keyword.all := by
  cases kind <;> decide

/-- A word is the keyword of at most one kind. -/
theorem eq_of_sameWord (h : Text.sameWord text kind.keyword = true)
    (h' : Text.sameWord text kind'.keyword = true) : kind = kind' := by
  have hunique := Keyword.unique kind.keyword_mem kind'.keyword_mem h h'
  revert hunique
  cases kind <;> cases kind' <;> decide

/-- The keyword of a kind does not mark a graph as strict. -/
theorem not_sameWord_strict (h : Text.sameWord text kind.keyword = true) :
    Text.sameWord text Keyword.strict = false := by
  rw [Bool.eq_false_iff]
  intro hstrict
  have hunique := Keyword.unique kind.keyword_mem (by decide) h hstrict
  revert hunique
  cases kind <;> decide

end GraphKind

namespace Token

/-- Whether an identifier may begin with a token. -/
def beginsId : Token → Bool
  | word text => !Keyword.isKeyword text
  | numeral _ | quoted _ | html _ => true
  | _ => false

/-- Whether an operand may begin with a token. -/
def beginsOperand : Token → Bool
  | word text => !Keyword.isKeyword text || Text.sameWord text Keyword.subgraph
  | mark c => c = '{'
  | operator _ => false
  | _ => true

/-- Whether a statement may begin with a token. -/
def beginsStatement : Token → Bool
  | word text =>
    Text.sameWord text Keyword.graph || Text.sameWord text Keyword.node ||
      Text.sameWord text Keyword.edge || beginsOperand (word text)
  | token => token.beginsOperand

/-- The first of some tokens, which there is, has a property. -/
def Begin (p : Token → Bool) (tokens : List Token) : Prop :=
  ∃ token tail, tokens = token :: tail ∧ p token = true

/-- The first of some tokens, if there is one, is none of some marks. -/
def NotAhead (marks : List Char) (tokens : List Token) : Prop :=
  ∀ c ∈ marks, tokens.head? ≠ some (mark c)

/-- The first of some tokens, if there is one, does not go on with a statement. -/
structure Ended (tokens : List Token) : Prop where
  /-- It is no mark that stands within a statement. -/
  notAhead : NotAhead ['+', ':', '=', '['] tokens
  /-- It is no edge operator. -/
  noOperator : ∀ kind, tokens.head? ≠ some (operator kind)

variable {p q : Token → Bool} {marks : List Char} {tokens tokens' : List Token} {token : Token}

/-- Tokens begin as before, whatever follows them. -/
theorem Begin.append (h : Begin p tokens) : Begin p (tokens ++ tokens') := by
  obtain ⟨token, tail, rfl, htoken⟩ := h
  exact ⟨token, tail ++ tokens', rfl, htoken⟩

/-- What begins with a token of one sort begins with one of every wider sort. -/
theorem Begin.imp (h : Begin p tokens) (himp : ∀ token, p token = true → q token = true) :
    Begin q tokens := by
  obtain ⟨token, tail, rfl, htoken⟩ := h
  exact ⟨token, tail, rfl, himp token htoken⟩

/-- Tokens that begin in some way are at least one. -/
theorem Begin.length_pos (h : Begin p tokens) : 0 < tokens.length := by
  obtain ⟨token, tail, rfl, -⟩ := h
  exact Nat.succ_pos _

/-- If none of some marks is ahead, none of fewer marks is. -/
theorem NotAhead.mono {fewer : List Char} (h : NotAhead marks tokens) (hmarks : ∀ c ∈ fewer, c ∈ marks) :
    NotAhead fewer tokens :=
  fun c hc => h c (hmarks c hc)

/-- Marks are not ahead where the next token is none of them. -/
theorem notAhead_cons : NotAhead marks (token :: tokens) ↔ ∀ c ∈ marks, token ≠ mark c := by
  simp [NotAhead]

/-- A token that begins an identifier begins an operand. -/
theorem beginsOperand_of_beginsId (h : token.beginsId = true) : token.beginsOperand = true := by
  cases token <;> simp_all [beginsId, beginsOperand]

/-- A token that begins an operand begins a statement. -/
theorem beginsStatement_of_beginsOperand (h : token.beginsOperand = true) :
    token.beginsStatement = true := by
  cases token <;> simp_all [beginsStatement]

/-- No operand begins with a keyword other than that of subgraphs. -/
theorem not_beginsOperand {text keyword : List Char} (hkeyword : keyword ∈ Keyword.all)
    (hne : keyword ≠ Keyword.subgraph) (h : Text.sameWord text keyword = true) :
    (word text).beginsOperand = false := by
  rw [beginsOperand, Keyword.isKeyword_of_sameWord hkeyword h, Bool.not_true, Bool.false_or,
    Bool.eq_false_iff]
  exact fun hsubgraph => hne (Keyword.unique hkeyword (by decide) h hsubgraph)

/-- No mark but an opening brace begins a statement. -/
theorem Begin.notAhead (h : Begin beginsStatement tokens) (hmarks : '{' ∉ marks) :
    NotAhead marks tokens := by
  obtain ⟨token, tail, rfl, htoken⟩ := h
  rw [notAhead_cons]
  rintro c hc rfl
  have hbrace : c = '{' := by simpa [beginsStatement, beginsOperand] using htoken
  exact hmarks (hbrace ▸ hc)

/-- A statement does not go on with a further one. -/
theorem Begin.ended (h : Begin beginsStatement tokens) : Ended tokens := by
  refine ⟨h.notAhead (by decide), fun kind hkind => ?_⟩
  obtain ⟨token, tail, rfl, htoken⟩ := h
  obtain rfl : token = operator kind := by simpa using hkind
  simp [beginsStatement, beginsOperand] at htoken

/-- Where an identifier begins, no mark is ahead. -/
theorem notAhead_of_beginsId (marks : List Char) (h : Begin beginsId tokens) :
    NotAhead marks (tokens ++ tokens') := by
  obtain ⟨token, tail, rfl, htoken⟩ := h
  refine notAhead_cons.2 fun c _ => ?_
  rintro rfl
  simp [beginsId] at htoken

/-- What may stand between two attributes is no plus sign. -/
theorem notAhead_separator (h : Optional [',', ';'] tokens) (h' : NotAhead ['+'] tokens') :
    NotAhead ['+'] (tokens ++ tokens') := by
  rcases h with rfl | ⟨c, hc, rfl⟩
  · exact h'
  · refine notAhead_cons.2 fun d hd => ?_
    rintro ⟨⟩
    simp_all

/-- In front of most marks a statement has ended. -/
theorem ended_mark {c : Char} (hc : c ∉ ['+', ':', '=', '[']) : Ended (mark c :: tokens) := by
  refine ⟨notAhead_cons.2 fun d hd => ?_, by simp⟩
  rintro ⟨⟩
  exact hc hd

/-- A semicolon ends a statement, as does what follows if there is none. -/
theorem ended_semicolon (h : Optional [';'] tokens) (h' : Ended tokens') : Ended (tokens ++ tokens') := by
  rcases h with rfl | ⟨c, hc, rfl⟩
  · exact h'
  · obtain rfl := List.mem_singleton.1 hc
    exact ended_mark (by decide)

end Token

open Token

variable {kind : GraphKind} {tokens rest : List Token}

/-! ## First tokens -/

/-- Strings that are joined begin with a quoted string. -/
theorem Id.Joined.head {value : List Char} (h : Id.Joined value tokens) :
    ∃ content tail, tokens = .quoted content :: tail := by
  cases h with
  | single content => exact ⟨content, [], rfl⟩
  | more content h => exact ⟨content, _, rfl⟩

/-- An identifier begins with a token that can begin one. -/
theorem Id.Written.begins {id : Id} (h : id.Written tokens) : Begin beginsId tokens := by
  cases id with
  | identifier value =>
    obtain ⟨rfl, hkeyword⟩ := h
    exact ⟨_, _, rfl, by simp [beginsId, hkeyword]⟩
  | numeral value => exact h ▸ ⟨_, _, rfl, rfl⟩
  | quoted value =>
    obtain ⟨content, tail, rfl⟩ := Id.Joined.head h
    exact ⟨_, _, rfl, rfl⟩
  | html value => exact h ▸ ⟨_, _, rfl, rfl⟩

/-- An attribute begins with its name. -/
theorem Attribute.Written.begins {pair : Attribute} (h : pair.Written tokens) : Begin beginsId tokens := by
  obtain ⟨key, value, rfl, hkey, -⟩ := h
  exact hkey.begins.append

/-- A group of attributes begins with the name of its first one. -/
theorem Attribute.Listed.begins {pairs : List Attribute} (h : Attribute.Listed pairs tokens) :
    Begin beginsId tokens := by
  cases h with
  | single h => exact h.begins
  | more h => exact h.begins.append

/-- A node begins with its name. -/
theorem NodeId.Written.begins {node : NodeId} (h : node.Written tokens) : Begin beginsId tokens := by
  cases h with
  | bare h => exact h.begins
  | port h => exact h.begins.append

/-- A subgraph begins with its keyword, or with its brace. -/
theorem Statement.Headed.begins {id : Option Id} (h : Statement.Headed id tokens) :
    Begin beginsOperand (tokens ++ .mark '{' :: rest) := by
  cases h with
  | none => exact ⟨_, _, rfl, rfl⟩
  | word hword _ => exact ⟨_, _, rfl, by simp [beginsOperand, hword]⟩

/-- An operand begins with a token that can begin one. -/
theorem Operand.Written.begins {operand : Operand} (h : operand.Written kind tokens) :
    Begin beginsOperand tokens := by
  cases operand with
  | node node =>
    rw [Operand.Written] at h
    exact h.begins.imp fun _ => beginsOperand_of_beginsId
  | subgraph id statements =>
    rw [Operand.Written] at h
    obtain ⟨head, body, rfl, hhead, -⟩ := h
    exact hhead.begins

/-- A statement begins with a token that can begin one. -/
theorem Statement.Written.begins {statement : Statement} (h : statement.Written kind tokens) :
    Begin beginsStatement tokens := by
  -- Nodes and assignments begin with an identifier, edges and subgraphs as an operand does.
  have hid : ∀ {tokens}, Begin beginsId tokens → Begin beginsStatement tokens := fun h =>
    h.imp fun _ h => beginsStatement_of_beginsOperand (beginsOperand_of_beginsId h)
  cases statement with
  | node node attributes =>
    rw [Statement.Written] at h
    obtain ⟨first, groups, rfl, hnode, -⟩ := h
    exact (hid hnode.begins).append
  | edge operands attributes =>
    rw [Statement.Written] at h
    obtain ⟨chain, groups, rfl, hchain, -⟩ := h
    rcases operands with _ | ⟨operand, operands⟩
    · exact absurd hchain (by simp [Operand.ChainWritten])
    · rw [Operand.ChainWritten] at hchain
      obtain ⟨first, links, rfl, hfirst, -⟩ := hchain
      exact (hfirst.begins.imp fun _ => beginsStatement_of_beginsOperand).append.append
  | attributes target attributes =>
    rw [Statement.Written] at h
    obtain ⟨word, groups, rfl, hword, -⟩ := h
    refine ⟨_, _, rfl, ?_⟩
    cases target <;> simp_all [beginsStatement, Target.keyword]
  | assignment pair =>
    rw [Statement.Written] at h
    exact hid h.begins
  | subgraph id statements =>
    rw [Statement.Written] at h
    obtain ⟨head, body, rfl, hhead, -⟩ := h
    exact hhead.begins.imp fun _ => beginsStatement_of_beginsOperand

/-! ## Followers -/

/-- Groups of attributes begin with a bracket, unless there are none. -/
theorem Attribute.Grouped.ahead {pairs : List Attribute} (h : Attribute.Grouped pairs tokens) :
    tokens = [] ∨ ∃ tail, tokens = .mark '[' :: tail := by
  cases h with
  | none => exact .inl rfl
  | empty => exact .inr ⟨_, rfl⟩
  | group => exact .inr ⟨_, rfl⟩

/-- Behind an operand, its attribute groups are ahead, or what follows the statement. -/
theorem Attribute.Grouped.notAhead {pairs : List Attribute} (h : Attribute.Grouped pairs tokens)
    {marks : List Char} (hmarks : '[' ∉ marks) (hrest : NotAhead marks rest) :
    NotAhead marks (tokens ++ rest) := by
  rcases h.ahead with rfl | ⟨tail, rfl⟩
  · exact hrest
  · refine notAhead_cons.2 fun c hc => ?_
    rintro ⟨⟩
    exact hmarks hc

/-- Behind groups of attributes no operator is next, if none is behind all of them. -/
theorem Attribute.Grouped.noOperator {pairs : List Attribute} (h : Attribute.Grouped pairs tokens)
    (hrest : ∀ kind, rest.head? ≠ some (.operator kind)) (kind : GraphKind) :
    (tokens ++ rest).head? ≠ some (.operator kind) := by
  rcases h.ahead with rfl | ⟨tail, rfl⟩
  · exact hrest kind
  · simp

/-- What is written for further statements does not go on with the one before. -/
theorem Statement.ListWritten.ended {statements : List Statement}
    (h : Statement.ListWritten kind statements tokens) (rest : List Token) :
    Ended (tokens ++ .mark '}' :: rest) ∧ NotAhead [';'] (tokens ++ .mark '}' :: rest) := by
  rcases statements with _ | ⟨statement, statements⟩
  -- Without further statements the brace comes next, and otherwise what begins a statement.
  · rw [Statement.ListWritten] at h
    subst h
    exact ⟨ended_mark (by decide), notAhead_cons.2 (by simp)⟩
  · rw [Statement.ListWritten] at h
    obtain ⟨first, separator, more, rfl, hfirst, -⟩ := h
    rw [List.append_assoc]
    exact ⟨hfirst.begins.append.ended, hfirst.begins.append.notAhead (by decide)⟩

/-- Behind the operator or the name of a chain, no mark of an identifier or a node is ahead. -/
theorem Operand.LinksWritten.notAhead {operands : List Operand} {marks : List Char}
    (h : Operand.LinksWritten kind operands tokens) (hrest : NotAhead marks rest) :
    NotAhead marks (tokens ++ rest) := by
  rcases operands with _ | ⟨operand, operands⟩
  · rw [Operand.LinksWritten] at h
    exact h ▸ hrest
  · rw [Operand.LinksWritten] at h
    obtain ⟨first, more, rfl, -⟩ := h
    exact notAhead_cons.2 (by simp)

end DotLang
