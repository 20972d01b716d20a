import DotLang.Proofs.Document.Ahead
import DotLang.Proofs.Grammar.Taking

/-!
# The grammar reads what is written

Tokens by which a document can be written are read by the grammar to their end. The alternatives that the
grammar tries in vain fail at the first token that does not fit, so nothing is lost by their order.
-/

namespace DotLang.Grammar

open Peg Token

variable {kind : GraphKind} {tokens rest : List Token} {token : Token}

/-! ## Identifiers -/

/-- No identifier is read where the next token begins none. -/
theorem rejects_id (h : ∀ token ∈ tokens.head?, token.beginsId = false) : Rejects (.call .id) tokens := by
  -- Each form of identifiers begins with a token of its own, which none of those ahead is.
  have hterminal : ∀ {rule : Rule}, rule.isTerminal = true →
      (∀ token, rule.accepts token = true → token.beginsId = true) → Rejects (.call rule) tokens := by
    intro rule hrule haccepts
    refine rejects_terminal hrule fun token htoken => ?_
    rw [Bool.eq_false_iff]
    exact fun haccept => Bool.eq_false_iff.1 (h token htoken) (haccepts token haccept)
  refine .call rfl (.alt ?_ (.alt (.call rfl (.seq_left ?_)) (.alt ?_ ?_)))
  · refine hterminal rfl fun token haccept => ?_
    obtain ⟨content, rfl⟩ := Rule.accepts_htmlString.1 haccept
    rfl
  · refine hterminal rfl fun token haccept => ?_
    obtain ⟨content, rfl⟩ := Rule.accepts_quotedString.1 haccept
    rfl
  · refine hterminal rfl fun token haccept => ?_
    obtain ⟨text, rfl⟩ := Rule.accepts_numeral.1 haccept
    rfl
  · refine hterminal rfl fun token haccept => ?_
    obtain ⟨text, rfl, hkeyword⟩ := Rule.accepts_identifier.1 haccept
    simp [beginsId, hkeyword]

/-- No identifier is read at a mark. -/
theorem rejects_id_mark (c : Char) : Rejects (.call .id) (.mark c :: tokens) :=
  rejects_id (by simp [beginsId])

/-- Strings behind plus signs, up to something else. -/
theorem reads_joined {value : List Char} (h : Id.Joined value tokens) (hrest : NotAhead ['+'] rest) :
    Reads (.call .quotedConcat) (tokens ++ rest) rest := by
  have hround : ∀ {content tokens}, Reads (.seq (mark '+') (.call .quotedString))
      (.mark '+' :: .quoted content :: tokens) tokens :=
    (reads_mark (by decide)).seq (reads_terminal rfl rfl)
  have hend : Reads (.star (.seq (mark '+') (.call .quotedString))) rest rest :=
    .star_nil (.seq_left (rejects_mark (by decide) (hrest '+' List.mem_cons_self)))
  -- What follows the first string is read in rounds.
  have hmore : ∀ {value tokens}, Id.Joined value tokens →
      Reads (.star (.seq (mark '+') (.call .quotedString))) (.mark '+' :: (tokens ++ rest)) rest := by
    intro value tokens h
    induction h with
    | single content => exact .star (by decide) hround hend
    | more content _ ih => exact .star (by decide) hround ih
  refine .call rfl ?_
  cases h with
  | single content => exact (reads_terminal rfl rfl).seq hend
  | more content h => exact (reads_terminal rfl rfl).seq (hmore h)

/-- An identifier is read up to where no plus sign could go on with it. -/
theorem reads_id {id : Id} (h : id.Written tokens) (hrest : NotAhead ['+'] rest) :
    Reads (.call .id) (tokens ++ rest) rest := by
  refine .call rfl ?_
  -- The alternatives in front of the right one fail at the first token.
  have hterminal : ∀ {rule : Rule} {token : Token} {tokens}, rule.isTerminal = true →
      rule.accepts token = false → Rejects (.call rule) (token :: tokens) :=
    fun hrule haccepts => rejects_terminal hrule (by simpa using haccepts)
  cases id with
  | html value =>
    obtain rfl := h
    exact .alt_left (reads_terminal rfl rfl)
  | quoted value =>
    have hjoined : Id.Joined value.toList tokens := h
    have hhtml : Rejects (.call .htmlString) (tokens ++ rest) := by
      obtain ⟨content, tail, rfl⟩ := hjoined.head
      exact hterminal rfl rfl
    exact .alt_right hhtml (.alt_left (reads_joined hjoined hrest))
  | numeral value =>
    obtain rfl := h
    exact .alt_right (hterminal rfl rfl) (.alt_right (.call rfl (.seq_left (hterminal rfl rfl)))
      (.alt_left (reads_terminal rfl rfl)))
  | identifier value =>
    obtain ⟨rfl, hkeyword⟩ := h
    exact .alt_right (hterminal rfl rfl) (.alt_right (.call rfl (.seq_left (hterminal rfl rfl)))
      (.alt_right (hterminal rfl rfl) (reads_terminal rfl (by simp [Rule.accepts, hkeyword]))))

/-! ## Attributes -/

/-- Two identifiers with an equality sign between them. -/
theorem reads_pair {pair : Attribute} (h : pair.Written tokens) (hrest : NotAhead ['+'] rest) :
    Reads (.seq (.call .id) (.seq (mark '=') (.call .id))) (tokens ++ rest) rest := by
  obtain ⟨key, value, rfl, hkey, hvalue⟩ := h
  rw [List.append_assoc]
  exact (reads_id hkey (notAhead_cons.2 (by simp))).seq
    ((reads_mark (by decide)).seq (reads_id hvalue hrest))

/-- An attribute is read up to where no plus sign could go on with its value. -/
theorem reads_attr {pair : Attribute} (h : pair.Written tokens) (hrest : NotAhead ['+'] rest) :
    Reads (.call .attr) (tokens ++ rest) rest :=
  .call rfl (reads_pair h hrest)

/-- An assignment is read up to where no plus sign could go on with its value. -/
theorem reads_assignment {pair : Attribute} (h : pair.Written tokens) (hrest : NotAhead ['+'] rest) :
    Reads (.call .assignment) (tokens ++ rest) rest :=
  .call rfl (reads_pair h hrest)

/-- At the end of a group there is no further attribute. -/
theorem rejects_another : Rejects another (.mark ']' :: rest) := by
  refine .seq_right (.opt_nil (.alt ?_ ?_)) (.call rfl (.seq_left (rejects_id_mark ']')))
  · exact rejects_mark (by decide) (by simp)
  · exact rejects_mark (by decide) (by simp)

/-- A separator that may be missing is read if it stands there. -/
theorem reads_separator {separator : List Token} (h : Optional [',', ';'] separator)
    (hrest : NotAhead [',', ';'] rest) :
    Reads (.opt (.any [mark ',', mark ';'])) (separator ++ rest) rest := by
  rcases h with rfl | ⟨c, hc, rfl⟩
  · exact .opt_nil (.alt (rejects_mark (by decide) (hrest ',' (by simp)))
      (rejects_mark (by decide) (hrest ';' (by simp))))
  · simp only [List.mem_cons, List.not_mem_nil, or_false] at hc
    rcases hc with rfl | rfl
    · exact .opt (.alt_left (reads_mark (by decide)))
    · exact .opt (.alt_right (rejects_mark (by decide) (by simp)) (reads_mark (by decide)))

/-- More attributes behind one, up to the closing bracket. -/
theorem reads_more {pairs : List Attribute} (h : Attribute.Listed pairs tokens) {separator : List Token}
    (hseparator : Optional [',', ';'] separator) :
    Reads (.star another) (separator ++ (tokens ++ .mark ']' :: rest)) (.mark ']' :: rest) := by
  -- The separator is not read twice, since an attribute begins with an identifier.
  have hcomma : NotAhead [',', ';'] (tokens ++ .mark ']' :: rest) := notAhead_of_beginsId _ h.begins
  induction h generalizing separator with
  | single hpair =>
    refine .star (by decide) ((reads_separator hseparator hcomma).seq (reads_attr hpair ?_))
      (.star_nil rejects_another)
    exact notAhead_cons.2 (by simp)
  | more hpair hnext hlisted ih =>
    rw [List.append_assoc, List.append_assoc] at hcomma ⊢
    refine .star (by decide) ((reads_separator hseparator hcomma).seq (reads_attr hpair ?_))
      (ih hnext (notAhead_of_beginsId _ hlisted.begins))
    exact notAhead_separator hnext (notAhead_of_beginsId _ hlisted.begins)

/-- The attributes of a group are read up to the end of the group. -/
theorem reads_listed {pairs : List Attribute} (h : Attribute.Listed pairs tokens) :
    Reads (.seq (.call .attr) (.star another)) (tokens ++ .mark ']' :: rest) (.mark ']' :: rest) := by
  cases h with
  | single hpair => exact (reads_attr hpair (notAhead_cons.2 (by simp))).seq (.star_nil rejects_another)
  | more hpair hnext hlisted =>
    rw [List.append_assoc, List.append_assoc]
    exact (reads_attr hpair (notAhead_separator hnext (notAhead_of_beginsId _ hlisted.begins))).seq
      (reads_more hlisted hnext)

/-- The groups of an attribute list are read in rounds. -/
theorem reads_groups {pairs : List Attribute} (h : Attribute.Grouped pairs tokens)
    (hrest : NotAhead ['['] rest) : Reads (.star group) (tokens ++ rest) rest := by
  induction h with
  | none => exact .star_nil (.seq_left (rejects_mark (by decide) (hrest '[' (by simp))))
  | empty _ ih =>
    refine .star (by decide) ((reads_mark (by decide)).seq (Reads.seq (.opt_nil ?_) (reads_mark (by decide)))) ih
    exact .seq_left (.call rfl (.seq_left (rejects_id_mark ']')))
  | group hlisted _ ih =>
    rw [List.cons_append, List.append_assoc]
    exact .star (by decide) ((reads_mark (by decide)).seq ((reads_listed hlisted).opt.seq
      (reads_mark (by decide)))) ih

/-- Without a bracket there is no list of attributes. -/
theorem rejects_attrList (hrest : NotAhead ['['] rest) : Rejects (.call .attrList) rest :=
  .call rfl (.seq_left (.seq_left (rejects_mark (by decide) (hrest '[' List.mem_cons_self))))

/-- One or more groups are an attribute list. -/
theorem reads_attrList {pairs : List Attribute} (h : Attribute.Grouped pairs tokens) (hne : tokens ≠ [])
    (hrest : NotAhead ['['] rest) : Reads (.call .attrList) (tokens ++ rest) rest := by
  refine .call rfl ?_
  cases h with
  | none => exact absurd rfl hne
  -- In an empty group the list of attributes is missing, since a bracket begins no attribute.
  | empty hmore =>
    refine Reads.seq ((reads_mark (by decide)).seq (Reads.seq (.opt_nil ?_) (reads_mark (by decide))))
      (reads_groups hmore hrest)
    exact .seq_left (.call rfl (.seq_left (rejects_id_mark ']')))
  | group hlisted hmore =>
    rw [List.cons_append, List.append_assoc]
    exact ((reads_mark (by decide)).seq ((reads_listed hlisted).opt.seq
      (reads_mark (by decide)))).seq (reads_groups hmore hrest)

/-- The groups of attributes are read up to where no further group begins. -/
theorem reads_lists {pairs : List Attribute} (h : Attribute.Grouped pairs tokens)
    (hrest : NotAhead ['['] rest) : Reads (.opt (.call .attrList)) (tokens ++ rest) rest := by
  by_cases hne : tokens = []
  · subst hne
    exact .opt_nil (rejects_attrList hrest)
  · exact (reads_attrList h hne hrest).opt

/-! ## Nodes -/

/-- Without a colon there is no port. -/
theorem rejects_port (hrest : NotAhead [':'] rest) : Rejects (.call .port) rest :=
  .call rfl (.seq_left (rejects_mark (by decide) (hrest ':' List.mem_cons_self)))

/-- One identifier behind a colon, and perhaps another one. -/
theorem reads_port {port : Port} (h : port.Written tokens) (hrest : NotAhead ['+', ':'] rest) :
    Reads (.call .port) (tokens ++ rest) rest := by
  have hplus : NotAhead ['+'] rest := hrest.mono (by simp)
  -- Name and compass point are read alike; only the builder tells them apart.
  have hsingle : ∀ {id : Id} {tokens}, id.Written tokens →
      Reads (.call .port) (.mark ':' :: tokens ++ rest) rest := fun hid =>
    .call rfl ((reads_mark (by decide)).seq ((reads_id hid hplus).seq
      (.opt_nil (.seq_left (rejects_mark (by decide) (hrest ':' (by simp)))))))
  cases h with
  | name hid _ => exact hsingle hid
  | compass hid _ => exact hsingle hid
  | both hid hid' =>
    rw [List.cons_append, List.append_assoc]
    exact .call rfl ((reads_mark (by decide)).seq ((reads_id hid (notAhead_cons.2 (by simp))).seq
      ((reads_mark (by decide)).seq (reads_id hid' hplus)).opt))

/-- A node is read up to where nothing could go on with its name or its port. -/
theorem reads_nodeId {node : NodeId} (h : node.Written tokens) (hrest : NotAhead ['+', ':'] rest) :
    Reads (.call .nodeId) (tokens ++ rest) rest := by
  refine .call rfl ?_
  cases h with
  | bare hid => exact (reads_id hid (hrest.mono (by simp))).seq (.opt_nil (rejects_port (hrest.mono (by simp))))
  | port hid hport =>
    rw [List.append_assoc]
    refine (reads_id hid ?_).seq (reads_port hport hrest).opt
    -- The colon of the port follows, so the string does not go on.
    cases hport <;> exact notAhead_cons.2 (by simp)

/-! ## Operands -/

/-- Where an operand begins, no keyword of an attribute statement is ahead. -/
theorem rejects_attrStmt (h : ∀ token ∈ tokens.head?, Rule.attrTarget.accepts token = false) :
    Rejects (.call .attrStmt) tokens :=
  .call rfl (.seq_left (rejects_terminal rfl h))

/-- What begins an operand is no keyword of an attribute statement. -/
theorem attrTarget_of_beginsOperand (h : token.beginsOperand = true) :
    Rule.attrTarget.accepts token = false := by
  rw [Bool.eq_false_iff]
  intro haccept
  obtain ⟨text, rfl, hany⟩ := (Rule.accepts_words (by decide)).1 haccept
  obtain ⟨word, hword, hsame⟩ := List.any_eq_true.1 hany
  -- Its words are keywords other than that of subgraphs, and these begin no operand.
  have hmem : word ∈ Keyword.all :=
    (by decide : ∀ word ∈ Rule.words .attrTarget, word ∈ Keyword.all) word hword
  have hne : word ≠ Keyword.subgraph := by
    rintro rfl
    exact absurd hword (by decide)
  rw [not_beginsOperand hmem hne hsame] at h
  cases h

/-- What begins with an operand is no attribute statement. -/
theorem rejects_attrStmt_of_operand (h : Begin beginsOperand tokens) :
    Rejects (.call .attrStmt) (tokens ++ rest) := by
  obtain ⟨token, tail, rfl, htoken⟩ := h
  exact rejects_attrStmt (by simpa using attrTarget_of_beginsOperand htoken)

/-- A subgraph begins with its keyword or with a brace. -/
theorem rejects_subgraph (hword : ∀ token ∈ tokens.head?, Rule.subgraphKeyword.accepts token = false)
    (hbrace : NotAhead ['{'] tokens) : Rejects (.call .subgraph) tokens :=
  .call rfl (.seq_right (.opt_nil (.seq_left (rejects_terminal rfl hword)))
    (.seq_left (rejects_mark (by decide) (hbrace '{' List.mem_cons_self))))

/-- What begins with an identifier is no subgraph. -/
theorem rejects_subgraph_of_id (h : Begin beginsId tokens) :
    Rejects (.call .subgraph) (tokens ++ rest) := by
  refine rejects_subgraph ?_ (notAhead_of_beginsId ['{'] h)
  obtain ⟨token, tail, rfl, htoken⟩ := h
  rw [List.cons_append, List.head?_cons]
  rintro _ ⟨⟩
  rw [Bool.eq_false_iff]
  intro haccept
  -- The word for subgraphs is a keyword, which begins no identifier.
  obtain ⟨text, rfl, hany⟩ := (Rule.accepts_words (by decide)).1 haccept
  have hsame : Text.sameWord text Keyword.subgraph = true := by simpa [Rule.words] using hany
  simp [beginsId, Keyword.isKeyword_of_sameWord (by decide) hsame] at htoken

/-- A name that may be missing is read up to the brace behind it. -/
theorem reads_opt_id {id : Option Id} (h : Id.OptWritten id tokens) :
    Reads (.opt (.call .id)) (tokens ++ .mark '{' :: rest) (.mark '{' :: rest) := by
  cases id with
  | none =>
    obtain rfl := h
    exact .opt_nil (rejects_id_mark '{')
  | some id => exact (reads_id h (notAhead_cons.2 (by simp))).opt

/-- Statements between braces are read if the list of statements is. -/
theorem reads_braces
    (h : Reads (.call .stmtList) (tokens ++ .mark '}' :: rest) (.mark '}' :: rest)) :
    Reads braces (.mark '{' :: (tokens ++ [.mark '}']) ++ rest) rest := by
  rw [List.cons_append, List.append_assoc]
  exact (reads_mark (by decide)).seq (h.seq (reads_mark (by decide)))

/-- A subgraph is read with its keyword and name, if its list of statements is. -/
theorem reads_subgraph {id : Option Id} {head : List Token} (hhead : Statement.Headed id head)
    (h : Reads (.call .stmtList) (tokens ++ .mark '}' :: rest) (.mark '}' :: rest)) :
    Reads (.call .subgraph) (head ++ .mark '{' :: (tokens ++ [.mark '}']) ++ rest) rest := by
  rw [List.append_assoc]
  refine .call rfl (Reads.seq ?_ (reads_braces h))
  cases hhead with
  | none => exact .opt_nil (.seq_left (rejects_terminal rfl (by simp [Rule.accepts, Rule.words])))
  | word hword hid =>
    exact ((reads_terminal rfl (by simpa [Rule.accepts, Rule.words] using hword)).seq
      (reads_opt_id hid)).opt

/-- A node is read as an operand. -/
theorem reads_operand_node {node : NodeId} (h : node.Written tokens) (hrest : NotAhead ['+', ':'] rest) :
    Reads (.call .edgeOperand) (tokens ++ rest) rest :=
  .call rfl (.alt_right (rejects_subgraph_of_id h.begins) (reads_nodeId h hrest))

/-! ## Statements

The grammar tries attribute statements, edges, assignments, nodes and subgraphs, in this order. -/

/-- Without an edge operator, no further operand is read. -/
theorem rejects_link (h : ∀ kind, rest.head? ≠ some (.operator kind)) : Rejects link rest := by
  refine .seq_left (rejects_terminal rfl fun token htoken => ?_)
  rw [Bool.eq_false_iff]
  intro haccept
  obtain ⟨kind, rfl⟩ := Rule.accepts_edgeOp.1 haccept
  exact h kind htoken

/-- An operand with no operator behind it begins no edge. -/
theorem rejects_edgeStmt (h : Reads (.call .edgeOperand) tokens rest)
    (hrest : ∀ kind, rest.head? ≠ some (.operator kind)) : Rejects (.call .edgeStmt) tokens :=
  .call rfl (.seq_right h (.seq_left (.seq_left (rejects_link hrest))))

/-- An attribute statement is read as a statement, with one group at least. -/
theorem reads_stmt_attributes {target : Target} {attributes : List Attribute} {word : List Char}
    (hword : Text.sameWord word target.keyword = true) (hne : tokens ≠ [])
    (h : Attribute.Grouped attributes tokens) (hrest : Ended rest) :
    Reads (.call .stmt) (.word word :: tokens ++ rest) rest := by
  refine .call rfl (.alt_left (.call rfl ((reads_terminal rfl ?_).seq
    (reads_attrList h hne (hrest.notAhead.mono (by simp))))))
  cases target <;> simp_all [Rule.accepts, Rule.words, Target.keyword]

/-- An edge is read as a statement, if its first operand and those behind operators are read. -/
theorem reads_stmt_edge {attributes : List Attribute} {first links : List Token}
    (hbegins : Begin beginsOperand first)
    (hfirst : ∀ {rest}, NotAhead ['+', ':'] rest → Reads (.call .edgeOperand) (first ++ rest) rest)
    (hlinks : ∀ {rest}, NotAhead ['+', ':'] rest → (∀ kind, rest.head? ≠ some (.operator kind)) →
      Reads (.plus link) (links ++ rest) rest)
    (hahead : ∀ {rest}, NotAhead ['+', ':'] (links ++ rest))
    (h : Attribute.Grouped attributes tokens) (hrest : Ended rest) :
    Reads (.call .stmt) (first ++ links ++ tokens ++ rest) rest := by
  rw [List.append_assoc, List.append_assoc]
  have hgroups : NotAhead ['+', ':'] (tokens ++ rest) :=
    h.notAhead (by decide) (hrest.notAhead.mono (by simp))
  refine .call rfl (.alt_right (rejects_attrStmt_of_operand hbegins) (.alt_left (.call rfl ?_)))
  exact (hfirst hahead).seq ((hlinks hgroups (h.noOperator hrest.noOperator)).seq
    (reads_lists h (hrest.notAhead.mono (by simp))))

/-- An assignment is read as a statement. -/
theorem reads_stmt_assignment {pair : Attribute} (h : pair.Written tokens) (hrest : Ended rest) :
    Reads (.call .stmt) (tokens ++ rest) rest := by
  -- The key is read as an operand first, and then an equality sign is ahead.
  have hedge : Rejects (.call .edgeStmt) (tokens ++ rest) := by
    obtain ⟨key, value, rfl, hkey, -⟩ := h
    rw [List.append_assoc]
    exact rejects_edgeStmt (reads_operand_node (.bare hkey) (notAhead_cons.2 (by simp))) (by simp)
  exact .call rfl (.alt_right (rejects_attrStmt_of_operand (h.begins.imp fun _ => beginsOperand_of_beginsId))
    (.alt_right hedge (.alt_left (reads_assignment h (hrest.notAhead.mono (by simp))))))

/-- An identifier with no equality sign behind it begins no assignment. -/
theorem rejects_assignment {node : NodeId} (h : node.Written tokens)
    (hrest : NotAhead ['+', '='] rest) : Rejects (.call .assignment) (tokens ++ rest) := by
  have hmark : ∀ {rest}, NotAhead ['='] rest → Rejects (.seq (mark '=') (.call .id)) rest := fun hrest =>
    .seq_left (rejects_mark (by decide) (hrest '=' List.mem_cons_self))
  cases h with
  | bare hid =>
    exact .call rfl (.seq_right (reads_id hid (hrest.mono (by simp))) (hmark (hrest.mono (by simp))))
  | port hid hport =>
    rw [List.append_assoc]
    -- A port begins with a colon, which is no equals sign.
    cases hport <;> exact .call rfl (.seq_right (reads_id hid (notAhead_cons.2 (by simp)))
      (hmark (notAhead_cons.2 (by simp))))

/-- A node with its attributes is read as a statement. -/
theorem reads_stmt_node {node : NodeId} {attributes : List Attribute} {first : List Token}
    (hnode : node.Written first) (h : Attribute.Grouped attributes tokens) (hrest : Ended rest) :
    Reads (.call .stmt) (first ++ tokens ++ rest) rest := by
  rw [List.append_assoc]
  have hahead : NotAhead ['+', ':', '='] (tokens ++ rest) :=
    h.notAhead (by decide) (hrest.notAhead.mono (by simp))
  -- The three forms tried before are refused: there is no target, no operator and no equals sign.
  refine .call rfl (.alt_right (rejects_attrStmt_of_operand (hnode.begins.imp fun _ => beginsOperand_of_beginsId))
    (.alt_right (rejects_edgeStmt (reads_operand_node hnode (hahead.mono (by simp)))
      (h.noOperator hrest.noOperator)) (.alt_right (rejects_assignment hnode (hahead.mono (by simp)))
      (.alt_left (.call rfl ?_)))))
  exact (reads_nodeId hnode (hahead.mono (by simp))).seq (reads_lists h (hrest.notAhead.mono (by simp)))

/-- A subgraph begins with no identifier. -/
theorem rejects_id_headed {id : Option Id} {head : List Token} (h : Statement.Headed id head) :
    Rejects (.call .id) (head ++ .mark '{' :: rest) := by
  cases h with
  | none => exact rejects_id_mark '{'
  | word hword _ =>
    refine rejects_id ?_
    simp [beginsId, Keyword.isKeyword_of_sameWord (by decide) hword]

/-- A subgraph is read as an operand. -/
theorem reads_operand_subgraph {id : Option Id} {head : List Token} (hhead : Statement.Headed id head)
    (h : Reads (.call .stmtList) (tokens ++ .mark '}' :: rest) (.mark '}' :: rest)) :
    Reads (.call .edgeOperand) (head ++ .mark '{' :: (tokens ++ [.mark '}']) ++ rest) rest :=
  .call rfl (.alt_left (reads_subgraph hhead h))

/-- A subgraph is read as a statement, where no operator stands behind it. -/
theorem reads_stmt_subgraph {id : Option Id} {head : List Token} (hhead : Statement.Headed id head)
    (h : Reads (.call .stmtList) (tokens ++ .mark '}' :: rest) (.mark '}' :: rest)) (hrest : Ended rest) :
    Reads (.call .stmt) (head ++ .mark '{' :: (tokens ++ [.mark '}']) ++ rest) rest := by
  -- The whole subgraph is read in vain as the first operand of an edge.
  have hid : Rejects (.call .id) (head ++ .mark '{' :: (tokens ++ [.mark '}']) ++ rest) := by
    rw [List.append_assoc]
    exact rejects_id_headed hhead
  exact .call rfl (.alt_right (rejects_attrStmt_of_operand hhead.begins)
    (.alt_right (rejects_edgeStmt (reads_operand_subgraph hhead h) hrest.noOperator)
      (.alt_right (.call rfl (.seq_left hid)) (.alt_right (.call rfl (.seq_left (.call rfl (.seq_left hid))))
        (reads_subgraph hhead h)))))

/-- At a closing brace there is no statement. -/
theorem rejects_stmt : Rejects (.call .stmt) (.mark '}' :: rest) := by
  have hid : Rejects (.call .id) (.mark '}' :: rest) := rejects_id_mark '}'
  have hnode : Rejects (.call .nodeId) (.mark '}' :: rest) := .call rfl (.seq_left hid)
  have hsubgraph : Rejects (.call .subgraph) (.mark '}' :: rest) :=
    rejects_subgraph (by simp [Rule.accepts]) (notAhead_cons.2 (by simp))
  -- Each form begins with a target, an identifier, the word for subgraphs or an opening brace.
  exact .call rfl (.alt (rejects_attrStmt (by simp [Rule.accepts]))
    (.alt (.call rfl (.seq_left (.call rfl (.alt hsubgraph hnode))))
      (.alt (.call rfl (.seq_left hid)) (.alt (.call rfl (.seq_left hnode)) hsubgraph))))

/-- A semicolon or nothing behind a statement. -/
theorem reads_semicolon {separator : List Token} (h : Optional [';'] separator)
    (hrest : NotAhead [';'] rest) : Reads (.opt (mark ';')) (separator ++ rest) rest := by
  rcases h with rfl | ⟨c, hc, rfl⟩
  · exact .opt_nil (rejects_mark (by decide) (hrest ';' List.mem_cons_self))
  · obtain rfl := List.mem_singleton.1 hc
    exact .opt (reads_mark (by decide))

mutual

/-- A statement is read by the rule for statements, and what follows it is left. -/
theorem reads_stmt (kind : GraphKind) : ∀ (statement : Statement) {tokens rest : List Token},
    statement.Written kind tokens → Ended rest → Reads (.call .stmt) (tokens ++ rest) rest
  | .node node attributes, tokens, rest, h, hrest => by
    rw [Statement.Written] at h
    obtain ⟨first, groups, rfl, hnode, hgrouped⟩ := h
    exact reads_stmt_node hnode hgrouped hrest
  | .edge [] attributes, tokens, rest, h, hrest => by
    rw [Statement.Written] at h
    obtain ⟨chain, groups, rfl, hchain, hgrouped⟩ := h
    exact absurd hchain (by simp [Operand.ChainWritten])
  | .edge [operand] attributes, tokens, rest, h, hrest => by
    rw [Statement.Written] at h
    obtain ⟨chain, groups, rfl, hchain, hgrouped⟩ := h
    exact absurd hchain (by simp [Operand.ChainWritten])
  | .edge (operand :: next :: operands) attributes, tokens, rest, h, hrest => by
    rw [Statement.Written] at h
    obtain ⟨chain, groups, rfl, hchain, hgrouped⟩ := h
    rw [Operand.ChainWritten] at hchain
    obtain ⟨first, links, rfl, hfirst, -, hlinks⟩ := hchain
    -- One operator and operand are required behind the first operand; further ones are read in rounds.
    refine reads_stmt_edge hfirst.begins (fun hrest => reads_operand kind operand hfirst hrest) ?_ ?_
      hgrouped hrest
    · intro rest hrest hoperator
      rw [Operand.LinksWritten] at hlinks
      obtain ⟨second, more, rfl, hsecond, hmore⟩ := hlinks
      rw [List.cons_append, List.append_assoc]
      exact ((reads_terminal rfl rfl).seq (reads_operand kind next hsecond (hmore.notAhead hrest))).seq
        (reads_links kind operands hmore hrest hoperator)
    · intro rest
      rw [Operand.LinksWritten] at hlinks
      obtain ⟨second, more, rfl, -⟩ := hlinks
      exact notAhead_cons.2 (by simp)
  | .attributes target attributes, tokens, rest, h, hrest => by
    rw [Statement.Written] at h
    obtain ⟨word, groups, rfl, hword, hne, hgrouped⟩ := h
    exact reads_stmt_attributes hword hne hgrouped hrest
  | .assignment pair, tokens, rest, h, hrest => by
    rw [Statement.Written] at h
    exact reads_stmt_assignment h hrest
  | .subgraph id statements, tokens, rest, h, hrest => by
    rw [Statement.Written] at h
    obtain ⟨head, body, rfl, hhead, hbody⟩ := h
    exact reads_stmt_subgraph hhead (.call rfl (reads_stmts kind statements hbody)) hrest

/-- Statements are read up to the closing brace. -/
theorem reads_stmts (kind : GraphKind) : ∀ (statements : List Statement) {tokens rest : List Token},
    Statement.ListWritten kind statements tokens →
    Reads (production .stmtList).body (tokens ++ .mark '}' :: rest) (.mark '}' :: rest)
  | [], tokens, rest, h => by
    rw [Statement.ListWritten] at h
    subst h
    -- No statement begins with the closing brace.
    exact .star_nil (.seq_left rejects_stmt)
  | statement :: statements, tokens, rest, h => by
    rw [Statement.ListWritten] at h
    obtain ⟨first, separator, more, rfl, hfirst, hseparator, hmore⟩ := h
    obtain ⟨hended, hsemicolon⟩ := hmore.ended rest
    rw [List.append_assoc, List.append_assoc]
    exact .star (by decide) ((reads_stmt kind statement hfirst (ended_semicolon hseparator hended)).seq
      (reads_semicolon hseparator hsemicolon)) (reads_stmts kind statements hmore)

/-- An operand is read by the rule for operands. -/
theorem reads_operand (kind : GraphKind) : ∀ (operand : Operand) {tokens rest : List Token},
    operand.Written kind tokens → NotAhead ['+', ':'] rest → Reads (.call .edgeOperand) (tokens ++ rest) rest
  | .node node, tokens, rest, h, hrest => by
    rw [Operand.Written] at h
    exact reads_operand_node h hrest
  | .subgraph id statements, tokens, rest, h, hrest => by
    rw [Operand.Written] at h
    obtain ⟨head, body, rfl, hhead, hbody⟩ := h
    exact reads_operand_subgraph hhead (.call rfl (reads_stmts kind statements hbody))

/-- Operators and the operands behind them are read in rounds. -/
theorem reads_links (kind : GraphKind) : ∀ (operands : List Operand) {tokens rest : List Token},
    Operand.LinksWritten kind operands tokens → NotAhead ['+', ':'] rest →
    (∀ kind, rest.head? ≠ some (.operator kind)) → Reads (.star link) (tokens ++ rest) rest
  | [], tokens, rest, h, hrest, hoperator => by
    rw [Operand.LinksWritten] at h
    subst h
    exact .star_nil (rejects_link hoperator)
  | operand :: operands, tokens, rest, h, hrest, hoperator => by
    rw [Operand.LinksWritten] at h
    obtain ⟨first, more, rfl, hfirst, hmore⟩ := h
    rw [List.cons_append, List.append_assoc]
    exact .star (by decide) ((reads_terminal rfl rfl).seq
      (reads_operand kind operand hfirst (hmore.notAhead hrest))) (reads_links kind operands hmore hrest hoperator)

end

/-! ## Documents -/

/-- The mark of a strict graph is read in front of the keyword of the graph, if it stands there. -/
theorem reads_strict {strict : Bool} {word : List Char} {kind : GraphKind}
    (h : Graph.Marked strict tokens) (hword : Text.sameWord word kind.keyword = true) :
    Reads (.opt (.call .strict)) (tokens ++ .word word :: rest) (.word word :: rest) := by
  cases strict with
  | true =>
    obtain ⟨first, rfl, hfirst⟩ := h
    exact .opt (reads_terminal rfl (by simpa [Rule.accepts, Rule.words] using hfirst))
  | false =>
    obtain rfl : tokens = [] := h
    -- The keyword of the kind is ahead, which is not `strict`.
    refine .opt_nil (rejects_terminal rfl ?_)
    rw [List.nil_append, List.head?_cons]
    rintro _ ⟨⟩
    simp [Rule.accepts, Rule.words, GraphKind.not_sameWord_strict hword]

/-- A graph is read as it is written. -/
theorem reads_graph {graph : Graph} (h : graph.Written tokens) :
    Reads (.call .graph) (tokens ++ rest) rest := by
  obtain ⟨first, word, name, body, rfl, hmarked, hword, hname, hbody⟩ := h
  rw [List.append_assoc, List.cons_append, List.append_assoc]
  have hkind : Rule.graphKind.accepts (.word word) = true := by
    cases hgraph : graph.kind <;> simp_all [Rule.accepts, Rule.words, GraphKind.keyword]
  refine .call rfl ((reads_strict hmarked hword).seq ((reads_terminal rfl hkind).seq
    ((reads_opt_id hname).seq (reads_braces (.call rfl ?_)))))
  exact reads_stmts graph.kind graph.statements hbody

/-- No graph is read where no token is left. -/
theorem rejects_graph : Rejects (.call .graph) [] :=
  .call rfl (.seq_right (.opt_nil (rejects_terminal rfl (by simp)))
    (.seq_left (rejects_terminal rfl (by simp))))

end DotLang.Grammar
