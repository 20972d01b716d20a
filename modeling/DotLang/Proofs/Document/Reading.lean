import DotLang.Proofs.Document.Reader
import Mathlib.Tactic.SplitIfs

/-!
# The reader of documents

What the reader makes of statements and graphs is written by the tokens it has passed (`Sound`), and it
reads whatever is written, given a bound that is large enough (`readStatement_of_written`). So the reader and
the account of how documents are written agree (`Document.ofTokens?_eq_some_iff`), and no document is kept
from it by its bound.
-/

namespace DotLang

open Token Token.Reader

namespace Token

variable {kind : GraphKind} {bound : Nat} {tokens rest : List Token}

/-! ## Keywords and names -/

/-- The test for a keyword succeeds for the words that are the keyword in any case. -/
theorem isWord_eq_true_iff {keyword : List Char} {token : Option Token} :
    isWord keyword token = true ↔ ∃ text, token = some (.word text) ∧ Text.sameWord text keyword = true := by
  rcases token with _ | token
  · simp [isWord]
  · cases token <;> simp [isWord]

/-- Tokens that begin with a keyword are a word that is the keyword in any case, and others behind it. -/
theorem exists_word_of_isWord {keyword : List Char} (h : isWord keyword tokens.head? = true) :
    ∃ word later, tokens = .word word :: later ∧ Text.sameWord word keyword = true := by
  obtain ⟨word, hhead, hsame⟩ := isWord_eq_true_iff.1 h
  obtain ⟨later, rfl⟩ := List.head?_eq_some_iff.1 hhead
  exact ⟨word, later, rfl, hsame⟩

/-- A target is found at a word that is its keyword in any case. -/
theorem target?_eq_some {token : Option Token} {target : Target} (h : target? token = some target) :
    ∃ text, token = some (.word text) ∧ Text.sameWord text target.keyword = true := by
  -- The three keywords are tried one after the other.
  rw [target?] at h
  split_ifs at h with hgraph hnode hedge <;> obtain rfl := Option.some.inj h
  · exact isWord_eq_true_iff.1 hgraph
  · exact isWord_eq_true_iff.1 hnode
  · exact isWord_eq_true_iff.1 hedge

/-- What is read as a name that may be missing writes it. -/
theorem written_of_readName {id : Option Id} (h : readName tokens = some (id, rest)) :
    Passed (Id.OptWritten id) tokens rest := by
  by_cases hopen : tokens.head? = some (.mark '{')
  · simp only [readName, bind_apply, peek_apply, Option.bind_some, if_pos hopen, pure_apply,
      Option.some.injEq, Prod.mk.injEq] at h
    obtain ⟨rfl, rfl⟩ := h
    exact ⟨[], rfl, rfl⟩
  · simp only [readName, bind_apply, peek_apply, Option.bind_some, if_neg hopen, pure_apply,
      Option.bind_eq_some_iff, Prod.exists, Option.some.injEq, Prod.mk.injEq] at h
    obtain ⟨id, rest, hid, rfl, rfl⟩ := h
    exact written_of_readId hid

/-- A name that may be missing is read in front of a brace. -/
theorem readName_of_written {id : Option Id} (h : Id.OptWritten id tokens) :
    readName (tokens ++ .mark '{' :: rest) = some (id, .mark '{' :: rest) := by
  rcases id with _ | id
  · rw [Id.OptWritten] at h
    simp [readName, h]
  -- No identifier begins with the brace that would tell that the name is missing.
  · have hopen : (tokens ++ .mark '{' :: rest).head? ≠ some (.mark '{') :=
      notAhead_of_beginsId ['{'] h.begins '{' List.mem_cons_self
    have hahead : NotAhead ['+'] (.mark '{' :: rest) := notAhead_cons.2 (by simp)
    simp only [readName, bind_apply, peek_apply, Option.bind_some, if_neg hopen,
      readId_of_written h hahead, pure_apply]

/-! ## What is read is written -/

/-- What is read within a bound is written by the tokens passed. -/
structure Sound (kind : GraphKind) (bound : Nat) : Prop where
  operand {operand : Operand} {tokens rest : List Token} :
    readOperand kind bound tokens = some (operand, rest) → Passed (operand.Written kind) tokens rest
  chain {operands : List Operand} {tokens rest : List Token} :
    readChain kind bound tokens = some (operands, rest) →
      Passed (Operand.LinksWritten kind operands) tokens rest
  statement {statement : Statement} {tokens rest : List Token} :
    readStatement kind bound tokens = some (statement, rest) →
      Passed (statement.Written kind) tokens rest
  statements {statements : List Statement} {tokens rest : List Token} :
    readStatements kind bound tokens = some (statements, rest) →
      ∃ body, tokens = body ++ .mark '}' :: rest ∧ Statement.ListWritten kind statements body
  body {statements : List Statement} {tokens rest : List Token} :
    readBody kind bound tokens = some (statements, rest) →
      ∃ body, tokens = .mark '{' :: (body ++ .mark '}' :: rest) ∧ Statement.ListWritten kind statements body

/-- What is read as a body are statements between braces. -/
theorem written_of_readBody {statements : List Statement} (h : Sound kind bound)
    (hread : readBody kind (bound + 1) tokens = some (statements, rest)) :
    ∃ body, tokens = .mark '{' :: (body ++ .mark '}' :: rest) ∧
      Statement.ListWritten kind statements body := by
  simp only [readBody, bind_apply, Option.bind_eq_some_iff, Prod.exists, expect_eq_some_iff] at hread
  obtain ⟨_, _, rfl, hread⟩ := hread
  obtain ⟨body, rfl, hbody⟩ := h.statements hread
  exact ⟨body, rfl, hbody⟩

/-- What is read as statements writes them, up to a closing brace. -/
theorem written_of_readStatements {statements : List Statement} (h : Sound kind bound)
    (hread : readStatements kind (bound + 1) tokens = some (statements, rest)) :
    ∃ body, tokens = body ++ .mark '}' :: rest ∧ Statement.ListWritten kind statements body := by
  by_cases hclose : tokens.head? = some (.mark '}')
  · obtain ⟨tokens, rfl⟩ := List.head?_eq_some_iff.1 hclose
    simp only [readStatements, bind_apply, peek_apply, skip_apply, Option.bind_some, List.head?_cons,
      List.tail_cons, ↓reduceIte, pure_apply, Option.some.injEq, Prod.mk.injEq] at hread
    obtain ⟨rfl, rfl⟩ := hread
    exact ⟨[], rfl, by simp [Statement.ListWritten]⟩
  · simp only [readStatements, bind_apply, peek_apply, Option.bind_some, if_neg hclose,
      Option.bind_eq_some_iff, Prod.exists, pure_apply, Option.some.injEq, Prod.mk.injEq] at hread
    obtain ⟨statement, behind, hstatement, _, later, hsemicolon, statements, rest, hmore, rfl, rfl⟩ := hread
    obtain ⟨first, rfl, hfirst⟩ := h.statement hstatement
    obtain ⟨body, rfl, hbody⟩ := h.statements hmore
    obtain ⟨separator, hseparator, rfl⟩ := optional_of_skipIf hsemicolon
    refine ⟨first ++ (separator ++ body), by simp, ?_⟩
    rw [Statement.ListWritten]
    exact ⟨first, separator, body, rfl, hfirst, hseparator, hbody⟩

/-- What is read as further operands writes them, each behind an operator of the graph's kind. -/
theorem written_of_readChain {operands : List Operand} (h : Sound kind bound)
    (hread : readChain kind (bound + 1) tokens = some (operands, rest)) :
    Passed (Operand.LinksWritten kind operands) tokens rest := by
  by_cases hoperator : ∃ found, tokens.head? = some (.operator found)
  · -- An operator of the other kind ends the reading, so this one is of the graph's kind.
    obtain ⟨found, hfound⟩ := hoperator
    obtain ⟨tokens, rfl⟩ := List.head?_eq_some_iff.1 hfound
    by_cases hkind : found = kind
    · simp only [readChain, bind_apply, peek_apply, skip_apply, Option.bind_some, List.head?_cons,
        List.tail_cons, hkind, ne_eq, not_true_eq_false, ↓reduceIte, pure_apply, Option.bind_eq_some_iff,
        Prod.exists, Option.some.injEq, Prod.mk.injEq] at hread
      obtain ⟨operand, _, hoperand, operands, rest, hchain, rfl, rfl⟩ := hread
      obtain ⟨first, rfl, hfirst⟩ := h.operand hoperand
      obtain ⟨links, rfl, hlinks⟩ := h.chain hchain
      refine ⟨.operator found :: (first ++ links), by simp, ?_⟩
      rw [Operand.LinksWritten, hkind]
      exact ⟨first, links, rfl, hfirst, hlinks⟩
    · simp [readChain, hkind] at hread
  · have hnone : readChain kind (bound + 1) tokens = some ([], tokens) := by
      rcases tokens with _ | ⟨token, tokens⟩
      · rfl
      · cases token with
        | operator found => exact absurd ⟨found, rfl⟩ hoperator
        | _ => rfl
    rw [hnone] at hread
    cases hread
    exact ⟨[], rfl, by simp [Operand.LinksWritten]⟩

/-- What is read as an operand writes it. -/
theorem written_of_readOperand {operand : Operand} (h : Sound kind bound)
    (hread : readOperand kind (bound + 1) tokens = some (operand, rest)) :
    Passed (operand.Written kind) tokens rest := by
  -- The next token is the word for a subgraph, a brace, or the first of a node.
  by_cases hword : isWord Keyword.subgraph tokens.head? = true
  · obtain ⟨text, tokens, rfl, hsame⟩ := exists_word_of_isWord hword
    simp only [readOperand, bind_apply, peek_apply, skip_apply, Option.bind_some, if_pos hword,
      List.tail_cons, Option.bind_eq_some_iff, Prod.exists, pure_apply, Option.some.injEq,
      Prod.mk.injEq] at hread
    obtain ⟨id, _, hid, statements, rest, hbody, rfl, rfl⟩ := hread
    obtain ⟨name, rfl, hname⟩ := written_of_readName hid
    obtain ⟨body, rfl, hwritten⟩ := h.body hbody
    refine ⟨.word text :: (name ++ .mark '{' :: (body ++ [.mark '}'])), by simp, ?_⟩
    rw [Operand.Written]
    exact ⟨.word text :: name, body, rfl, .word hsame hname, hwritten⟩
  · by_cases hopen : tokens.head? = some (.mark '{')
    · simp only [readOperand, bind_apply, peek_apply, Option.bind_some, if_neg hword, if_pos hopen,
        Option.bind_eq_some_iff, Prod.exists, pure_apply, Option.some.injEq, Prod.mk.injEq] at hread
      obtain ⟨statements, rest, hbody, rfl, rfl⟩ := hread
      obtain ⟨body, rfl, hwritten⟩ := h.body hbody
      refine ⟨.mark '{' :: (body ++ [.mark '}']), by simp, ?_⟩
      rw [Operand.Written]
      exact ⟨[], body, rfl, .none, hwritten⟩
    · simp only [readOperand, bind_apply, peek_apply, Option.bind_some, if_neg hword, if_neg hopen,
        Option.bind_eq_some_iff, Prod.exists, pure_apply, Option.some.injEq, Prod.mk.injEq] at hread
      obtain ⟨id, _, hid, port, rest, hport, rfl, rfl⟩ := hread
      obtain ⟨first, rfl, hfirst⟩ := written_of_readId hid
      obtain ⟨read, hread, hnode⟩ := written_of_readPort hport hfirst
      exact ⟨read, hread, by rw [Operand.Written]; exact hnode⟩

/-! The next tokens decide what a statement is. -/

/-- A keyword of an attribute statement is read with the groups behind it. -/
theorem readStatement_of_target {target : Target} (htarget : target? tokens.head? = some target)
    (hopen : tokens.tail.head? = some (.mark '[')) :
    readStatement kind (bound + 1) tokens =
      (readGroups (bound + 1) tokens.tail).map fun (pairs, rest) => (.attributes target pairs, rest) := by
  simp only [readStatement, bind_apply, peek_apply, skip_apply, Option.bind_some, htarget, hopen, ne_eq,
    not_true_eq_false, ↓reduceIte, pure_apply, Option.map_eq_bind, Function.comp_def]

/-- A keyword of an attribute statement without a group is not read. -/
theorem readStatement_eq_none {target : Target} (htarget : target? tokens.head? = some target)
    (hopen : tokens.tail.head? ≠ some (.mark '[')) : readStatement kind (bound + 1) tokens = none := by
  simp only [readStatement, bind_apply, peek_apply, skip_apply, Option.bind_some, htarget, hopen, ne_eq,
    not_false_eq_true, ↓reduceIte, failure_apply, Option.bind_none]

section

variable (htarget : target? tokens.head? = none)
include htarget

/-- Two operands or more are read as an edge, with the groups behind them. -/
theorem readStatement_of_edge {operand second : Operand} {operands : List Operand}
    {behind later : List Token} (hoperand : readOperand kind bound tokens = some (operand, behind))
    (hchain : readChain kind bound behind = some (second :: operands, later)) :
    readStatement kind (bound + 1) tokens =
      (readGroups (bound + 1) later).map fun (pairs, rest) =>
        (.edge (operand :: second :: operands) pairs, rest) := by
  simp only [readStatement, bind_apply, peek_apply, Option.bind_some, htarget, hoperand, hchain,
    pure_apply, Option.map_eq_bind, Function.comp_def]

variable {behind later : List Token} (hchain : readChain kind bound behind = some ([], later))
include hchain

/-- A single subgraph is read as a statement. -/
theorem readStatement_of_subgraph {id : Option Id} {statements : List Statement}
    (hoperand : readOperand kind bound tokens = some (.subgraph id statements, behind)) :
    readStatement kind (bound + 1) tokens = some (.subgraph id statements, later) := by
  simp only [readStatement, bind_apply, peek_apply, Option.bind_some, htarget, hoperand, hchain,
    pure_apply]

variable {node : NodeId} (hoperand : readOperand kind bound tokens = some (.node node, behind))
include hoperand

/-- A name with an equality sign behind it is read as an assignment. -/
theorem readStatement_of_assignment (hport : node.port = none)
    (hequals : later.head? = some (.mark '=')) :
    readStatement kind (bound + 1) tokens =
      (readId later.tail).map fun (value, rest) => (.assignment ⟨node.id, value⟩, rest) := by
  simp only [readStatement, bind_apply, peek_apply, skip_apply, Option.bind_some, htarget, hoperand,
    hchain, hport, hequals, decide_true, Bool.and_self, ↓reduceIte, pure_apply, Option.map_eq_bind,
    Function.comp_def]

/-- A single node that is not assigned to is read with the groups behind it. -/
theorem readStatement_of_node (hassigned : ¬(node.port = none ∧ later.head? = some (.mark '='))) :
    readStatement kind (bound + 1) tokens =
      (readGroups (bound + 1) later).map fun (pairs, rest) => (.node node pairs, rest) := by
  simp only [readStatement, bind_apply, peek_apply, Option.bind_some, htarget, hoperand, hchain,
    Bool.and_eq_true, decide_eq_true_eq, if_neg hassigned, pure_apply, Option.map_eq_bind,
    Function.comp_def]

end

/-- A keyword of an attribute statement is followed by one group at least. -/
theorem written_of_target {statement : Statement} {target : Target}
    (htarget : target? tokens.head? = some target)
    (hread : readStatement kind (bound + 1) tokens = some (statement, rest)) :
    Passed (statement.Written kind) tokens rest := by
  obtain ⟨text, htext, hsame⟩ := target?_eq_some htarget
  obtain ⟨tokens, rfl⟩ := List.head?_eq_some_iff.1 htext
  by_cases hopen : tokens.head? = some (.mark '[')
  · rw [readStatement_of_target htarget hopen] at hread
    simp only [Option.map_eq_some_iff, Prod.exists, Prod.mk.injEq, List.tail_cons] at hread
    obtain ⟨pairs, rest, hpairs, rfl, rfl⟩ := hread
    -- Groups are read as long as there are any, so none is left and there was one.
    obtain ⟨⟨groups, rfl, hgroups⟩, hrest⟩ := grouped_of_readGroups hpairs
    refine ⟨.word text :: groups, rfl, ?_⟩
    rw [Statement.Written]
    refine ⟨text, groups, rfl, hsame, ?_, hgroups⟩
    rintro rfl
    exact hrest hopen
  · rw [readStatement_eq_none htarget hopen] at hread
    cases hread

/-- A node with no operator behind it is a node statement or the key of an assignment. -/
theorem written_of_node {statement : Statement} {node : NodeId} {first later : List Token}
    (htarget : target? (first ++ later).head? = none) (hfirst : node.Written first)
    (hoperand : readOperand kind bound (first ++ later) = some (.node node, later))
    (hchain : readChain kind bound later = some ([], later))
    (hread : readStatement kind (bound + 1) (first ++ later) = some (statement, rest)) :
    Passed (statement.Written kind) (first ++ later) rest := by
  by_cases hassigned : node.port = none ∧ later.head? = some (.mark '=')
  · rw [readStatement_of_assignment htarget hchain hoperand hassigned.1 hassigned.2] at hread
    simp only [Option.map_eq_some_iff, Prod.exists, Prod.mk.injEq] at hread
    obtain ⟨value, rest, hvalue, rfl, rfl⟩ := hread
    obtain ⟨later, rfl⟩ := List.head?_eq_some_iff.1 hassigned.2
    obtain ⟨read, hread, hwritten⟩ := written_of_readId hvalue
    obtain rfl : later = read ++ rest := hread
    -- Without a port the node is the identifier alone.
    obtain ⟨id, port⟩ := node
    obtain rfl : port = none := hassigned.1
    cases hfirst with
    | bare hid =>
      refine ⟨first ++ .mark '=' :: read, by simp, ?_⟩
      rw [Statement.Written]
      exact ⟨first, read, rfl, hid, hwritten⟩
  · rw [readStatement_of_node htarget hchain hoperand hassigned] at hread
    simp only [Option.map_eq_some_iff, Prod.exists, Prod.mk.injEq] at hread
    obtain ⟨pairs, rest, hpairs, rfl, rfl⟩ := hread
    obtain ⟨⟨groups, rfl, hgroups⟩, -⟩ := grouped_of_readGroups hpairs
    refine ⟨first ++ groups, by simp, ?_⟩
    rw [Statement.Written]
    exact ⟨first, groups, rfl, hfirst, hgroups⟩

/-- Two or more operands are an edge statement. -/
theorem written_of_edge {statement : Statement} {operand second : Operand} {operands : List Operand}
    {first links later : List Token} (htarget : target? (first ++ (links ++ later)).head? = none)
    (hfirst : operand.Written kind first)
    (hlinks : Operand.LinksWritten kind (second :: operands) links)
    (hoperand : readOperand kind bound (first ++ (links ++ later)) = some (operand, links ++ later))
    (hchain : readChain kind bound (links ++ later) = some (second :: operands, later))
    (hread : readStatement kind (bound + 1) (first ++ (links ++ later)) = some (statement, rest)) :
    Passed (statement.Written kind) (first ++ (links ++ later)) rest := by
  rw [readStatement_of_edge htarget hoperand hchain] at hread
  simp only [Option.map_eq_some_iff, Prod.exists, Prod.mk.injEq] at hread
  obtain ⟨pairs, rest, hpairs, rfl, rfl⟩ := hread
  obtain ⟨⟨groups, rfl, hgroups⟩, -⟩ := grouped_of_readGroups hpairs
  refine ⟨first ++ links ++ groups, by simp, ?_⟩
  rw [Statement.Written]
  refine ⟨first ++ links, groups, rfl, ?_, hgroups⟩
  rw [Operand.ChainWritten]
  exact ⟨first, links, rfl, hfirst, by simp, hlinks⟩

/-- What is read as a statement writes it. -/
theorem written_of_readStatement {statement : Statement} (h : Sound kind bound)
    (hread : readStatement kind (bound + 1) tokens = some (statement, rest)) :
    Passed (statement.Written kind) tokens rest := by
  -- The first token tells lists of default attributes from all else.
  rcases htarget : target? tokens.head? with _ | target
  · -- An operand comes first, and perhaps further ones behind operators.
    obtain ⟨operand, behind, hoperand, operands, later, hchain⟩ : ∃ operand behind,
        readOperand kind bound tokens = some (operand, behind) ∧
          ∃ operands later, readChain kind bound behind = some (operands, later) := by
      simp only [readStatement, bind_apply, peek_apply, Option.bind_some, htarget,
        Option.bind_eq_some_iff, Prod.exists] at hread
      obtain ⟨operand, behind, hoperand, operands, later, hchain, -⟩ := hread
      exact ⟨operand, behind, hoperand, operands, later, hchain⟩
    obtain ⟨first, rfl, hfirst⟩ := h.operand hoperand
    obtain ⟨links, rfl, hlinks⟩ := h.chain hchain
    rcases operands with _ | ⟨second, operands⟩
    · -- No operator is behind the operand.
      rw [Operand.LinksWritten] at hlinks
      subst hlinks
      cases operand with
      | node node =>
        rw [Operand.Written] at hfirst
        exact written_of_node htarget hfirst hoperand hchain hread
      | subgraph id statements =>
        rw [readStatement_of_subgraph htarget hchain hoperand] at hread
        cases hread
        refine ⟨first, rfl, ?_⟩
        rw [Statement.Written]
        rw [Operand.Written] at hfirst
        exact hfirst
    · exact written_of_edge htarget hfirst hlinks hoperand hchain hread
  · exact written_of_target htarget hread

/-- For each bound, what is read writes what is read from it. -/
theorem sound (kind : GraphKind) (bound : Nat) : Sound kind bound := by
  induction bound with
  | zero => constructor <;> intros <;> contradiction
  | succ bound ih =>
    exact ⟨written_of_readOperand ih, written_of_readChain ih, written_of_readStatement ih,
      written_of_readStatements ih, written_of_readBody ih⟩

/-! ## What is written is read -/

/-- A word that is the keyword of a target in any case is found as that target. -/
theorem target?_of_sameWord {target : Target} {text : List Char}
    (h : Text.sameWord text target.keyword = true) : target? (some (.word text)) = some target := by
  -- No word is two keywords at once, so the tests in front of the right one fail.
  have hother : ∀ keyword ∈ Keyword.all, keyword ≠ target.keyword →
      isWord keyword (some (.word text)) = false := fun keyword hkeyword hne => by
    rw [isWord, Bool.eq_false_iff]
    exact fun hsame => hne (Keyword.unique hkeyword (by cases target <;> decide) hsame h)
  have hsame : isWord target.keyword (some (.word text)) = true := h
  cases target with
  | graph => exact if_pos hsame
  | node =>
    rw [target?, if_neg (by simp [hother Keyword.graph (by decide) (by decide)])]
    exact if_pos hsame
  | edge =>
    rw [target?, if_neg (by simp [hother Keyword.graph (by decide) (by decide)]),
      if_neg (by simp [hother Keyword.node (by decide) (by decide)])]
    exact if_pos hsame

/-- What begins an operand is no keyword of a target. -/
theorem target?_of_begin (h : Begin beginsOperand tokens) : target? (tokens ++ rest).head? = none := by
  obtain ⟨token, tail, rfl, htoken⟩ := h
  rcases htarget : target? (some token) with _ | target
  · exact htarget
  · obtain ⟨text, htext, hsame⟩ := target?_eq_some htarget
    -- The words for targets are keywords and begin no operand.
    obtain rfl : token = .word text := by simpa using htext
    rw [not_beginsOperand (by cases target <;> decide) (by cases target <;> decide) hsame] at htoken
    cases htoken

/-- Where no operator is next, there are no further operands. -/
theorem readChain_of_noOperator (h : ∀ kind, rest.head? ≠ some (.operator kind)) :
    readChain kind (bound + 1) rest = some ([], rest) := by
  rcases rest with _ | ⟨token, rest⟩
  · rfl
  · cases token with
    | operator found => exact absurd rfl (h found)
    | _ => rfl

/-- A node is read as an operand as it is written, where nothing could go on with it. -/
theorem readOperand_of_node {node : NodeId} (h : node.Written tokens) (hrest : NotAhead ['+', ':'] rest) :
    readOperand kind (bound + 1) (tokens ++ rest) = some (.node node, rest) := by
  obtain ⟨token, tail, htokens, htoken⟩ := h.begins
  -- What begins a node is neither the word for a subgraph nor a brace.
  have hword : isWord Keyword.subgraph (tokens ++ rest).head? = false := by
    rw [htokens, Bool.eq_false_iff]
    intro hword
    obtain ⟨text, htext, hsame⟩ := isWord_eq_true_iff.1 hword
    obtain rfl : token = .word text := by simpa using htext
    simp [beginsId, Keyword.isKeyword_of_sameWord (by decide) hsame] at htoken
  have hopen : (tokens ++ rest).head? ≠ some (.mark '{') :=
    notAhead_of_beginsId ['{'] h.begins '{' List.mem_cons_self
  have hport : ∃ behind, readId (tokens ++ rest) = some (node.id, behind) ∧
      readPort behind = some (node.port, rest) := by
    cases h with
    | bare hid =>
      exact ⟨rest, readId_of_written hid (hrest.mono (by simp)), readPort_of_notAhead (hrest.mono (by simp))⟩
    | @port id port first last hid hport =>
      refine ⟨last ++ rest, ?_, readPort_of_written hport hrest⟩
      rw [List.append_assoc]
      refine readId_of_written hid ?_
      cases hport <;> exact notAhead_cons.2 (by simp)
  obtain ⟨behind, hid, hport⟩ := hport
  simp only [readOperand, bind_apply, peek_apply, Option.bind_some, hword, Bool.false_eq_true, ↓reduceIte,
    if_neg hopen, hid, hport, pure_apply]

/-- A subgraph is read as an operand, if its body is read. -/
theorem readOperand_of_subgraph {id : Option Id} {head : List Token} {statements : List Statement}
    (hhead : Statement.Headed id head)
    (h : readBody kind bound (.mark '{' :: (tokens ++ .mark '}' :: rest)) = some (statements, rest)) :
    readOperand kind (bound + 1) (head ++ .mark '{' :: (tokens ++ [.mark '}']) ++ rest) =
      some (.subgraph id statements, rest) := by
  have hassoc : head ++ .mark '{' :: (tokens ++ [.mark '}']) ++ rest =
      head ++ .mark '{' :: (tokens ++ .mark '}' :: rest) := by simp
  rw [hassoc]
  cases hhead with
  | none =>
    simp only [List.nil_append, readOperand, bind_apply, peek_apply, Option.bind_some, List.head?_cons,
      isWord, Bool.false_eq_true, ↓reduceIte, h, pure_apply]
  | word hword hname =>
    simp only [List.cons_append, readOperand, bind_apply, peek_apply, skip_apply, Option.bind_some,
      List.head?_cons, isWord, hword, ↓reduceIte, List.tail_cons, readName_of_written hname, h, pure_apply]

/-- A body is read between its braces, if its statements are. -/
theorem readBody_of_written {statements : List Statement}
    (h : readStatements kind bound (tokens ++ .mark '}' :: rest) = some (statements, rest)) :
    readBody kind (bound + 1) (.mark '{' :: (tokens ++ .mark '}' :: rest)) = some (statements, rest) := by
  have hmark : expect (.mark '{') (.mark '{' :: (tokens ++ .mark '}' :: rest)) =
      some ((), tokens ++ .mark '}' :: rest) := expect_eq_some_iff.2 rfl
  simp only [readBody, bind_apply, hmark, Option.bind_some, h]

/-- An attribute statement is read as it is written. -/
theorem readStatement_of_attributes {target : Target} {pairs : List Attribute} {word : List Char}
    (hword : Text.sameWord word target.keyword = true) (hne : tokens ≠ [])
    (h : Attribute.Grouped pairs tokens) (hrest : NotAhead ['['] rest) (hbound : tokens.length ≤ bound) :
    readStatement kind (bound + 1) (.word word :: tokens ++ rest) = some (.attributes target pairs, rest) := by
  -- Some group is written, so a bracket comes next.
  have hopen : (tokens ++ rest).head? = some (.mark '[') := by
    rcases h.ahead with rfl | ⟨tail, rfl⟩
    · exact absurd rfl hne
    · rfl
  have htarget : target? (.word word :: tokens ++ rest).head? = some target := target?_of_sameWord hword
  rw [readStatement_of_target htarget hopen, List.cons_append, List.tail_cons,
    readGroups_of_grouped h hrest (by omega)]
  rfl

/-- An assignment is read as it is written. -/
theorem readStatement_of_assigned {pair : Attribute} (h : pair.Written tokens) (hrest : Ended rest) :
    readStatement kind (bound + 2) (tokens ++ rest) = some (.assignment pair, rest) := by
  have htarget : target? (tokens ++ rest).head? = none :=
    target?_of_begin (h.begins.imp fun _ => beginsOperand_of_beginsId)
  obtain ⟨key, value, rfl, hkey, hvalue⟩ := h
  rw [List.append_assoc, List.cons_append] at htarget ⊢
  -- The key is read as a node, and the equals sign behind it makes it a key.
  have hoperand : readOperand kind (bound + 1) (key ++ .mark '=' :: (value ++ rest)) =
      some (.node ⟨pair.key, none⟩, .mark '=' :: (value ++ rest)) :=
    readOperand_of_node (.bare hkey) (notAhead_cons.2 (by simp))
  have hchain : readChain kind (bound + 1) (.mark '=' :: (value ++ rest)) =
      some ([], .mark '=' :: (value ++ rest)) := readChain_of_noOperator (by simp)
  rw [readStatement_of_assignment htarget hchain hoperand rfl rfl, List.tail_cons,
    readId_of_written hvalue (hrest.notAhead.mono (by simp))]
  rfl

/-- A node with its attributes is read as it is written. -/
theorem readStatement_of_nodeWritten {node : NodeId} {pairs : List Attribute} {first : List Token}
    (hnode : node.Written first) (h : Attribute.Grouped pairs tokens) (hrest : Ended rest)
    (hbound : tokens.length < bound + 2) :
    readStatement kind (bound + 2) (first ++ tokens ++ rest) = some (.node node pairs, rest) := by
  have htarget : target? (first ++ (tokens ++ rest)).head? = none :=
    target?_of_begin (hnode.begins.imp fun _ => beginsOperand_of_beginsId)
  -- No equals sign stands behind the node, whether there are lists or not.
  have hahead : NotAhead ['+', ':', '='] (tokens ++ rest) :=
    h.notAhead (by decide) (hrest.notAhead.mono (by simp))
  have hoperand : readOperand kind (bound + 1) (first ++ (tokens ++ rest)) =
      some (.node node, tokens ++ rest) := readOperand_of_node hnode (hahead.mono (by simp))
  have hchain : readChain kind (bound + 1) (tokens ++ rest) = some ([], tokens ++ rest) :=
    readChain_of_noOperator (h.noOperator hrest.noOperator)
  rw [List.append_assoc, readStatement_of_node htarget hchain hoperand
    (fun hassigned => hahead '=' (by simp) hassigned.2), readGroups_of_grouped h
    (hrest.notAhead.mono (by simp)) hbound]
  rfl

/-- An edge is read as it is written, if its operands are. -/
theorem readStatement_of_edgeWritten {operand second : Operand} {operands : List Operand}
    {pairs : List Attribute} {first links : List Token} (hbegins : Begin beginsOperand first)
    (hoperand : readOperand kind bound (first ++ (links ++ (tokens ++ rest))) =
      some (operand, links ++ (tokens ++ rest)))
    (hchain : readChain kind bound (links ++ (tokens ++ rest)) = some (second :: operands, tokens ++ rest))
    (h : Attribute.Grouped pairs tokens) (hrest : Ended rest) (hbound : tokens.length ≤ bound) :
    readStatement kind (bound + 1) (first ++ links ++ tokens ++ rest) =
      some (.edge (operand :: second :: operands) pairs, rest) := by
  rw [List.append_assoc, List.append_assoc,
    readStatement_of_edge (target?_of_begin hbegins) hoperand hchain,
    readGroups_of_grouped h (hrest.notAhead.mono (by simp)) (by omega)]
  rfl

-- By induction on the document. Each call takes one from the bound and a token is passed within four calls,
-- so a bound of four for each token is enough.
mutual

/-- A statement is read, and what follows it is left. -/
theorem readStatement_of_written (kind : GraphKind) : ∀ (statement : Statement) {bound : Nat}
    {tokens rest : List Token}, statement.Written kind tokens → Ended rest → 4 * tokens.length ≤ bound →
    readStatement kind bound (tokens ++ rest) = some (statement, rest)
  | .node node pairs, bound, tokens, rest, h, hrest, hbound => by
    rw [Statement.Written] at h
    obtain ⟨first, groups, rfl, hnode, hgrouped⟩ := h
    obtain ⟨_, _, rfl, -⟩ := hnode.begins
    simp only [List.length_append, List.length_cons] at hbound
    -- There is a token, so the bound leaves room for the calls within.
    obtain ⟨bound, rfl⟩ : ∃ less, bound = less + 2 := ⟨bound - 2, by omega⟩
    exact readStatement_of_nodeWritten hnode hgrouped hrest (by omega)
  | .edge [] pairs, bound, tokens, rest, h, hrest, hbound => by
    rw [Statement.Written] at h
    obtain ⟨chain, groups, rfl, hchain, hgrouped⟩ := h
    -- An edge has two operands at least.
    exact absurd hchain (by simp [Operand.ChainWritten])
  | .edge [operand] pairs, bound, tokens, rest, h, hrest, hbound => by
    rw [Statement.Written] at h
    obtain ⟨chain, groups, rfl, hchain, hgrouped⟩ := h
    exact absurd hchain (by simp [Operand.ChainWritten])
  | .edge (operand :: second :: operands) pairs, bound, tokens, rest, h, hrest, hbound => by
    rw [Statement.Written] at h
    obtain ⟨chain, groups, rfl, hchain, hgrouped⟩ := h
    rw [Operand.ChainWritten] at hchain
    obtain ⟨first, links, rfl, hfirst, -, hlinks⟩ := hchain
    have hlength := hfirst.begins.length_pos
    -- Neither the groups nor what follows them goes on with the last operand.
    have hgroups : NotAhead ['+', ':'] (groups ++ rest) :=
      hgrouped.notAhead (by decide) (hrest.notAhead.mono (by simp))
    simp only [List.length_append] at hbound
    obtain ⟨bound, rfl⟩ : ∃ less, bound = less + 1 := ⟨bound - 1, by omega⟩
    have hoperand : readOperand kind bound (first ++ (links ++ (groups ++ rest))) =
        some (operand, links ++ (groups ++ rest)) :=
      readOperand_of_written kind operand hfirst (hlinks.notAhead hgroups) (by omega)
    have hmore : readChain kind bound (links ++ (groups ++ rest)) =
        some (second :: operands, groups ++ rest) :=
      readChain_of_written kind (second :: operands) hlinks hgroups
        (hgrouped.noOperator hrest.noOperator) (by omega)
    exact readStatement_of_edgeWritten hfirst.begins hoperand hmore hgrouped hrest (by omega)
  | .attributes target pairs, bound, tokens, rest, h, hrest, hbound => by
    rw [Statement.Written] at h
    obtain ⟨word, groups, rfl, hword, hne, hgrouped⟩ := h
    simp only [List.length_cons] at hbound
    obtain ⟨bound, rfl⟩ : ∃ less, bound = less + 1 := ⟨bound - 1, by omega⟩
    exact readStatement_of_attributes hword hne hgrouped (hrest.notAhead.mono (by simp)) (by omega)
  | .assignment pair, bound, tokens, rest, h, hrest, hbound => by
    rw [Statement.Written] at h
    obtain ⟨_, _, rfl, -⟩ := h.begins
    simp only [List.length_cons] at hbound
    obtain ⟨bound, rfl⟩ : ∃ less, bound = less + 2 := ⟨bound - 2, by omega⟩
    exact readStatement_of_assigned h hrest
  | .subgraph id statements, bound, tokens, rest, h, hrest, hbound => by
    rw [Statement.Written] at h
    obtain ⟨head, body, rfl, hhead, hbody⟩ := h
    have htarget : target? (head ++ mark '{' :: (body ++ [mark '}']) ++ rest).head? = none :=
      target?_of_begin hhead.begins
    simp only [List.length_append, List.length_cons, List.length_nil] at hbound
    obtain ⟨bound, rfl⟩ : ∃ less, bound = less + 4 := ⟨bound - 4, by omega⟩
    refine readStatement_of_subgraph htarget (readChain_of_noOperator hrest.noOperator)
      (readOperand_of_subgraph hhead (readBody_of_written ?_))
    exact readStatements_of_written kind statements hbody (by omega)

/-- Statements are read up to the closing brace. -/
theorem readStatements_of_written (kind : GraphKind) : ∀ (statements : List Statement) {bound : Nat}
    {tokens rest : List Token}, Statement.ListWritten kind statements tokens → 4 * tokens.length < bound →
    readStatements kind bound (tokens ++ .mark '}' :: rest) = some (statements, rest)
  | [], bound, tokens, rest, h, hbound => by
    rw [Statement.ListWritten] at h
    subst h
    obtain ⟨bound, rfl⟩ : ∃ less, bound = less + 1 := ⟨bound - 1, by omega⟩
    simp only [List.nil_append, readStatements, bind_apply, peek_apply, skip_apply, Option.bind_some,
      List.head?_cons, List.tail_cons, ↓reduceIte, pure_apply]
  | statement :: statements, bound, tokens, rest, h, hbound => by
    rw [Statement.ListWritten] at h
    obtain ⟨first, separator, more, rfl, hfirst, hseparator, hmore⟩ := h
    obtain ⟨hended, hsemicolon⟩ := hmore.ended rest
    -- A statement is next, so this is not the end of the body.
    have hclose : (first ++ (separator ++ (more ++ .mark '}' :: rest))).head? ≠ some (.mark '}') :=
      hfirst.begins.append.notAhead (by decide) '}' (List.mem_singleton_self _)
    have hlength := hfirst.begins.length_pos
    simp only [List.length_append] at hbound
    obtain ⟨bound, rfl⟩ : ∃ less, bound = less + 1 := ⟨bound - 1, by omega⟩
    have hstatement : readStatement kind bound (first ++ (separator ++ (more ++ .mark '}' :: rest))) =
        some (statement, separator ++ (more ++ .mark '}' :: rest)) :=
      readStatement_of_written kind statement hfirst (ended_semicolon hseparator hended) (by omega)
    have hskip : skipIf (.mark ';') (separator ++ (more ++ .mark '}' :: rest)) =
        some ((), more ++ .mark '}' :: rest) := skipIf_of_optional hseparator hsemicolon
    have hmore : readStatements kind bound (more ++ .mark '}' :: rest) = some (statements, rest) :=
      readStatements_of_written kind statements hmore (by omega)
    simp only [List.append_assoc, readStatements, bind_apply, peek_apply, Option.bind_some, if_neg hclose,
      hstatement, hskip, hmore, pure_apply]

/-- An operand is read. -/
theorem readOperand_of_written (kind : GraphKind) : ∀ (operand : Operand) {bound : Nat}
    {tokens rest : List Token}, operand.Written kind tokens → NotAhead ['+', ':'] rest →
    4 * tokens.length ≤ bound + 1 → readOperand kind bound (tokens ++ rest) = some (operand, rest)
  | .node node, bound, tokens, rest, h, hrest, hbound => by
    rw [Operand.Written] at h
    obtain ⟨_, _, rfl, -⟩ := h.begins
    simp only [List.length_cons] at hbound
    obtain ⟨bound, rfl⟩ : ∃ less, bound = less + 1 := ⟨bound - 1, by omega⟩
    exact readOperand_of_node h hrest
  | .subgraph id statements, bound, tokens, rest, h, hrest, hbound => by
    rw [Operand.Written] at h
    obtain ⟨head, body, rfl, hhead, hbody⟩ := h
    simp only [List.length_append, List.length_cons, List.length_nil] at hbound
    -- Two calls lead from the operand to its statements, and its braces account for them.
    obtain ⟨bound, rfl⟩ : ∃ less, bound = less + 2 := ⟨bound - 2, by omega⟩
    refine readOperand_of_subgraph hhead (readBody_of_written ?_)
    exact readStatements_of_written kind statements hbody (by omega)

/-- Operators and the operands behind them are read. -/
theorem readChain_of_written (kind : GraphKind) : ∀ (operands : List Operand) {bound : Nat}
    {tokens rest : List Token}, Operand.LinksWritten kind operands tokens → NotAhead ['+', ':'] rest →
    (∀ kind, rest.head? ≠ some (.operator kind)) → 4 * tokens.length < bound →
    readChain kind bound (tokens ++ rest) = some (operands, rest)
  | [], bound, tokens, rest, h, hrest, hoperator, hbound => by
    rw [Operand.LinksWritten] at h
    subst h
    obtain ⟨bound, rfl⟩ : ∃ less, bound = less + 1 := ⟨bound - 1, by omega⟩
    exact readChain_of_noOperator hoperator
  | operand :: operands, bound, tokens, rest, h, hrest, hoperator, hbound => by
    rw [Operand.LinksWritten] at h
    obtain ⟨first, more, rfl, hfirst, hmore⟩ := h
    simp only [List.length_append, List.length_cons] at hbound
    -- The operator is a token that is no part of the operand, so the bound goes down by four.
    obtain ⟨bound, rfl⟩ : ∃ less, bound = less + 1 := ⟨bound - 1, by omega⟩
    rw [List.cons_append, List.append_assoc]
    have hoperand : readOperand kind bound (first ++ (more ++ rest)) = some (operand, more ++ rest) :=
      readOperand_of_written kind operand hfirst (hmore.notAhead hrest) (by omega)
    have hchain : readChain kind bound (more ++ rest) = some (operands, rest) :=
      readChain_of_written kind operands hmore hrest hoperator (by omega)
    simp only [readChain, bind_apply, peek_apply, skip_apply, Option.bind_some, List.head?_cons,
      List.tail_cons, ne_eq, not_true_eq_false, ↓reduceIte, pure_apply, hoperand, hchain]

end

/-! ## Graphs -/

/-- How a graph is read behind its keywords. -/
theorem readGraph_marked {strict : Bool} {first : List Token} {word : List Char}
    (hmarked : Graph.Marked strict first) (hword : Text.sameWord word kind.keyword = true) :
    readGraph bound (first ++ .word word :: tokens) =
      (readName tokens).bind fun (id, later) =>
        (readBody kind bound later).map fun (statements, rest) => (⟨strict, kind, id, statements⟩, rest) := by
  -- How each of the three tests on the word for the kind ends.
  have hnotStrict : isWord Keyword.strict (some (.word word)) = false :=
    GraphKind.not_sameWord_strict hword
  have hkind : isWord kind.keyword (some (.word word)) = true := hword
  have hdigraph : isWord Keyword.digraph (some (.word word)) = decide (kind = .digraph) := by
    cases kind with
    | digraph => exact hkind
    | graph =>
      refine Bool.eq_false_iff.2 fun hsame => ?_
      have hdigraph : Text.sameWord word (GraphKind.keyword .digraph) = true := hsame
      cases GraphKind.eq_of_sameWord hword hdigraph
  have hgraph : kind = .graph → isWord Keyword.graph (some (.word word)) = true := by
    rintro rfl
    exact hkind
  cases strict with
  | true =>
    obtain ⟨mark, rfl, hmark⟩ := hmarked
    have hstrict : isWord Keyword.strict (some (.word mark)) = true := hmark
    cases kind <;> simp [readGraph, hstrict, hdigraph, hgraph]
  | false =>
    obtain rfl : first = [] := hmarked
    cases kind <;> simp [readGraph, hnotStrict, hdigraph, hgraph]

/-- A graph that is read begins with the keywords of a graph. -/
theorem marked_of_readGraph {graph : Graph} (h : readGraph bound tokens = some (graph, rest)) :
    ∃ strict kind first word behind, tokens = first ++ .word word :: behind ∧
      Graph.Marked strict first ∧ Text.sameWord word (GraphKind.keyword kind) = true := by
  -- With or without the word for a strict graph in front, the kind comes next.
  have hkind : ∀ {behind : List Token}, isWord Keyword.digraph behind.head? = true ∨
      isWord Keyword.graph behind.head? = true → ∃ kind word later, behind = .word word :: later ∧
        Text.sameWord word (GraphKind.keyword kind) = true := by
    intro behind hword
    rcases hword with hword | hword
    · exact ⟨.digraph, exists_word_of_isWord hword⟩
    · exact ⟨.graph, exists_word_of_isWord hword⟩
  by_cases hstrict : isWord Keyword.strict tokens.head? = true
  · obtain ⟨mark, tokens, rfl, hmark⟩ := exists_word_of_isWord hstrict
    rw [List.head?_cons] at hstrict
    have hword : isWord Keyword.digraph tokens.head? = true ∨ isWord Keyword.graph tokens.head? = true := by
      refine Decidable.byContradiction fun hnone => ?_
      rw [not_or] at hnone
      simp [readGraph, hstrict, hnone] at h
    obtain ⟨kind, word, later, rfl, hsame⟩ := hkind hword
    exact ⟨true, kind, [.word mark], word, later, rfl, ⟨mark, rfl, hmark⟩, hsame⟩
  · have hword : isWord Keyword.digraph tokens.head? = true ∨ isWord Keyword.graph tokens.head? = true := by
      refine Decidable.byContradiction fun hnone => ?_
      rw [not_or] at hnone
      simp [readGraph, hstrict, hnone] at h
    obtain ⟨kind, word, later, rfl, hsame⟩ := hkind hword
    exact ⟨false, kind, [], word, later, rfl, rfl, hsame⟩

/-- What is read as a graph writes it. -/
theorem written_of_readGraph {graph : Graph} (h : readGraph bound tokens = some (graph, rest)) :
    Passed graph.Written tokens rest := by
  obtain ⟨strict, kind, first, word, behind, rfl, hmarked, hword⟩ := marked_of_readGraph h
  rw [readGraph_marked hmarked hword] at h
  simp only [Option.bind_eq_some_iff, Option.map_eq_some_iff, Prod.exists, Prod.mk.injEq] at h
  obtain ⟨id, later, hid, statements, rest, hbody, rfl, rfl⟩ := h
  obtain ⟨name, rfl, hname⟩ := written_of_readName hid
  obtain ⟨body, rfl, hwritten⟩ := (sound kind bound).body hbody
  exact ⟨first ++ .word word :: (name ++ .mark '{' :: (body ++ [.mark '}'])), by simp, first, word, name,
    body, rfl, hmarked, hword, hname, hwritten⟩

/-- A graph is read as it is written, given a bound of four times its tokens. -/
theorem readGraph_of_written {graph : Graph} (h : graph.Written tokens)
    (hbound : 4 * tokens.length ≤ bound) : readGraph bound (tokens ++ rest) = some (graph, rest) := by
  obtain ⟨first, word, name, body, rfl, hmarked, hword, hname, hbody⟩ := h
  simp only [List.length_append, List.length_cons, List.length_nil] at hbound
  obtain ⟨bound, rfl⟩ : ∃ less, bound = less + 1 := ⟨bound - 1, by omega⟩
  have hbody : readBody graph.kind (bound + 1) (.mark '{' :: (body ++ .mark '}' :: rest)) =
      some (graph.statements, rest) :=
    readBody_of_written (readStatements_of_written graph.kind graph.statements hbody (by omega))
  -- The keywords and the name stand in front of the braces.
  have hassoc : first ++ .word word :: (name ++ .mark '{' :: (body ++ [.mark '}'])) ++ rest =
      first ++ .word word :: (name ++ .mark '{' :: (body ++ .mark '}' :: rest)) := by simp
  rw [hassoc, readGraph_marked hmarked hword, readName_of_written hname, Option.bind_some]
  dsimp only
  rw [hbody]
  rfl

/-- Graphs are read one by one, until no token is left. -/
theorem readGraphs_succ (bound graphs : Nat) (tokens : List Token) :
    readGraphs bound (graphs + 1) tokens = (readGraph bound tokens).bind fun (graph, rest) =>
      if rest = [] then some ([graph], []) else
        (readGraphs bound graphs rest).map fun (more, rest) => (graph :: more, rest) := by
  rw [readGraphs, bind_apply]
  refine congrArg _ (funext fun ⟨graph, rest⟩ => ?_)
  rcases rest with _ | ⟨token, rest⟩
  · rfl
  · cases hmore : readGraphs bound graphs (token :: rest) <;> simp [hmore]

/-- What is read as graphs writes them, to the last token, and there is one at least. -/
theorem written_of_readGraphs {limit : Nat} {graphs : List Graph}
    (h : readGraphs bound limit tokens = some (graphs, rest)) :
    rest = [] ∧ graphs ≠ [] ∧ Graph.ListWritten graphs tokens := by
  induction limit generalizing tokens graphs with
  | zero => cases h
  | succ limit ih =>
    rw [readGraphs_succ, Option.bind_eq_some_iff] at h
    obtain ⟨⟨graph, behind⟩, hgraph, h⟩ := h
    obtain ⟨first, rfl, hfirst⟩ := written_of_readGraph hgraph
    dsimp only at h
    split at h
    -- The reader stops at the end of the tokens only, so nothing is left over.
    next hend =>
      cases h
      exact ⟨rfl, by simp, first, [], by rw [hend], hfirst, rfl⟩
    next =>
      simp only [Option.map_eq_some_iff, Prod.exists, Prod.mk.injEq] at h
      obtain ⟨more, rest, hmore, rfl, rfl⟩ := h
      obtain ⟨rfl, -, hwritten⟩ := ih hmore
      exact ⟨rfl, by simp, first, behind, rfl, hfirst, hwritten⟩

/-- A graph is written by a token at least. -/
theorem ne_nil_of_written {graph : Graph} (h : graph.Written tokens) : tokens ≠ [] := by
  obtain ⟨first, word, name, body, rfl, -⟩ := h
  simp

/-- Graphs are read as they are written, given bounds that are large enough. -/
theorem readGraphs_of_written {limit : Nat} {graphs : List Graph} (h : Graph.ListWritten graphs tokens)
    (hne : graphs ≠ []) (hbound : 4 * tokens.length ≤ bound) (hlimit : tokens.length ≤ limit) :
    readGraphs bound limit tokens = some (graphs, []) := by
  induction graphs generalizing limit tokens with
  | nil => exact absurd rfl hne
  | cons graph graphs ih =>
    obtain ⟨first, more, rfl, hfirst, hmore⟩ := h
    have hlength := List.length_pos_iff.2 (ne_nil_of_written hfirst)
    rw [List.length_append] at hbound hlimit
    obtain ⟨limit, rfl⟩ : ∃ less, limit = less + 1 := ⟨limit - 1, by omega⟩
    rw [readGraphs_succ, readGraph_of_written hfirst (by omega), Option.bind_some]
    dsimp only
    -- The reading ends with the last graph only, since every graph has tokens.
    rcases graphs with _ | ⟨next, graphs⟩
    · obtain rfl : more = [] := hmore
      rfl
    · have hend : more ≠ [] := by
        obtain ⟨first, rest, rfl, hfirst, -⟩ := hmore
        simp [ne_nil_of_written hfirst]
      rw [if_neg hend, ih hmore (by simp) (by omega) (by omega)]
      rfl

end Token

/-- The reader accepts the tokens by which a document can be written, and reads that document. -/
theorem Document.ofTokens?_eq_some_iff {tokens : List Token} {document : Document} :
    Document.ofTokens? tokens = some document ↔ document.Written tokens := by
  rw [Document.ofTokens?, Option.map_eq_some_iff]
  constructor
  · rintro ⟨⟨graphs, rest⟩, h, rfl⟩
    obtain ⟨-, hne, hwritten⟩ := written_of_readGraphs h
    exact ⟨hne, hwritten⟩
  · rintro ⟨hne, hwritten⟩
    exact ⟨(document.graphs, []), readGraphs_of_written hwritten hne (by omega) (by omega), rfl⟩

end DotLang
