import DotLang.Document.Basic
import DotLang.Text.Lexeme
import DotLang.Token.Lexer

/-!
# How a document is written

The tokens by which a document can be written, told from the document: what is free is the case of
keywords, the semicolons, the separators of attributes, the groups of an attribute list, the parts of a
quoted string, and a word and braces for a subgraph without a name. Nothing is said here of how tokens are
read, or of layout.
-/

namespace DotLang

open Token

/-! ## Identifiers -/

/-- Quoted strings joined by plus signs, and the text that they give together. -/
inductive Id.Joined : List Char → List Token → Prop where
  /-- One string. -/
  | single (content : List Char) : Joined (Text.Quoted.unescape content) [.quoted content]
  /-- One string and more behind it. -/
  | more (content : List Char) {value : List Char} {tokens : List Token} : Joined value tokens →
      Joined (Text.Quoted.unescape content ++ value) (.quoted content :: .mark '+' :: tokens)

/-- The tokens of an identifier. A word that is a keyword is none. -/
def Id.Written : Id → List Token → Prop
  | .identifier value, tokens =>
    tokens = [.word value.toList] ∧ Keyword.isKeyword value.toList = false
  | .numeral value, tokens => tokens = [.numeral value.toList]
  | .quoted value, tokens => Id.Joined value.toList tokens
  | .html value, tokens => tokens = [.html value.toList]

/-- A word that is no keyword writes an identifier. -/
theorem Id.written_identifier {word : List Char} (h : Keyword.isKeyword word = false) :
    (Id.identifier (String.ofList word)).Written [.word word] := by
  rw [Id.Written, String.toList_ofList]
  exact ⟨rfl, h⟩

/-- A numeral writes an identifier. -/
theorem Id.written_numeral (text : List Char) :
    (Id.numeral (String.ofList text)).Written [.numeral text] := by
  rw [Id.Written, String.toList_ofList]

/-- Strings that are joined write an identifier. -/
theorem Id.written_quoted {value : List Char} {tokens : List Token} (h : Id.Joined value tokens) :
    (Id.quoted (String.ofList value)).Written tokens := by
  rw [Id.Written, String.toList_ofList]
  exact h

/-- An HTML string writes an identifier. -/
theorem Id.written_html (content : List Char) :
    (Id.html (String.ofList content)).Written [.html content] := by
  rw [Id.Written, String.toList_ofList]

/-- The tokens of a name, if there is one. -/
def Id.OptWritten : Option Id → List Token → Prop
  | none, tokens => tokens = []
  | some id, tokens => id.Written tokens

/-! ## Attributes -/

/-- The tokens of an attribute. -/
def Attribute.Written (pair : Attribute) (tokens : List Token) : Prop :=
  ∃ key value, tokens = key ++ .mark '=' :: value ∧ pair.key.Written key ∧ pair.value.Written value

/-- One of some marks, or nothing. -/
def Token.Optional (marks : List Char) (tokens : List Token) : Prop :=
  tokens = [] ∨ ∃ c ∈ marks, tokens = [.mark c]

/-- One or more attributes with a comma, a semicolon or nothing between any two. -/
inductive Attribute.Listed : List Attribute → List Token → Prop where
  /-- One attribute. -/
  | single {pair : Attribute} {tokens : List Token} : pair.Written tokens → Listed [pair] tokens
  /-- One attribute and more behind it. -/
  | more {pair : Attribute} {pairs : List Attribute} {tokens separator tokens' : List Token} :
      pair.Written tokens → Optional [',', ';'] separator → Listed pairs tokens' →
      Listed (pair :: pairs) (tokens ++ (separator ++ tokens'))

/-- Any number of bracketed groups of attributes, empty ones among them. -/
inductive Attribute.Grouped : List Attribute → List Token → Prop where
  /-- No group. -/
  | none : Grouped [] []
  /-- An empty group and more behind it. -/
  | empty {pairs : List Attribute} {tokens : List Token} : Grouped pairs tokens →
      Grouped pairs (.mark '[' :: .mark ']' :: tokens)
  /-- A group with attributes and more behind it. -/
  | group {first pairs : List Attribute} {inner tokens : List Token} : Listed first inner →
      Grouped pairs tokens → Grouped (first ++ pairs) (.mark '[' :: (inner ++ .mark ']' :: tokens))

/-! ## Nodes -/

/-- The tokens of a port. One identifier is a compass point if it names one, and a name otherwise; of two
identifiers the first one is a name in any case, and the second one a compass point if it names one. -/
inductive Port.Written : Port → List Token → Prop where
  /-- A name alone. -/
  | name {id : Id} {tokens : List Token} : id.Written tokens → CompassPoint.ofName? id.value = none →
      Written ⟨some id, none⟩ (.mark ':' :: tokens)
  /-- A compass point alone. -/
  | compass {id : Id} {point : CompassPoint} {tokens : List Token} : id.Written tokens →
      CompassPoint.ofName? id.value = some point → Written ⟨none, some point⟩ (.mark ':' :: tokens)
  /-- A name and a second identifier. -/
  | both {id id' : Id} {tokens tokens' : List Token} : id.Written tokens → id'.Written tokens' →
      Written ⟨some id, CompassPoint.ofName? id'.value⟩
        (.mark ':' :: (tokens ++ .mark ':' :: tokens'))

/-- The tokens of a node. -/
inductive NodeId.Written : NodeId → List Token → Prop where
  /-- An identifier alone. -/
  | bare {id : Id} {tokens : List Token} : id.Written tokens → Written ⟨id, none⟩ tokens
  /-- An identifier and a port. -/
  | port {id : Id} {port : Port} {tokens tokens' : List Token} : id.Written tokens →
      port.Written tokens' → Written ⟨id, some port⟩ (tokens ++ tokens')

/-! ## Statements -/

/-- The keyword of an attribute statement. -/
def Target.keyword : Target → List Char
  | graph => Keyword.graph
  | node => Keyword.node
  | edge => Keyword.edge

/-- The tokens in front of the braces of a subgraph: nothing, where it has no name, or the keyword and the
name if there is one. -/
inductive Statement.Headed : Option Id → List Token → Prop where
  /-- Nothing. -/
  | none : Headed .none []
  /-- The keyword, and a name if there is one. -/
  | word {id : Option Id} {word : List Char} {tokens : List Token} :
      Text.sameWord word Keyword.subgraph = true → Id.OptWritten id tokens →
      Headed id (.word word :: tokens)

mutual

/-- The tokens of a statement in a graph of a kind. -/
def Statement.Written (kind : GraphKind) : Statement → List Token → Prop
  | .node node attributes => fun tokens =>
    ∃ first groups, tokens = first ++ groups ∧ node.Written first ∧ Attribute.Grouped attributes groups
  | .edge operands attributes => fun tokens =>
    ∃ chain groups, tokens = chain ++ groups ∧ Operand.ChainWritten kind operands chain ∧
      Attribute.Grouped attributes groups
  -- The one statement that cannot go without a list.
  | .attributes target attributes => fun tokens =>
    ∃ word groups, tokens = .word word :: groups ∧ Text.sameWord word target.keyword = true ∧
      groups ≠ [] ∧ Attribute.Grouped attributes groups
  | .assignment pair => fun tokens => pair.Written tokens
  | .subgraph id statements => fun tokens =>
    ∃ head body, tokens = head ++ .mark '{' :: (body ++ [.mark '}']) ∧ Statement.Headed id head ∧
      Statement.ListWritten kind statements body

/-- The tokens of statements, each with a semicolon behind it or without one. -/
def Statement.ListWritten (kind : GraphKind) : List Statement → List Token → Prop
  | [] => fun tokens => tokens = []
  | statement :: statements => fun tokens =>
    ∃ first separator rest, tokens = first ++ (separator ++ rest) ∧ statement.Written kind first ∧
      Optional [';'] separator ∧ Statement.ListWritten kind statements rest

/-- The tokens of an operand. -/
def Operand.Written (kind : GraphKind) : Operand → List Token → Prop
  | .node node => fun tokens => node.Written tokens
  | .subgraph id statements => fun tokens =>
    ∃ head body, tokens = head ++ .mark '{' :: (body ++ [.mark '}']) ∧ Statement.Headed id head ∧
      Statement.ListWritten kind statements body

/-- The tokens of operands, each behind the operator of the graph's kind. -/
def Operand.LinksWritten (kind : GraphKind) : List Operand → List Token → Prop
  | [] => fun tokens => tokens = []
  | operand :: operands => fun tokens =>
    ∃ first rest, tokens = .operator kind :: (first ++ rest) ∧ operand.Written kind first ∧
      Operand.LinksWritten kind operands rest

/-- The tokens of two or more operands with operators between them. -/
def Operand.ChainWritten (kind : GraphKind) : List Operand → List Token → Prop
  | [] => fun _ => False
  | operand :: operands => fun tokens =>
    ∃ first links, tokens = first ++ links ∧ operand.Written kind first ∧ operands ≠ [] ∧
      Operand.LinksWritten kind operands links

end

/-! ## Documents -/

/-- The keyword of a graph. -/
def GraphKind.keyword : GraphKind → List Char
  | graph => Keyword.graph
  | digraph => Keyword.digraph

/-- The keyword of a strict graph, or nothing. -/
def Graph.Marked (strict : Bool) (tokens : List Token) : Prop :=
  if strict then ∃ word, tokens = [.word word] ∧ Text.sameWord word Keyword.strict = true
  else tokens = []

/-- The tokens of a graph. -/
def Graph.Written (graph : Graph) (tokens : List Token) : Prop :=
  ∃ first word name body,
    tokens = first ++ .word word :: (name ++ .mark '{' :: (body ++ [.mark '}'])) ∧
      Graph.Marked graph.strict first ∧ Text.sameWord word graph.kind.keyword = true ∧
      Id.OptWritten graph.id name ∧ Statement.ListWritten graph.kind graph.statements body

/-- The tokens of graphs, one after the other. -/
def Graph.ListWritten : List Graph → List Token → Prop
  | [], tokens => tokens = []
  | graph :: graphs, tokens =>
    ∃ first rest, tokens = first ++ rest ∧ graph.Written first ∧ Graph.ListWritten graphs rest

/-- The tokens of a document, which has at least one graph. -/
def Document.Written (document : Document) (tokens : List Token) : Prop :=
  document.graphs ≠ [] ∧ Graph.ListWritten document.graphs tokens

end DotLang
