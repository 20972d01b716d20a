import DotLang.Text.Lexeme
import DotLang.Token.Lexer

/-!
# Documents of tokens

Tokens are read from left to right, and the next token alone decides how to go on; nothing is ever read
twice. A statement begins with an operand, unless it begins with the keyword of an attribute statement,
and what follows the operand decides which statement it is.
-/

namespace DotLang

namespace Token

/-- A way to read the next tokens. -/
abbrev Reader := StateT (List Token) Option

namespace Reader

/-- The next token, which is not read yet. -/
def peek : Reader (Option Token) := do
  return (← get).head?

/-- Passes over the next token. -/
def skip : Reader Unit := modify List.tail

/-- Passes over a token that must be the next one. -/
def expect (token : Token) : Reader Unit := do
  if (← peek) = some token then skip else failure

/-- Passes over the next token if it is the one given. -/
def skipIf (token : Token) : Reader Unit := do
  if (← peek) = some token then skip

end Reader

open Reader

/-- Whether a token is a keyword. -/
def isWord (keyword : List Char) : Option Token → Bool
  | some (word text) => Text.sameWord text keyword
  | _ => false

/-- The target that an attribute statement begins with, if a token begins one. -/
def target? (token : Option Token) : Option Target :=
  if isWord Keyword.graph token then some .graph
  else if isWord Keyword.node token then some .node
  else if isWord Keyword.edge token then some .edge
  else none

/-- The content of the quoted strings that follow behind plus signs. -/
def readMoreQuoted : List Token → Option (List Char × List Token)
  | mark '+' :: quoted content :: tokens => do
    let (more, rest) ← readMoreQuoted tokens
    return (Text.Quoted.unescape content ++ more, rest)
  | mark '+' :: _ => none
  | tokens => some ([], tokens)

/-- Where no plus sign stands, no more strings follow. -/
theorem readMoreQuoted_of_head?_ne {tokens : List Token} (h : tokens.head? ≠ some (mark '+')) :
    readMoreQuoted tokens = some ([], tokens) := by
  rw [readMoreQuoted]
  · rintro content rest rfl
    simp at h
  · rintro rest rfl
    simp at h

/-- An identifier. -/
def readId : Reader Id := do
  match ← peek with
  | some (word text) => do
    -- A keyword is no name unless it is quoted.
    if Keyword.isKeyword text then failure
    skip
    return .identifier (String.ofList text)
  | some (numeral text) => do
    skip
    return .numeral (String.ofList text)
  | some (html content) => do
    skip
    return .html (String.ofList content)
  | some (quoted content) => do
    skip
    let more ← (readMoreQuoted : Reader (List Char))
    return .quoted (String.ofList (Text.Quoted.unescape content ++ more))
  | _ => failure

/-- An attribute. -/
def readAttribute : Reader Attribute := do
  let key ← readId
  expect (mark '=')
  let value ← readId
  return ⟨key, value⟩

/-- One or more attributes and the bracket behind them. -/
def readAttributes : Nat → Reader (List Attribute)
  | 0 => failure
  | bound + 1 => do
    let first ← readAttribute
    match ← peek with
    | some (mark ']') => do
      skip
      return [first]
    | some (mark ',') | some (mark ';') => do
      skip
      return first :: (← readAttributes bound)
    | _ => return first :: (← readAttributes bound)

/-- The attributes of the bracketed groups that follow. -/
def readGroups : Nat → Reader (List Attribute)
  | 0 => failure
  | bound + 1 => do
    if (← peek) = some (mark '[') then
      skip
      let group ← if (← peek) = some (mark ']') then do skip; pure [] else readAttributes bound
      return group ++ (← readGroups bound)
    else return []

/-- A port, if one follows. -/
def readPort : Reader (Option Port) := do
  if (← peek) = some (mark ':') then
    skip
    let first ← readId
    if (← peek) = some (mark ':') then
      skip
      -- The second name is a compass point or nothing.
      let second ← readId
      return some ⟨some first, CompassPoint.ofName? second.value⟩
    else match CompassPoint.ofName? first.value with
      | some point => return some ⟨none, some point⟩
      | none => return some ⟨some first, none⟩
  else return none

/-- The identifier in front of an opening brace, if there is one. -/
def readName : Reader (Option Id) := do
  if (← peek) = some (mark '{') then return none
  else return some (← readId)

mutual

/-- What an edge joins: a node or a subgraph. -/
def readOperand (kind : GraphKind) : Nat → Reader Operand
  | 0 => failure
  | bound + 1 => do
    let next ← peek
    if isWord Keyword.subgraph next then
      skip
      let id ← readName
      return .subgraph id (← readBody kind bound)
    else if next = some (mark '{') then return .subgraph none (← readBody kind bound)
    else
      let id ← readId
      return .node ⟨id, ← readPort⟩

/-- The operands behind edge operators. All operators must be that of the graph's kind. -/
def readChain (kind : GraphKind) : Nat → Reader (List Operand)
  | 0 => failure
  | bound + 1 => do
    match ← peek with
    | some (operator found) => do
      -- An operator of the other kind is an error and not the end of the chain.
      if found ≠ kind then failure
      skip
      let operand ← readOperand kind bound
      return operand :: (← readChain kind bound)
    | _ => return []

/-- A statement. -/
def readStatement (kind : GraphKind) : Nat → Reader Statement
  | 0 => failure
  | bound + 1 => do
    match target? (← peek) with
    | some target => do
      skip
      if (← peek) ≠ some (mark '[') then failure
      return .attributes target (← readGroups (bound + 1))
    | none => do
      let first ← readOperand kind bound
      match ← readChain kind bound, first with
      | [], .node node => do
        if node.port = none && (← peek) = some (mark '=') then
          skip
          return .assignment ⟨node.id, ← readId⟩
        else return .node node (← readGroups (bound + 1))
      -- A subgraph that stands alone has no list behind it.
      | [], .subgraph id statements => return .subgraph id statements
      | others, _ => return .edge (first :: others) (← readGroups (bound + 1))

/-- Statements up to the closing brace, each with a semicolon behind it or without one. -/
def readStatements (kind : GraphKind) : Nat → Reader (List Statement)
  | 0 => failure
  | bound + 1 => do
    if (← peek) = some (mark '}') then
      skip
      return []
    else
      let statement ← readStatement kind bound
      skipIf (mark ';')
      return statement :: (← readStatements kind bound)

/-- The statements between braces. -/
def readBody (kind : GraphKind) : Nat → Reader (List Statement)
  | 0 => failure
  | bound + 1 => do
    expect (mark '{')
    readStatements kind bound

end

/-- A graph. -/
def readGraph (bound : Nat) : Reader Graph := do
  let strict := isWord Keyword.strict (← peek)
  if strict then skip
  let next ← peek
  let kind ← if isWord Keyword.digraph next then pure GraphKind.digraph
    else if isWord Keyword.graph next then pure GraphKind.graph
    else failure
  skip
  let id ← readName
  let statements ← readBody kind bound
  return ⟨strict, kind, id, statements⟩

/-- One or more graphs up to the end of the tokens. -/
def readGraphs (bound : Nat) : Nat → Reader (List Graph)
  | 0 => failure
  | graphs + 1 => do
    let graph ← readGraph bound
    if (← peek) = none then return [graph]
    else return graph :: (← readGraphs bound graphs)

end Token

/-- The document that tokens make up. Reading never nests deeper than five calls for each token. -/
def Document.ofTokens? (tokens : List Token) : Option Document :=
  let bound := 5 * (tokens.length + 1)
  (Token.readGraphs bound bound tokens).map fun (graphs, _) => ⟨graphs⟩

/-- The document of a text, found by cutting it into tokens first. -/
def Document.ofText? (text : List Char) : Option Document := do
  Document.ofTokens? (← Token.lex text)

end DotLang
