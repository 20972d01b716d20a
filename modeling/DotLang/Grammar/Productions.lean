import DotLang.Grammar.Rule
import DotLang.Peg.Grammar
import DotLang.Text.Lexeme

/-!
# The grammar of DOT

The body of every rule. Blanks and comments may stand between any two members of a spaced sequence.
A keyword is recognised in any mixture of upper and lower case, but only where no word character
follows. A backslash before a line feed is not part of this grammar: continued lines are joined before
a text is read.
-/

namespace DotLang

open Peg

namespace Grammar

/-- A character that stands for itself. -/
def mark (c : Char) : Expr Rule := .literal [c]

/-- Any character. -/
def anyChar : Expr Rule := .char fun _ => true

/-- Any number of characters up to the first place where `stop` could be read. -/
def upTo (stop : Expr Rule) : Expr Rule :=
  .star (.seq (.not stop) anyChar)

/-- The end of a line: a line feed, a carriage return, or both in this order. -/
def lineEnd : Expr Rule :=
  .any [mark '\n', .literal ['\r', '\n'], mark '\r']

/-- The words in any case, with no word character behind. -/
def wholeWord (words : List (List Char)) : Expr Rule :=
  .seq (.any (words.map .caseless)) (.not (.call .identChar))

/-- An angle bracket of either direction. -/
def angle : Expr Rule := .alt (mark '<') (mark '>')

/-- Text in which every angle bracket has its partner. -/
def balanced : Expr Rule :=
  .star (.alt (.call .htmlNested) (.seq (.not angle) anyChar))

/-- One or more ASCII digits. -/
def digits : Expr Rule := .plus (.char Char.isDigit)

/-- The production of every rule. -/
def production : Rule → Production Rule
  | .endOfInput => ⟨.branch, .not anyChar⟩
  | .whitespace => ⟨.layout, .char Text.isBlank⟩
  | .comment => ⟨.layout, .any [.call .blockComment, .call .lineComment, .call .hashComment]⟩
  | .blockComment =>
    ⟨.silent, .all [.literal ['/', '*'], upTo (.literal ['*', '/']), .literal ['*', '/']]⟩
  | .lineComment => ⟨.silent, .all [.literal ['/', '/'], upTo lineEnd]⟩
  | .hashComment => ⟨.silent, .all [mark '#', upTo lineEnd]⟩
  | .document => ⟨.branch, .all [.start, .plus (.call .graph), .call .endOfInput]⟩
  | .graph =>
    ⟨.branch, .all [.opt (.call .strict), .call .graphKind, .opt (.call .id), mark '{',
      .call .stmtList, mark '}']⟩
  | .strict => ⟨.token, wholeWord [Keyword.strict]⟩
  | .graphKind => ⟨.token, wholeWord [Keyword.digraph, Keyword.graph]⟩
  | .stmtList => ⟨.branch, .star (.all [.call .stmt, .opt (mark ';')])⟩
  -- The order counts: an assignment and an edge begin as a node statement does.
  | .stmt =>
    ⟨.silent, .any [.call .attrStmt, .call .edgeStmt, .call .assignment, .call .nodeStmt,
      .call .subgraph]⟩
  | .attrStmt => ⟨.branch, .all [.call .attrTarget, .call .attrList]⟩
  | .attrTarget => ⟨.token, wholeWord [Keyword.graph, Keyword.node, Keyword.edge]⟩
  | .edgeStmt =>
    ⟨.branch, .all [.call .edgeOperand, .plus (.all [.call .edgeOp, .call .edgeOperand]),
      .opt (.call .attrList)]⟩
  | .edgeOperand => ⟨.silent, .any [.call .subgraph, .call .nodeId]⟩
  | .edgeOp => ⟨.token, .any [.literal ['-', '>'], .literal ['-', '-']]⟩
  | .assignment => ⟨.branch, .all [.call .id, mark '=', .call .id]⟩
  | .nodeStmt => ⟨.branch, .all [.call .nodeId, .opt (.call .attrList)]⟩
  | .nodeId => ⟨.branch, .all [.call .id, .opt (.call .port)]⟩
  | .port => ⟨.branch, .all [mark ':', .call .id, .opt (.all [mark ':', .call .id])]⟩
  | .subgraph =>
    ⟨.branch, .all [.opt (.all [.call .subgraphKeyword, .opt (.call .id)]), mark '{',
      .call .stmtList, mark '}']⟩
  | .subgraphKeyword => ⟨.token, wholeWord [Keyword.subgraph]⟩
  -- Separators stand between attributes and may be missing, but none follows the last one.
  | .attrList =>
    ⟨.branch, .plus (.all [mark '[',
      .opt (.all [.call .attr, .star (.all [.opt (.any [mark ',', mark ';']), .call .attr])]),
      mark ']'])⟩
  | .attr => ⟨.branch, .all [.call .id, mark '=', .call .id]⟩
  | .id =>
    ⟨.branch, .any [.call .htmlString, .call .quotedConcat, .call .numeral, .call .identifier]⟩
  | .keyword =>
    ⟨.token, wholeWord Keyword.all⟩
  | .identifier =>
    ⟨.token, .all [.not (.call .keyword), .call .identStart, .star (.call .identChar)]⟩
  | .identStart => ⟨.silent, .char Text.isWordStart⟩
  | .identChar => ⟨.silent, .char Text.isWordChar⟩
  | .numeral =>
    ⟨.token, .all [.opt (mark '-'), .any [.all [mark '.', digits],
      .all [digits, .opt (.all [mark '.', .star (.char Char.isDigit)])]]]⟩
  | .quotedConcat =>
    ⟨.branch, .all [.call .quotedString, .star (.all [mark '+', .call .quotedString])]⟩
  | .quotedString => ⟨.tight, .all [mark '"', .call .quotedInner, mark '"']⟩
  -- A pair is read at once, so that a quote behind a backslash does not end the string.
  | .quotedInner =>
    ⟨.token, .star (.any [.literal ['\\', '\\'], .literal ['\\', '"'],
      .seq (.not (mark '"')) anyChar])⟩
  | .htmlString => ⟨.tight, .all [mark '<', .call .htmlInner, mark '>']⟩
  | .htmlInner => ⟨.token, balanced⟩
  | .htmlNested => ⟨.silent, .all [mark '<', balanced, mark '>']⟩

/-- Any number of blanks. -/
def blanks : Expr Rule := .star (.call .whitespace)

/-- Blanks and comments in any order. -/
def layout : Expr Rule :=
  .seq blanks (.star (.seq (.call .comment) blanks))

end Grammar

/-- The grammar of DOT. -/
def grammar : Grammar Rule where
  production := Grammar.production
  layout := Grammar.layout
  size := Rule.all.length

end DotLang
