/-!
# The rules of DOT

The names of the grammar's rules. Their order is the one in which reports list them: the end of the
input comes first, then the rules in the order of the grammar.
-/

namespace DotLang

/-- A rule of the DOT grammar. -/
inductive Rule where
  | endOfInput
  | whitespace
  | comment
  | blockComment
  | lineComment
  | hashComment
  | document
  | graph
  | strict
  | graphKind
  | stmtList
  | stmt
  | attrStmt
  | attrTarget
  | edgeStmt
  | edgeOperand
  | edgeOp
  | assignment
  | nodeStmt
  | nodeId
  | port
  | subgraph
  | subgraphKeyword
  | attrList
  | attr
  | id
  | keyword
  | identifier
  | identStart
  | identChar
  | numeral
  | quotedConcat
  | quotedString
  | quotedInner
  | htmlString
  | htmlInner
  | htmlNested
deriving DecidableEq

namespace Rule

/-- All rules in the order of reports. -/
def all : List Rule :=
  [endOfInput, whitespace, comment, blockComment, lineComment, hashComment, document, graph, strict,
    graphKind, stmtList, stmt, attrStmt, attrTarget, edgeStmt, edgeOperand, edgeOp, assignment,
    nodeStmt, nodeId, port, subgraph, subgraphKeyword, attrList, attr, id, keyword, identifier,
    identStart, identChar, numeral, quotedConcat, quotedString, quotedInner, htmlString, htmlInner,
    htmlNested]

/-- The written name of a rule. -/
def name : Rule → String
  | endOfInput => "EOI"
  | whitespace => "WHITESPACE"
  | comment => "COMMENT"
  | blockComment => "block_comment"
  | lineComment => "line_comment"
  | hashComment => "hash_comment"
  | document => "document"
  | graph => "graph"
  | strict => "strict"
  | graphKind => "graph_kind"
  | stmtList => "stmt_list"
  | stmt => "stmt"
  | attrStmt => "attr_stmt"
  | attrTarget => "attr_target"
  | edgeStmt => "edge_stmt"
  | edgeOperand => "edge_operand"
  | edgeOp => "edge_op"
  | assignment => "assignment"
  | nodeStmt => "node_stmt"
  | nodeId => "node_id"
  | port => "port"
  | subgraph => "subgraph"
  | subgraphKeyword => "subgraph_keyword"
  | attrList => "attr_list"
  | attr => "attr"
  | id => "id"
  | keyword => "keyword"
  | identifier => "identifier"
  | identStart => "ident_start"
  | identChar => "ident_char"
  | numeral => "numeral"
  | quotedConcat => "quoted_concat"
  | quotedString => "quoted_string"
  | quotedInner => "quoted_inner"
  | htmlString => "html_string"
  | htmlInner => "html_inner"
  | htmlNested => "html_nested"

/-- The rule of a written name. -/
def ofName? (name : String) : Option Rule :=
  all.find? (·.name == name)

/-- No rule is missing from the list of all rules. -/
theorem mem_all (rule : Rule) : rule ∈ all := by
  cases rule <;> decide

end Rule

end DotLang
