import DotLang.Grammar.Rule
import DotLang.ParseError.Dump
import DotLang.Text.Position

/-!
# Failures and their reports

A failure is a cause and a place given in bytes. Its report turns the place into a line and a column,
the cause into a message, and adds the source line and a hint.
-/

namespace DotLang

/-!
## What was expected

A report of a failed reading names what could have stood at the place of the error. Rules are shown by
labels; those without a label, such as the end of the input, are left out, and a label that several
rules share is named once.
-/

namespace Rule

/-- How a rule is named in a report, if it is named at all. -/
def label : Rule → Option String
  | graph => some "graph (`graph \x7b ... \x7d` or `digraph \x7b ... \x7d`)"
  | strict => some "`strict`"
  | graphKind => some "`graph` or `digraph`"
  | attrStmt => some "attribute statement"
  | attrTarget => some "`graph`, `node` or `edge`"
  | edgeStmt => some "edge statement"
  | edgeOp => some "edge operator (`->` or `--`)"
  | assignment => some "assignment (`name = value`)"
  | nodeStmt => some "node statement"
  | nodeId => some "node id"
  | port => some "port (`:name`)"
  | subgraph => some "subgraph"
  | attrList => some "attribute list (`[ ... ]`)"
  | attr => some "attribute (`name = value`)"
  | id | identifier => some "identifier"
  | numeral => some "number"
  | quotedConcat | quotedString => some "quoted string"
  | htmlString => some "HTML string (`<...>`)"
  | _ => none

end Rule

namespace ParseError

/-- The members of a list without those that occur earlier in it, given what came before. -/
def distinctAfter (seen : List String) : List String → List String
  | [] => []
  | label :: labels =>
    if label ∈ seen then distinctAfter seen labels
    else label :: distinctAfter (seen ++ [label]) labels

/-- The labels of rules, each one once, in the order of their first appearance. -/
def labels (rules : List Rule) : List String :=
  distinctAfter [] (rules.filterMap Rule.label)

/-- A list of alternatives in words: commas between them, and "or" before the last. -/
def alternatives : List String → String
  | [] => ""
  | [label] => label
  | [label, last] => label ++ " or " ++ last
  | label :: labels => label ++ ", " ++ alternatives labels

/-- The message that says what was expected. -/
def expectedMessage (rules : List Rule) : String :=
  match labels rules with
  | [] => "unexpected token"
  | expected => "expected " ++ alternatives expected

end ParseError

/-!
## Hints

Advice that goes with a report, chosen by the line the error is on and by the rules that were expected.
A line that ends in a backslash comes first, then a quoted string that is left open, then the rules.
-/

/-- A piece of advice. -/
inductive Hint where
  /-- A backslash stands before a line end that begins with a carriage return. -/
  | windowsLineEnd
  /-- A continued line was not joined. -/
  | continuation
  /-- A quoted string is not closed on the line. -/
  | openQuote
  /-- An attribute was expected. -/
  | attributeForm
  /-- A graph was expected. -/
  | graphForm
deriving DecidableEq

namespace Hint

/-- The words of a piece of advice. -/
def text : Hint → String
  | windowsLineEnd =>
    "Only a backslash directly before `\\n` continues a line. A backslash " ++
    "before a Windows (CRLF) line ending is kept; convert the file to LF line endings."
  | continuation =>
    "A trailing `\\` continues the line. Parse through the preprocessing " ++
    "entry point (not the raw parser) to join continued lines."
  | openQuote => "A quoted string must be closed with `\"`. Use `\\\"` for a literal quote."
  | attributeForm => "Attributes look like `name=value` and may be separated by `,` or `;`."
  | graphForm => "A DOT file holds one or more graphs: `digraph G \x7b a -> b \x7d`."

/-- Whether a quoted string is open behind a text, given whether one is open before it. Within a string
a backslash and the character behind it are passed over together. -/
def openAfter : Bool → List Char → Bool
  | isOpen, [] => isOpen
  | true, '\\' :: _ :: cs => openAfter true cs
  | isOpen, c :: cs => openAfter (if c = '"' then !isOpen else isOpen) cs

/-- A character that does not begin a pair in a string is passed over alone, and a quote opens or closes a
string. -/
theorem openAfter_cons {isOpen : Bool} {c : Char} {cs : List Char}
    (hpair : ∀ d tail, isOpen = true → c = '\\' → cs ≠ d :: tail) :
    openAfter isOpen (c :: cs) = openAfter (if c = '"' then !isOpen else isOpen) cs := by
  rw [openAfter]
  assumption

/-- Whether a line leaves a quoted string open. -/
def hasOpenQuote (line : List Char) : Bool :=
  openAfter false line

/-- The advice that a line by itself calls for. -/
def ofLine (line : List Char) : Option Hint :=
  let trimmed := ParseError.trimReturns line
  if trimmed.getLast? = some '\\' then
    if line.getLast? = some '\r' then some windowsLineEnd else some continuation
  else if hasOpenQuote trimmed then some openQuote
  else none

/-- The advice that the expected rules by themselves call for. -/
def ofRules (rules : List Rule) : Option Hint :=
  if .attr ∈ rules then some attributeForm
  else if .graphKind ∈ rules ∨ .graph ∈ rules then some graphForm
  else none

/-- The advice that goes with expected rules at a place on a line, if the text has such a line. -/
def choose (rules : List Rule) (line : Option (List Char)) : Option Hint :=
  (line.bind ofLine).orElse fun _ => ofRules rules

end Hint

/-! ## Reports -/

/-- Why a reading failed. -/
inductive Cause where
  /-- One of these rules should have matched. -/
  | expected (rules : List Rule)
  /-- The text fits the grammar but breaks a rule that the grammar does not express. -/
  | invalid (message : String)
deriving DecidableEq

/-- Where a reading failed, in byte offsets. -/
inductive Place where
  /-- At a point. -/
  | at (offset : Nat)
  /-- Over a stretch of the text. -/
  | span (start stop : Nat)
deriving DecidableEq

/-- Why and where a reading failed. -/
structure Failure where
  /-- Why it failed. -/
  cause : Cause
  /-- Where it failed. -/
  place : Place
deriving DecidableEq

namespace Cause

/-- What the cause says is wrong. -/
def message : Cause → String
  | expected rules => ParseError.expectedMessage rules
  | invalid message => message

/-- The advice for the cause at a place on a line, if the text has such a line. -/
def hint (line : Option (List Char)) : Cause → Option Hint
  | expected rules => Hint.choose rules line
  | invalid _ => none

end Cause

namespace Place

/-- The byte offset at which the place begins. -/
def start : Place → Nat
  | .at offset => offset
  | span start _ => start

/-- Whether the place lies in a text, between its characters, and does not end before it begins. -/
def liesIn (text : List Char) : Place → Bool
  | .at offset => Text.isBoundary text offset
  | span start stop =>
    start ≤ stop && Text.isBoundary text start && Text.isBoundary text stop

/-- The position at which the place begins. -/
def position (place : Place) (text : List Char) : Text.Position :=
  .after (Text.before text place.start)

/-- The column behind the place, if it is a stretch within one line. -/
def colEnd (text : List Char) : Place → Option Nat
  | .at _ => none
  | span start stop =>
    let first := Text.Position.after (Text.before text start)
    let last := Text.Position.spanEnd (Text.before text stop)
    if first.line = last.line then some last.col else none

end Place

namespace Failure

/-- The report of a failure in a text. -/
def report (failure : Failure) (text : List Char) : ParseError :=
  let position := failure.place.position text
  let line := (Text.lines text)[position.line - 1]?
  { message := failure.cause.message
    line := position.line
    col := position.col
    colEnd := failure.place.colEnd text
    sourceLine := line.map String.ofList
    -- The parser knows no file; whoever reads one adds its name.
    filename := none
    hint := (failure.cause.hint line).map Hint.text }

end Failure

end DotLang
