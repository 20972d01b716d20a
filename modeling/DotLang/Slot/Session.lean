import DotLang.Dump.Basic
import DotLang.Text.Continuation
import DotLang.Parse

/-!
# Parser slots

A slot holds a parser that many callers share. Joining of continued lines can be put in front of the
parser in place, at most once; the parser from before stays reachable.
-/

namespace DotLang

/-- What came of a request to install preprocessing. -/
inductive Installation where
  /-- The request put preprocessing in front of the parser. -/
  | installed
  /-- Preprocessing was there already, and nothing changed. -/
  | alreadyInstalled
deriving DecidableEq

/-- A shared parser. -/
structure Slot (ε α : Type) where
  /-- The parser that callers reach. -/
  entry : Parser ε α
  /-- The plain parser, from before preprocessing was installed, once it is. -/
  plain : Option (Parser ε α)

namespace Slot

variable {ε α : Type}

/-- A slot that holds a parser as it is. -/
def ofParser (parser : Parser ε α) : Slot ε α := ⟨parser, none⟩

/-- Parses with what the slot holds. -/
def parse (slot : Slot ε α) : Parser ε α := slot.entry

/-- A slot wherever a parser is wanted. -/
def toParser (slot : Slot ε α) : Parser ε α := fun text => slot.parse text

/-- Parses as before preprocessing was installed. -/
def parsePlain (slot : Slot ε α) : Parser ε α := slot.plain.getD slot.entry

/-- Whether preprocessing is installed. -/
def isInstalled (slot : Slot ε α) : Bool := slot.plain.isSome

/-- Installs preprocessing, unless it is there already. -/
def install (slot : Slot ε α) : Installation × Slot ε α :=
  match slot.plain with
  | some _ => (.alreadyInstalled, slot)
  | none => (.installed, ⟨slot.entry.preprocessed.parse, some slot.entry⟩)

/-- The dump of a slot; it shows no more than whether preprocessing is installed. -/
def dump (slot : Slot ε α) : Dump :=
  .fields "ParserSlot" [("installed", .ofBool slot.isInstalled)] true

end Slot

/-!
## The shared parser

The slot that all callers in a program share. It starts out with the plain parser of DOT.
-/

/-- The slot that all callers share, before anything is installed in it. -/
def sharedSlot : Slot ParseError Document := .ofParser parse

/-!
## Sessions on a slot

A session is a sequence of operations on one slot. Handles are numbered in the order in which they are
taken; calling a handle parses with what the slot holds at the time of the call.
-/

/-- An operation on a slot. -/
inductive Operation where
  /-- Parses a text with what the slot holds. -/
  | parse (text : String)
  /-- Parses a text with the slot standing for a parser. -/
  | parseAsParser (text : String)
  /-- Parses a text as before preprocessing was installed. -/
  | parsePlain (text : String)
  /-- Joins the continued lines of a text, then parses it with what the slot holds. -/
  | parseWrapped (text : String)
  /-- Installs preprocessing. -/
  | install
  /-- Makes several requests to install preprocessing at the same time. -/
  | installMany (requests : Nat)
  /-- Asks whether preprocessing is installed. -/
  | isInstalled
  /-- Shows the slot on one line. -/
  | dump
  /-- Shows the slot over several lines. -/
  | dumpPretty
  /-- Takes a handle. -/
  | takeHandle
  /-- Parses a text through a handle. -/
  | callHandle (handle : Nat) (text : String)
deriving DecidableEq

/-- What an operation answers. -/
inductive Answer (ε α : Type) where
  /-- What the parser made of the text. -/
  | parsed (result : Except ε α)
  /-- What came of the request to install. -/
  | installation (outcome : Installation)
  /-- How many requests installed preprocessing, and how many found it there. -/
  | installations (installed already : Nat)
  /-- Whether preprocessing is installed. -/
  | isInstalled (value : Bool)
  /-- How the slot is shown. -/
  | shown (text : String)
  /-- The number of the handle. -/
  | handle (number : Nat)
  /-- There is no such handle. -/
  | noHandle

/-- A slot in use. -/
structure Session (ε α : Type) where
  /-- The slot. -/
  slot : Slot ε α
  /-- How many handles have been taken. -/
  handles : Nat

namespace Session

variable {ε α : Type}

/-- A session at its beginning. -/
def start (slot : Slot ε α) : Session ε α := ⟨slot, 0⟩

/-- How many of some requests install preprocessing, and the slot after all of them. They take effect
one after the other, in an order that does not matter. -/
def installMany (slot : Slot ε α) : Nat → Nat × Slot ε α
  | 0 => (0, slot)
  | requests + 1 =>
    let (outcome, slot) := slot.install
    let (installed, slot) := installMany slot requests
    (if outcome = .installed then installed + 1 else installed, slot)

/-- One operation: what it answers, and the session after it. -/
def step (session : Session ε α) : Operation → Answer ε α × Session ε α
  | .parse text => (.parsed (session.slot.parse text), session)
  | .parseAsParser text => (.parsed (session.slot.toParser text), session)
  | .parsePlain text => (.parsed (session.slot.parsePlain text), session)
  -- Continuations are joined before the slot sees the text, and by the slot once more if it is installed.
  | .parseWrapped text => (.parsed (session.slot.parse.preprocessed.parse text), session)
  | .install =>
    let (outcome, slot) := session.slot.install
    (.installation outcome, { session with slot })
  | .installMany requests =>
    let (installed, slot) := installMany session.slot requests
    (.installations installed (requests - installed), { session with slot })
  | .isInstalled => (.isInstalled session.slot.isInstalled, session)
  | .dump => (.shown session.slot.dump.compact, session)
  | .dumpPretty => (.shown session.slot.dump.pretty, session)
  | .takeHandle => (.handle session.handles, { session with handles := session.handles + 1 })
  | .callHandle handle text =>
    if handle < session.handles then (.parsed (session.slot.parse text), session)
    else (.noHandle, session)

/-- The session after operations that are made one after the other. -/
def after (session : Session ε α) (operations : List Operation) : Session ε α :=
  operations.foldl (fun session operation => (session.step operation).2) session

/-- The answers of operations that are made one after the other. -/
def run (session : Session ε α) : List Operation → List (Answer ε α)
  | [] => []
  | operation :: operations =>
    let (answer, session) := session.step operation
    answer :: run session operations

end Session

/-!
## Histories of slots

What an operation on a slot answers depends on the operations before it. Of these it matters only whether
one of them asked for preprocessing, and how many handles they took: which of them asked, how often, and
what else they did is not seen.
-/

/-- Whether an operation asks for preprocessing to be installed. -/
def Operation.installs : Operation → Bool
  | .install => true
  | .installMany requests => requests != 0
  | _ => false

/-- What later answers tell about the operations made on a slot so far. -/
structure History where
  /-- Whether one of them asked for preprocessing to be installed. -/
  installed : Bool
  /-- How many handles they took. -/
  handles : Nat

namespace History

/-- The history that some operations make. -/
def ofOperations (operations : List Operation) : History :=
  ⟨operations.any Operation.installs, operations.count .takeHandle⟩

/-- The history after more operations. -/
def append (history : History) (operations : List Operation) : History :=
  ⟨history.installed || operations.any Operation.installs,
    history.handles + operations.count .takeHandle⟩

variable {ε α : Type} (parser : Parser ε α) (history : History)

/-- What the parser makes of a text that is parsed on the slot. Its continued lines have been joined where
preprocessing is installed, and only there. -/
def parse (text : String) : Except ε α :=
  parser (if history.installed then Continuation.join text else text)

/-- How the slot is shown on one line. -/
def shown : String :=
  if history.installed then "ParserSlot \x7b installed: true, .. \x7d"
  else "ParserSlot \x7b installed: false, .. \x7d"

/-- How the slot is shown over several lines. -/
def shownPretty : String :=
  if history.installed then "ParserSlot \x7b\n    installed: true,\n    ..\n\x7d"
  else "ParserSlot \x7b\n    installed: false,\n    ..\n\x7d"

/-- What an operation answers with this history on a slot that held the parser at first. -/
def answer : Operation → Answer ε α
  | .parse text => .parsed (history.parse parser text)
  | .parseAsParser text => .parsed (history.parse parser text)
  | .parsePlain text => .parsed (parser text)
  | .parseWrapped text => .parsed (history.parse parser (Continuation.join text))
  | .install => .installation (if history.installed then .alreadyInstalled else .installed)
  | .installMany requests =>
    -- One request of many installs, as long as none has before.
    let installed := if history.installed then 0 else min 1 requests
    .installations installed (requests - installed)
  | .isInstalled => .isInstalled history.installed
  | .dump => .shown history.shown
  | .dumpPretty => .shown history.shownPretty
  | .takeHandle => .handle history.handles
  | .callHandle handle text =>
    if handle < history.handles then .parsed (history.parse parser text) else .noHandle

/-- Whether an operation concerns no handles but ones that have been taken. -/
def Knows : Operation → Prop
  | .takeHandle => False
  | .callHandle handle _ => handle < history.handles
  | _ => True

end History

end DotLang
