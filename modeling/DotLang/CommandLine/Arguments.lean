import DotLang.Document.Format

/-!
# Command-line arguments

Arguments are read from left to right. A value, be it the file or that of an option, is checked only when
the next known argument follows it or the arguments end, so an unknown argument directly behind a value
is reported before anything that is wrong with the value. Requests for help and for the version are
granted as soon as they are met.
-/

namespace DotLang.CommandLine

/-- What can be given on the command line. -/
inductive Parameter where
  | file
  | stripOnly
  | raw
  | format
  | help
  | version
deriving DecidableEq

namespace Parameter

/-- The parameters that say what a run is to do. -/
def ofRun : List Parameter := [file, stripOnly, raw, format]

/-- How a parameter is shown. -/
def shown : Parameter → String
  | file => "[FILE]"
  | stripOnly => "--strip-only"
  | raw => "--raw"
  | format => "--format <FORMAT>"
  | help => "--help"
  | version => "--version"

/-- How a parameter is shown among alternatives. -/
def shownBare : Parameter → String
  | file => "FILE"
  | parameter => parameter.shown

/-- The option of a long name. -/
def ofLong? : List Char → Option Parameter
  | ['s', 't', 'r', 'i', 'p', '-', 'o', 'n', 'l', 'y'] => some stripOnly
  | ['r', 'a', 'w'] => some raw
  | ['f', 'o', 'r', 'm', 'a', 't'] => some format
  | ['h', 'e', 'l', 'p'] => some help
  | ['v', 'e', 'r', 's', 'i', 'o', 'n'] => some version
  | _ => none

/-- The option of a letter. -/
def ofLetter? : Char → Option Parameter
  | 'h' => some help
  | 'V' => some version
  | _ => none

end Parameter

/-- What a run is to do. -/
structure Options where
  /-- The file to read, if one is named. -/
  file : Option String
  /-- Whether to join continued lines and do nothing else. -/
  stripOnly : Bool
  /-- Whether to parse without joining continued lines. -/
  raw : Bool
  /-- How to write the document. -/
  format : Format
deriving DecidableEq

namespace Options

/-- The options where nothing is given. -/
def default : Options := ⟨none, false, false, .json⟩

end Options

/-- What the arguments ask for. -/
inductive Request where
  /-- A run. -/
  | run (options : Options)
  /-- The short help. -/
  | shortHelp
  /-- The long help. -/
  | longHelp
  /-- The version. -/
  | version
deriving DecidableEq

/-- What can be wrong with arguments. Some errors come with the parameters that were used so far. -/
inductive UsageError where
  /-- Two options exclude each other. -/
  | conflict (first second : Parameter) (used : List Parameter)
  /-- An option is given twice. -/
  | repeated (parameter : Parameter)
  /-- A parameter lacks its value. -/
  | missingValue (parameter : Parameter)
  /-- There is no such format. -/
  | invalidFormat (value : String)
  /-- An option that takes no value is given one. -/
  | unexpectedValue (parameter : Parameter) (value : String) (used : List Parameter)
  /-- An argument is not known. -/
  | unexpectedArgument (argument : String) (used : List Parameter)
  /-- There is a value too many. -/
  | extraValue (value : String)
deriving DecidableEq

/-- A value that was met but not yet checked. -/
inductive Pending where
  /-- The file. -/
  | file (value : String)
  /-- The format, or only the option that announces it. -/
  | format (value : Option String)
deriving DecidableEq

/-- How far the arguments have been read. -/
structure Scan where
  /-- The options so far. -/
  options : Options
  /-- The parameters that were met and checked, in order. -/
  used : List Parameter
  /-- A value that is still to be checked. -/
  pending : Option Pending
  /-- Whether the options are over, so that all else is a value. -/
  ended : Bool
deriving DecidableEq

namespace Scan

/-- Nothing is read yet. -/
def start : Scan := ⟨.default, [], none, false⟩

/-- Notes that a parameter is used. -/
def use (scan : Scan) (parameter : Parameter) : Scan :=
  { scan with used := scan.used ++ [parameter] }

/-- Takes the value of the format. -/
def setFormat (scan : Scan) (value : String) : Scan × Option UsageError :=
  if .format ∈ scan.used then
    -- The usage line shown for another mistake leaves the repeated option out.
    ({ scan with used := scan.used.erase .format }, some (.repeated .format))
  else
    let scan := scan.use .format
    match Format.ofName? value with
    | some format => ({ scan with options := { scan.options with format } }, none)
    | none =>
      (scan, some (if value = "" then .missingValue .format else .invalidFormat value))

/-- Checks the value that is still to be checked. The parameter counts as used even if its value is
refused. -/
def settle (scan : Scan) : Scan × Option UsageError :=
  let settled := { scan with pending := none }
  match scan.pending with
  | none => (settled, none)
  | some (.format none) => (settled, some (.missingValue .format))
  | some (.format (some value)) => settled.setFormat value
  | some (.file value) =>
    let settled := settled.use .file
    if value = "" then (settled, some (.missingValue .file))
    else ({ settled with options := { settled.options with file := some value } }, none)

/-- Checks the value that is still to be checked, and stops if it is refused. -/
def settled (scan : Scan) : Except UsageError Scan :=
  match scan.settle with
  | (scan, none) => .ok scan
  | (_, some error) => .error error

/-- Whether a file has been named. -/
def hasFile (scan : Scan) : Bool :=
  scan.used.contains .file || match scan.pending with
    | some (.file _) => true
    | _ => false

/-- Takes an argument that is a value: that of the format if it was announced, or else the file. -/
def takeValue (scan : Scan) (value : String) : Except UsageError Scan :=
  if !scan.ended && scan.pending = some (.format none) then
    .ok { scan with pending := some (.format (some value)) }
  else if scan.hasFile then .error (.extraValue value)
  else do
    let scan ← scan.settled
    return { scan with pending := some (.file value) }

/-- Takes an option that holds or does not. -/
def takeFlag (scan : Scan) (parameter : Parameter) (set : Options → Options) :
    Except UsageError Scan :=
  if parameter ∈ scan.used then .error (.repeated parameter)
  else .ok { scan.use parameter with options := set scan.options }

/-- Takes an option without a value. The result is a request where the option is one. -/
def takeOption (scan : Scan) (parameter : Parameter) (long : Bool) :
    Except UsageError (Scan ⊕ Request) := do
  let scan ← scan.settled
  match parameter with
  | .stripOnly => return .inl (← scan.takeFlag parameter ({ · with stripOnly := true }))
  | .raw => return .inl (← scan.takeFlag parameter ({ · with raw := true }))
  -- Its value is still to come, so the option waits for it.
  | .format => return .inl { scan with pending := some (.format none) }
  | .file => return .inl scan
  | .help => return .inr (if long then .longHelp else .shortHelp)
  | .version => return .inr .version

/-- Takes an option with a value attached to it. -/
def takeAttached (scan : Scan) (parameter : Parameter) (value : String) :
    Except UsageError (Scan ⊕ Request) :=
  if parameter = .format then do
    let scan ← scan.settled
    match scan.setFormat value with
    | (scan, none) => return .inl scan
    | (_, some error) => .error error
  else .error (.unexpectedValue parameter value scan.used)

/-- A long option, split at the first equals sign. -/
def splitLong (body : List Char) : List Char × Option (List Char) :=
  match body.dropWhile (· != '=') with
  | [] => (body, none)
  | _ :: value => (body.takeWhile (· != '='), some value)

/-- Takes a long option, given what stands behind its dashes. -/
def takeLong (scan : Scan) (body : List Char) : Except UsageError (Scan ⊕ Request) :=
  let (name, value) := splitLong body
  match Parameter.ofLong? name with
  | none => .error (.unexpectedArgument ("--" ++ String.ofList name) scan.settle.1.used)
  | some parameter =>
    match value with
    | none => scan.takeOption parameter true
    | some value => scan.takeAttached parameter (String.ofList value)

/-- Takes options that are given by letters behind one dash. -/
def takeLetters (scan : Scan) : List Char → Except UsageError (Scan ⊕ Request)
  | [] => .ok (.inl scan)
  | c :: cs =>
    match Parameter.ofLetter? c with
    -- Unlike for long options, the usage line shown names none of the options used.
    | none => .error (.unexpectedArgument (String.ofList ['-', c]) [])
    | some parameter => do
      match ← scan.takeOption parameter false with
      | .inl scan => scan.takeLetters cs
      | .inr request => return .inr request

/-- Takes one argument. -/
def take (scan : Scan) (argument : String) : Except UsageError (Scan ⊕ Request) :=
  match scan.ended, argument.toList with
  | false, ['-', '-'] => .ok (.inl { scan with ended := true })
  | false, '-' :: '-' :: body => scan.takeLong body
  | false, '-' :: c :: cs => scan.takeLetters (c :: cs)
  | _, _ => return .inl (← scan.takeValue argument)

/-- Ends the reading: checks the last value, and that no two options exclude each other. -/
def finish (scan : Scan) : Except UsageError Request := do
  let scan ← scan.settled
  match scan.used.filter (fun parameter => parameter = .stripOnly ∨ parameter = .raw) with
  | first :: second :: _ => .error (.conflict first second (scan.used.erase second))
  | _ => return .run scan.options

/-- Reads the arguments that are left. -/
def read (scan : Scan) : List String → Except UsageError Request
  | [] => scan.finish
  | argument :: arguments => do
    match ← scan.take argument with
    | .inl scan => scan.read arguments
    | .inr request => return request

end Scan

/-- What some arguments ask for, or what is wrong with them. -/
def readArguments (arguments : List String) : Except UsageError Request :=
  Scan.start.read arguments

end DotLang.CommandLine
