import DotLang.CommandLine.FileTree
import DotLang.CommandLine.Log
import DotLang.CommandLine.Usage
import DotLang.Slot.Session

/-!
# Runs

What the program prints and how it ends. A run reads one source; then it writes the source with its
continued lines joined, or parses it and writes the document. Errors go to the error output and end the
run with code 1, and misunderstood arguments end it with code 2.
-/

namespace DotLang.CommandLine

/-- How a run ends: its exit code and what it wrote. -/
structure Outcome where
  /-- The exit code. -/
  code : Nat
  /-- What was written to the output. -/
  output : String
  /-- What was written to the error output. -/
  errors : String
deriving DecidableEq

namespace Outcome

/-- A run that succeeds. -/
def success (output : String) : Outcome := ⟨0, output, ""⟩

/-- A run that ends with an error message. -/
def failure (message : String) : Outcome := ⟨1, "", message ++ "\n"⟩

/-- The outcome with log lines before its error output. -/
def withLog (outcome : Outcome) (log : String) : Outcome :=
  { outcome with errors := log ++ outcome.errors }

end Outcome

/-- Whether the input is read instead of a file: where no file is named, or a single dash. -/
def isStdin (file : Option String) : Bool :=
  match file with
  | none => true
  | some name => name == "-"

/-- The dump of options. -/
def Options.dump (options : Options) : Dump :=
  .record "Cli" [("file", .ofOption .text options.file), ("strip_only", .ofBool options.stripOnly),
    ("raw", .ofBool options.raw),
    ("format", .atom (match options.format with | .json => "Json" | .debug => "Debug"))]

namespace LogLine

/-- The arguments as they were understood. -/
def arguments (options : Options) : LogLine :=
  ⟨.debug, "dotprep::cli", "arguments: " ++ options.dump.compact⟩

/-- Preprocessing was put in front of the parser. -/
def installed : LogLine :=
  ⟨.debug, "dotprep::slot", "line-continuation preprocessing installed"⟩

/-- The continued lines of a text are joined; where there are none, nothing is said. -/
def joining (text : String) : List LogLine :=
  let count := Continuation.count text.toList
  if count = 0 then []
  else [⟨.trace, "dotprep::continuation",
    "joining " ++ toString count ++ " continued line(s)"⟩]

end LogLine

namespace Options

/-- The parser that a run uses: the plain one, or the shared one with preprocessing installed. -/
def parser (options : Options) : Parser ParseError Document :=
  if options.raw then DotLang.parse
  else sharedSlot.install.2.parse

/-- The name that errors in the source are reported under. Input without a file has none. -/
def sourceName (options : Options) : Option String :=
  if isStdin options.file then none else options.file

/-- What a run logs while it works on a text. -/
def log (options : Options) (text : String) : List LogLine :=
  if options.stripOnly then LogLine.joining text
  else if options.raw then []
  else LogLine.installed :: LogLine.joining text

/-- What a run makes of a text. -/
def process (options : Options) (text : String) : Outcome :=
  if options.stripOnly then .success (Continuation.join text)
  else match options.parser text with
    | .ok document => .success (options.format.render document ++ "\n")
    | .error error =>
      .failure (match options.sourceName with
        | some name => (error.withFilename name).display
        | none => error.display)

/-- A whole run, given what reading its source gave and which log lines are shown. -/
def run (options : Options) (filter : LogFilter) (source : Except ReadError String) : Outcome :=
  match source with
  | .error error =>
    (Outcome.failure ("Error reading " ++ options.file.getD "stdin" ++ ": " ++ error.message)).withLog
      (filter.shown [.arguments options])
  | .ok text =>
    (options.process text).withLog (filter.shown (.arguments options :: options.log text))

end Options

/-- What the program answers without reading anything, or else the options of a run. -/
def plan (arguments : List String) : Outcome ⊕ Options :=
  match readArguments arguments with
  | .error error => .inl ⟨2, "", error.display⟩
  | .ok .shortHelp => .inl (.success shortHelp)
  | .ok .longHelp => .inl (.success longHelp)
  | .ok .version => .inl (.success versionLine)
  | .ok (.run options) => .inr options

/-- The log filter of a setting, if there is one. -/
def logFilter (setting : Option String) : LogFilter :=
  match setting with
  | some setting => .ofSetting setting.toList
  | none => .default

/-- The program with its files and its input in memory. -/
def runIn (files : FileTree) (input : ByteArray) (setting : Option String)
    (arguments : List String) : Outcome :=
  match plan arguments with
  | .inl outcome => outcome
  | .inr options =>
    let source : Except ReadError ByteArray := match options.file with
      | some name => if isStdin options.file then .ok input else files.read name
      | none => .ok input
    options.run (logFilter setting) (source.bind textOf)

end DotLang.CommandLine
