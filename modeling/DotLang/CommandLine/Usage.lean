import DotLang.CommandLine.Arguments
import DotLang.Text.Control

/-!
# Help and usage errors

The texts that answer requests for help and arguments that are not understood. An argument is shown in an
error without the control characters in it.
-/

namespace DotLang.CommandLine

/-- What the program is for. -/
def about : String :=
  "Join backslash-continued lines in a Graphviz DOT file and parse it\n"

/-- A line that shows how the program is called. Where it is known which parameters were used, those are
shown, and otherwise all of them. A file that was used is not shown as one that may be left out. -/
def usageLine (used : List Parameter) : String :=
  let options := (used.filter (· != .file)).eraseDups.map fun parameter => " " ++ parameter.shown
  "Usage: dotprep" ++ (if used.isEmpty then " [OPTIONS]" else String.join options) ++
    (if .file ∈ used then " <FILE>\n" else " [FILE]\n")

/-- A line that shows how the program is called with an option, where others were used before it: those
that say what a run is to do are shown as alternatives. -/
def alternativesLine (parameter : Parameter) : String :=
  "Usage: dotprep" ++ (if parameter ∈ Parameter.ofRun then "" else " " ++ parameter.shown) ++
    " <" ++ String.intercalate "|" (Parameter.ofRun.map Parameter.shownBare) ++ ">\n"

/-- The short help. -/
def shortHelp : String :=
  about ++ "\n" ++ usageLine [] ++ "\n" ++
  "Arguments:\n" ++
  "  [FILE]  DOT file to read (stdin when omitted or `-`)\n" ++
  "\n" ++
  "Options:\n" ++
  "      --strip-only       Print the source with line continuations removed, without parsing\n" ++
  "      --raw              Parse with the plain DOT parser, skipping preprocessing\n" ++
  "      --format <FORMAT>  Output format for the parsed document [default: json] " ++
  "[possible values: json, debug]\n" ++
  "  -h, --help             Print help (see more with '--help')\n" ++
  "  -V, --version          Print version\n"

/-- The long help. -/
def longHelp : String :=
  about ++ "\n" ++ usageLine [] ++ "\n" ++
  "Arguments:\n" ++
  "  [FILE]\n" ++
  "          DOT file to read (stdin when omitted or `-`)\n" ++
  "\n" ++
  "Options:\n" ++
  "      --strip-only\n" ++
  "          Print the source with line continuations removed, without parsing\n" ++
  "\n" ++
  "      --raw\n" ++
  "          Parse with the plain DOT parser, skipping preprocessing\n" ++
  "\n" ++
  "      --format <FORMAT>\n" ++
  "          Output format for the parsed document\n" ++
  "\n" ++
  "          Possible values:\n" ++
  "          - json:  Pretty-printed JSON (default)\n" ++
  "          - debug: Rust debug representation\n" ++
  "          \n" ++
  "          [default: json]\n" ++
  "\n" ++
  "  -h, --help\n" ++
  "          Print help (see a summary with '-h')\n" ++
  "\n" ++
  "  -V, --version\n" ++
  "          Print version\n"

/-- The name and version of the program. -/
def versionLine : String := "dotprep 0.1.0\n"

namespace UsageError

/-- A value as it is shown in an error. -/
def shownValue (value : String) : String := String.ofList (Text.visible value.toList)

/-- What is wrong with the arguments. -/
def message : UsageError → String
  | conflict first second _ =>
    "the argument '" ++ first.shown ++ "' cannot be used with '" ++ second.shown ++ "'"
  | repeated parameter => "the argument '" ++ parameter.shown ++ "' cannot be used multiple times"
  | missingValue parameter =>
    "a value is required for '" ++ parameter.shown ++ "' but none was supplied"
  | invalidFormat value =>
    "invalid value '" ++ shownValue value ++ "' for '" ++ Parameter.format.shown ++ "'"
  | unexpectedValue parameter value _ =>
    "unexpected value '" ++ shownValue value ++ "' for '" ++ parameter.shown ++
      "' found; no more were expected"
  | unexpectedArgument argument _ => "unexpected argument '" ++ shownValue argument ++ "' found"
  | extraValue value => "unexpected argument '" ++ shownValue value ++ "' found"

/-- The values that would have been accepted, on a line of their own. -/
def accepted : UsageError → String
  | missingValue .format | invalidFormat _ => "  [possible values: json, debug]\n"
  | _ => ""

/-- Advice on how an unknown option can be given as a value. -/
def tip : UsageError → String
  | unexpectedArgument argument _ =>
    let argument := shownValue argument
    "  tip: to pass '" ++ argument ++ "' as a value, use '-- " ++ argument ++ "'\n\n"
  | _ => ""

/-- How the program is called, where this helps. -/
def usage : UsageError → String
  | conflict _ _ used | unexpectedArgument _ used => usageLine used ++ "\n"
  | unexpectedValue parameter _ used =>
    (if used.isEmpty then usageLine [parameter] else alternativesLine parameter) ++ "\n"
  | repeated _ | extraValue _ => usageLine [] ++ "\n"
  | missingValue _ | invalidFormat _ => ""

/-- The error as it is shown to a user. -/
def display (error : UsageError) : String :=
  "error: " ++ error.message ++ "\n" ++ error.accepted ++ "\n" ++ error.tip ++ error.usage ++
  "For more information, try '--help'.\n"

end UsageError

end DotLang.CommandLine
