import DotLang.CommandLine.Run

/-!
# The program

Reads the arguments, the log setting and the source, and prints what the run gives.
-/

namespace DotLang.CommandLine

/-- What an error of the system means for reading. -/
def readErrorOf (error : IO.Error) : ReadError :=
  match error with
  | .noFileOrDirectory .. => .notFound
  | .inappropriateType _ code _ => if code = 21 then .isDirectory else .notADirectory
  | .permissionDenied _ code details | .resourceExhausted _ code details =>
    .other (details ++ " (os error " ++ toString code ++ ")")
  | error => .other (toString error)

/-- The bytes of the source that a run reads. -/
def readSource (options : Options) : IO (Except ReadError ByteArray) := do
  try
    match options.file with
    | some name =>
      if isStdin options.file then return .ok (← (← IO.getStdin).readBinToEnd)
      else return .ok (← IO.FS.readBinFile name)
    | none => return .ok (← (← IO.getStdin).readBinToEnd)
  catch error => return .error (readErrorOf error)

/-- Prints what a run wrote and gives its exit code. -/
def report (outcome : Outcome) : IO UInt32 := do
  IO.eprint outcome.errors
  IO.print outcome.output
  return outcome.code.toUInt32

end DotLang.CommandLine

open DotLang.CommandLine in
/-- The program. -/
def main (arguments : List String) : IO UInt32 := do
  match plan arguments with
  | .inl outcome => report outcome
  | .inr options =>
    let setting ← IO.getEnv "DOTPREP_LOG"
    let source ← readSource options
    report (options.run (logFilter setting) (source.bind textOf))
