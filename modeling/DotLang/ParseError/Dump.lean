import DotLang.Dump.Basic

/-!
# Parse errors

What a caller learns about a text that cannot be read, and how it is shown: a header, the place, the
source line with carets below the offending characters, and a hint.
-/

namespace DotLang

/-- Why and where a text could not be read. -/
structure ParseError where
  /-- What is wrong. -/
  message : String
  /-- The line, counted from one. -/
  line : Nat
  /-- The column at which the error begins, counted from one. -/
  col : Nat
  /-- The column behind the error, where it is a stretch within one line. -/
  colEnd : Option Nat
  /-- The line of the text that the error is on. -/
  sourceLine : Option String
  /-- The name of the file that the text came from. -/
  filename : Option String
  /-- Advice on how to mend the text. -/
  hint : Option String
deriving DecidableEq

namespace ParseError

/-- The error with the name of the file that the text came from. -/
def withFilename (error : ParseError) (name : String) : ParseError :=
  { error with filename := some name }

/-- A text repeated. -/
def repeated (c : Char) (count : Nat) : String :=
  String.ofList (List.replicate count c)

/-- A line without the carriage returns at its end. -/
def trimReturns (line : List Char) : List Char :=
  (line.reverse.dropWhile (· == '\r')).reverse

/-- Blanks up to the error's column, then carets below the stretch it covers, at least one. -/
def underline (col : Nat) (colEnd : Option Nat) : String :=
  let carets := match colEnd with
    | none => 1
    | some stop => max 1 (stop - col)
  repeated ' ' (col - 1) ++ repeated '^' carets

/-- Where the error is: the file if it has a name, the line and the column. -/
def location (error : ParseError) : String :=
  let place := toString error.line ++ ":" ++ toString error.col
  match error.filename with
  | some name => name ++ ":" ++ place
  | none => place

/-- The source line between margins, and the carets below it. -/
def excerpt (error : ParseError) (line : String) : String :=
  let number := toString error.line
  let margin := repeated ' ' number.length
  "   " ++ margin ++ " |\n" ++
  "   " ++ number ++ " | " ++ String.ofList (trimReturns line.toList) ++ "\n" ++
  "   " ++ margin ++ " | " ++ underline error.col error.colEnd ++ "\n"

/-- The error as it is shown to a user. -/
def display (error : ParseError) : String :=
  "error: " ++ error.message ++ "\n" ++
  "  --> " ++ error.location ++ "\n" ++
  (match error.sourceLine with
    | some line => error.excerpt line
    | none => "") ++
  (match error.hint with
    | some hint => "\n   = hint: " ++ hint
    | none => "")

/-- The dump of a parse error. -/
def dump (error : ParseError) : Dump :=
  .record "ParseError" [("message", .text error.message), ("line", .ofNat error.line),
    ("col", .ofNat error.col), ("col_end", .ofOption .ofNat error.colEnd),
    ("source_line", .ofOption .text error.sourceLine), ("filename", .ofOption .text error.filename),
    ("hint", .ofOption .text error.hint)]

end ParseError

end DotLang
