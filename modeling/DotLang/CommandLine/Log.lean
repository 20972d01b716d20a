/-!
# The log

Log lines tell what a run does. A filter, which the user sets, decides which of them are shown: all from
a level upwards, or only those of targets that begin with a given name.
-/

namespace DotLang.CommandLine

/-- How much a log line matters. -/
inductive Level where
  | error
  | warn
  | info
  | debug
  | trace
deriving DecidableEq

namespace Level

/-- Levels by detail: the higher, the more there is to read. -/
def detail : Level → Nat
  | error => 1
  | warn => 2
  | info => 3
  | debug => 4
  | trace => 5

/-- How a level is shown in a log line. -/
def shown : Level → String
  | error => "ERROR"
  | warn => "WARN "
  | info => "INFO "
  | debug => "DEBUG"
  | trace => "TRACE"

/-- The greatest detail that a word asks for, in any case; `off` asks for nothing. -/
def detailOf? (word : List Char) : Option Nat :=
  match String.ofList (word.map Char.toLower) with
  | "off" => some 0
  | "error" => some error.detail
  | "warn" => some warn.detail
  | "info" => some info.detail
  | "debug" => some debug.detail
  | "trace" => some trace.detail
  | _ => none

end Level

/-- A log line before it is filtered. -/
structure LogLine where
  /-- How much it matters. -/
  level : Level
  /-- The part of the program that it comes from. -/
  target : String
  /-- What it says. -/
  text : String
deriving DecidableEq

namespace LogLine

/-- A log line as it is shown. -/
def shown (line : LogLine) : String :=
  "[" ++ line.level.shown ++ " " ++ line.target ++ "] " ++ line.text ++ "\n"

end LogLine

/-- Which log lines are shown. -/
structure LogFilter where
  /-- How a target has to begin. -/
  target : List Char
  /-- The greatest detail that is shown. -/
  detail : Nat
deriving DecidableEq

namespace LogFilter

/-- The filter where none is set: warnings and errors. -/
def default : LogFilter := ⟨[], Level.warn.detail⟩

/-- The filter of a setting: a level, a target with a level behind an equals sign, or a target of which
everything is shown. An empty setting asks for errors. -/
def ofSetting (setting : List Char) : LogFilter :=
  match Level.detailOf? setting with
  | some detail => ⟨[], detail⟩
  | none =>
    match setting.dropWhile (· != '=') with
    | [] => ⟨setting, if setting.isEmpty then Level.error.detail else Level.trace.detail⟩
    | [_] => ⟨setting.takeWhile (· != '='), Level.trace.detail⟩
    | _ :: level => ⟨setting.takeWhile (· != '='), (Level.detailOf? level).getD 0⟩

/-- Whether a log line is shown. -/
def accepts (filter : LogFilter) (line : LogLine) : Bool :=
  filter.target.isPrefixOf line.target.toList && line.level.detail ≤ filter.detail

/-- The log lines that are shown, one after the other. -/
def shown (filter : LogFilter) (lines : List LogLine) : String :=
  String.join ((lines.filter filter.accepts).map LogLine.shown)

end LogFilter

end DotLang.CommandLine
