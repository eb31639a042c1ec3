import Cadastre.Text.Blank
/-!
# Cadastre.Log

**Log lines.** Work that has something to report adds a line to a list of lines; the outer layer
prints those that are severe enough, the severe ones to the stream for errors.
-/

namespace Cadastre

/-- How much a log line matters, from least to most. -/
inductive Severity
  | debug
  | info
  | warning
  | error
  | fatal
  deriving DecidableEq, Repr

namespace Severity

/-- The severities, least first. -/
def all : List Severity := [debug, info, warning, error, fatal]

/-- The place of a severity in the order. -/
def rank : Severity → Nat
  | debug => 0
  | info => 1
  | warning => 2
  | error => 3
  | fatal => 4

instance : Ord Severity := ⟨compareOn rank⟩

/-- The label of a severity in a log line. -/
def label : Severity → String
  | debug => "DEBUG"
  | info => "INFO"
  | warning => "WARNING"
  | error => "ERROR"
  | fatal => "FATAL"

/-- The severity that a level name stands for. -/
def ofName? (name : String) : Option Severity :=
  match Text.keyword name with
  | "debug" => some debug
  | "info" => some info
  | "warn" | "warning" => some warning
  | "error" => some error
  | "fatal" => some fatal
  | _ => none

/-- The least severity that is printed when a level is asked for by name: that level, or `info`
where there is none or it is no level. -/
def minimum (level : Option String) : Severity := (level.bind ofName?).getD info

/-- Whether lines of a severity are printed when `least` is the least that is. -/
def enabled (least severity : Severity) : Bool := least.rank ≤ severity.rank

/-- Whether lines of a severity go to the stream for errors. -/
def isError (severity : Severity) : Bool := error.rank ≤ severity.rank

end Severity

/-- A message of the program. -/
structure LogLine where
  severity : Severity
  text : String
  deriving DecidableEq, Repr

namespace LogLine

def debug (text : String) : LogLine := ⟨.debug, text⟩
def info (text : String) : LogLine := ⟨.info, text⟩
def warning (text : String) : LogLine := ⟨.warning, text⟩
def error (text : String) : LogLine := ⟨.error, text⟩
def fatal (text : String) : LogLine := ⟨.fatal, text⟩

/-- A line with the time before its message. -/
def format (line : LogLine) (time : String) : String :=
  "[" ++ line.severity.label ++ "] " ++ time ++ " " ++ line.text

end LogLine

end Cadastre
