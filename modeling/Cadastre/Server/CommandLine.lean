import Cadastre.Server.Run
/-!
# Cadastre.Server.CommandLine

The **command line**: what the program prints for a configuration file, and how it ends.
-/

namespace Cadastre.CommandLine

/-- What the program leaves behind. -/
structure Report where
  status : UInt32
  lines : List LogLine
  /-- What cut the program off, if anything did. -/
  abort : Option Abort := none

/-- What a program leaves behind that a failure ends. Only an error is logged: a program that is cut
off logs nothing more. -/
def Report.failed (lines : List LogLine) (complaint : String) : Failure → Report
  | .error e => { status := 1, lines := lines ++ [.fatal (complaint ++ ": " ++ e.message)] }
  | .abort a => { status := 101, lines, abort := some a }

/-- The configuration to run with, and what is said about the file. A file that cannot be read is
replaced by the default, one that is no configuration is not. -/
def configure (path : String) (file : Except Failure ServerConfig) :
    Except Failure (ServerConfig × List LogLine) :=
  match file with
  | .ok config => .ok (config, [])
  | .error (.error (.io text)) =>
    .ok ({}, [.warning ("Could not read " ++ path ++ " (" ++ text ++ "), using the default world")])
  | .error e => .error e

/-- The program's work for a configuration file. -/
def run (path : String) (file : Except Failure ServerConfig) : Report :=
  let opening := LogLine.info "Plotweave init"
  match configure path file with
  | .error e => .failed [opening] ("Invalid config " ++ path) e
  | .ok (config, lines) =>
    let report := Run.all Tally.sink config {}
    let before := opening :: lines ++ report.log.toList
    match report.result with
    | .ok _ => { status := 0, lines := before ++ [.info report.host.text] }
    | .error e => .failed before "Generation failed" e

/-- The lines that are printed at a level. -/
def Report.printed (r : Report) (level : Option String) : List LogLine :=
  r.lines.filter fun line => (Severity.minimum level).enabled line.severity

end Cadastre.CommandLine
