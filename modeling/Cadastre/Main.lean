import Cadastre.Server.CommandLine
/-!
# Cadastre.Main

The program: reads the configuration file that its argument names, generates the worlds and prints
what it did. The level of the lines that are printed is taken from the environment.
-/

namespace Cadastre

/-- The bytes of a file, if it can be read. -/
def readBytes (path : String) : IO (Option ByteArray) := do
  try
    return some (← IO.FS.readBinFile path)
  catch _ => return none

/-- The seconds on the machine's steady clock. -/
def now : IO String := do
  return numeral ((← IO.monoMsNow) / 1000)

end Cadastre

open Cadastre

def main (args : List String) : IO UInt32 := do
  let path := args.headD ServerConfig.defaultPath
  let report := CommandLine.run path (ServerConfig.ofFile (← readBytes path))
  for line in report.printed (← IO.getEnv "PLOTWEAVE_LOG") do
    let text := line.format (← now)
    if line.severity.isError then IO.eprintln text else IO.println text
  if let some a := report.abort then IO.eprintln a.message
  return report.status
