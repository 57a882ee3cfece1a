import Curation.CommandLine.Run

/-! The command line. It is run on an installation without files, whose databases and files last as long as the
    run. -/

namespace Curation.CommandLine

/-- The variables of the environment that are settings. -/
def environment : IO (List (String × String)) :=
  Settings.variableNames.filterMapM fun name => do
    return (← IO.getEnv name).map fun value => (name, value)

/-- The text of the file of variables, if there is one. -/
def variableFile : IO (Option String) := do
  try return some (← IO.FS.readFile ".env")
  catch _ => return none

/-- The lines of the input, if the command asks for any. -/
def inputLines (words : List String) : IO (List String) := do
  if asksForInput words then return Text.linesOf (← (← IO.getStdin).readToEnd) else return []

/-- What is written about a command that breaks off. -/
def Crash.text : Crash → String
  | .settings ms => "\n".intercalate (ms.map fun m => m.fault.message) ++ "\n"
  | .failure e => e.kind ++ ": " ++ e.message ++ "\n"

end Curation.CommandLine

open Curation CommandLine in
/-- Runs a command line and returns its code. -/
def main (words : List String) : IO UInt32 := do
  let shell : Shell := {
    sources := { environment := ← environment, file := ← variableFile }
    input := ← inputLines words }
  let (outcome, _) := run shell words { settings := {} }
  (← IO.getStdout).putStr outcome.output
  match outcome.crash with
  | some crash => (← IO.getStderr).putStr crash.text
  | none => return UInt32.ofNat outcome.code
  return UInt32.ofNat outcome.code
