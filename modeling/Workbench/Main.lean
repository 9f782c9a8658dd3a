/-
The command line: arguments, files and variables are gathered, the command they
describe is carried out, and what it printed is printed.
-/
import Workbench.CommandLine.Transcript

namespace Workbench.CommandLine

/-- What is said of arguments that are not carried out. -/
def UsageError.message : UsageError → String
  | .help => "usage: evalpad [--config FILE] run FILE [OPTIONS] | test FILE -t TESTCASE... [--json]"
  | .nothing => "usage: evalpad [--config FILE] run FILE [OPTIONS] | test FILE -t TESTCASE... [--json]"
  | .missingSubcommand => "a subcommand is needed: run or test"
  | .unknownSubcommand => "there is no such subcommand"
  | .unknownArgument => "an argument is not understood"
  | .missingArgument => "an argument is missing"
  | .badValue => "a value is missing or not possible"
  | .badNumber => "a value is not a number, or out of range"
  | .repeated => "an option is given twice"
  | .needlessValue => "an option is given a value that it does not take"

/-- The variables that set something, beside the one that names a file. -/
def variableNames : List String :=
  ["EXECUTION__EXEC_TIME_MS", "EXECUTION__CHAPTER", "EXECUTION__DEBUGGER_CHAPTER", "LIBRARIES__POLL_INTERVAL_MS",
    "LIBRARIES__READY_TIMEOUT_MS", "NOTIFICATIONS__SHORT_MS", "NOTIFICATIONS__LONG_MS", "EVENTS__CAPACITY"].map
      fun key => Text.upper Settings.variablePrefix ++ key

/-- The paths that a command may read: what its arguments may name, and files with settings. -/
def pathsOf (args : List String) (environment : List (String × String)) : List String :=
  let attached := args.filterMap fun arg => (long? arg).bind (·.2)
  let named := args ++ attached ++ environment.map (·.2) ++ [Settings.usualFile]
  named ++ named.map (· ++ ".toml")

/-- The variables of the environment that matter. -/
def readVariables : IO (List (String × String)) := do
  let found ← (Settings.pathVariable :: variableNames).mapM fun name => do
    return (← IO.getEnv name).map fun value => (name, value)
  return found.filterMap id

/-- The files at paths, as far as they can be read. -/
def readFiles (paths : List String) : IO Folder := do
  let found ← paths.mapM fun (path : String) => do
    try
      return some (path, ← IO.FS.readFile path)
    catch _ => return none
  return ⟨found.filterMap id⟩

end Workbench.CommandLine

open Workbench

/-- The program. -/
def main (args : List String) : IO UInt32 := do
  let environment ← CommandLine.readVariables
  let folder ← CommandLine.readFiles (CommandLine.pathsOf args environment)
  match CommandLine.transcript? args folder environment with
  | .error e =>
    IO.eprintln e.message
    return match e with | .help => 0 | _ => 2
  | .ok none =>
    IO.eprintln "attempt to add with overflow"
    return 101
  | .ok (some t) =>
    IO.print t.output
    IO.eprint t.notes
    match t.error with
    | some message => do
      IO.eprintln ("Error: " ++ message)
      return 1
    | none => return 0
