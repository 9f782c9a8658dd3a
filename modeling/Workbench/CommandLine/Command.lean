/-
The commands: running a program, and grading it against testcases.
-/
import Workbench.CommandLine.Arguments

namespace Workbench.CommandLine

/-- Run a program and print its output. -/
structure RunCommand where
  file : String
  prependFile : Option String := none
  postpendFile : Option String := none
  chapter : Option UInt8 := none
  library : Option LibraryName := none
  execTimeMs : Option Nat := none
  breakpoints : List Int32 := []
  /-- whether output is printed as JSON -/
  asJson : Bool := false
  deriving DecidableEq, Repr

/-- Run a program, then each testcase after it. -/
structure TestCommand where
  file : String
  testcases : List String
  asJson : Bool := false
  deriving DecidableEq, Repr

/-- A command. -/
inductive Command where
  | run (c : RunCommand)
  | test (c : TestCommand)
  deriving DecidableEq, Repr

/-- A command and the file with settings that was named for it. -/
structure Invocation where
  settingsFile : Option String
  command : Command
  deriving DecidableEq, Repr

/-- The option that names a file with settings. -/
def configForm : OptionForm := { name := "config", takes := some .path }

/-- The arguments in front of a subcommand. -/
def rootForm : CommandForm where
  options := [configForm]
  subcommands := ["run", "test"]

/-- The arguments of a run. -/
def runForm : CommandForm where
  options := [configForm, { name := "prepend", takes := some .path }, { name := "postpend", takes := some .path },
    { name := "chapter", takes := some .byte }, { name := "library", takes := some .library },
    { name := "exec-time", takes := some .word }, { name := "breakpoint", takes := some .line, repeatable := true },
    { name := "json" }]
  operand := some "file"
  required := ["file"]

/-- The arguments of a test. -/
def testForm : CommandForm where
  options := [configForm, { name := "testcase", letter := some 't', takes := some .text, repeatable := true },
    { name := "json" }]
  operand := some "file"
  required := ["file", "testcase"]

/-! ## What was given -/

/-- All values of a name. -/
def valuesOf (given : List (String × Value)) (name : String) : List Value :=
  given.filterMap fun (n, v) => if n = name then some v else none

/-- The texts of a name. -/
def textsOf (given : List (String × Value)) (name : String) : List String :=
  (valuesOf given name).filterMap fun | .text s => some s | _ => none

/-- The numbers of a name. -/
def numbersOf (given : List (String × Value)) (name : String) : List Int :=
  (valuesOf given name).filterMap fun | .number n => some n | _ => none

/-- The library of a name. -/
def libraryIn (given : List (String × Value)) (name : String) : Option LibraryName :=
  ((valuesOf given name).filterMap fun | .library l => some l | _ => none).head?

/-- The run that arguments describe. -/
def runOf (given : List (String × Value)) : RunCommand where
  file := (textsOf given "file").head?.getD ""
  prependFile := (textsOf given "prepend").head?
  postpendFile := (textsOf given "postpend").head?
  chapter := (numbersOf given "chapter").head?.map fun n => UInt8.ofNat n.toNat
  library := libraryIn given "library"
  execTimeMs := (numbersOf given "exec-time").head?.map Int.toNat
  breakpoints := (numbersOf given "breakpoint").map Int32.ofInt
  asJson := !(valuesOf given "json").isEmpty

/-- The test that arguments describe. -/
def testOf (given : List (String × Value)) : TestCommand where
  file := (textsOf given "file").head?.getD ""
  testcases := textsOf given "testcase"
  asJson := !(valuesOf given "json").isEmpty

/-- The arguments after `help`: nothing, or the name of a command. -/
def helpError : List String → UsageError
  | [] => .help
  | [name] => if name = "run" ∨ name = "test" ∨ name = "help" then .help else .unknownSubcommand
  | _ => .unknownSubcommand

/-- The command that is named, with what was given for it. -/
def commandOf (name : String) (args : List String) :
    Except UsageError (List (String × Value) × Command) := do
  if name = "run" then
    let given ← readAll runForm args
    return (given, .run (runOf given))
  else if name = "test" then
    let given ← readAll testForm args
    return (given, .test (testOf given))
  else .error (helpError args)

/-- The invocation that arguments describe. A file with settings that is named after the command counts
before one that is named in front of it. -/
def ofArguments (args : List String) : Except UsageError Invocation := do
  let front ← readArguments rootForm args {}
  match front.subcommand with
  | some (name, rest) =>
    let (given, command) ← commandOf name rest
    let r ← front.reading.resolve
    return { settingsFile := (textsOf given "config").head?.or (textsOf r.given "config").head?, command := command }
  | none =>
    let r ← front.reading.resolve
    if r.given.isEmpty then .error .nothing else .error .missingSubcommand

end Workbench.CommandLine
