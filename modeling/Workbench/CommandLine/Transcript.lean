/-
Commands carried out: what they print, and how they end.

A command is carried out on a hub of its own in which nobody else is about, with
the files of a folder and the variables of an environment, and gives a
transcript. An error ends it; what was printed before stays. Its clock is one on
which timers are punctual and computing takes no time, so what a program is given
of its time is used up by its own waiting alone.
-/
import Workbench.CommandLine.Command
import Workbench.Run.Alone
import Workbench.Script.Machine
import Workbench.Settings.Load

namespace Workbench.CommandLine

/-- What a command has printed, and the error that ended it, if there is one. -/
structure Transcript where
  output : String := ""
  /-- what was printed beside the output -/
  notes : String := ""
  error : Option String := none
  deriving DecidableEq, Repr

/-- What a command works on: its hub, the clock, which moves only to the times that are waited for, and what it has
printed. -/
structure Desk where
  hub : Hub Script.engine
  now : Nat := 0
  output : String := ""
  notes : String := ""

/-- A step of a command that an error may end. -/
abbrev Doing (α : Type) := ExceptT String (StateM Desk) α

/-! ## Steps -/

/-- A line of output. -/
def printLine (s : String) : Doing Unit := modify fun d => { d with output := d.output ++ Text.line s }

/-- A line beside the output. -/
def noteLine (s : String) : Doing Unit := modify fun d => { d with notes := d.notes ++ Text.line s }

/-- The text of a file. -/
def sourceOf (folder : Folder) (path : String) : Doing String :=
  match folder.read? path with
  | some text => pure text
  | none => throw ("Failed to read " ++ path)

/-- A workspace is edited. -/
def edit (w : WorkspaceId) (e : Edit) : Doing Unit := do
  let d ← get
  match d.hub.edit w e with
  | .ok hub => set { d with hub := hub }
  | .error r => throw r.message

/-- An operation is carried out. -/
def perform (w : WorkspaceId) (operation : Operation) : Doing Reply := do
  let d ← get
  match d.hub.perform d.now w operation with
  | (hub, now, some (.refused r)) => set { d with hub := hub, now := now }; throw r.message
  | (hub, now, some reply) => set { d with hub := hub, now := now }; return reply
  | (hub, now, none) => set { d with hub := hub, now := now }; throw "The operation does not end."

/-- A run is carried out. -/
def evaluate (w : WorkspaceId) (mode : Mode) : Doing Outcome := do
  match ← perform w (.evaluate mode) with
  | .outcome o => return o
  | _ => throw "The run has no outcome."

/-- The state of a workspace. -/
def stateOf (w : WorkspaceId) : Doing WorkspaceState := do
  match (← get).hub.state w with
  | .ok s => return s
  | .error r => throw r.message

/-- The output log of a workspace is printed. -/
def printLog (w : WorkspaceId) (asJson : Bool) : Doing Unit := do
  let s ← stateOf w
  if asJson then printLine (encode s.output.entries).pretty
  else s.output.entries.forM fun entry => printLine entry.text

/-! ## Running -/

/-- A run that stands at a breakpoint is resumed, and again at the next one, at most so often. -/
def resumeAll (w : WorkspaceId) (asJson : Bool) : Nat → Outcome → Doing Outcome
  | 0, outcome => return outcome
  | times + 1, outcome =>
    match outcome with
    | .breakpointHit => do
      match (← stateOf w).highlighted with
      | some range => noteLine ("-- breakpoint at line " ++ toString range.start.toInt ++ ", resuming")
      | none => pure ()
      let outcome ← evaluate w .debugResume
      printLog w asJson
      resumeAll w asJson times outcome
    | _ => return outcome

/-- How often a run of the editor's program can be resumed at most: each time it has come further. -/
def resumptions (s : WorkspaceState) : Nat := (Composition.ofState s none).text.length + 1

/-- A program is run in the playground. -/
def runProgram (folder : Folder) (c : RunCommand) : Doing Unit := do
  let w := WorkspaceId.playground
  match c.library with
  | some library => discard (perform w (.selectLibrary library))
  | none => pure ()
  match c.prependFile with
  | some path => do let text ← sourceOf folder path; edit w (.editorPrepend text)
  | none => pure ()
  match c.postpendFile with
  | some path => do let text ← sourceOf folder path; edit w (.editorPostpend text)
  | none => pure ()
  let text ← sourceOf folder c.file
  edit w (.editorValue text)
  edit w (.breakpoints (.ofList c.breakpoints))
  let first ← evaluate w .editorRun
  printLog w c.asJson
  match ← resumeAll w c.asJson (resumptions (← stateOf w)) first with
  | .errored faults => throw ("program failed with " ++ toString faults.length ++ " error(s)")
  | _ => pure ()

/-! ## Testing -/

/-- A testcase that was run is printed, with its faults. -/
def printTestcase (index : Nat) (t : Testcase) : Doing Unit := do
  printLine ("  [" ++ toString index ++ "] " ++ t.label ++ " | " ++ t.program)
  match t.result with
  | .failure faults => faults.forM fun f => printLine ("      " ++ f.text)
  | _ => pure ()

/-- Testcases are printed one after another, numbered from a number on. -/
def printTestcases : Nat → List Testcase → Doing Unit
  | _, [] => pure ()
  | index, t :: rest => do
    printTestcase index t
    printTestcases (index + 1) rest

/-- A program is run in the assessment and graded against testcases. -/
def testProgram (folder : Folder) (c : TestCommand) : Doing Unit := do
  let w := WorkspaceId.assessment
  let text ← sourceOf folder c.file
  edit w (.editorValue text)
  edit w (.testcases (c.testcases.map Testcase.ofText))
  edit w (.activeTab .autograder)
  match ← evaluate w .editorRun with
  | .finished _ => pure ()
  | _ => do
    printLog w c.asJson
    throw "program did not finish; testcases were not run"
  let ts := (← stateOf w).testcases
  if c.asJson then printLine (encode ts).pretty else printTestcases 0 ts
  let failed := (ts.filter fun t => !t.passed).length
  if 0 < failed then
    throw (toString failed ++ " of " ++ toString ts.length ++ " testcase(s) failed")
  printLine ("✓ All " ++ toString ts.length ++ " testcase(s) passed")

/-! ## Commands -/

/-- A command is carried out on a hub. -/
def Command.perform (folder : Folder) : Command → Doing Unit
  | .run c => runProgram folder c
  | .test c => testProgram folder c

/-- What a command sets. -/
def Invocation.overrides (i : Invocation) : Settings.Overrides :=
  match i.command with
  | .run c => { path := i.settingsFile, execTimeMs := c.execTimeMs, chapter := c.chapter }
  | .test _ => { path := i.settingsFile }

/-- The transcript of an invocation. -/
def Invocation.transcript (i : Invocation) (folder : Folder) (environment : List (String × String)) : Transcript :=
  match Settings.load folder environment i.overrides with
  | .error e => { error := some e.message }
  | .ok settings =>
    let (result, desk) := (i.command.perform folder).run.run { hub := (Hub.create settings .bundled).1 }
    { output := desk.output
      notes := desk.notes
      error := match result with | .ok _ => none | .error message => some message }

/-- Whether the program panics in a run: all that it needs is there, and a breakpoint would be moved beyond the last
line that there is. -/
def RunCommand.panics (folder : Folder) (c : RunCommand) : Bool :=
  let readable (path : String) := (folder.read? path).isSome
  let front := (c.prependFile.bind folder.read?).getD ""
  c.prependFile.all readable && c.postpendFile.all readable && readable c.file &&
    ((LineSet.ofList c.breakpoints).shifted? (Composition.lineCount front)).isNone

/-- Whether an invocation ends with a panic. Its transcript is then not what is printed. -/
def Invocation.panics (i : Invocation) (folder : Folder) (environment : List (String × String)) : Bool :=
  match i.command, Settings.load folder environment i.overrides with
  | .run c, .ok _ => c.panics folder
  | _, _ => false

/-- The transcript of the command that arguments describe, unless the program panics. -/
def transcript? (args : List String) (folder : Folder) (environment : List (String × String)) :
    Except UsageError (Option Transcript) := do
  let i ← ofArguments args
  return if i.panics folder environment then none else some (i.transcript folder environment)

end Workbench.CommandLine
