/-
What happens in a workspace and is seen from outside, in the order in which it
happens: the events that a front end subscribes to, the messages and drawings it
is asked for, and what is done with the engine and with the loader.
-/
import Workbench.Engine.Basic
import Workbench.Run.Outcome

namespace Workbench

/-- A transition in the life of a workspace. -/
inductive Occurrence where
  | outputCleared
  | contextReset (chapter : UInt8)
  | runStarted (mode : Mode)
  | runCompleted (mode : Mode) (outcome : OutcomeKind)
  | testcaseReset (index : Nat)
  | testcaseSucceeded (index : Nat)
  | testcaseFailed (index : Nat)
  | batchStarted (total : Nat)
  | batchFinished (summary : BatchSummary)
  | debuggerReset
  deriving DecidableEq, Repr

namespace Occurrence

/-- The name of a transition. -/
def name : Occurrence → String
  | .outputCleared => "output_cleared"
  | .contextReset _ => "context_reset"
  | .runStarted _ => "run_started"
  | .runCompleted _ _ => "run_completed"
  | .testcaseReset _ => "testcase_reset"
  | .testcaseSucceeded _ => "testcase_succeeded"
  | .testcaseFailed _ => "testcase_failed"
  | .batchStarted _ => "batch_started"
  | .batchFinished _ => "batch_finished"
  | .debuggerReset => "debugger_reset"

/-- The details of a transition, as they are written. -/
def details : Occurrence → List (String × Json)
  | .outputCleared => []
  | .contextReset chapter => [("chapter", encode chapter)]
  | .runStarted mode => [("mode", encode mode)]
  | .runCompleted mode outcome => [("mode", encode mode), ("outcome", .str outcome.name)]
  | .testcaseReset index => [("index", encode index)]
  | .testcaseSucceeded index => [("index", encode index)]
  | .testcaseFailed index => [("index", encode index)]
  | .batchStarted total => [("total", encode total)]
  | .batchFinished summary => [("summary", summary.toJson)]
  | .debuggerReset => []

end Occurrence

/-- A transition in a workspace. -/
structure Event where
  workspace : WorkspaceId
  occurrence : Occurrence
  deriving DecidableEq, Repr

/-- An event's encoding, with the workspace written as is said. -/
def Event.toJson (e : Event) (workspace : WorkspaceId → Json) : Json :=
  .obj ([("event", .str e.occurrence.name), ("workspace", workspace e.workspace)] ++ e.occurrence.details)

/-- What a message is about. -/
inductive MessageKind where
  | success
  | warning
  deriving DecidableEq, Repr

/-- The name of a kind of message. -/
def MessageKind.name : MessageKind → String
  | .success => "success"
  | .warning => "warning"

/-- A message to the user, and how long it is shown. -/
structure Message where
  text : String
  shownMs : Nat
  kind : MessageKind
  deriving DecidableEq, Repr

/-- What the visual debugger is asked for. -/
inductive Drawing where
  | highlight (range : Option LineRange)
  /-- show the context, or clear what is shown -/
  | inspect (context : Option Context)
  | environment (context : Context) (location : Option Location)

/-- What is done with the engine. -/
inductive EngineCall (E : Engine) where
  | makeContext (selection : Selection)
  | start (source : String) (context : Context) (options : RunOptions)
  | resume (snapshot : E.Snapshot) (context : Context) (options : RunOptions)
  /-- a run was polled and wrote these lines meanwhile -/
  | poll (lines : List String)
  /-- it is told that the run in a context is given up -/
  | interrupt (context : Context)
  /-- a run is over or given up -/
  | release

/-- What can be seen from outside. -/
inductive Effect (E : Engine) where
  | event (e : Event)
  | message (m : Message)
  | drawing (d : Drawing)
  | engine (c : EngineCall E)
  /-- the loader was asked whether it is ready -/
  | asked
  /-- the loader was told to load a library -/
  | loaded (library : LibraryName)

end Workbench
