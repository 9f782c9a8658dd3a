/-
How what was asked for comes out: the outcome of a run, or the refusal to do
anything at all.
-/
import Workbench.Run.Mode
import Workbench.Workspace.Testcase

namespace Workbench

/-- How a run ended. -/
inductive Outcome where
  | finished (value : Json)
  /-- it stands at a breakpoint and can be resumed -/
  | breakpointHit
  /-- it was asked to pause and can be resumed -/
  | paused
  /-- with the lines of the faults as the user numbers them -/
  | errored (faults : List Fault)
  | interrupted

/-- An outcome without its details. -/
inductive OutcomeKind where
  | finished
  | breakpointHit
  | paused
  | errored
  | interrupted
  deriving DecidableEq, Repr

/-- The kind of an outcome. -/
def Outcome.kind : Outcome → OutcomeKind
  | .finished _ => .finished
  | .breakpointHit => .breakpointHit
  | .paused => .paused
  | .errored _ => .errored
  | .interrupted => .interrupted

/-- The name of a kind. -/
def OutcomeKind.name : OutcomeKind → String
  | .finished => "finished"
  | .breakpointHit => "breakpoint_hit"
  | .paused => "paused"
  | .errored => "errored"
  | .interrupted => "interrupted"

/-- An outcome's encoding; outcomes are written only. -/
def Outcome.toJson (o : Outcome) : Json :=
  .obj (("outcome", .str o.kind.name) ::
    match o with
    | .finished value => [("detail", value)]
    | .errored faults => [("detail", encode faults)]
    | _ => [])

/-- Why nothing was done. -/
inductive Refusal where
  | noSuspendedExecution (workspace : WorkspaceId)
  | unknownWorkspace (workspace : WorkspaceId)
  | testcaseOutOfRange (workspace : WorkspaceId) (index count : Nat)
  deriving DecidableEq, Repr

/-- The text of a refusal. -/
def Refusal.message : Refusal → String
  | .noSuspendedExecution w => "no suspended execution to resume in workspace " ++ w.text
  | .unknownWorkspace w => "workspace " ++ w.text ++ " is not open"
  | .testcaseOutOfRange w index count =>
    "testcase " ++ toString index ++ " does not exist in workspace " ++ w.text ++ " (" ++ toString count
      ++ " testcases)"

end Workbench
