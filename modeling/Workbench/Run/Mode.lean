/-
What can be asked to be run in a workspace.
-/
import Workbench.Workspace.Identity

namespace Workbench

/-- Which program a run is about. -/
inductive Mode where
  /-- the editor's program -/
  | editorRun
  /-- the text handed in beside it, in the context of the last run -/
  | replRun
  /-- the run that was paused -/
  | debugResume
  /-- the editor's program with a testcase's after it -/
  | testcaseRun (index : Nat)
  deriving DecidableEq, Repr

namespace Mode

/-- Whether the run takes the place of whatever runs in the workspace. -/
def isTopLevel : Mode → Bool
  | .testcaseRun _ => false
  | _ => true

/-- Whether the run can be paused. -/
def acceptsPause : Mode → Bool
  | .editorRun => true
  | .debugResume => true
  | _ => false

end Mode

/-- A run that is asked for. -/
structure EvaluationRequest where
  workspace : WorkspaceId
  mode : Mode
  deriving DecidableEq, Repr

instance : Coded Mode where
  encode
    | .editorRun => .obj [("mode", .str "editor_run")]
    | .replRun => .obj [("mode", .str "repl_run")]
    | .debugResume => .obj [("mode", .str "debug_resume")]
    | .testcaseRun index => .obj [("mode", .str "testcase_run"), ("index", encode index)]
  decode? j := do
    let (tag, content) ← j.adjacent "mode" "index"
    match tag with
    | "editor_run" => content.empty; return .editorRun
    | "repl_run" => content.empty; return .replRun
    | "debug_resume" => content.empty; return .debugResume
    | "testcase_run" => return .testcaseRun (← content.required)
    | _ => none

instance : Coded EvaluationRequest where
  encode r := .obj [("workspace", encode r.workspace), ("mode", encode r.mode)]
  decode? j := do
    let [workspace, mode] ← j.fields ["workspace", "mode"] | none
    return { workspace := ← workspace.required, mode := ← mode.required }

end Workbench
