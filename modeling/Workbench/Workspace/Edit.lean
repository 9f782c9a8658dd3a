/-
Edits: what a front end changes in a workspace without running anything. An edit
takes effect at once, also while a run is under way, and fails nothing.
-/
import Workbench.Workspace.State

namespace Workbench

/-- A change made from outside. -/
inductive Edit where
  | editorValue (text : String)
  | editorPrepend (text : String)
  | editorPostpend (text : String)
  | replValue (text : String)
  /-- how long later runs may take, in milliseconds -/
  | execTime (ms : Nat)
  | activeTab (tab : Tab)
  | testcases (ts : List Testcase)
  /-- the globals that later contexts get -/
  | globals (gs : List (String × Json))
  | breakpoints (lines : LineSet)

/-- The state after an edit. -/
def Edit.apply : Edit → WorkspaceState → WorkspaceState
  | .editorValue text, s => { s with editorValue := text }
  | .editorPrepend text, s => { s with editorPrepend := text }
  | .editorPostpend text, s => { s with editorPostpend := text }
  | .replValue text, s => { s with replValue := text }
  | .execTime ms, s => { s with execTimeMs := ms }
  | .activeTab tab, s => { s with activeTab := tab }
  | .testcases ts, s => { s with testcases := ts }
  | .globals gs, s => { s with globals := gs }
  | .breakpoints lines, s => { s with breakpoints := lines }

end Workbench
