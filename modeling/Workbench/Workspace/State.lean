/-
The state of one workspace: its texts, its library selection, the context that
was last made for it, breakpoints and highlight, testcases, output.
-/
import Workbench.Environment.Context
import Workbench.Settings.Basic
import Workbench.Source.LineSet
import Workbench.Workspace.Identity
import Workbench.Workspace.Testcase

namespace Workbench

/-- The panel shown beside the editor. -/
inductive Tab where
  | introduction
  | autograder
  | inspector
  | environment
  deriving DecidableEq, Repr

namespace Tab

/-- The name of a panel. -/
def name : Tab → String
  | .introduction => "introduction"
  | .autograder => "autograder"
  | .inspector => "inspector"
  | .environment => "env_visualizer"

/-- The panel of a name. -/
def ofName? : String → Option Tab
  | "introduction" => some .introduction
  | "autograder" => some .autograder
  | "inspector" => some .inspector
  | "env_visualizer" => some .environment
  | _ => none

end Tab

instance : Coded Tab := Coded.ofNames Tab.name Tab.ofName?

/-- The state of a workspace. -/
structure WorkspaceState where
  editorPrepend : String := ""
  editorValue : String := ""
  editorPostpend : String := ""
  replValue : String := ""
  execTimeMs : Nat
  chapter : UInt8
  library : LibraryName
  /-- the host's globals, which every new context gets, in order -/
  globals : List (String × Json)
  context : Context
  /-- breakpoints, as the user numbers lines -/
  breakpoints : LineSet := .empty
  highlighted : Option LineRange := none
  activeTab : Tab := .introduction
  testcases : List Testcase := []
  output : OutputLog := {}

namespace WorkspaceState

/-- A fresh workspace around a context. -/
def ofContext (defaults : ExecutionSettings) (context : Context) : WorkspaceState where
  execTimeMs := defaults.execTimeMs
  chapter := context.chapter
  library := context.library.name
  globals := context.globals
  context := context

/-- What the next context is built from. -/
def selection (s : WorkspaceState) : Selection where
  chapter := s.chapter
  library := .named s.library
  globals := s.globals

/-- The state with its output changed. -/
def onOutput (s : WorkspaceState) (f : OutputLog → OutputLog) : WorkspaceState :=
  { s with output := f s.output }

/-- A testcase comes out; a testcase that is not there stays so. -/
def setResult (s : WorkspaceState) (index : Nat) (result : Verdict) : WorkspaceState :=
  { s with testcases := s.testcases.modify index fun t => { t with result := result } }

/-- A testcase that has not come out yet. -/
def resetTestcase (s : WorkspaceState) (index : Nat) : WorkspaceState := s.setResult index .pending

/-- The state's encoding; states are written only. -/
def toJson (s : WorkspaceState) : Json :=
  .obj [("editor_prepend", .str s.editorPrepend), ("editor_value", .str s.editorValue),
    ("editor_postpend", .str s.editorPostpend), ("repl_value", .str s.replValue),
    ("exec_time_ms", encode s.execTimeMs), ("chapter", encode s.chapter),
    ("external_library", encode s.library), ("globals", encode s.globals),
    ("context", encode s.context), ("breakpoints", encode s.breakpoints),
    ("highlighted_lines", encode s.highlighted), ("active_tab", encode s.activeTab),
    ("testcases", encode s.testcases), ("output", encode s.output.entries)]

end WorkspaceState

end Workbench
