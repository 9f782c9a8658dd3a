/-
Which workspace: the playground, the assessment, or one of the submissions
that are graded. Nothing is shared between workspaces.
-/
import Workbench.Json.Coding

namespace Workbench

/-- The kind of a workspace. -/
inductive WorkspaceKind where
  | playground
  | assessment
  | grading
  deriving DecidableEq, Repr

/-- A workspace's identity. -/
inductive WorkspaceId where
  | playground
  | assessment
  /-- opened on demand for one submission -/
  | grading (submission : UInt32)
  deriving DecidableEq, Repr

namespace WorkspaceKind

/-- The name of a kind. -/
def name : WorkspaceKind → String
  | .playground => "playground"
  | .assessment => "assessment"
  | .grading => "grading"

/-- The kind of a name. -/
def ofName? : String → Option WorkspaceKind
  | "playground" => some .playground
  | "assessment" => some .assessment
  | "grading" => some .grading
  | _ => none

end WorkspaceKind

namespace WorkspaceId

/-- The kind of the workspace. -/
def kind : WorkspaceId → WorkspaceKind
  | .playground => .playground
  | .assessment => .assessment
  | .grading _ => .grading

/-- Whether an editor run that finishes may have the testcases graded. -/
def isGraded (w : WorkspaceId) : Bool := w.kind ≠ .playground

/-- The name of the workspace. -/
def text : WorkspaceId → String
  | .playground => "playground"
  | .assessment => "assessment"
  | .grading n => "grading/" ++ toString n.toNat

/-- Where the workspace stands in a listing. -/
def rank : WorkspaceId → Nat
  | .playground => 0
  | .assessment => 1
  | .grading n => n.toNat + 2

/-- The workspaces in the order of a listing. -/
def sorted (ws : List WorkspaceId) : List WorkspaceId :=
  ws.mergeSort fun a b => a.rank ≤ b.rank

end WorkspaceId

instance : Coded WorkspaceKind := Coded.ofNames WorkspaceKind.name WorkspaceKind.ofName?

instance : Coded WorkspaceId where
  encode
    | .playground => .obj [("kind", .str "playground")]
    | .assessment => .obj [("kind", .str "assessment")]
    | .grading n => .obj [("kind", .str "grading"), ("submission", encode n)]
  decode? j := do
    let (tag, content) ← j.adjacent "kind" "submission"
    match tag with
    | "playground" => content.empty; return .playground
    | "assessment" => content.empty; return .assessment
    | "grading" => return .grading (← content.required)
    | _ => none

end Workbench
