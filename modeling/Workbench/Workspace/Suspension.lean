/-
Runs that were suspended and can be resumed, one for each workspace.
-/
import Workbench.Environment.Context
import Workbench.Table
import Workbench.Workspace.Identity

namespace Workbench

/-- A suspended run, with what it takes to go on. -/
structure Suspension (Snapshot : Type) where
  snapshot : Snapshot
  /-- what the run was running in -/
  context : Context
  /-- how many lines stood before the user's first one -/
  prependLines : Int32
  /-- where the run stopped, in the lines of the composed program -/
  location : Option Location

/-- The suspended runs of all workspaces. -/
structure Suspensions (Snapshot : Type) where
  table : Table WorkspaceId (Suspension Snapshot) := {}

namespace Suspensions

variable {Snapshot : Type}

/-- A run is suspended; an earlier one of the workspace is lost. -/
def store (s : Suspensions Snapshot) (w : WorkspaceId) (x : Suspension Snapshot) : Suspensions Snapshot :=
  ⟨s.table.set w x⟩

/-- Whether the workspace has a suspended run. -/
def contains (s : Suspensions Snapshot) (w : WorkspaceId) : Bool := s.table.contains w

/-- The suspended run of a workspace, which is then no longer there. -/
def take (s : Suspensions Snapshot) (w : WorkspaceId) : Suspensions Snapshot × Option (Suspension Snapshot) :=
  (⟨s.table.erase w⟩, s.table.get? w)

/-- The suspended run of a workspace is forgotten. -/
def clear (s : Suspensions Snapshot) (w : WorkspaceId) : Suspensions Snapshot := ⟨s.table.erase w⟩

/-- Where the suspended run of a workspace stopped. -/
def location? (s : Suspensions Snapshot) (w : WorkspaceId) : Option Location :=
  (s.table.get? w).bind (·.location)

end Suspensions

end Workbench
