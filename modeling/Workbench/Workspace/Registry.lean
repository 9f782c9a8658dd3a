/-
The workspaces that are open, each with what belongs to it.
-/
import Workbench.Run.Outcome
import Workbench.Table

namespace Workbench

/-- The open workspaces. -/
structure Registry (α : Type) where
  slots : Table WorkspaceId α := {}

namespace Registry

variable {α : Type}

/-- Whether the workspace is open. -/
def contains (r : Registry α) (w : WorkspaceId) : Bool := r.slots.contains w

/-- A workspace is opened, unless it is open already. -/
def openWith (r : Registry α) (w : WorkspaceId) (fresh : α) : Registry α :=
  if r.contains w then r else ⟨r.slots.set w fresh⟩

/-- What belongs to a workspace; a workspace that is not open is unknown. -/
def slot (r : Registry α) (w : WorkspaceId) : Except Refusal α :=
  match r.slots.get? w with
  | some a => .ok a
  | none => .error (.unknownWorkspace w)

/-- What belongs to a workspace is replaced. -/
def set (r : Registry α) (w : WorkspaceId) (a : α) : Registry α := ⟨r.slots.set w a⟩

/-- The open workspaces, in order. -/
def ids (r : Registry α) : List WorkspaceId := WorkspaceId.sorted r.slots.keys

end Registry

end Workbench
