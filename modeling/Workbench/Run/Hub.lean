/-
The hub: all open workspaces and all jobs on them.

A hub does nothing by itself. It opens workspaces, takes edits, signals and
jobs, and lets a job have its turn at a given time; who has it next is for the
caller to say. Workspaces share nothing but the settings and the loader.
-/
import Workbench.Run.Job
import Workbench.Workspace.Edit
import Workbench.Workspace.Registry

namespace Workbench

/-- A job and the workspace it is for. -/
structure Task (E : Engine) where
  workspace : WorkspaceId
  job : Job E

/-- All workspaces and jobs. -/
structure Hub (E : Engine) where
  settings : Settings
  loader : Loader
  /-- how often the loader has been asked -/
  asked : Nat := 0
  registry : Registry (Slot E) := {}
  tasks : Table JobId (Task E) := {}

namespace Hub

variable {E : Engine}

/-- A workspace is opened, unless it is open already: in the default chapter, without a library or
globals. -/
def openWorkspace (hub : Hub E) (w : WorkspaceId) : Hub E × List (Effect E) :=
  if hub.registry.contains w then (hub, [])
  else
    let selection : Selection := { chapter := hub.settings.execution.chapter }
    let state := WorkspaceState.ofContext hub.settings.execution (E.makeContext selection)
    ({ hub with registry := hub.registry.openWith w { id := w, state := state } },
      [.engine (.makeContext selection)])

/-- A hub with the two workspaces that are always there. -/
def create (settings : Settings) (loader : Loader) : Hub E × List (Effect E) :=
  let (hub, first) := ({ settings := settings, loader := loader } : Hub E).openWorkspace .playground
  let (hub, second) := hub.openWorkspace .assessment
  (hub, first ++ second)

/-- The slot of a workspace. -/
def slot (hub : Hub E) (w : WorkspaceId) : Except Refusal (Slot E) := hub.registry.slot w

/-- The slot of a workspace is replaced. -/
def withSlot (hub : Hub E) (slot : Slot E) : Hub E := { hub with registry := hub.registry.set slot.id slot }

/-- The state of a workspace. -/
def state (hub : Hub E) (w : WorkspaceId) : Except Refusal WorkspaceState := do
  return (← hub.slot w).state

/-- A workspace is edited. -/
def edit (hub : Hub E) (w : WorkspaceId) (e : Edit) : Except Refusal (Hub E) := do
  let slot ← hub.slot w
  return hub.withSlot { slot with state := e.apply slot.state }

/-- The output of a workspace is cleared. -/
def clearOutput (hub : Hub E) (w : WorkspaceId) : Except Refusal (Hub E × List (Effect E)) := do
  let sc := ({ slot := ← hub.slot w, asked := hub.asked } : Scene E).clearOutput
  return (hub.withSlot sc.slot, sc.effects)

/-- A signal is fired at a workspace; the answer says whether it was delivered. -/
def signal (hub : Hub E) (w : WorkspaceId) (s : Signal) : Hub E × Bool :=
  match hub.slot w with
  | .error _ => (hub, false)
  | .ok slot =>
    let (mailbox, delivered) := slot.mailbox.fire s
    (hub.withSlot { slot with mailbox := mailbox }, delivered)

/-- A job is handed in; it begins with its first turn. -/
def submit (hub : Hub E) (id : JobId) (w : WorkspaceId) (operation : Operation) : Hub E :=
  { hub with tasks := hub.tasks.set id { workspace := w, job := { operation := operation } } }

/-- What a job came to, once it is settled. -/
def reply? (hub : Hub E) (id : JobId) : Option Reply := (hub.tasks.get? id).bind (·.job.reply?)

/-- A job has its turn. In a workspace that is not open there is nothing to do for it. -/
def turn (hub : Hub E) (now : Nat) (id : JobId) : Hub E × List (Effect E) × Wake :=
  match hub.tasks.get? id with
  | none => (hub, [], .never)
  | some task =>
    match hub.slot task.workspace with
    | .error r =>
      ({ hub with tasks := hub.tasks.set id { task with job := task.job.at_ (.settled (.refused r)) } }, [], .never)
    | .ok slot =>
      let house : House := { settings := hub.settings, loader := hub.loader, now := now }
      let (sc, job, wake) := Job.turn house id { slot := slot, asked := hub.asked } task.job
      ({ hub.withSlot sc.slot with asked := sc.asked, tasks := hub.tasks.set id { task with job := job } },
        sc.effects, wake)

/-- Whether a job's next turn moves lines only to where there are some. -/
def turnFits (hub : Hub E) (now : Nat) (id : JobId) : Bool :=
  match hub.tasks.get? id with
  | none => true
  | some task =>
    match hub.slot task.workspace with
    | .error _ => true
    | .ok slot =>
      Job.turnFits { settings := hub.settings, loader := hub.loader, now := now } id
        { slot := slot, asked := hub.asked } task.job

/-- The jobs that wait and can go on because of what others did. -/
def stirred (hub : Hub E) : List JobId :=
  hub.tasks.entries.filterMap fun (id, task) =>
    match hub.slot task.workspace with
    | .ok slot => if Job.isStirred id slot task.job then some id else none
    | .error _ => none

end Hub

end Workbench
