/-
An operation carried out at once, with nobody else about: its job has turn after
turn, and the clock moves to the times that it waits for. Timers are taken to be
punctual and computing to take no time: the clock stands still during a turn, and
after it shows the very time that was waited for.

How many turns that takes at most is computed beforehand from what the engine
says of each run that the operation may bring about.
-/
import Workbench.Run.Hub

namespace Workbench.Hub

variable {E : Engine}

/-! ## How long an operation takes -/

/-- How many turns a run takes at most. -/
def runEffort (settings : Settings) (state : WorkspaceState) (mode : Mode) (p : Prepared E) : Nat :=
  E.patience (Job.runOf p (Job.optionsFor settings state mode p)) + 1

/-- How many turns it takes at most until the libraries are ready or waited for in vain. -/
def waitEffort (settings : Settings) : Nat := settings.libraries.readyTimeoutMs + 2

/-- How many turns the editor's program takes at most, with a testcase's after it if one is given. -/
def composedEffort (settings : Settings) (slot : Slot E) (mode : Mode) (testcase : Option String) : Nat :=
  let renewed := { slot with state := { slot.state with context := E.makeContext slot.state.selection } }
  waitEffort settings + runEffort settings slot.state mode (Job.composed renewed testcase)

/-- How many turns all testcases take at most. -/
def batchEffort (settings : Settings) (slot : Slot E) : Nat :=
  slot.state.testcases.foldr
    (fun t turns => composedEffort settings slot (.testcaseRun 0) (some t.program) + turns) 0

/-- How many turns an operation takes at most. -/
def effort (settings : Settings) (slot : Slot E) : Operation → Nat
  | .evaluate .editorRun => composedEffort settings slot .editorRun none + batchEffort settings slot + 1
  | .evaluate .replRun =>
    let p : Prepared E :=
      { origin := .source slot.state.replValue, context := slot.state.context, prependLines := 0 }
    runEffort settings slot.state .replRun p + 1
  | .evaluate .debugResume =>
    match slot.suspended with
    | some s =>
      let p : Prepared E := { origin := .snapshot s.snapshot, context := s.context, prependLines := s.prependLines }
      runEffort settings slot.state .debugResume p + 1
    | none => 1
  | .evaluate (.testcaseRun index) =>
    match slot.state.testcases[index]? with
    | some t => composedEffort settings slot (.testcaseRun index) (some t.program) + 1
    | none => 1
  | .runAll => batchEffort settings slot + 1
  | .reset => 1
  | .selectChapter _ => waitEffort settings + 1
  | .selectLibrary _ => waitEffort settings + 1

/-! ## Carrying it out -/

/-- A job has at most so many turns until it is settled. The clock goes along: from one turn to the next it moves to
the time that the job waits for, and not beyond. -/
def finish (id : JobId) : Nat → Hub E → (now : Nat) → Hub E × Nat × Option Reply
  | 0, hub, now => (hub, now, none)
  | turns + 1, hub, now =>
    let (hub, _, wake) := hub.turn now id
    match hub.reply? id with
    | some reply => (hub, now, some reply)
    | none => finish id turns hub (match wake with | .onTime time => max now time | _ => now)

/-- An operation is carried out. There is no answer only if it would never end. -/
def perform (hub : Hub E) (now : Nat) (w : WorkspaceId) (operation : Operation) : Hub E × Nat × Option Reply :=
  let turns := match hub.slot w with
    | .ok slot => effort hub.settings slot operation
    | .error _ => 1
  finish 0 turns (hub.submit 0 w operation) now

end Workbench.Hub
