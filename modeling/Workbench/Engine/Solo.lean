/-
A run on its own: polled at the times it asks for, and asked to suspend or to
stop at times given beforehand, until it ends.

Of a request and the run's own time on one instant the run comes first, and of
two requests the one to suspend.
-/
import Workbench.Engine.Basic

namespace Workbench

/-- When a run is asked for what, if at all. -/
structure Requests where
  pauseAt : Option Nat := none
  cancelAt : Option Nat := none

namespace Requests

/-- Whether a time has come. -/
def due (now : Nat) : Option Nat → Bool
  | some t => t ≤ now
  | none => false

/-- What was asked for before the run begins. -/
def atStart (r : Requests) (now : Nat) : Tokens := ⟨due now r.cancelAt, due now r.pauseAt⟩

/-- The next request that is due, if any. -/
def next? (r : Requests) (now : Nat) (t : Tokens) : Option Tokens :=
  if !t.paused && due now r.pauseAt then some { t with paused := true }
  else if !t.cancelled && due now r.cancelAt then some { t with cancelled := true }
  else none

/-- The times of the requests still to come. -/
def times (r : Requests) (t : Tokens) : List Nat :=
  (if t.paused then [] else r.pauseAt.toList) ++ (if t.cancelled then [] else r.cancelAt.toList)

end Requests

namespace Engine

variable (E : Engine)

/-- The run polled at most so often: the lines it wrote, and its result with the time it came at; nothing
if it never ends or takes more polls. -/
def solo : Nat → E.Run → Nat → Tokens → Requests → List String × Option (RunResult E.Snapshot × Nat)
  | 0, _, _, _, _ => ([], none)
  | polls + 1, run, now, tokens, requests =>
    match E.poll run now tokens with
    | (lines, .ended result) => (lines, some (result, now))
    | (lines, .pending run wake) =>
      match requests.next? now tokens with
      | some tokens =>
        let (more, result) := solo polls run now tokens requests
        (lines ++ more, result)
      | none =>
        let times := requests.times tokens
        let time := match wake with
          | .soon | .spent => some now
          | .onTime t => some (times.foldl min t)
          | .never => times.min?
        match time with
        | some time =>
          let (more, result) := solo polls run time tokens requests
          (lines ++ more, result)
        | none => (lines, none)

/-- The run to its end. -/
def runSolo (run : E.Run) (now : Nat) (requests : Requests) :
    List String × Option (RunResult E.Snapshot × Nat) :=
  E.solo (E.patience run + 6) run now (requests.atStart now) requests

end Engine

end Workbench
