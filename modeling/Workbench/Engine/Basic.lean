/-
Engines, seen from outside.

An engine makes contexts, starts a run of a source text, takes up a run that was
suspended, and is polled: each poll is given the time and whether the run has
been asked to stop or to suspend, and answers with the lines written meanwhile
and either the result or the run as it now stands. Nothing else is known of an
engine, so what is proved of the workspaces holds for each of them, also for one
that heeds no request.

Those who take turns are cooperative: in one turn only so many timers may run out
and so many signals be received, and whoever has used that up is put off until the
others have had their turn. An engine and the job that polls it share a turn, so
an engine may leave nothing of it, and says so. What it takes of a turn is counted
from each poll on; what its job took before, for the permit, the libraries, signals
or another run, is not.
-/
import Workbench.Environment.Context
import Workbench.Source.LineSet

namespace Workbench

/-- Whether an engine lets others go on between its steps. -/
inductive Pacing where
  | preemptive
  | sync
  deriving DecidableEq, Repr

namespace Pacing

/-- The name of a pacing. -/
def name : Pacing → String
  | .preemptive => "preemptive"
  | .sync => "sync"

/-- The pacing of a name. -/
def ofName? : String → Option Pacing
  | "preemptive" => some .preemptive
  | "sync" => some .sync
  | _ => none

end Pacing

instance : Coded Pacing := Coded.ofNames Pacing.name Pacing.ofName?

/-- What an engine is told when a run begins. -/
structure RunOptions where
  pacing : Pacing := .preemptive
  /-- how long the run may take, in milliseconds -/
  budgetMs : Nat
  /-- whether breakpoints count -/
  debuggerOn : Bool := false
  /-- breakpoints, in the lines of the composed program -/
  breakpoints : LineSet := .empty

/-- What a run has been asked for by now. -/
structure Tokens where
  /-- to stop -/
  cancelled : Bool := false
  /-- to suspend -/
  paused : Bool := false
  deriving DecidableEq, Repr

/-- How a run ends. -/
inductive RunResult (Snapshot : Type) where
  | finished (value : Json)
  | suspended (snapshot : Snapshot) (location : Option Location)
  | failed (faults : List Fault)

/-- When a run that has not ended wants to be polled again. -/
inductive Wake where
  /-- after the others had their turn -/
  | soon
  /-- likewise, and it has left nothing of this turn to whoever polled it -/
  | spent
  /-- when the clock shows this time -/
  | onTime (time : Nat)
  /-- not by itself -/
  | never
  deriving DecidableEq, Repr

namespace Wake

/-- How many timers may run out in one turn. -/
def allowance : Nat := 128

/-- The wake of a run that may let so many more timers run out in this turn. -/
def within (spare : Nat) (wake : Wake) : Wake := if spare = 0 then .spent else wake

end Wake

/-- What a poll answers. -/
inductive Polled (Run Snapshot : Type) where
  | ended (result : RunResult Snapshot)
  | pending (run : Run) (wake : Wake)

/-- An engine. -/
structure Engine where
  /-- a run that was suspended -/
  Snapshot : Type
  /-- a run under way -/
  Run : Type
  makeContext : Selection → Context
  start : String → Context → RunOptions → Run
  resume : Snapshot → Context → RunOptions → Run
  /-- the lines written until the run ends or waits, and which of the two -/
  poll : Run → Nat → Tokens → List String × Polled Run Snapshot
  /-- how often the run has to be polled, at the times it asks for, until it ends: an estimate from
  above for those who run it to its end, and of no meaning for a run that may never end -/
  patience : Run → Nat

end Workbench
