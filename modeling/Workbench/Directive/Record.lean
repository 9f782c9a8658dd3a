/-
A record of what was done with an engine that carries out directives.
-/
import Workbench.Directive.Engine
import Workbench.Run.Event

namespace Workbench.Directive

/-- What was done with the engine so far. -/
structure Record where
  /-- the breakpoints that the latest run was given -/
  breakpoints : Option LineSet := none
  /-- how many runs are under way, and how many were at most -/
  inFlight : Nat := 0
  maxInFlight : Nat := 0
  /-- how many contexts were made -/
  contexts : Nat := 0
  /-- the programs that were started, in order -/
  sources : List String := []

namespace Record

/-- A run begins. -/
def enter (r : Record) (options : RunOptions) : Record :=
  { r with
    breakpoints := some options.breakpoints
    inFlight := r.inFlight + 1
    maxInFlight := max r.maxInFlight (r.inFlight + 1) }

/-- One more thing was done. -/
def note (r : Record) : EngineCall engine → Record
  | .makeContext _ => { r with contexts := r.contexts + 1 }
  | .start source _ options => { r.enter options with sources := r.sources ++ [source] }
  | .resume _ _ options => r.enter options
  | .poll _ => r
  | .interrupt _ => r
  | .release => { r with inFlight := r.inFlight - 1 }

end Record

/-- What was done, as it is written; polls and releases are not. -/
def callJson? : EngineCall engine → Option Json
  | .makeContext selection => some (.obj [("create_context", encode selection)])
  | .start source _ _ => some (.obj [("run", .str source)])
  | .resume remaining _ _ => some (.obj [("resume", encode (remaining : List String))])
  | .interrupt _ => some (.str "interrupt")
  | .poll _ => none
  | .release => none

end Workbench.Directive
