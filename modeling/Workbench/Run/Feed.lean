/-
The feed of events: a reader that has not read for long finds the latest events
only, and how many it has missed.
-/
import Workbench.Run.Event

namespace Workbench

/-- What a reader finds: how many events were lost, and those that are left, oldest first. -/
structure Feed where
  missed : Nat
  events : List Event
  deriving DecidableEq, Repr

namespace Feed

/-- The least power of two, from `p` on by doublings, that is at least `n`. -/
def doubled (n : Nat) : Nat → Nat → Nat
  | 0, p => p
  | times + 1, p => if n ≤ p then p else doubled n times (2 * p)

/-- How many events a feed of a capacity keeps: the next power of two. -/
def room (capacity : Nat) : Nat := doubled capacity 64 1

/-- What a reader finds who has not read since these events began. -/
def ofEvents (capacity : Nat) (events : List Event) : Feed :=
  let missed := events.length - room capacity
  ⟨missed, events.drop missed⟩

end Feed

end Workbench
