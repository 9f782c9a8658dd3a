/-
The mailbox of a workspace: how a signal from outside reaches the run that owns
the workspace.

Whoever wants to be reached arms a listener and is given its number. At most one
listener is armed at a time, the one armed last. What is fired joins the queue
of the armed listener and no other queue, and a queue lasts until its number is
dropped, so that nothing delivered is lost. A pause is delivered at most once,
and only while pauses are accepted; an interrupt disarms.
-/
import Workbench.Json.Coding
import Workbench.Table

namespace Workbench

/-- What can be asked of a run from outside. -/
inductive Signal where
  | interrupt
  | pause
  deriving DecidableEq, Repr

namespace Signal

/-- The name of a signal. -/
def name : Signal → String
  | .interrupt => "interrupt"
  | .pause => "pause"

/-- The signal of a name. -/
def ofName? : String → Option Signal
  | "interrupt" => some .interrupt
  | "pause" => some .pause
  | _ => none

end Signal

instance : Coded Signal := Coded.ofNames Signal.name Signal.ofName?

/-- The armed listener. -/
structure Listener where
  number : Nat
  acceptsPause : Bool
  pauseDelivered : Bool := false
  deriving DecidableEq, Repr

/-- Whether the listener takes the signal. -/
def Listener.takes (l : Listener) : Signal → Bool
  | .interrupt => true
  | .pause => l.acceptsPause && !l.pauseDelivered

/-- The listener of a workspace and what was delivered to each number. -/
structure Mailbox where
  /-- the number of the next listener -/
  next : Nat := 0
  listener : Option Listener := none
  /-- what was delivered and not yet received -/
  queues : Table Nat (List Signal) := {}

/-- What a look into one's queue shows. -/
inductive Received where
  | signal (s : Signal)
  /-- nothing yet -/
  | pending
  /-- nothing, and nothing will come -/
  | disarmed
  deriving DecidableEq, Repr

namespace Mailbox

/-- Whether a listener is armed. -/
def isArmed (m : Mailbox) : Bool := m.listener.isSome

/-- Whether the armed listener has the number. -/
def listens (m : Mailbox) (number : Nat) : Bool :=
  match m.listener with
  | some l => l.number = number
  | none => false

/-- What was delivered to a number and not yet received. -/
def queue (m : Mailbox) (number : Nat) : List Signal := (m.queues.get? number).getD []

/-- A new listener is armed, in the place of the one armed before. -/
def arm (m : Mailbox) (acceptsPause : Bool) : Mailbox × Nat :=
  ({ next := m.next + 1
     listener := some { number := m.next, acceptsPause := acceptsPause }
     queues := m.queues.set m.next [] }, m.next)

/-- A signal is fired; the answer says whether it was delivered. -/
def fire (m : Mailbox) (s : Signal) : Mailbox × Bool :=
  match m.listener with
  | none => (m, false)
  | some l =>
    if l.takes s then
      ({ m with
          listener := match s with
            | .interrupt => none
            | .pause => some { l with pauseDelivered := true }
          queues := m.queues.set l.number (m.queue l.number ++ [s]) }, true)
    else (m, false)

/-- The next signal of a number, taken out of its queue. -/
def tryReceive (m : Mailbox) (number : Nat) : Mailbox × Option Signal :=
  match m.queue number with
  | [] => (m, none)
  | s :: rest => ({ m with queues := m.queues.set number rest }, some s)

/-- The next signal of a number, or whether there will be one. -/
def receive (m : Mailbox) (number : Nat) : Mailbox × Received :=
  match m.tryReceive number with
  | (m, some s) => (m, .signal s)
  | (m, none) => (m, if m.listens number then .pending else .disarmed)

/-- Whether the next `receive` shows something other than `pending`. -/
def stirs (m : Mailbox) (number : Nat) : Bool := !(m.queue number).isEmpty || !m.listens number

/-- Whether pauses reach the number from now on, if it is the armed one. -/
def acceptPause (m : Mailbox) (number : Nat) (accepts : Bool) : Mailbox :=
  { m with listener := m.listener.map fun l => if l.number = number then { l with acceptsPause := accepts } else l }

/-- A number is given up with its queue; if it is the armed one, nobody is armed any more. -/
def drop (m : Mailbox) (number : Nat) : Mailbox :=
  { m with
    listener := if m.listens number then none else m.listener
    queues := m.queues.erase number }

end Mailbox

end Workbench
