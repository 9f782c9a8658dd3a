/-
All mailboxes, one for each workspace, and the receivers that listeners are
given: a workspace and a number in its mailbox.
-/
import Workbench.Signal.Mailbox
import Workbench.Workspace.Identity

namespace Workbench

/-- The mailboxes of all workspaces. -/
structure SignalBus where
  mailboxes : Table WorkspaceId Mailbox := {}

/-- What a listener receives its signals with. -/
structure Receiver where
  workspace : WorkspaceId
  number : Nat
  deriving DecidableEq, Repr

namespace SignalBus

/-- The mailbox of a workspace, empty as long as nobody has listened there. -/
def mailbox (b : SignalBus) (w : WorkspaceId) : Mailbox := (b.mailboxes.get? w).getD {}

/-- The bus with a workspace's mailbox replaced. -/
def withMailbox (b : SignalBus) (w : WorkspaceId) (m : Mailbox) : SignalBus := ⟨b.mailboxes.set w m⟩

/-- A listener is armed on a workspace. -/
def arm (b : SignalBus) (w : WorkspaceId) (acceptsPause : Bool) : SignalBus × Receiver :=
  let (m, number) := (b.mailbox w).arm acceptsPause
  (b.withMailbox w m, ⟨w, number⟩)

/-- A signal is fired at a workspace; the answer says whether it was delivered. -/
def fire (b : SignalBus) (w : WorkspaceId) (s : Signal) : SignalBus × Bool :=
  let (m, delivered) := (b.mailbox w).fire s
  (b.withMailbox w m, delivered)

/-- Whether somebody listens on the workspace. -/
def isArmed (b : SignalBus) (w : WorkspaceId) : Bool := (b.mailbox w).isArmed

/-- The receiver's next signal. -/
def tryReceive (b : SignalBus) (r : Receiver) : SignalBus × Option Signal :=
  let (m, s) := (b.mailbox r.workspace).tryReceive r.number
  (b.withMailbox r.workspace m, s)

/-- The receiver's next signal, or whether there will be one. -/
def receive (b : SignalBus) (r : Receiver) : SignalBus × Received :=
  let (m, s) := (b.mailbox r.workspace).receive r.number
  (b.withMailbox r.workspace m, s)

/-- Whether pauses reach the receiver from now on. -/
def acceptPause (b : SignalBus) (r : Receiver) (accepts : Bool) : SignalBus :=
  b.withMailbox r.workspace ((b.mailbox r.workspace).acceptPause r.number accepts)

/-- The receiver is given up. -/
def drop (b : SignalBus) (r : Receiver) : SignalBus :=
  b.withMailbox r.workspace ((b.mailbox r.workspace).drop r.number)

end SignalBus

end Workbench
