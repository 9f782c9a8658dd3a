/-
A schedule: a clock that stands still while any job can go on, and the order in
which the jobs have their turn.

Jobs have their turns in rounds. In a round the job that the caller itself waits
for comes first, if it can go on; the others come in the order in which they
were woken. A job that only lets the others go first has its next turn in the
next round, where those that stepped back last come first. Jobs that wait for a
time have a timer; the clock moves only when no job can go on, and then to the
earliest timer. Timers of one instant go off in the order in which they were
set. A job that moves a line to where there is none is the end of everything.
-/
import Workbench.Run.Hub

namespace Workbench

/-- A hub with a clock and the jobs in the order of their turns. -/
structure Schedule (E : Engine) where
  hub : Hub E
  now : Nat := 0
  /-- the jobs that can go on in this round -/
  ready : List JobId := []
  /-- the jobs that have stepped back until the next round, the latest first -/
  resting : List JobId := []
  /-- the job that the caller waits for, and whether it can go on in the next round -/
  front : Option JobId := none
  frontDue : Bool := false
  timers : List (Nat × JobId) := []
  nextJob : JobId := 0
  /-- whether the program has panicked: nothing goes on any more -/
  panicked : Bool := false
  /-- what has been seen from outside and not yet been read, the newest first -/
  unread : List (Effect E) := []

namespace Schedule

variable {E : Engine}

/-- How many turns are taken at most before jobs that never come to rest are left alone. -/
def turnLimit : Nat := 10000000

/-- A schedule with the two workspaces that are always there. -/
def create (settings : Settings) (loader : Loader) : Schedule E :=
  let (hub, effects) := Hub.create settings loader
  { hub := hub, unread := effects.reverse }

/-- What has been seen from outside since it was last read. -/
def read (s : Schedule E) : Schedule E × List (Effect E) := ({ s with unread := [] }, s.unread.reverse)

/-- More has been seen from outside. -/
def saw (s : Schedule E) (effects : List (Effect E)) : Schedule E :=
  { s with unread := effects.reverse ++ s.unread }

/-- A job is woken. -/
def wake (s : Schedule E) (id : JobId) : Schedule E :=
  if s.front = some id then { s with frontDue := true }
  else if s.ready.contains id then s
  else { s with ready := s.ready ++ [id] }

/-- A job steps back until the next round. -/
def rest (s : Schedule E) (id : JobId) : Schedule E :=
  if s.front = some id then { s with frontDue := true } else { s with resting := id :: s.resting }

/-- The jobs that can go on because of what others did are woken; one that rests is awake already. -/
def stir (s : Schedule E) : Schedule E :=
  (s.hub.stirred.filter fun id => !s.resting.contains id).foldl wake s

/-- A job's timer is stopped. -/
def stopTimer (s : Schedule E) (id : JobId) : Schedule E :=
  { s with timers := s.timers.filter fun t => t.2 ≠ id }

/-- A job's timer is set; one that is set to the same time keeps its place. -/
def setTimer (s : Schedule E) (id : JobId) (time : Nat) : Schedule E :=
  if s.timers.contains (time, id) then s
  else
    let s := s.stopTimer id
    { s with timers := s.timers ++ [(time, id)] }

/-- The program panics. -/
def panic (s : Schedule E) : Schedule E :=
  { s with ready := [], resting := [], frontDue := false, timers := [], panicked := true }

/-- A job has its turn. -/
def turn (s : Schedule E) (id : JobId) : Schedule E :=
  if s.hub.turnFits s.now id then
    let (hub, effects, wake) := s.hub.turn s.now id
    let s := ({ s with hub := hub, ready := s.ready.filter (· ≠ id) }.saw effects).stir
    match wake with
    | .soon | .spent => (s.stopTimer id).rest id
    | .onTime time => s.setTimer id time
    | .never => s.stopTimer id
  else s.panic

/-- At most so many turns, until no job can go on in this round. -/
def drain : Nat → Schedule E → Schedule E
  | 0, s => s
  | n + 1, s =>
    match s.ready with
    | [] => s
    | id :: _ => drain n (s.turn id)

/-- A round begins: those that rested are awake, and the job that the caller waits for has its turn. -/
def beginRound (s : Schedule E) : Schedule E :=
  let s := { s with ready := s.ready ++ s.resting, resting := [] }
  match s.front with
  | some id => if s.frontDue then { s with frontDue := false }.turn id else s
  | none => s

/-- Whether no job can go on. -/
def isIdle (s : Schedule E) : Bool := s.ready.isEmpty && s.resting.isEmpty && !s.frontDue

/-- At most so many rounds, until no job can go on. -/
def settleWithin : Nat → Schedule E → Schedule E
  | 0, s => s
  | n + 1, s => if s.isIdle then s else settleWithin n (drain turnLimit s.beginRound)

/-- Every job goes on until it waits; no time passes. -/
def settle (s : Schedule E) : Schedule E := settleWithin turnLimit s

/-- The time of the earliest timer. -/
def nextTime? (s : Schedule E) : Option Nat := (s.timers.map (·.1)).min?

/-- The clock moves to a time, and the timers that are due go off. -/
def moveTo (s : Schedule E) (time : Nat) : Schedule E :=
  let due := (s.timers.filter (·.1 ≤ time)).mergeSort fun a b => a.1 ≤ b.1
  due.foldl (fun s t => s.wake t.2)
    { s with now := time, timers := s.timers.filter fun t => decide (time < t.1) }

/-- The clock moves to the end, at most so many stops on the way. -/
def advanceWithin (end_ : Nat) : Nat → Schedule E → Schedule E
  | 0, s => s
  | n + 1, s =>
    let s := s.settle
    match s.nextTime? with
    | some time => if time ≤ end_ then advanceWithin end_ n (s.moveTo (max s.now time)) else s.moveTo end_
    | none => s.moveTo end_

/-- So much time passes, and all that is due by then happens. -/
def advance (s : Schedule E) (ms : Nat) : Schedule E := (advanceWithin (s.now + ms) turnLimit s).settle

/-- If no job can go on, the clock moves to the earliest timer, if there is one. -/
def nextInstant? (s : Schedule E) : Option (Schedule E) :=
  if s.isIdle then s.nextTime?.map fun time => s.moveTo (max s.now time) else some s

/-- Rounds are gone through and time passes until a job is settled: at most so many, and nothing if it
never will be. -/
def awaitWithin (id : JobId) : Nat → Schedule E → Schedule E × Option Reply
  | 0, s => (s, none)
  | n + 1, s =>
    match s.hub.reply? id, s.nextInstant? with
    | some reply, _ => (s, some reply)
    | none, none => (s, none)
    | none, some s =>
      let s := s.beginRound
      match s.hub.reply? id with
      | some reply => (s, some reply)
      | none => awaitWithin id n (drain turnLimit s)

/-- A job is waited for. -/
def await (s : Schedule E) (id : JobId) : Schedule E × Option Reply := awaitWithin id turnLimit s

/-- A job is handed in. -/
def spawn (s : Schedule E) (w : WorkspaceId) (operation : Operation) : Schedule E × JobId :=
  ({ s with
      hub := s.hub.submit s.nextJob w operation
      nextJob := s.nextJob + 1
      ready := s.ready ++ [s.nextJob] }, s.nextJob)

/-- A job is handed in and waited for. -/
def perform (s : Schedule E) (w : WorkspaceId) (operation : Operation) : Schedule E × Option Reply :=
  let id := s.nextJob
  let s := { s with
    hub := s.hub.submit id w operation, nextJob := id + 1, front := some id, frontDue := true }
  let (s, reply) := s.await id
  ({ s with front := none, frontDue := false }, reply)

/-- A signal is fired at a workspace. -/
def signal (s : Schedule E) (w : WorkspaceId) (sig : Signal) : Schedule E × Bool :=
  let (hub, delivered) := s.hub.signal w sig
  ({ s with hub := hub }.stir, delivered)

end Schedule

end Workbench
