/-
Waiting for the host to have its libraries ready.

A loader is asked again and again, an interval apart, until it says yes or the
time is over. When both fall on one instant it is asked once more first. How
often it was asked is counted over the loader's whole life, and it may answer
by that count and by the clock. Times are whole milliseconds, as the settings give
them; intervals that are no whole number of them are not described.
-/
import Workbench.Engine.Basic

namespace Workbench

/-- The host's loader, as it answers when it is asked at a time, having been asked so often before. -/
structure Loader where
  isReady : (now asked : Nat) → Bool

namespace Loader

/-- A loader with nothing left to load. -/
def bundled : Loader := ⟨fun _ _ => true⟩

/-- A loader that is ready when it is asked for the `n`th time and from then on, or never. -/
def readyAt (n : Option Nat) : Loader :=
  ⟨fun _ asked => match n with | some n => n ≤ asked + 1 | none => false⟩

end Loader

/-- A wait under way: for how long it goes on, and when the loader is asked next. -/
structure Wait where
  interval : Nat
  deadline : Nat
  due : Nat
  deriving DecidableEq, Repr

/-- How a wait stands. -/
inductive WaitStatus where
  | ready
  | timedOut
  | pending (wait : Wait) (wake : Wake)
  deriving DecidableEq, Repr

namespace Wait

/-- A wait that begins now. -/
def start (now interval timeout : Nat) : Wait := ⟨interval, now + timeout, now⟩

/-- How often a loader is asked in a row by a wait without an interval before others get their turn. -/
def inARow : Nat := Wake.allowance + 1

/-- The loader is asked at most so often, as long as that is due; the count goes on, and the wait as it
then stands, or nothing when the loader is ready. -/
def ask (loader : Loader) (now : Nat) : Nat → Nat → Wait → Nat × Option Wait
  | 0, asked, w => (asked, some w)
  | times + 1, asked, w =>
    if w.due ≤ now then
      if loader.isReady now asked then (asked + 1, none)
      else ask loader now times (asked + 1) { w with due := now + w.interval }
    else (asked, some w)

/-- The wait is looked after: the loader is asked if that is due, then the time is checked. -/
def poll (w : Wait) (loader : Loader) (now asked : Nat) : Nat × WaitStatus :=
  match ask loader now inARow asked w with
  | (asked, none) => (asked, .ready)
  | (asked, some w) =>
    if w.deadline ≤ now then (asked, .timedOut)
    else (asked, .pending w (if w.due ≤ now then .soon else .onTime (min w.due w.deadline)))

/-- The text that says how long the libraries were waited for in vain. -/
def timeoutMessage (waited : Nat) : String :=
  "external libraries not ready after " ++ toString waited ++ "ms"

end Wait

/-- The libraries were waited for in vain. -/
structure LibraryTimeout where
  waited : Nat
  deriving DecidableEq, Repr

/-- The text of the error. -/
def LibraryTimeout.message (e : LibraryTimeout) : String := Wait.timeoutMessage e.waited

/-- How a wait ended: whether the loader was ready, how often it had been asked by then, and when. -/
structure WaitEnd where
  isReady : Bool
  asked : Nat
  time : Nat
  deriving DecidableEq, Repr

/-- What a wait that was to go on for so long comes to. -/
def WaitEnd.outcome (e : WaitEnd) (timeout : Nat) : Except LibraryTimeout Unit :=
  if e.isReady then .ok () else .error ⟨timeout⟩

namespace Wait

/-- The wait to its end, with nothing else going on: looked after at most so often. -/
def follow (loader : Loader) : Nat → Wait → (now asked : Nat) → Option WaitEnd
  | 0, _, _, _ => none
  | turns + 1, w, now, asked =>
    match w.poll loader now asked with
    | (asked, .ready) => some ⟨true, asked, now⟩
    | (asked, .timedOut) => some ⟨false, asked, now⟩
    | (asked, .pending w wake) =>
      follow loader turns w (match wake with | .onTime t => t | _ => now) asked

/-- A loader that has not been asked before is waited for. The interval and the time that there is are whole
milliseconds. With an interval the time moves on by at least one of them from turn to turn, so there is an end. -/
def untilReady (loader : Loader) (interval timeout : Nat) : Option WaitEnd :=
  follow loader (timeout + 2) (start 0 interval timeout) 0 0

end Wait

end Workbench
