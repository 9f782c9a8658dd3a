/-
An engine that carries out directives, one on each line, and knows no language:
it writes a line, waits, finishes, fails, stops as at a breakpoint, waits to be
asked to pause, or hangs. It heeds no request to stop. What the rest of the
library does with an engine can be seen with it in every detail.
-/
import Workbench.Engine.Basic
import Workbench.Json.Reader
import Workbench.Text.Blank

namespace Workbench

/-- What one line asks for. -/
inductive Directive where
  | log (text : String)
  | sleep (ms : Nat)
  | finish (value : Json)
  | fail (line : Int32) (message : String)
  | breakAt (line : Int32)
  /-- go on waiting until asked to pause -/
  | waitPause
  /-- go on for ever -/
  | hang
  /-- anything else -/
  | ignored

namespace Directive

/-- A line number. -/
def lineNumber? (s : String) : Option Int32 :=
  (Decimal.readInt? s.toList).bind fun n => decode? (.int n)

/-- A line as a word and the rest after the first blank. -/
def words (line : String) : String × String :=
  let line := Text.trim line
  match Text.splitFirst ' ' line.toList with
  | some (word, rest) => (String.ofList word, String.ofList rest)
  | none => (line, "")

/-- The directive of a line. -/
def ofLine (line : String) : Directive :=
  let (word, rest) := words line
  let read : Option Directive :=
    match word with
    | "log" => some (.log rest)
    | "sleep" => (Decimal.readInt? rest.toList).map fun ms => .sleep ms.toNat
    | "finish" => (Json.read? rest).map .finish
    | "fail" => do
      let (number, message) ← Text.splitFirst ' ' rest.toList
      return .fail (← lineNumber? (String.ofList number)) (String.ofList message)
    | "break" => (lineNumber? rest).map .breakAt
    | "wait-pause" => some .waitPause
    | "hang" => some .hang
    | _ => none
  read.getD .ignored

/-- What a run under way waits for. -/
inductive Waiting where
  | nothing
  | time (t : Nat)
  | pause
  | forever
  deriving DecidableEq, Repr

/-- A run: what it waits for and the lines that come then. -/
structure Run where
  waiting : Waiting := .nothing
  remaining : List String

/-- The lines are carried out until the run ends or waits; so many more timers may run out meanwhile. -/
def carryOut (now : Nat) (tokens : Tokens) : (spare : Nat) → List String → List String × Polled Run (List String)
  | _, [] => ([], .ended (.finished .null))
  | spare, line :: rest =>
    match ofLine line with
    | .log text =>
      let (written, polled) := carryOut now tokens spare rest
      (text :: written, polled)
    | .sleep ms =>
      if ms = 0 ∧ spare ≠ 0 then carryOut now tokens (spare - 1) rest
      else ([], .pending ⟨.time (now + ms), rest⟩ ((Wake.onTime (now + ms)).within spare))
    | .finish value => ([], .ended (.finished value))
    | .fail line message => ([], .ended (.failed [⟨.runtime, message, .line line⟩]))
    | .breakAt line => ([], .ended (.suspended rest (some (.line line))))
    | .waitPause =>
      if tokens.paused then ([], .ended (.suspended rest none))
      else ([], .pending ⟨.pause, rest⟩ (Wake.never.within spare))
    | .hang => ([], .pending ⟨.forever, rest⟩ (Wake.never.within spare))
    | .ignored => carryOut now tokens spare rest

/-- A run is polled: it goes on if what it waits for has come. -/
def Run.poll (r : Run) (now : Nat) (tokens : Tokens) : List String × Polled Run (List String) :=
  match r.waiting with
  | .nothing => carryOut now tokens Wake.allowance r.remaining
  | .time t =>
    if t ≤ now then carryOut now tokens (Wake.allowance - 1) r.remaining else ([], .pending r (.onTime t))
  | .pause => if tokens.paused then ([], .ended (.suspended r.remaining none)) else ([], .pending r .never)
  | .forever => ([], .pending r .never)

/-- The engine that carries out directives. -/
abbrev engine : Engine where
  Snapshot := List String
  Run := Run
  makeContext selection := .ofSelection selection ["mock_builtin"]
  start source _ _ := { remaining := Text.lines source }
  resume remaining _ _ := { remaining := remaining }
  poll := Run.poll
  patience r := 2 * r.remaining.length + 1

end Directive

end Workbench
