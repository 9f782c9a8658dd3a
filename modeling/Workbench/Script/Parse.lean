/-
From the text of a program to its statements.

A text that the grammar does not admit has a syntax error at the furthest place
at which something was expected; a text that it admits may still ask for a sleep
of negative length, which is refused at that number.
-/
import Workbench.Script.Grammar
import Workbench.Source.Fault

namespace Workbench.Script

/-- Why a text is no program. -/
inductive ParseError where
  /-- the grammar does not admit it -/
  | syntactic (furthest : Furthest)
  /-- a sleep of negative length -/
  | negativeSleep (line : Nat)

namespace ParseError

/-- The text of the error. -/
def message : ParseError → String
  | .syntactic furthest => "Syntax error: " ++ furthest.message
  | .negativeSleep _ => "sleep duration must not be negative"

/-- The line of the error. -/
def line : ParseError → Int32
  | .syntactic furthest => Int32.ofNat furthest.line
  | .negativeSleep line => Int32.ofNat line

/-- The error as a fault of the program. -/
def fault (e : ParseError) : Fault := ⟨.syntactic, e.message, .line e.line⟩

end ParseError

/-- A statement of a command as it is written. -/
def Grammar.Draft.statement (line : Nat) : Grammar.Draft → Except ParseError Statement
  | .command c => .ok ⟨Int32.ofNat line, c⟩
  | .sleep duration durationLine =>
    if duration < 0 then .error (.negativeSleep durationLine)
    else .ok ⟨Int32.ofNat line, .sleep (Decimal.toWord duration)⟩

/-- The statements of drafts, or the first error among them. -/
def statements : List (Nat × Grammar.Draft) → Except ParseError (List Statement)
  | [] => .ok []
  | (line, draft) :: rest =>
    match draft.statement line with
    | .error e => .error e
    | .ok s => (statements rest).map (s :: ·)

/-- The statements of a program's text. -/
def parse (source : String) : Except ParseError (List Statement) :=
  match Grammar.program (.ofText source) {} with
  | (some (drafts, _), _) => statements drafts
  | (none, furthest) => .error (.syntactic furthest)

end Workbench.Script
