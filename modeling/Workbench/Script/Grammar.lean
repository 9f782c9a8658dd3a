/-
The grammar of the script language, as readers.

A program is lines with line breaks between them; a line holds one command or
none, and a semicolon may follow the command. Blanks, tabs and comments may
stand between any two lexemes. Alternatives are tried in the order in which they
stand here.

Expressions nest, so their readers are given a bound on their calls; `expression`
computes one from the length of what is left.
-/
import Workbench.Script.Expectation
import Workbench.Script.Lexeme
import Workbench.Script.Syntax

namespace Workbench.Script.Grammar

open Reading

/-- Blanks, tabs and comments. -/
def gaps : Reading Unit := lexeme fun cs => some ((), gap cs)

/-- One character. -/
def symbol (ch : Char) : Reading Unit := lexeme fun cs =>
  match cs with
  | c :: _ => if c = ch then some ((), 1) else none
  | [] => none

/-- A keyword as a part of its own. -/
def word (part : Part) (k : String) : Reading Unit := expecting part (lexeme (keyword? k))

/-- A number as a part of its own. -/
def number : Reading Float := expecting .number (lexeme number?)

/-- A quoted text as a part of its own. -/
def text : Reading String := expecting .text (lexeme quoted?)

/-- A truth value as a part of its own. -/
def bool : Reading Bool := expecting .bool (lexeme bool?)

/-- A name as a part of its own. -/
def name : Reading String := expecting .name (lexeme name?)

mutual
/-- Terms with plus signs between them, added from the left. -/
def expr : Nat → Reading Expr
  | 0 => fail
  | calls + 1 => expecting .expression (andThen (term calls) fun first => andThen gaps fun _ => sum calls first)

/-- The terms that follow, each behind a plus sign. -/
def sum : Nat → Expr → Reading Expr
  | 0, acc => give acc
  | calls + 1, acc => fun c f =>
    match (andThen gaps fun _ => andThen (symbol '+') fun _ => andThen gaps fun _ => term calls) c f with
    | (some (next, c), f) => sum calls (.add acc next) c f
    | (none, f) => (some (acc, c), f)

/-- A number, a text, a truth value, a name, or an expression in parentheses. -/
def term : Nat → Reading Expr
  | 0 => fail
  | calls + 1 =>
    orElse (andThen number fun x => give (.number x)) <|
    orElse (andThen text fun s => give (.text s)) <|
    orElse (andThen bool fun b => give (.bool b)) <|
    orElse (andThen name fun n => give (.name n)) <|
    andThen (symbol '(') fun _ => andThen gaps fun _ => andThen (expr calls) fun e =>
      andThen gaps fun _ => andThen (symbol ')') fun _ => give e
end

/-- An expression. -/
def expression : Reading Expr := fun c f => expr (2 * c.rest.length + 3) c f

/-- A command as it is written: a sleep's duration is still a number, on a line. -/
inductive Draft where
  | command (c : Command)
  | sleep (duration : Float) (line : Nat)

/-- A binding. -/
def binding : Reading Draft := expecting .binding do
  word .letWord "let"; gaps
  let n ← name; gaps
  symbol '='; gaps
  let e ← expression
  return .command (.bind n e)

/-- Something to display. -/
def displaying : Reading Draft := expecting .displaying do
  word .displayWord "display"; gaps
  let e ← expression
  return .command (.display e)

/-- A sleep. -/
def sleeping : Reading Draft := expecting .sleeping do
  word .sleepWord "sleep"; gaps
  let c ← here
  let x ← number
  return .sleep x c.line

/-- A spin. -/
def spinning : Reading Draft := expecting .spinning do
  word .spinWord "spin"
  return .command .spin

/-- A failure. -/
def failing : Reading Draft := expecting .failing do
  word .errorWord "error"; gaps
  let message ← text
  return .command (.fail message)

/-- An expression on its own. -/
def valuing : Reading Draft := expecting .valuing do
  let e ← expression
  return .command (.value e)

/-- A command, with the line on which it begins. -/
def command : Reading (Nat × Draft) := do
  let c ← here
  let d ← orElse binding <| orElse displaying <| orElse sleeping <| orElse spinning <| orElse failing valuing
  return (c.line, d)

/-- A line: one command or none. -/
def line : Reading (Option (Nat × Draft)) := expecting .line <| optional do
  let d ← command
  gaps
  let _ ← optional (symbol ';')
  return d

/-- The line behind a line break. -/
def nextLine : Reading (Option (Nat × Draft)) := do
  lexeme fun cs => (breakLength? cs).map fun n => ((), n)
  gaps
  line

/-- The lines that follow, as many as there are. -/
def moreLines : Nat → Reading (List (Option (Nat × Draft)))
  | 0 => give []
  | lines + 1 => fun c f =>
    match (andThen gaps fun _ => nextLine) c f with
    | (some (l, c), f) => (andThen (moreLines lines) fun ls => give (l :: ls)) c f
    | (none, f) => (some ([], c), f)

/-- The end of the text. -/
def ending : Reading Unit := expecting .endOfInput fun c f =>
  match c.rest with
  | [] => (some ((), c), f)
  | _ => (none, f)

/-- A whole program. -/
def program : Reading (List (Nat × Draft)) := expecting .program do
  gaps
  let first ← line
  gaps
  let more ← fun c f => moreLines (c.rest.length + 1) c f
  gaps
  ending
  return (first :: more).filterMap id

end Workbench.Script.Grammar
