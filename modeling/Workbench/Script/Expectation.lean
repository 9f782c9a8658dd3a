/-
What a reader expected where it got stuck.

Reading tries alternatives in order and remembers the furthest place at which a
part failed to begin, with the parts that were tried there. A part that fails
replaces what its own attempts left at its place, unless they left exactly one:
then that one says more. A part that fails behind the furthest place is
forgotten, one that fails beyond it makes everything before forgotten.
-/
import Workbench.Text.Line

namespace Workbench.Script

/-- The parts that can be expected, in the order in which they are listed. -/
inductive Part where
  | endOfInput
  | program
  | line
  | binding
  | displaying
  | sleeping
  | spinning
  | failing
  | valuing
  | expression
  | number
  | text
  | characters
  | bool
  | name
  | letWord
  | displayWord
  | sleepWord
  | spinWord
  | errorWord
  deriving DecidableEq, Repr

namespace Part

/-- The name of a part in a message. -/
def label : Part → String
  | .endOfInput => "EOI"
  | .program => "program"
  | .line => "line"
  | .binding => "let_stmt"
  | .displaying => "display_stmt"
  | .sleeping => "sleep_stmt"
  | .spinning => "spin_stmt"
  | .failing => "error_stmt"
  | .valuing => "expr_stmt"
  | .expression => "expr"
  | .number => "number"
  | .text => "string"
  | .characters => "chars"
  | .bool => "boolean"
  | .name => "ident"
  | .letWord => "let_kw"
  | .displayWord => "display_kw"
  | .sleepWord => "sleep_kw"
  | .spinWord => "spin_kw"
  | .errorWord => "error_kw"

/-- All parts in the order of their listing. -/
def all : List Part :=
  [.endOfInput, .program, .line, .binding, .displaying, .sleeping, .spinning, .failing, .valuing,
    .expression, .number, .text, .characters, .bool, .name, .letWord, .displayWord, .sleepWord,
    .spinWord, .errorWord]

end Part

/-- A place in a text: what is left of it, how much was read, and the line. -/
structure Cursor where
  rest : List Char
  position : Nat := 0
  line : Nat := 1

namespace Cursor

/-- The beginning of a text. -/
def ofText (s : String) : Cursor := { rest := s.toList }

/-- The place that many characters further on. -/
def after (c : Cursor) (n : Nat) : Cursor where
  rest := c.rest.drop n
  position := c.position + n
  line := c.line + Text.breaks (c.rest.take n)

end Cursor

/-- The furthest place at which something was expected, and what. -/
structure Furthest where
  position : Nat := 0
  line : Nat := 1
  expected : List Part := []

namespace Furthest

/-- How many parts are expected at a place. -/
def countAt (f : Furthest) (position : Nat) : Nat := if f.position = position then f.expected.length else 0

/-- A part failed that began at the cursor, when `before` parts were expected there. -/
def note (f : Furthest) (part : Part) (c : Cursor) (before : Nat) : Furthest :=
  if f.countAt c.position = before + 1 then f
  else if f.position = c.position then { f with expected := f.expected.take before ++ [part] }
  else if f.position < c.position then { position := c.position, line := c.line, expected := [part] }
  else f

/-- The expected parts, each once, in the order of their listing. -/
def parts (f : Furthest) : List Part := Part.all.filter fun p => f.expected.contains p

/-- Words in a row: `a`, `a or b`, `a, b, or c`. -/
def enumerate : List String → String
  | [] => ""
  | [a] => a
  | [a, b] => a ++ " or " ++ b
  | ws => Text.joined ", " ws.dropLast ++ ", or " ++ ws.getLastD ""

/-- What was expected. -/
def message (f : Furthest) : String := "expected " ++ enumerate (f.parts.map Part.label)

end Furthest

/-- A reader: from a place to a value and the place behind it, if it succeeds, and to what was
expected meanwhile. -/
abbrev Reading (α : Type) := Cursor → Furthest → Option (α × Cursor) × Furthest

namespace Reading

variable {α β : Type}

/-- Reads nothing. -/
def give (a : α) : Reading α := fun c f => (some (a, c), f)

/-- Fails, expecting nothing. -/
def fail : Reading α := fun _ f => (none, f)

/-- One reader after another. -/
def andThen (p : Reading α) (q : α → Reading β) : Reading β := fun c f =>
  match p c f with
  | (some (a, c), f) => q a c f
  | (none, f) => (none, f)

instance : Monad Reading where
  pure := give
  bind := andThen

/-- The second reader where the first one fails. -/
def orElse (p q : Reading α) : Reading α := fun c f =>
  match p c f with
  | (some r, f) => (some r, f)
  | (none, f) => q c f

/-- What the reader reads, if it can read anything. -/
def optional (p : Reading α) : Reading (Option α) := fun c f =>
  match p c f with
  | (some (a, c), f) => (some (some a, c), f)
  | (none, f) => (some (none, c), f)

/-- The reader as a part that is expected where it fails. -/
def expecting (part : Part) (p : Reading α) : Reading α := fun c f =>
  match p c f with
  | (some r, f) => (some r, f)
  | (none, f') => (none, f'.note part c (f.countAt c.position))

/-- A lexeme, by the function that measures it. -/
def lexeme (measure : List Char → Option (α × Nat)) : Reading α := fun c f =>
  match measure c.rest with
  | some (a, n) => (some (a, c.after n), f)
  | none => (none, f)

/-- The place where the reader stands. -/
def here : Reading Cursor := fun c f => (some (c, c), f)

end Reading

end Workbench.Script
