/-
Places in a source text.

Lines count from one and are numbers of 32 bits with sign: moved up past the
text in front of a program they may be zero or negative. Moving a line is checked:
where it would leave that range there is no result, and the program that moves it
panics. The functions that always have a result wrap around there, and are what is
meant wherever the checked ones have one.
-/
import Workbench.Json.Coding

namespace Workbench

/-- A line and a column. -/
structure Position where
  line : Int32 := 0
  column : UInt32 := 0
  deriving DecidableEq, Repr

/-- The line of a number, if there is one. -/
def line? (n : Int) : Option Int32 :=
  if -2147483648 ≤ n ∧ n < 2147483648 then some (Int32.ofInt n) else none

theorem line?_eq_some {n : Int} {line : Int32} : line? n = some line ↔ line.toInt = n := by
  unfold line?
  constructor
  · intro h
    split at h
    · cases h
      exact Int32.toInt_ofInt_of_le (by omega) (by omega)
    · cases h
  · rintro rfl
    rw [if_pos ⟨line.le_toInt, line.toInt_lt⟩, Int32.ofInt_toInt]

/-- A stretch of source text. -/
structure Location where
  start : Position := {}
  stop : Position := {}
  deriving DecidableEq, Repr

namespace Location

/-- A whole line. -/
def line (n : Int32) : Location := ⟨⟨n, 0⟩, ⟨n, 0⟩⟩

/-- The location that many lines further up. -/
def shiftedUp (l : Location) (by_ : Int32) : Location :=
  { start := { l.start with line := l.start.line - by_ }
    stop := { l.stop with line := l.stop.line - by_ } }

/-- Likewise, if there are such lines. -/
def shiftedUp? (l : Location) (by_ : Int32) : Option Location := do
  let start ← line? (l.start.line.toInt - by_.toInt)
  let stop ← line? (l.stop.line.toInt - by_.toInt)
  return { start := { l.start with line := start }, stop := { l.stop with line := stop } }

end Location

/-- The lines from `start` to `stop`, both included, as the user numbers them. -/
structure LineRange where
  start : Int32
  stop : Int32
  deriving DecidableEq, Repr

instance : Coded Position where
  encode p := .obj [("line", encode p.line), ("column", encode p.column)]
  decode? j := do
    let [line, column] ← j.fields ["line", "column"] | none
    return { line := ← line.required, column := ← column.required }

instance : Coded Location where
  encode l := .obj [("start", encode l.start), ("end", encode l.stop)]
  decode? j := do
    let [start, stop] ← j.fields ["start", "end"] | none
    return { start := ← start.required, stop := ← stop.required }

instance : Coded LineRange where
  encode r := .obj [("start", encode r.start), ("end", encode r.stop)]
  decode? j := do
    let [start, stop] ← j.fields ["start", "end"] | none
    return { start := ← start.required, stop := ← stop.required }

end Workbench
