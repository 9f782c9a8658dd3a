/-
Faults: what is wrong with a program, and where.
-/
import Workbench.Source.Place

namespace Workbench

/-- What kind of fault it is. -/
inductive FaultKind where
  | syntactic
  | runtime
  | timeout
  /-- the run was stopped from outside -/
  | interrupted
  deriving DecidableEq, Repr

namespace FaultKind

/-- The name under which a kind is written. -/
def name : FaultKind → String
  | .syntactic => "syntax"
  | .runtime => "runtime"
  | .timeout => "timeout"
  | .interrupted => "interrupted"

/-- The kind of a name. -/
def ofName? : String → Option FaultKind
  | "syntax" => some .syntactic
  | "runtime" => some .runtime
  | "timeout" => some .timeout
  | "interrupted" => some .interrupted
  | _ => none

end FaultKind

/-- A fault at a place in the source. -/
structure Fault where
  kind : FaultKind
  message : String
  location : Location
  deriving DecidableEq, Repr

namespace Fault

/-- The fault recorded when a run is stopped from outside. -/
def interrupted (location : Location) : Fault :=
  ⟨.interrupted, "Execution aborted by user.", location⟩

/-- The fault with its lines moved up. -/
def remapped (f : Fault) (by_ : Int32) : Fault := { f with location := f.location.shiftedUp by_ }

/-- Likewise, if there are such lines. -/
def remapped? (f : Fault) (by_ : Int32) : Option Fault :=
  (f.location.shiftedUp? by_).map fun location => { f with location := location }

/-- The text of a fault; a line is named only where it is one of the user's. -/
def text (f : Fault) : String :=
  if 0 < f.location.start.line then
    "Line " ++ toString f.location.start.line.toInt ++ ": " ++ f.message
  else f.message

end Fault

instance : Coded FaultKind := Coded.ofNames FaultKind.name FaultKind.ofName?

instance : Coded Fault where
  encode f := .obj [("kind", encode f.kind), ("message", .str f.message), ("location", encode f.location)]
  decode? j := do
    let [kind, message, location] ← j.fields ["kind", "message", "location"] | none
    return { kind := ← kind.required, message := ← message.required, location := ← location.required }

end Workbench
