/-
The permit to run in a workspace: one holder at a time, the others in the order
in which they asked. A permit that is given back goes to the first who waits
before anybody else can ask for it.
-/

namespace Workbench

/-- Who holds the permit and who waits for it. -/
structure Permit (κ : Type) where
  holder : Option κ := none
  waiting : List κ := []
  deriving DecidableEq, Repr

namespace Permit

variable {κ : Type} [DecidableEq κ]

/-- Whether somebody holds the permit. -/
def isBusy (p : Permit κ) : Bool := p.holder.isSome

/-- Whether the permit is `k`'s. -/
def isHeldBy (p : Permit κ) (k : κ) : Bool := p.holder = some k

/-- Somebody asks for the permit and gets it or waits. -/
def request (p : Permit κ) (k : κ) : Permit κ :=
  match p.holder with
  | none => { p with holder := some k }
  | some _ => { p with waiting := p.waiting ++ [k] }

/-- The holder gives the permit back; nobody else can. -/
def release (p : Permit κ) (k : κ) : Permit κ :=
  if p.holder = some k then
    match p.waiting with
    | [] => { p with holder := none }
    | next :: rest => { holder := some next, waiting := rest }
  else p

end Permit

end Workbench
