/-
TOML values. A date or a time is kept as the text it was written with.
-/

namespace Workbench

/-- A TOML value. -/
inductive Toml where
  | bool (b : Bool)
  | int (n : Int)
  | float (x : Float)
  | text (s : String)
  | time (written : String)
  | array (items : List Toml)
  | table (entries : List (String × Toml))

instance : Inhabited Toml := ⟨.table []⟩

end Workbench
