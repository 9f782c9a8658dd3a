/-
Layers of settings: values under keys, laid one over the other.

Keys are compared without regard to the case of their letters. A value of a
later layer replaces that of an earlier one; tables are laid over one another
entry by entry.
-/
import Workbench.Table
import Workbench.Text.Line
import Workbench.Toml.Value

namespace Workbench.Layer

/-- The entries of a table; what is no table has none. -/
def entriesOf : Toml → List (String × Toml)
  | .table es => es
  | _ => []

mutual
/-- A value is laid over what stands under a key. -/
def lay (key : String) : Toml → List (String × Toml) → List (String × Toml)
  | .table incoming, es =>
    Table.put (Text.lower key) (layAll incoming ((Table.find (Text.lower key) es).getD (.table []))) es
  | v, es => Table.put (Text.lower key) v es

/-- Entries are laid over a value, which becomes a table if there are any. -/
def layAll : List (String × Toml) → Toml → Toml
  | [], t => t
  | (k, v) :: rest, t => layAll rest (.table (lay k v (entriesOf t)))
end

/-- A value is laid over what stands at the end of a path; what is in the way becomes a table. -/
def layAt (v : Toml) : List String → List (String × Toml) → List (String × Toml)
  | [], es => es
  | [k], es => lay k v es
  | k :: path, es => Table.put k (.table (layAt v path (entriesOf ((Table.find k es).getD (.table []))))) es

/-- A character of a part of a path. -/
def isPathChar (c : Char) : Bool := c.isAlphanum || c = '_' || c = '-'

/-- The parts of a key with points; a key that is no such path is one part. -/
def pathOf (key : String) : List String :=
  let parts := Text.splitAll '.' key.toList
  if parts.all fun part => !part.isEmpty && part.all isPathChar then parts.map String.ofList else [key]

/-- A layer is laid over another; its keys may be paths. -/
def laidOver (upper lower : List (String × Toml)) : List (String × Toml) :=
  upper.foldl (fun es (key, v) => layAt v (pathOf key) es) lower

end Workbench.Layer
