/-
Tables while a TOML text is read.

A table may be written in several places, but each way of writing it only once:
its header stands once, keys with points do not reach into a table that has a
header, and nothing reaches into a value. `Node` keeps how a table came about.
-/
import Workbench.Table
import Workbench.Toml.Value

namespace Workbench.Toml

/-- How a table came about. -/
inductive Origin where
  /-- it has a header of its own -/
  | header
  /-- it was passed through by the header of a table in it -/
  | passed
  /-- it was reached through a key with points -/
  | dotted
  deriving DecidableEq, Repr

/-- What stands under a key. -/
inductive Node where
  | value (v : Toml)
  | table (origin : Origin) (entries : List (String × Node))
  /-- an array of tables: those before the last, and the last -/
  | tables (earlier : List Toml) (last : List (String × Node))

/-- The entries of a table. -/
abbrev Entries := List (String × Node)

mutual
/-- The value of a node. -/
def Node.toToml : Node → Toml
  | .value v => v
  | .table _ entries => .table (entriesToToml entries)
  | .tables earlier last => .array (earlier ++ [.table (entriesToToml last)])

/-- The values of entries. -/
def entriesToToml : List (String × Node) → List (String × Toml)
  | [] => []
  | (k, n) :: rest => (k, n.toToml) :: entriesToToml rest
end

namespace Entries

/-- A value is entered under a key of several parts, from a table that has a header or is a value. -/
def enter (v : Toml) : List String → Entries → Option Entries
  | [], _ => none
  | [k], es => if (Table.find k es).isSome then none else some (Table.put k (.value v) es)
  | k :: l :: path, es =>
    let reached (origin : Origin) (inner : Entries) : Option Entries :=
      -- the last table on the way must be one that was reached through points only
      if path = [] ∧ origin ≠ .dotted then none
      else (enter v (l :: path) inner).map fun inner => Table.put k (.table origin inner) es
    match Table.find k es with
    | none => reached .dotted []
    | some (.table .header _) => none
    | some (.table origin inner) => reached origin inner
    | some (.tables earlier last) =>
      if path = [] then none
      else (enter v (l :: path) last).map fun last => Table.put k (.tables earlier last) es
    | some (.value _) => none

/-- The table of a header is opened: a new one, or one that was only passed through so far. -/
def openTable : List String → Entries → Option Entries
  | [], _ => none
  | [k], es =>
    match Table.find k es with
    | none => some (Table.put k (.table .header []) es)
    | some (.table .passed inner) => some (Table.put k (.table .header inner) es)
    | some _ => none
  | k :: path, es =>
    match Table.find k es with
    | none => (openTable path []).map fun inner => Table.put k (.table .passed inner) es
    | some (.table origin inner) => (openTable path inner).map fun inner => Table.put k (.table origin inner) es
    | some (.tables earlier last) => (openTable path last).map fun last => Table.put k (.tables earlier last) es
    | some (.value _) => none

/-- One more table of an array of tables is opened. -/
def openElement : List String → Entries → Option Entries
  | [], _ => none
  | [k], es =>
    match Table.find k es with
    | none => some (Table.put k (.tables [] []) es)
    | some (.tables earlier last) =>
      some (Table.put k (.tables (earlier ++ [.table (entriesToToml last)]) []) es)
    | some _ => none
  | k :: path, es =>
    match Table.find k es with
    | none => (openElement path []).map fun inner => Table.put k (.table .passed inner) es
    | some (.table origin inner) => (openElement path inner).map fun inner => Table.put k (.table origin inner) es
    | some (.tables earlier last) => (openElement path last).map fun last => Table.put k (.tables earlier last) es
    | some (.value _) => none

/-- The entries of the table that was opened under a path change. -/
def within (f : Entries → Option Entries) : List String → Entries → Option Entries
  | [], es => f es
  | k :: path, es =>
    match Table.find k es with
    | some (.table origin inner) => (within f path inner).map fun inner => Table.put k (.table origin inner) es
    | some (.tables earlier last) => (within f path last).map fun last => Table.put k (.tables earlier last) es
    | _ => none

end Entries

end Workbench.Toml
