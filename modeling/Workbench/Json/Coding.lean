/-
Types with a JSON encoding.

`Coded` pairs an encoder with a decoder that refuses what does not fit. A record
is written as an object and read from an object, whose other members are
ignored, or from an array of its fields in order; `Json.fields` gives both one
shape, and a `Field` says what to do when it is missing. Alternatives are
written in three ways, read by `Json.adjacent` (a tag beside its content),
`Json.external` (the content under the tag) and `Json.internal` (the tag among
the fields).
-/
import Workbench.Decimal.Binary
import Workbench.Json.Value

namespace Workbench

/-- A type whose values are written as JSON and read back. -/
class Coded (α : Type) where
  encode : α → Json
  decode? : Json → Option α

export Coded (encode decode?)

namespace Json

/-! ## Records -/

/-- A field of a record as it was found. -/
inductive Field where
  /-- it stands there -/
  | given (j : Json)
  /-- an object without it -/
  | absent
  /-- an array that ends before it -/
  | cut

/-- The fields of the given names. -/
def fields (names : List String) : Json → Option (List Field)
  | .obj members => some (names.map fun n => match lookup n members with | some j => .given j | none => .absent)
  | .arr items =>
    if items.length ≤ names.length then
      some (items.map .given ++ List.replicate (names.length - items.length) .cut)
    else none
  | _ => none

namespace Field

/-- A field that must be there. -/
def required {α : Type} [Coded α] : Field → Option α
  | .given j => decode? j
  | _ => none

/-- A field with a value of its own when it is missing. -/
def withDefault {α : Type} [Coded α] (a : α) : Field → Option α
  | .given j => decode? j
  | _ => some a

/-- A field that is `null`, or missing from an object, when it has no value. -/
def optional {α : Type} [Coded α] : Field → Option (Option α)
  | .given .null => some none
  | .given j => (decode? j).map some
  | .absent => some none
  | .cut => none

/-- No content: nothing or `null`. -/
def empty : Field → Option Unit
  | .given .null => some ()
  | .absent => some ()
  | _ => none

end Field

/-! ## Alternatives -/

/-- A tag and its content, beside each other. -/
def adjacent (tag content : String) : Json → Option (String × Field)
  | .obj members =>
    match lookup tag members with
    | some (.str t) => some (t, match lookup content members with | some j => .given j | none => .absent)
    | _ => none
  | .arr [.str t, j] => some (t, .given j)
  | _ => none

/-- A tag alone, or the content under its tag. -/
def external : Json → Option (String × Field)
  | .str t => some (t, .absent)
  | .obj [(t, j)] => some (t, .given j)
  | _ => none

/-- A tag among the fields: what is left is a record. -/
def internal (tag : String) : Json → Option (String × Json)
  | .obj members =>
    match lookup tag members with
    | some (.str t) => some (t, .obj (members.filter (·.1 ≠ tag)))
    | _ => none
  | .arr (.str t :: items) => some (t, .arr items)
  | _ => none

end Json

/-- A type of plain names. -/
@[reducible]
def Coded.ofNames {α : Type} (name : α → String) (ofName? : String → Option α) : Coded α where
  encode a := .str (name a)
  decode? j := do
    let (t, field) ← j.external
    field.empty
    ofName? t

/-! ## Basic types -/

instance : Coded Json where
  encode j := j
  decode? j := some j

instance : Coded String where
  encode s := .str s
  decode? | .str s => some s | _ => none

instance : Coded Bool where
  encode b := .bool b
  decode? | .bool b => some b | _ => none

/-- Counts and times. The reader makes no whole number that exceeds 64 bits, so none is refused here. -/
instance : Coded Nat where
  encode n := .int n
  decode? | .int n => if 0 ≤ n then some n.toNat else none | _ => none

instance : Coded UInt8 where
  encode n := .int n.toNat
  decode? | .int n => if 0 ≤ n ∧ n < 256 then some (UInt8.ofNat n.toNat) else none | _ => none

instance : Coded UInt32 where
  encode n := .int n.toNat
  decode? | .int n => if 0 ≤ n ∧ n < 4294967296 then some (UInt32.ofNat n.toNat) else none | _ => none

instance : Coded Int32 where
  encode n := .int n.toInt
  decode? | .int n => if -2147483648 ≤ n ∧ n < 2147483648 then some (Int32.ofInt n) else none | _ => none

/-- A floating-point number is also read from a whole number; without a finite value it is `null`. -/
instance : Coded Float where
  encode x := if Decimal.isFinite x then .float x else .null
  decode? | .float x => some x | .int n => some (Decimal.ofInt n) | _ => none

instance {α : Type} [Coded α] : Coded (Option α) where
  encode | some a => encode a | none => .null
  decode? | .null => some none | j => (decode? j).map some

instance {α : Type} [Coded α] : Coded (List α) where
  encode as := .arr (as.map encode)
  decode? | .arr items => items.mapM decode? | _ => none

instance {α β : Type} [Coded α] [Coded β] : Coded (α × β) where
  encode p := .arr [encode p.1, encode p.2]
  decode? | .arr [a, b] => do return (← decode? a, ← decode? b) | _ => none

end Workbench
