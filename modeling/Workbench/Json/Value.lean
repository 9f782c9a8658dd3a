/-
JSON values, with whole numbers and floating-point numbers apart.

`1` and `1.0` are different values here and stay what they were. Members of an
object keep their order; `Json.object` builds the object whose members are
sorted by key and where the last of several equal keys counts, which is what
the reader makes of any object.
-/

namespace Workbench

/-- A JSON value. -/
inductive Json where
  | null
  | bool (b : Bool)
  | int (n : Int)
  | float (x : Float)
  | str (s : String)
  | arr (items : List Json)
  | obj (members : List (String × Json))

namespace Json

instance : Inhabited Json := ⟨.null⟩

/-- The members with one more, in the order of keys; an equal key is replaced. -/
def insertMember (k : String) (v : Json) : List (String × Json) → List (String × Json)
  | [] => [(k, v)]
  | (j, w) :: rest =>
    if k < j then (k, v) :: (j, w) :: rest
    else if k = j then (k, v) :: rest
    else (j, w) :: insertMember k v rest

/-- The object of the given members, sorted by key; of equal keys the last counts. -/
def object (members : List (String × Json)) : Json :=
  .obj (members.foldl (fun acc m => insertMember m.1 m.2 acc) [])

/-- The value of a key among members: the first one counts. -/
def lookup (k : String) : List (String × Json) → Option Json
  | [] => none
  | (j, v) :: rest => if j = k then some v else lookup k rest

/-- The member of an object. -/
def get? (j : Json) (k : String) : Option Json :=
  match j with
  | .obj members => lookup k members
  | _ => none

/-- A texts' array. -/
def texts (ss : List String) : Json := .arr (ss.map .str)

end Json

end Workbench
