/-
The script language: one command on a line.

A command binds a name, displays a value, sleeps, spins until it is stopped,
fails with a message, or is an expression whose value is the program's so far.
-/
import Workbench.Json.Coding

namespace Workbench.Script

/-- Expressions. -/
inductive Expr where
  | number (x : Float)
  | text (s : String)
  | bool (b : Bool)
  | name (n : String)
  | add (left right : Expr)
  deriving DecidableEq

/-- Commands. -/
inductive Command where
  | bind (name : String) (value : Expr)
  | display (e : Expr)
  /-- for so many milliseconds -/
  | sleep (ms : Nat)
  | spin
  | fail (message : String)
  | value (e : Expr)
  deriving DecidableEq

/-- A command and the line on which it stands. -/
structure Statement where
  line : Int32
  command : Command
  deriving DecidableEq

/-! ## Encoding -/

/-- An expression's encoding. -/
def Expr.toJson : Expr → Json
  | .number x => .obj [("Number", encode x)]
  | .text s => .obj [("Str", .str s)]
  | .bool b => .obj [("Bool", .bool b)]
  | .name n => .obj [("Ident", .str n)]
  | .add l r => .obj [("Add", .arr [l.toJson, r.toJson])]

/-- The expression of an encoding. -/
def Expr.ofJson? : Json → Option Expr
  | .obj [(tag, content)] =>
    match tag, content with
    | "Number", j => (decode? j).map .number
    | "Str", j => (decode? j).map .text
    | "Bool", j => (decode? j).map .bool
    | "Ident", j => (decode? j).map .name
    | "Add", .arr [l, r] => do return .add (← Expr.ofJson? l) (← Expr.ofJson? r)
    | _, _ => none
  | _ => none

instance : Coded Expr := ⟨Expr.toJson, Expr.ofJson?⟩

instance : Coded Command where
  encode
    | .bind name value => .obj [("Let", .obj [("name", .str name), ("value", encode value)])]
    | .display e => .obj [("Display", encode e)]
    | .sleep ms => .obj [("Sleep", encode ms)]
    | .spin => .str "Spin"
    | .fail message => .obj [("Error", .str message)]
    | .value e => .obj [("Expr", encode e)]
  decode? j := do
    let (tag, content) ← j.external
    match tag, content with
    | "Let", .given (.obj members) =>
      let [name, value] ← (Json.obj members).fields ["name", "value"] | none
      return .bind (← name.required) (← value.required)
    | "Display", content => return .display (← content.required)
    | "Sleep", content => return .sleep (← content.required)
    | "Spin", content => content.empty; return .spin
    | "Error", content => return .fail (← content.required)
    | "Expr", content => return .value (← content.required)
    | _, _ => none

instance : Coded Statement where
  encode s := .obj [("line", encode s.line), ("kind", encode s.command)]
  decode? j := do
    let [line, command] ← j.fields ["line", "kind"] | none
    return { line := ← line.required, command := ← command.required }

end Workbench.Script
