/-
JSON values as text.

`compact` writes no blanks; `pretty` puts every item and member on a line of its
own, two blanks deeper than what holds it, and writes empty ones as `[]` and
`{}`. Both write members in the order in which the object has them. In a text
only the quote, the backslash and the control characters below the blank are
escaped; a floating-point number that is not finite has no JSON text and is
written `null`.
-/
import Workbench.Decimal.Notation
import Workbench.Json.Value
import Workbench.Text.Line

namespace Workbench.Json

/-- A digit of base sixteen. -/
def hexDigit (n : Nat) : Char := if n < 10 then Char.ofNat (48 + n) else Char.ofNat (87 + n)

/-- A character inside quotes. -/
def escape (c : Char) : List Char :=
  if c = '"' then ['\\', '"']
  else if c = '\\' then ['\\', '\\']
  else if c = '\n' then ['\\', 'n']
  else if c = '\t' then ['\\', 't']
  else if c = '\r' then ['\\', 'r']
  else if c.toNat = 8 then ['\\', 'b']
  else if c.toNat = 12 then ['\\', 'f']
  else if c.toNat < 32 then ['\\', 'u', '0', '0', hexDigit (c.toNat / 16), hexDigit (c.toNat % 16)]
  else [c]

/-- A text in quotes. -/
def quote (s : String) : String := String.ofList ('"' :: s.toList.flatMap escape ++ ['"'])

/-- A floating-point number. -/
def floatText (x : Float) : String := (Decimal.text? x).getD "null"

mutual
/-- The value without blanks. -/
def compact : Json → String
  | .null => "null"
  | .bool true => "true"
  | .bool false => "false"
  | .int n => toString n
  | .float x => floatText x
  | .str s => quote s
  | .arr items => "[" ++ Text.joined "," (compactItems items) ++ "]"
  | .obj members => "\x7b" ++ Text.joined "," (compactMembers members) ++ "\x7d"

/-- The items, each without blanks. -/
def compactItems : List Json → List String
  | [] => []
  | item :: rest => compact item :: compactItems rest

/-- The members, each without blanks. -/
def compactMembers : List (String × Json) → List String
  | [] => []
  | (k, v) :: rest => (quote k ++ ":" ++ compact v) :: compactMembers rest
end

/-- The blanks in front of a line. -/
def indent (depth : Nat) : String := String.ofList (List.replicate (2 * depth) ' ')

/-- Lines between brackets, or the brackets alone. -/
def block (open_ close : String) (depth : Nat) (inner : List String) : String :=
  if inner.isEmpty then open_ ++ close
  else open_ ++ "\n" ++ Text.joined ",\n" (inner.map (indent (depth + 1) ++ ·)) ++ "\n" ++ indent depth ++ close

mutual
/-- The value on lines, `depth` levels deep. -/
def prettyAt (depth : Nat) : Json → String
  | .null => "null"
  | .bool true => "true"
  | .bool false => "false"
  | .int n => toString n
  | .float x => floatText x
  | .str s => quote s
  | .arr items => block "[" "]" depth (prettyItems (depth + 1) items)
  | .obj members => block "\x7b" "\x7d" depth (prettyMembers (depth + 1) members)

/-- The items, `depth` levels deep. -/
def prettyItems (depth : Nat) : List Json → List String
  | [] => []
  | item :: rest => prettyAt depth item :: prettyItems depth rest

/-- The members, `depth` levels deep. -/
def prettyMembers (depth : Nat) : List (String × Json) → List String
  | [] => []
  | (k, v) :: rest => (quote k ++ ": " ++ prettyAt depth v) :: prettyMembers depth rest
end

/-- The value on lines of its own. -/
def pretty (j : Json) : String := prettyAt 0 j

end Workbench.Json
