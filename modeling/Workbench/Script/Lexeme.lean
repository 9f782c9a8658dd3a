/-
What the script language is written with: gaps, line breaks, names, numbers and
quoted texts.

Each function here measures how far its lexeme reaches at the start of a text,
so that what stands behind it is the text dropped by that measure.
-/
import Workbench.Decimal.Notation
import Workbench.Text.Line

namespace Workbench.Script

/-! ## Between lexemes -/

/-- A character of a line break. -/
def isBreak (c : Char) : Bool := c = '\n' || c = '\r'

/-- How far blanks, tabs and a comment reach; `inComment` once two slashes have been seen. A
comment ends before the line break. -/
def gapFrom (inComment : Bool) : List Char → Nat
  | [] => 0
  | c :: rest =>
    if inComment then
      if isBreak c then 0 else gapFrom true rest + 1
    else if c = ' ' ∨ c = '\t' then gapFrom false rest + 1
    else
      match c, rest with
      | '/', '/' :: more => gapFrom true more + 2
      | _, _ => 0

/-- How far blanks, tabs and a comment reach. -/
def gap (cs : List Char) : Nat := gapFrom false cs

/-- A line break: a line feed, a carriage return, or both in that order of return and feed. -/
def breakLength? : List Char → Option Nat
  | '\n' :: _ => some 1
  | '\r' :: '\n' :: _ => some 2
  | '\r' :: _ => some 1
  | _ => none

/-! ## Words -/

/-- A character that a name may start with. -/
def isNameStart (c : Char) : Bool := c.isAlpha || c = '_'

/-- A character that a name may go on with. -/
def isNamePart (c : Char) : Bool := c.isAlphanum || c = '_'

/-- The longest run of name characters. -/
def word (cs : List Char) : List Char := cs.takeWhile isNamePart

/-- Words that are no names. -/
def keywords : List (List Char) :=
  ["let", "display", "sleep", "spin", "error", "true", "false"].map String.toList

/-- A name: a word that starts like one and is no keyword. -/
def name? (cs : List Char) : Option (String × Nat) :=
  match cs with
  | [] => none
  | c :: _ =>
    let w := word cs
    if isNameStart c && !keywords.contains w then some (String.ofList w, w.length) else none

/-- The keyword `k` as a whole word. -/
def keyword? (k : String) (cs : List Char) : Option (Unit × Nat) :=
  if word cs = k.toList then some ((), k.length) else none

/-- A truth value. -/
def bool? (cs : List Char) : Option (Bool × Nat) :=
  if word cs = "true".toList then some (true, 4)
  else if word cs = "false".toList then some (false, 5)
  else none

/-! ## Numbers -/

/-- A number: digits, behind a minus sign if there is one, and a fraction if a digit follows the point. -/
def number? (cs : List Char) : Option (Float × Nat) :=
  let (negative, body) : Bool × List Char := match cs with
    | '-' :: rest => (true, rest)
    | rest => (false, rest)
  let (whole, rest) := Decimal.takeDigits body
  if whole = [] then none
  else
    let fraction : List Char := match rest with
      | '.' :: more => (Decimal.takeDigits more).1
      | _ => []
    let length := (if negative then 1 else 0) + whole.length
      + (if fraction = [] then 0 else fraction.length + 1)
    some (Decimal.Numeral.value ⟨negative, whole, fraction, 0⟩, length)

/-! ## Quoted texts -/

/-- The characters of a quoted text after its opening quote, and how far it reaches with the closing
one. Behind a backslash `n` and `t` stand for a line feed and a tab, any other character for itself. -/
def quotedFrom? : List Char → Option (List Char × Nat)
  | [] => none
  | '"' :: _ => some ([], 1)
  | '\\' :: [] => none
  | '\\' :: c :: rest =>
    (quotedFrom? rest).map fun (cs, n) =>
      ((if c = 'n' then '\n' else if c = 't' then '\t' else c) :: cs, n + 2)
  | c :: rest => (quotedFrom? rest).map fun (cs, n) => (c :: cs, n + 1)

/-- A text in quotes. -/
def quoted? : List Char → Option (String × Nat)
  | '"' :: rest => (quotedFrom? rest).map fun (cs, n) => (String.ofList cs, n + 1)
  | _ => none

end Workbench.Script
