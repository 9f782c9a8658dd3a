/-
Reading JSON text.

`read?` takes a whole text to its value, or to nothing when the text is not
JSON. A number without fraction and exponent is a whole number when it fits 64
bits, with or without sign, and a floating-point number otherwise, which must be
finite; a text may not hold half of a surrogate pair. Objects come out sorted by key, and of equal
keys the last counts.

The functions for values, items and members call each other on what is left of
the text, so they are given a bound on their calls; `read?` computes one from
the length of the text.
-/
import Workbench.Decimal.Notation
import Workbench.Json.Value

namespace Workbench.Json

/-- The blanks that JSON allows between tokens. -/
def isSpace (c : Char) : Bool := c = ' ' || c = '\n' || c = '\t' || c = '\r'

/-- The text after blanks. -/
def skipSpace (cs : List Char) : List Char := cs.dropWhile isSpace

/-- The value of a digit of base sixteen. -/
def hexValue? (c : Char) : Option Nat :=
  if c.isDigit then some (c.toNat - 48)
  else if 'a' ≤ c ∧ c ≤ 'f' then some (c.toNat - 87)
  else if 'A' ≤ c ∧ c ≤ 'F' then some (c.toNat - 55)
  else none

/-- The number of four digits of base sixteen. -/
def unit? (a b c d : Char) : Option Nat := do
  let a ← hexValue? a
  let b ← hexValue? b
  let c ← hexValue? c
  let d ← hexValue? d
  return ((a * 16 + b) * 16 + c) * 16 + d

/-- The character of an escape of one letter. -/
def unescape? (c : Char) : Option Char :=
  if c = '"' ∨ c = '\\' ∨ c = '/' then some c
  else if c = 'n' then some '\n'
  else if c = 't' then some '\t'
  else if c = 'r' then some '\r'
  else if c = 'b' then some '\x08'
  else if c = 'f' then some '\x0c'
  else none

/-- The characters up to the closing quote, and what follows it. -/
def readQuoted? : List Char → Option (List Char × List Char)
  | [] => none
  | '"' :: rest => some ([], rest)
  | '\\' :: 'u' :: a :: b :: c :: d :: rest =>
    match unit? a b c d with
    | none => none
    | some high =>
      if 0xD800 ≤ high ∧ high < 0xDC00 then
        match rest with
        | '\\' :: 'u' :: e :: f :: g :: h :: rest =>
          match unit? e f g h with
          | none => none
          | some low =>
            if 0xDC00 ≤ low ∧ low < 0xE000 then
              (readQuoted? rest).map fun (cs, r) =>
                (Char.ofNat (0x10000 + (high - 0xD800) * 0x400 + (low - 0xDC00)) :: cs, r)
            else none
        | _ => none
      else if 0xDC00 ≤ high ∧ high < 0xE000 then none
      else (readQuoted? rest).map fun (cs, r) => (Char.ofNat high :: cs, r)
  | '\\' :: c :: rest =>
    match unescape? c with
    | none => none
    | some c => (readQuoted? rest).map fun (cs, r) => (c :: cs, r)
  | c :: rest =>
    if c = '\\' ∨ c.toNat < 32 then none
    else (readQuoted? rest).map fun (cs, r) => (c :: cs, r)

/-- A floating-point number, which must be finite. -/
def ofDouble? (x : Float) : Option Json := if Decimal.isFinite x then some (.float x) else none

/-- A whole number in its place: what 64 bits do not hold is a floating-point number. -/
def ofWhole? (negative : Bool) (n : Nat) : Option Json :=
  if negative then
    if n = 0 ∨ Decimal.signBit < n then ofDouble? (Decimal.nearest true n 1) else some (.int (-(n : Int)))
  else if n < Decimal.wordCount then some (.int n) else ofDouble? (Decimal.nearest false n 1)

/-- A minus sign, if there is one, and what follows it. -/
def takeMinus : List Char → Bool × List Char
  | [] => (false, [])
  | c :: rest => if c = '-' then (true, rest) else (false, c :: rest)

/-- The digits behind a point, if there is one, and what follows them. -/
def readFraction? : List Char → Option (Option (List Char) × List Char)
  | [] => some (none, [])
  | c :: rest =>
    if c = '.' then
      let (digits, tail) := Decimal.takeDigits rest
      if digits = [] then none else some (some digits, tail)
    else some (none, c :: rest)

/-- An exponent, if there is one, and what follows it. -/
def readExponent? : List Char → Option (Option Int × List Char)
  | [] => some (none, [])
  | c :: rest =>
    if c = 'e' ∨ c = 'E' then
      let (down, body) := Decimal.takeSign rest
      let (digits, tail) := Decimal.takeDigits body
      if digits = [] then none
      else some (some (if down then -(Decimal.ofDigits digits : Int) else Decimal.ofDigits digits), tail)
    else some (none, c :: rest)

/-- A number and what follows it. -/
def readNumber? (cs : List Char) : Option (Json × List Char) :=
  let (negative, body) := takeMinus cs
  let (whole, rest) := Decimal.takeDigits body
  if whole = [] ∨ (whole.head? = some '0' ∧ whole ≠ ['0']) then none
  else
    match readFraction? rest with
    | none => none
    | some (fraction, rest) =>
      match readExponent? rest with
      | none => none
      | some (exponent, rest) =>
        let number :=
          if fraction.isNone ∧ exponent.isNone then ofWhole? negative (Decimal.ofDigits whole)
          else ofDouble? (Decimal.Numeral.value ⟨negative, whole, fraction.getD [], exponent.getD 0⟩)
        number.map fun j => (j, rest)

/-- The text after a word it starts with. -/
def after? (word : List Char) (cs : List Char) : Option (List Char) :=
  if word.isPrefixOf cs then some (cs.drop word.length) else none

mutual
/-- A value and what follows it. -/
def readValue? : Nat → List Char → Option (Json × List Char)
  | 0, _ => none
  | calls + 1, cs =>
    match skipSpace cs with
    | '"' :: rest => (readQuoted? rest).map fun (s, r) => (.str (String.ofList s), r)
    | '[' :: rest =>
      match skipSpace rest with
      | ']' :: rest => some (.arr [], rest)
      | rest => (readItems? calls rest).map fun (items, r) => (.arr items, r)
    | '\x7b' :: rest =>
      match skipSpace rest with
      | '\x7d' :: rest => some (.obj [], rest)
      | rest => (readMembers? calls rest).map fun (members, r) => (object members, r)
    | 'n' :: rest => (after? "ull".toList rest).map fun r => (.null, r)
    | 't' :: rest => (after? "rue".toList rest).map fun r => (.bool true, r)
    | 'f' :: rest => (after? "alse".toList rest).map fun r => (.bool false, r)
    | rest => readNumber? rest

/-- Items up to the closing bracket, at least one. -/
def readItems? : Nat → List Char → Option (List Json × List Char)
  | 0, _ => none
  | calls + 1, cs =>
    match readValue? calls cs with
    | none => none
    | some (item, rest) =>
      match skipSpace rest with
      | ',' :: rest => (readItems? calls rest).map fun (items, r) => (item :: items, r)
      | ']' :: rest => some ([item], rest)
      | _ => none

/-- Members up to the closing brace, at least one. -/
def readMembers? : Nat → List Char → Option (List (String × Json) × List Char)
  | 0, _ => none
  | calls + 1, cs =>
    match skipSpace cs with
    | '"' :: rest =>
      match readQuoted? rest with
      | none => none
      | some (key, rest) =>
        match skipSpace rest with
        | ':' :: rest =>
          match readValue? calls rest with
          | none => none
          | some (v, rest) =>
            match skipSpace rest with
            | ',' :: rest =>
              (readMembers? calls rest).map fun (members, r) => ((String.ofList key, v) :: members, r)
            | '\x7d' :: rest => some ([(String.ofList key, v)], rest)
            | _ => none
        | _ => none
    | _ => none
end

/-- The value of a JSON text. -/
def read? (s : String) : Option Json :=
  let cs := s.toList
  match readValue? (2 * cs.length + 2) cs with
  | some (j, rest) => if skipSpace rest = [] then some j else none
  | none => none

end Workbench.Json
