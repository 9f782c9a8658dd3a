/-
Decimal notation of doubles.

`shortest` finds the coarsest decimal grid that has a point reading back as the
given double, and on it the point nearest to the double. `render` writes the
digits by a `Layout`; `read` takes a decimal text back to the nearest double.
-/
import Workbench.Decimal.Binary

namespace Workbench.Decimal

/-- The number `digits · 10 ^ exponent`. -/
structure Scaled where
  digits : Nat
  exponent : Int
  deriving DecidableEq, Repr

/-- What reads back as a double: all between `low` and `high`, counted in quarters of
`2 ^ q`, the ends included iff `closed`. -/
structure Interval where
  low : Nat
  value : Nat
  high : Nat
  closed : Bool
  q : Int
  deriving DecidableEq, Repr

/-- The interval of a double. Below a power of two the next double is only half as far away. -/
def Dyadic.interval (d : Dyadic) : Interval where
  low := if d.m = leadingBit ∧ -1074 < d.q then 4 * d.m - 1 else 4 * d.m - 2
  value := 4 * d.m
  high := 4 * d.m + 2
  closed := d.m % 2 = 0
  q := d.q - 2

/-- `a · 2 ^ q` and `c · 10 ^ k` as integers of one scale. -/
def Interval.scaled (i : Interval) (a : Nat) (k : Int) : Nat :=
  a * Nat.pow 2 i.q.toNat * Nat.pow 10 (-k).toNat

/-- The point `c · 10 ^ k` on the same scale. -/
def Interval.point (i : Interval) (c : Nat) (k : Int) : Nat :=
  c * Nat.pow 10 k.toNat * Nat.pow 2 (-i.q).toNat

/-- Whether `c · 10 ^ k` reads back as the double. -/
def Interval.holds (i : Interval) (c : Nat) (k : Int) : Bool :=
  let p := i.point c k
  let low := i.scaled i.low k
  let high := i.scaled i.high k
  c ≠ 0 && (if i.closed then low ≤ p && p ≤ high else low < p && p < high)

/-- The point of the grid `10 ^ k` that reads back and is nearest to the value; a tie goes to the
even one. -/
def Interval.hit? (i : Interval) (k : Int) : Option Nat :=
  let unit := i.point 1 k
  let value := i.scaled i.value k
  let below := value / unit
  match i.holds below k, i.holds (below + 1) k with
  | true, true =>
    let down := value - below * unit
    let up := (below + 1) * unit - value
    if down < up then some below
    else if up < down then some (below + 1)
    else some (if below % 2 = 0 then below else below + 1)
  | true, false => some below
  | false, true => some (below + 1)
  | false, false => none

/-- The first grid from `10 ^ k` downwards that has a point reading back. -/
def Interval.coarsest (i : Interval) : Nat → Int → Scaled
  | 0, k => ⟨0, k⟩
  | steps + 1, k =>
    match i.hit? k with
    | some c => ⟨c, k⟩
    | none => i.coarsest steps (k - 1)

/-- The fewest digits that read back as `m · 2 ^ q`, the nearest such number. -/
def shortest (d : Dyadic) : Scaled :=
  if d.m = 0 then ⟨0, 0⟩
  else
    -- `10 ^ k` lies above the number at the first grid, and every double lies on the grid `10 ^ (-1100)`
    let top : Int := d.q + d.m.log2 + 1
    let k : Int := if 0 ≤ top then top * 31 / 100 + 1 else top * 3 / 10 + 1
    d.interval.coarsest ((k + 1100).toNat) k

/-- How digits are laid out. -/
structure Layout where
  /-- the least exponent of the first digit that is written without an exponent -/
  positionalFrom : Int
  /-- the least exponent, above that, written with one again -/
  positionalTo : Int
  /-- what a whole number ends in when it is written without an exponent -/
  wholeSuffix : String
  /-- the sign before an exponent that is not negative -/
  exponentSign : String

/-- Digits by a layout: `d` is the text of the digits, `exponent` that of the last one. -/
def Layout.digits (l : Layout) (d : List Char) (exponent : Int) : String :=
  let lead : Int := exponent + d.length - 1
  if l.positionalFrom ≤ lead ∧ lead < l.positionalTo then
    if 0 ≤ exponent then
      String.ofList (d ++ List.replicate exponent.toNat '0') ++ l.wholeSuffix
    else if 0 ≤ lead then
      String.ofList (d.take (lead.toNat + 1)) ++ "." ++ String.ofList (d.drop (lead.toNat + 1))
    else
      "0." ++ String.ofList (List.replicate ((-lead).toNat - 1) '0' ++ d)
  else
    let mantissa := match d with
      | [] => ""
      | [c] => String.ofList [c]
      | c :: rest => String.ofList [c] ++ "." ++ String.ofList rest
    let sign := if 0 ≤ lead then l.exponentSign else "-"
    mantissa ++ "e" ++ sign ++ toString lead.natAbs

/-- The text of a natural number. -/
def natText (n : Nat) : List Char := Nat.toDigits 10 n

/-- A finite double by a layout; zero is written like a whole number of one digit. -/
def Layout.render (l : Layout) (d : Dyadic) : String :=
  let s := shortest d
  (if d.negative then "-" else "") ++ l.digits (natText s.digits) s.exponent

/-- Numbers are written without an exponent from 10⁻⁵ up to 10¹⁶, then always with a fraction, and
with a signed exponent otherwise. -/
def plain : Layout := ⟨-5, 16, ".0", "+"⟩

/-- The text of a finite double in the plain layout. -/
def text? (x : Float) : Option String := (Dyadic.ofFloat? x).map plain.render

/-! ## Reading -/

/-- The value of a character as a decimal digit. -/
def digit? (c : Char) : Option Nat := if c.isDigit then some (c.toNat - '0'.toNat) else none

/-- The number that a row of digits denotes; other characters are passed over. -/
def ofDigits (cs : List Char) : Nat :=
  cs.foldl (fun n c => match digit? c with | some d => 10 * n + d | none => n) 0

/-- The double nearest to `± digits · 10 ^ exponent`. -/
def ofScaled (negative : Bool) (digits : Nat) (exponent : Int) : Float :=
  -- past these exponents the result is infinite or zero whatever the digits
  let size : Int := exponent + (natText digits).length
  if digits = 0 ∨ size < -400 then nearest negative 0 1
  else if 400 < size then assemble negative leadingBit 972
  else if 0 ≤ exponent then nearest negative (digits * Nat.pow 10 exponent.toNat) 1
  else nearest negative digits (Nat.pow 10 (-exponent).toNat)

/-- A decimal text in its parts. -/
structure Numeral where
  negative : Bool
  whole : List Char
  fraction : List Char
  exponent : Int

/-- The double nearest to a numeral. -/
def Numeral.value (n : Numeral) : Float :=
  ofScaled n.negative (ofDigits (n.whole ++ n.fraction)) (n.exponent - n.fraction.length)

/-- A row of digits and what follows it. -/
def takeDigits (cs : List Char) : List Char × List Char := (cs.takeWhile Char.isDigit, cs.dropWhile Char.isDigit)

/-- An optional sign and what follows it. -/
def takeSign : List Char → Bool × List Char
  | '-' :: rest => (true, rest)
  | '+' :: rest => (false, rest)
  | rest => (false, rest)

/-- An exponent that reaches to the end of the text. -/
def readExponent? : List Char → Option Int
  | [] => some 0
  | c :: rest =>
    if c = 'e' ∨ c = 'E' then
      let (negative, body) := takeSign rest
      if body ≠ [] ∧ body.all Char.isDigit then
        some (if negative then -(ofDigits body : Int) else ofDigits body)
      else none
    else none

/-- A decimal text: a sign, digits with a point before, among or after them, an exponent. -/
def readNumeral? (cs : List Char) : Option Numeral :=
  let (negative, body) := takeSign cs
  let (whole, rest) := takeDigits body
  let (fraction, tail) := match rest with
    | '.' :: r => takeDigits r
    | r => ([], r)
  if whole = [] ∧ fraction = [] then none
  else (readExponent? tail).map fun e => ⟨negative, whole, fraction, e⟩

/-- A number with a sign, digits or one of the words for infinity and for what is not a number. -/
def readFloat? (cs : List Char) : Option Float :=
  match readNumeral? cs with
  | some n => some n.value
  | none =>
    let (negative, body) := takeSign cs
    let word := body.map Char.toLower
    if word = "inf".toList ∨ word = "infinity".toList then some (assemble negative leadingBit 972)
    else if word = "nan".toList then some (0.0 / 0.0)
    else none

/-- An integer with an optional sign, digits only. -/
def readInt? (cs : List Char) : Option Int :=
  let (negative, body) := takeSign cs
  if body ≠ [] ∧ body.all Char.isDigit then
    some (if negative then -(ofDigits body : Int) else ofDigits body)
  else none

end Workbench.Decimal
