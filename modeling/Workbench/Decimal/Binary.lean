/-
Double-precision numbers as integers times powers of two.

A finite `Float` is `± m · 2 ^ q`; `Dyadic.ofFloat?` reads that off its bits and
`nearest` goes back: it rounds a quotient of naturals to the nearest double, a
half to the even neighbour, by exact arithmetic. Everything this library says
about the size or the text of a number goes through these two.
-/

namespace Workbench.Decimal

/-- The number `± m · 2 ^ q`. -/
structure Dyadic where
  negative : Bool
  m : Nat
  q : Int
  deriving DecidableEq, Repr

/-- The leading bit of a significand, 2⁵²; numbers near zero do without it. -/
abbrev leadingBit : Nat := 4503599627370496

/-- The bit of a double that holds its sign, 2⁶³. -/
abbrev signBit : Nat := 9223372036854775808

/-- How many integers 64 bits hold, 2⁶⁴. -/
abbrev wordCount : Nat := 18446744073709551616

/-- The exact value of a finite double, and nothing for infinities and for what is not a number. -/
def Dyadic.ofFloat? (x : Float) : Option Dyadic :=
  let bits : Nat := x.toBits.toNat
  let negative := bits / signBit == 1
  let exponent : Nat := bits / leadingBit % 2048
  let fraction : Nat := bits % leadingBit
  if exponent = 2047 then none
  else if exponent = 0 then some ⟨negative, fraction, -1074⟩
  else some ⟨negative, fraction + leadingBit, (exponent : Int) - 1075⟩

/-- Whether a double is neither infinite nor undefined. -/
def isFinite (x : Float) : Bool := (Dyadic.ofFloat? x).isSome

/-- The absolute value as a natural number, where it is one. -/
def Dyadic.magnitude? (d : Dyadic) : Option Nat :=
  match d.q with
  | .ofNat k => some (d.m * Nat.pow 2 k)
  | .negSucc k =>
    if d.m % Nat.pow 2 (k + 1) = 0 then some (d.m / Nat.pow 2 (k + 1)) else none

/-- `num / den`, rounded to the nearest integer, a half to the even neighbour. -/
def roundHalfEven (num den : Nat) : Nat :=
  let k := num / den
  let twice := 2 * (num % den)
  if twice < den then k
  else if den < twice then k + 1
  else if k % 2 = 0 then k else k + 1

/-- The double with the given significand and exponent, `m < 2 * leadingBit`; too large a number is
infinite. -/
def assemble (negative : Bool) (m : Nat) (q : Int) : Float :=
  let sign : Nat := if negative then signBit else 0
  let bits : Nat :=
    if m < leadingBit then m
    else if 972 ≤ q then 2047 * leadingBit
    else (q + 1075).toNat * leadingBit + (m - leadingBit)
  Float.ofBits (UInt64.ofNat (sign + bits))

/-- The exponent at which a positive quotient has a significand of 53 bits, or the least exponent. -/
def exponentOf (num den : Nat) : Int :=
  let guess : Int := (num.log2 : Int) - (den.log2 : Int) - 52
  -- the quotient has 53 or 52 bits at the guess; in the second case one step down is right
  let small :=
    if 0 ≤ guess then num < den * Nat.pow 2 (guess.toNat + 52)
    else num * Nat.pow 2 (-guess).toNat < den * leadingBit
  max (if small then guess - 1 else guess) (-1074)

/-- The double nearest to `± num / den`, a half going to the even neighbour. -/
def nearest (negative : Bool) (num den : Nat) : Float :=
  if num = 0 ∨ den = 0 then assemble negative 0 0
  else
    let q := exponentOf num den
    let m :=
      if 0 ≤ q then roundHalfEven num (den * Nat.pow 2 q.toNat)
      else roundHalfEven (num * Nat.pow 2 (-q).toNat) den
    if m = 2 * leadingBit then assemble negative leadingBit (q + 1) else assemble negative m q

/-- The double nearest to an integer. -/
def ofInt (n : Int) : Float := nearest (n < 0) n.natAbs 1

/-- A double as an integer of 64 bits without sign: rounded to the nearest, a half away from zero; what is
out of range goes to the nearest end of the range, and what is not a number to zero. -/
def roundedWord (x : Float) : Nat :=
  match Dyadic.ofFloat? x with
  | none => if x.toBits = 0x7FF0000000000000 then wordCount - 1 else 0
  | some d =>
    if d.negative then 0
    else
      let n := match d.q with
        | .ofNat k => d.m * Nat.pow 2 k
        | .negSucc k => (d.m + Nat.pow 2 k) / Nat.pow 2 (k + 1)
      min n (wordCount - 1)

/-- A double as an integer of 64 bits without sign: the fraction is dropped, what is out of range
goes to the nearest end of the range. -/
def toWord (x : Float) : Nat := x.toUInt64.toNat

end Workbench.Decimal
