/-
Which numbers are rounded to a double.

A double is the nearest to all numbers of an interval around it (`Dyadic.interval`),
whose ends belong to it if the significand is even. Below a power of two the next
double is only half as far away, so there the interval ends earlier; a number
between is rounded at an exponent one less, up to the next power of two. So every
quotient within the interval of a double is rounded to it (`nearest_within`), and so is
every decimal there (`ofScaled_within`).
-/
import Mathlib
import Workbench.Decimal.Notation

namespace Workbench.Decimal

/-! ## Doubles by their parts -/

/-- The parts of a finite double: a full significand, or the least exponent. -/
def Dyadic.IsDouble (d : Dyadic) : Prop :=
  d.m < leadingBit ∧ d.q = -1074 ∨ leadingBit ≤ d.m ∧ d.m < 2 * leadingBit ∧ -1074 ≤ d.q ∧ d.q ≤ 971

theorem Dyadic.isDouble {x : Float} {d : Dyadic} (finite : ofFloat? x = some d) : d.IsDouble := by
  unfold ofFloat? at finite
  dsimp only at finite
  have fraction : x.toBits.toNat % leadingBit < leadingBit := Nat.mod_lt _ (by decide)
  have exponent : x.toBits.toNat / leadingBit % 2048 < 2048 := Nat.mod_lt _ (by decide)
  unfold IsDouble
  split at finite
  · cases finite
  · split at finite <;> cases finite
    · exact .inl ⟨fraction, rfl⟩
    · exact .inr ⟨Nat.le_add_left .., by dsimp only; omega, by dsimp only; omega, by dsimp only; omega⟩

/-- The bits of a finite double, from its parts. -/
theorem toBits_of_ofFloat? {x : Float} {d : Dyadic} (finite : Dyadic.ofFloat? x = some d) :
    x.toBits.toNat = (if d.negative then signBit else 0) +
      if d.m < leadingBit then d.m else (d.q + 1075).toNat * leadingBit + (d.m - leadingBit) := by
  have bound := x.toBits.toNat_lt
  unfold Dyadic.ofFloat? at finite
  generalize x.toBits.toNat = b at *
  have sign : b = (if (b / signBit == 1) = true then signBit else 0) + b % signBit := by
    simp only [beq_iff_eq]
    unfold signBit
    split <;> omega
  dsimp only at finite
  split at finite
  · cases finite
  · split at finite
    · cases finite
      dsimp only
      rw [if_pos (Nat.mod_lt _ (by decide))]
      unfold leadingBit signBit at *
      omega
    · cases finite
      dsimp only
      rw [if_neg (show ¬ b % leadingBit + leadingBit < leadingBit by omega)]
      unfold leadingBit signBit at *
      omega

/-- A double is put together again from its parts. -/
theorem assemble_parts {x : Float} {d : Dyadic} (finite : Dyadic.ofFloat? x = some d) :
    assemble d.negative d.m d.q = x := by
  have bits := toBits_of_ofFloat? finite
  have size : (if d.m < leadingBit then d.m else if 972 ≤ d.q then 2047 * leadingBit
      else (d.q + 1075).toNat * leadingBit + (d.m - leadingBit)) =
      if d.m < leadingBit then d.m else (d.q + 1075).toNat * leadingBit + (d.m - leadingBit) := by
    rcases Dyadic.isDouble finite with ⟨small, -⟩ | ⟨-, -, -, place⟩
    · rw [if_pos small, if_pos small]
    · rw [if_neg (show ¬ 972 ≤ d.q by omega)]
  unfold assemble
  dsimp only
  rw [size, ← bits, UInt64.ofNat_toNat, Float.ofBits_toBits]

/-! ## Rounding to whole numbers -/

/-- The number is rounded to this whole one: it is less than half away, or half away from an even one. -/
def RoundsTo (u : ℚ) (m : Nat) : Prop :=
  if m % 2 = 0 then m - 1 / 2 ≤ u ∧ u ≤ m + 1 / 2 else m - 1 / 2 < u ∧ u < m + 1 / 2

/-- Of a quotient this is said by its parts. -/
theorem RoundsTo.of_div {num den m : Nat} (some_ : 0 < den) (rounds : RoundsTo (num / den) m) :
    if m % 2 = 0 then 2 * (den * m) ≤ 2 * num + den ∧ 2 * num ≤ 2 * (den * m) + den
    else 2 * (den * m) < 2 * num + den ∧ 2 * num < 2 * (den * m) + den := by
  have positive : (0 : ℚ) < den := Nat.cast_pos.2 some_
  unfold RoundsTo at rounds
  rw [le_div_iff₀ positive, div_le_iff₀ positive, lt_div_iff₀ positive, div_lt_iff₀ positive] at rounds
  split at rounds
  · next even =>
    rw [if_pos even]
    constructor
    · exact_mod_cast (by linarith : (2 * (den * m) : ℚ) ≤ 2 * num + den)
    · exact_mod_cast (by linarith : (2 * num : ℚ) ≤ 2 * (den * m) + den)
  · next odd =>
    rw [if_neg odd]
    constructor
    · exact_mod_cast (by linarith : (2 * (den * m) : ℚ) < 2 * num + den)
    · exact_mod_cast (by linarith : (2 * num : ℚ) < 2 * (den * m) + den)

theorem RoundsTo.bounds {u : ℚ} {m : Nat} (rounds : RoundsTo u m) : m - 1 / 2 ≤ u ∧ u ≤ m + 1 / 2 := by
  unfold RoundsTo at rounds
  split at rounds
  · exact rounds
  · exact ⟨rounds.1.le, rounds.2.le⟩

theorem roundHalfEven_eq {num den m : Nat} (some_ : 0 < den) (rounds : RoundsTo (num / den) m) :
    roundHalfEven num den = m := by
  have sides := rounds.of_div some_
  have parts := Nat.div_add_mod num den
  have rest := Nat.mod_lt num some_
  obtain ⟨low, high⟩ : 2 * (den * m) ≤ 2 * num + den ∧ 2 * num ≤ 2 * (den * m) + den := by
    split at sides
    · exact sides
    · exact ⟨sides.1.le, sides.2.le⟩
  -- the whole part of the quotient is the number, or one less
  have least : num / den ≤ m := by
    by_contra more
    have apart := Nat.mul_le_mul_left den (show m + 1 ≤ num / den by omega)
    rw [Nat.mul_add, Nat.mul_one] at apart
    omega
  have most : m ≤ num / den + 1 := by
    by_contra more
    have apart := Nat.mul_le_mul_left den (show num / den + 2 ≤ m by omega)
    rw [Nat.mul_add, Nat.mul_two] at apart
    omega
  unfold roundHalfEven
  dsimp only
  obtain rfl | rfl : m = num / den ∨ m = num / den + 1 := by omega
  · split at sides <;> split_ifs <;> omega
  · rw [Nat.mul_add, Nat.mul_one] at sides
    split at sides <;> split_ifs <;> omega

/-! ## The exponent -/

theorem two_zpow_pos (e : ℤ) : (0 : ℚ) < 2 ^ e := zpow_pos (by norm_num) e

section

variable {num den : Nat} (positive : num ≠ 0) (some_ : den ≠ 0)

include positive some_

/-- How large a quotient is, by the numbers of bits of its parts. -/
theorem div_log2 :
    (2 : ℚ) ^ ((num.log2 : ℤ) - den.log2 - 1) ≤ num / den ∧ (num / den : ℚ) < 2 ^ ((num.log2 : ℤ) - den.log2 + 1) := by
  have below : (0 : ℚ) < den := Nat.cast_pos.2 (Nat.pos_of_ne_zero some_)
  have least : (2 : ℚ) ^ (num.log2 : ℤ) ≤ num := by exact_mod_cast Nat.log2_self_le positive
  have most : (num : ℚ) < 2 ^ ((num.log2 : ℤ) + 1) := by exact_mod_cast Nat.lt_log2_self (n := num)
  have least' : (2 : ℚ) ^ (den.log2 : ℤ) ≤ den := by exact_mod_cast Nat.log2_self_le some_
  have most' : (den : ℚ) < 2 ^ ((den.log2 : ℤ) + 1) := by exact_mod_cast Nat.lt_log2_self (n := den)
  constructor
  · rw [le_div_iff₀ below]
    calc (2 : ℚ) ^ ((num.log2 : ℤ) - den.log2 - 1) * den
        ≤ 2 ^ ((num.log2 : ℤ) - den.log2 - 1) * 2 ^ ((den.log2 : ℤ) + 1) := by gcongr
      _ = 2 ^ (num.log2 : ℤ) := by rw [← zpow_add₀ two_ne_zero]; congr 1; ring
      _ ≤ num := least
  · rw [div_lt_iff₀ below]
    calc (num : ℚ) < 2 ^ ((num.log2 : ℤ) + 1) := most
      _ = 2 ^ ((num.log2 : ℤ) - den.log2 + 1) * 2 ^ (den.log2 : ℤ) := by
        rw [← zpow_add₀ two_ne_zero]; congr 1; ring
      _ ≤ 2 ^ ((num.log2 : ℤ) - den.log2 + 1) * den := by gcongr

omit positive in
/-- Whether a quotient is below a power of two, asked without fractions. -/
theorem below_zpow_iff (e : ℤ) :
    (if 0 ≤ e then num < den * Nat.pow 2 (e.toNat + 52) else num * Nat.pow 2 (-e).toNat < den * leadingBit) ↔
      (num / den : ℚ) < 2 ^ (e + 52) := by
  have below : (0 : ℚ) < den := Nat.cast_pos.2 (Nat.pos_of_ne_zero some_)
  rw [div_lt_iff₀ below]
  split
  · next up =>
    obtain ⟨k, rfl⟩ := Int.eq_ofNat_of_zero_le up
    have power : (2 : ℚ) ^ ((k : ℤ) + 52) * den = (den * 2 ^ (k + 52) : Nat) := by
      push_cast
      rw [mul_comm]
      exact_mod_cast rfl
    rw [power]
    exact Nat.cast_lt.symm
  · next down =>
    obtain ⟨k, rfl⟩ : ∃ k : Nat, e = -k := ⟨(-e).toNat, by omega⟩
    have apart : (0 : ℚ) < 2 ^ k := pow_pos (by norm_num) k
    have power : (2 : ℚ) ^ (-(k : ℤ) + 52) * den * 2 ^ k = (den * leadingBit : Nat) := by
      rw [zpow_add₀ two_ne_zero, zpow_neg, zpow_natCast]
      push_cast
      field_simp
    rw [← mul_lt_mul_iff_left₀ apart, power, neg_neg, Int.toNat_natCast]
    exact_mod_cast Iff.rfl

/-- The exponent of a quotient: with it the significand has 53 bits, unless it is the least one. -/
theorem exponentOf_spec :
    -1074 ≤ exponentOf num den ∧ (num / den : ℚ) < 2 ^ (exponentOf num den + 53) ∧
      (exponentOf num den = -1074 ∨ (2 : ℚ) ^ (exponentOf num den + 52) ≤ num / den) := by
  obtain ⟨least, most⟩ := div_log2 positive some_
  have small_iff := @below_zpow_iff num den some_ ((num.log2 : ℤ) - den.log2 - 52)
  unfold exponentOf
  simp only [small_iff, sub_add_cancel]
  -- before it is kept from being too small the exponent is that of the leading bit
  obtain ⟨e, exponent, low, high⟩ : ∃ e : ℤ,
      (if (num / den : ℚ) < 2 ^ ((num.log2 : ℤ) - den.log2) then (num.log2 : ℤ) - den.log2 - 52 - 1
        else (num.log2 : ℤ) - den.log2 - 52) = e ∧
      (2 : ℚ) ^ (e + 52) ≤ num / den ∧ (num / den : ℚ) < 2 ^ (e + 53) := by
    split
    · next small =>
      refine ⟨_, rfl, least.trans_eq' ?_, small.trans_eq ?_⟩ <;> congr 1 <;> ring
    · next large =>
      refine ⟨_, rfl, (not_lt.1 large).trans_eq' ?_, most.trans_eq ?_⟩ <;> congr 1 <;> ring
  rw [exponent]
  refine ⟨le_max_right .., high.trans_le (zpow_le_zpow_right₀ one_le_two (by omega)), ?_⟩
  rcases le_total e (-1074) with deep | full
  · exact .inl (max_eq_right deep)
  · rw [max_eq_left full]
    exact .inr low

/-- A quotient is rounded to a significand at its exponent. -/
theorem nearest_eq {m : Nat} (rounds : RoundsTo (num / den / 2 ^ exponentOf num den) m) (negative : Bool) :
    nearest negative num den =
      if m = 2 * leadingBit then assemble negative leadingBit (exponentOf num den + 1)
      else assemble negative m (exponentOf num den) := by
  have below := Nat.pos_of_ne_zero some_
  unfold nearest
  rw [if_neg (not_or.2 ⟨positive, some_⟩)]
  generalize exponentOf num den = e at *
  have significand : (if 0 ≤ e then roundHalfEven num (den * Nat.pow 2 e.toNat)
      else roundHalfEven (num * Nat.pow 2 (-e).toNat) den) = m := by
    split
    · next up =>
      obtain ⟨k, rfl⟩ := Int.eq_ofNat_of_zero_le up
      refine roundHalfEven_eq (Nat.mul_pos below (Nat.two_pow_pos k)) ?_
      rw [div_div, zpow_natCast] at rounds
      exact_mod_cast rounds
    · next down =>
      obtain ⟨k, rfl⟩ : ∃ k : Nat, e = -k := ⟨(-e).toNat, by omega⟩
      rw [neg_neg, Int.toNat_natCast]
      refine roundHalfEven_eq below ?_
      rw [zpow_neg, zpow_natCast, div_inv_eq_mul, div_mul_eq_mul_div] at rounds
      exact_mod_cast rounds
  dsimp only
  rw [significand]

end

/-! ## The interval of a double -/

/-- The number lies in the interval. -/
def Interval.Within (i : Interval) (r : ℚ) : Prop :=
  if i.closed then i.low * 2 ^ i.q ≤ r ∧ r ≤ i.high * 2 ^ i.q else i.low * 2 ^ i.q < r ∧ r < i.high * 2 ^ i.q

theorem two_zpow_sub_two (q : ℤ) : (2 : ℚ) ^ (q - 2) = 2 ^ q / 4 := by
  rw [zpow_sub₀ two_ne_zero]
  norm_num

section

variable {d : Dyadic} {r : ℚ} (within : d.interval.Within r)

include within

/-- Where a number of the interval lies, in units of the last place. -/
theorem Dyadic.roundsTo_of_within : RoundsTo (r / 2 ^ d.q) d.m := by
  have unit := two_zpow_pos d.q
  have low : (4 * d.m - 2 : ℚ) ≤ d.interval.low := by
    have least : 4 * d.m ≤ d.interval.low + 2 := by
      unfold interval
      dsimp only
      split <;> omega
    have least : (4 * d.m : ℚ) ≤ d.interval.low + 2 := by exact_mod_cast least
    linarith
  have high : (d.interval.high : ℚ) = 4 * d.m + 2 := by exact_mod_cast rfl
  have reaches := mul_le_mul_of_nonneg_right low (two_zpow_pos (d.q - 2)).le
  unfold Interval.Within at within
  rw [high, show d.interval.q = d.q - 2 from rfl, two_zpow_sub_two] at within
  rw [two_zpow_sub_two] at reaches
  unfold RoundsTo
  rw [le_div_iff₀ unit, div_le_iff₀ unit, lt_div_iff₀ unit, div_lt_iff₀ unit]
  split at within
  · next closed =>
    rw [if_pos (of_decide_eq_true closed)]
    constructor <;> linarith
  · next open_ =>
    rw [if_neg (by simpa [interval] using open_)]
    constructor <;> linarith

/-- At a power of two the interval begins later. -/
theorem Dyadic.low_of_within (power : d.m = leadingBit) (place : -1074 < d.q) :
    (leadingBit - 1 / 4 : ℚ) ≤ r / 2 ^ d.q := by
  have low : d.interval.low = 4 * leadingBit - 1 := by
    unfold interval
    dsimp only
    rw [if_pos ⟨power, place⟩, power]
  have closed : d.interval.closed = true := by
    unfold interval
    dsimp only
    rw [power]
    rfl
  unfold Interval.Within at within
  rw [if_pos closed, low, show d.interval.q = d.q - 2 from rfl, two_zpow_sub_two] at within
  rw [le_div_iff₀ (two_zpow_pos d.q)]
  unfold leadingBit at *
  push_cast at *
  linarith [within.1]

end

section

variable {d : Dyadic} (double : d.IsDouble) (zero : d.m ≠ 0) {num den : Nat} (some_ : den ≠ 0)
  (within : d.interval.Within (num / den))

include zero within

theorem ne_zero_of_within : num ≠ 0 := by
  rintro rfl
  have size : (1 : ℚ) ≤ d.m := by exact_mod_cast Nat.pos_of_ne_zero zero
  have low := (Dyadic.roundsTo_of_within within).bounds.1
  rw [Nat.cast_zero, zero_div, zero_div] at low
  linarith

include double some_

/-- Within the interval of a double the exponent is that of the double, or less. -/
theorem exponentOf_le : exponentOf num den ≤ d.q := by
  have high := (Dyadic.roundsTo_of_within within).bounds.2
  rw [div_le_iff₀ (two_zpow_pos d.q)] at high
  obtain ⟨reach, place⟩ : d.m + 1 ≤ 2 ^ 53 ∧ -1074 ≤ d.q := by
    unfold Dyadic.IsDouble leadingBit at double
    omega
  have reach : (d.m + 1 : ℚ) ≤ 2 ^ (53 : ℤ) := by exact_mod_cast reach
  obtain ⟨-, -, deep | above⟩ := exponentOf_spec (ne_zero_of_within zero within) some_
  · omega
  · have : (2 : ℚ) ^ (exponentOf num den + 52) < 2 ^ (53 + d.q) :=
      calc (2 : ℚ) ^ (exponentOf num den + 52) ≤ num / den := above
        _ ≤ (d.m + 1 / 2) * 2 ^ d.q := high
        _ < 2 ^ (53 : ℤ) * 2 ^ d.q := by gcongr; linarith
        _ = 2 ^ (53 + d.q) := (zpow_add₀ two_ne_zero ..).symm
    have := (zpow_lt_zpow_iff_right₀ one_lt_two).1 this
    omega

/-- It is less only just below a power of two, and then by one. -/
theorem exponentOf_lt (less : exponentOf num den < d.q) :
    d.m = leadingBit ∧ exponentOf num den = d.q - 1 ∧ RoundsTo (num / den / 2 ^ (d.q - 1)) (2 * leadingBit) := by
  have unit := two_zpow_pos d.q
  obtain ⟨least, below, -⟩ := exponentOf_spec (ne_zero_of_within zero within) some_
  obtain ⟨full, place⟩ : leadingBit ≤ d.m ∧ -1074 < d.q := by
    rcases double with ⟨-, place⟩ | ⟨full, -⟩ <;> omega
  have under : (num / den / 2 ^ d.q : ℚ) < leadingBit := by
    have under : (num / den : ℚ) < 2 ^ (52 : ℤ) * 2 ^ d.q := by
      rw [← zpow_add₀ two_ne_zero]
      exact below.trans_le (zpow_le_zpow_right₀ one_le_two (by omega))
    rw [div_lt_iff₀ unit]
    exact_mod_cast under
  have power : d.m = leadingBit := by
    have low := (Dyadic.roundsTo_of_within within).bounds.1
    have : (d.m : ℚ) < (leadingBit + 1 : Nat) := by
      push_cast at under ⊢
      linarith
    have := Nat.cast_lt.1 this
    omega
  have near := Dyadic.low_of_within within power place
  refine ⟨power, ?_, ?_⟩
  · have : (2 : ℚ) ^ (51 + d.q) < 2 ^ (exponentOf num den + 53) :=
      calc (2 : ℚ) ^ (51 + d.q) = 2 ^ (51 : ℤ) * 2 ^ d.q := zpow_add₀ two_ne_zero ..
        _ ≤ (leadingBit - 1 / 4) * 2 ^ d.q := by gcongr; unfold leadingBit; norm_num
        _ ≤ num / den := (le_div_iff₀ unit).1 near
        _ < 2 ^ (exponentOf num den + 53) := below
    have := (zpow_lt_zpow_iff_right₀ one_lt_two).1 this
    omega
  · have doubled : (num / den / 2 ^ (d.q - 1) : ℚ) = 2 * (num / den / 2 ^ d.q) := by
      rw [zpow_sub_one₀ two_ne_zero]
      field_simp
    rw [doubled, RoundsTo, if_pos (Nat.mul_mod_right 2 _), Nat.cast_mul, Nat.cast_two]
    constructor <;> linarith

/-- Every quotient of the interval of a double is rounded to that double. -/
theorem nearest_within (negative : Bool) : nearest negative num den = assemble negative d.m d.q := by
  have positive := ne_zero_of_within zero within
  have most : d.m ≠ 2 * leadingBit := by
    unfold Dyadic.IsDouble at double
    omega
  obtain same | less := (exponentOf_le double zero some_ within).eq_or_lt
  · rw [nearest_eq positive some_ (same ▸ Dyadic.roundsTo_of_within within), if_neg most, same]
  · obtain ⟨power, next, up⟩ := exponentOf_lt double zero some_ within less
    rw [nearest_eq positive some_ (next ▸ up), if_pos rfl, next, sub_add_cancel, power]

end

/-! ## Decimals -/

/-- How large the numbers are that are rounded to a double. -/
theorem Dyadic.bounds_of_within {d : Dyadic} (double : d.IsDouble) (zero : d.m ≠ 0) {r : ℚ}
    (within : d.interval.Within r) : (2 : ℚ) ^ (-1075 : ℤ) ≤ r ∧ r < 2 ^ (1024 : ℤ) := by
  obtain ⟨low, high⟩ := (roundsTo_of_within within).bounds
  have unit := two_zpow_pos d.q
  rw [le_div_iff₀ unit] at low
  rw [div_le_iff₀ unit] at high
  have size : (1 : ℚ) ≤ d.m := by exact_mod_cast Nat.pos_of_ne_zero zero
  obtain ⟨reach, least, most⟩ : d.m + 1 ≤ 2 ^ 53 ∧ -1074 ≤ d.q ∧ d.q ≤ 971 := by
    unfold IsDouble leadingBit at double
    omega
  have reach : (d.m + 1 : ℚ) ≤ 2 ^ (53 : ℤ) := by exact_mod_cast reach
  constructor
  · calc (2 : ℚ) ^ (-1075 : ℤ) = 1 / 2 * 2 ^ (-1074 : ℤ) := by
          rw [show (-1075 : ℤ) = -1 + -1074 from rfl, zpow_add₀ two_ne_zero, zpow_neg_one, one_div]
      _ ≤ 1 / 2 * 2 ^ d.q := by gcongr; exact one_le_two
      _ ≤ (d.m - 1 / 2) * 2 ^ d.q := by gcongr; linarith
      _ ≤ r := low
  · calc r ≤ (d.m + 1 / 2) * 2 ^ d.q := high
      _ < 2 ^ (53 : ℤ) * 2 ^ d.q := by gcongr; linarith
      _ = 2 ^ (53 + d.q) := (zpow_add₀ two_ne_zero ..).symm
      _ ≤ 2 ^ (1024 : ℤ) := zpow_le_zpow_right₀ one_le_two (by omega)

theorem two_zpow_le_ten_zpow : (2 : ℚ) ^ (1200 : ℤ) ≤ 10 ^ (400 : ℤ) :=
  calc (2 : ℚ) ^ (1200 : ℤ) = (2 ^ (3 : ℤ)) ^ (400 : ℤ) := zpow_mul 2 3 400
    _ ≤ 10 ^ (400 : ℤ) := zpow_le_zpow_left₀ (by decide) (by norm_num) (by norm_num)

/-- How large a number is by its digits. -/
theorem natText_bounds {c : Nat} (zero : c ≠ 0) :
    10 ^ ((natText c).length - 1) ≤ c ∧ c < 10 ^ (natText c).length := by
  have some_ : 0 < (natText c).length := Nat.length_toDigits_pos
  refine ⟨?_, (Nat.length_toDigits_le_iff (by decide) some_).1 (Nat.le_refl _)⟩
  by_contra less
  rcases Nat.eq_zero_or_pos ((natText c).length - 1) with one | more
  · rw [one] at less
    omega
  · have := (Nat.length_toDigits_le_iff (by decide) more).2 (Nat.not_le.1 less)
    unfold natText at *
    omega

/-- Every decimal of the interval of a double is rounded to that double. -/
theorem ofScaled_within {d : Dyadic} (double : d.IsDouble) (zero : d.m ≠ 0) {c : Nat} {k : ℤ}
    (within : d.interval.Within (c * 10 ^ k)) (negative : Bool) :
    ofScaled negative c k = assemble negative d.m d.q := by
  obtain ⟨low, high⟩ := Dyadic.bounds_of_within double zero within
  have digits : c ≠ 0 := by
    rintro rfl
    rw [Nat.cast_zero, zero_mul] at low
    exact (two_zpow_pos _).not_ge low
  obtain ⟨least, most⟩ := natText_bounds digits
  have some_ : 0 < (natText c).length := Nat.length_toDigits_pos
  have above : -400 ≤ k + (natText c).length := by
    by_contra less
    refine low.not_gt ?_
    calc (c * 10 ^ k : ℚ) < 10 ^ ((natText c).length : ℤ) * 10 ^ k := by
          gcongr
          exact_mod_cast most
      _ = 10 ^ ((natText c).length + k) := (zpow_add₀ (by norm_num) ..).symm
      _ ≤ 10 ^ (-400 : ℤ) := zpow_le_zpow_right₀ (by norm_num) (by omega)
      _ ≤ 2 ^ (-1075 : ℤ) := by
          rw [zpow_neg, zpow_neg]
          refine inv_anti₀ (two_zpow_pos _) ((zpow_le_zpow_right₀ one_le_two ?_).trans two_zpow_le_ten_zpow)
          decide
  have below : k + (natText c).length ≤ 400 := by
    by_contra more
    refine high.not_ge ?_
    calc (2 : ℚ) ^ (1024 : ℤ) ≤ 2 ^ (1200 : ℤ) := zpow_le_zpow_right₀ one_le_two (by decide)
      _ ≤ 10 ^ (400 : ℤ) := two_zpow_le_ten_zpow
      _ ≤ 10 ^ (((natText c).length - 1 : Nat) + k) := zpow_le_zpow_right₀ (by norm_num) (by omega)
      _ = 10 ^ (((natText c).length - 1 : Nat) : ℤ) * 10 ^ k := zpow_add₀ (by norm_num) ..
      _ ≤ c * 10 ^ k := by
          gcongr
          exact_mod_cast least
  unfold ofScaled
  dsimp only
  rw [if_neg (not_or.2 ⟨digits, by omega⟩), if_neg (by omega)]
  split
  · next up =>
    obtain ⟨e, rfl⟩ := Int.eq_ofNat_of_zero_le up
    refine nearest_within double zero one_ne_zero ?_ negative
    rw [Nat.cast_one, div_one]
    exact_mod_cast within
  · next down =>
    obtain ⟨e, rfl⟩ : ∃ e : Nat, k = -e := ⟨(-k).toNat, by omega⟩
    refine nearest_within double zero (Nat.pow_pos (by decide)).ne' ?_ negative
    have amount : (-(-(e : ℤ))).toNat = e := by omega
    rw [zpow_neg, zpow_natCast, ← div_eq_mul_inv] at within
    rw [amount]
    exact_mod_cast within

end Workbench.Decimal
