/-
The shortest decimals read back.

Whether a decimal lies in the interval of a double is asked without fractions
(`Interval.holds_iff`). The search for the coarsest grid with such a decimal finds
one: on the last grid that it would try, the double lies itself. So what is found lies
in the interval (`shortest_within`), and is rounded to the double, in whatever way it
is written (`ofScaled_shortest`).
-/
import Workbench.Proofs.Decimal.Rounding

namespace Workbench.Decimal

theorem zpow_mul_pow_toNat {b : ℚ} (zero : b ≠ 0) (k : ℤ) : b ^ k * b ^ (-k).toNat = b ^ k.toNat := by
  rw [← zpow_natCast, ← zpow_natCast, ← zpow_add₀ zero]
  congr 1
  omega

namespace Interval

variable {i : Interval} {c : Nat} {k : ℤ}

/-- What the numbers are multiplied by to be rid of fractions. -/
def scale (i : Interval) (k : ℤ) : ℚ := 10 ^ (-k).toNat * 2 ^ (-i.q).toNat

theorem scale_pos (i : Interval) (k : ℤ) : 0 < i.scale k := by
  unfold scale
  positivity

theorem scaled_eq (i : Interval) (a : Nat) (k : ℤ) : (i.scaled a k : ℚ) = a * 2 ^ i.q * i.scale k := by
  have power : ((Nat.pow 2 i.q.toNat : Nat) : ℚ) = 2 ^ i.q * 2 ^ (-i.q).toNat :=
    (Nat.cast_pow 2 _).trans (zpow_mul_pow_toNat two_ne_zero i.q).symm
  have ten : ((Nat.pow 10 (-k).toNat : Nat) : ℚ) = 10 ^ (-k).toNat := Nat.cast_pow 10 _
  rw [scaled, Nat.cast_mul, Nat.cast_mul, power, ten, scale]
  ring

theorem point_eq (i : Interval) (c : Nat) (k : ℤ) : (i.point c k : ℚ) = c * 10 ^ k * i.scale k := by
  have power : ((Nat.pow 10 k.toNat : Nat) : ℚ) = 10 ^ k * 10 ^ (-k).toNat :=
    (Nat.cast_pow 10 _).trans (zpow_mul_pow_toNat (by norm_num) k).symm
  have two : ((Nat.pow 2 (-i.q).toNat : Nat) : ℚ) = 2 ^ (-i.q).toNat := Nat.cast_pow 2 _
  rw [point, Nat.cast_mul, Nat.cast_mul, power, two, scale]
  ring

theorem scaled_le_point {a : Nat} : i.scaled a k ≤ i.point c k ↔ (a * 2 ^ i.q : ℚ) ≤ c * 10 ^ k := by
  rw [← Nat.cast_le (α := ℚ), scaled_eq, point_eq, mul_le_mul_iff_left₀ (i.scale_pos k)]

theorem point_le_scaled {a : Nat} : i.point c k ≤ i.scaled a k ↔ (c * 10 ^ k : ℚ) ≤ a * 2 ^ i.q := by
  rw [← Nat.cast_le (α := ℚ), scaled_eq, point_eq, mul_le_mul_iff_left₀ (i.scale_pos k)]

/-- The question for a decimal is whether it lies in the interval, and is not zero. -/
theorem holds_iff : i.holds c k = true ↔ c ≠ 0 ∧ i.Within (c * 10 ^ k) := by
  unfold holds Within
  dsimp only
  cases i.closed <;>
    simp [scaled_le_point, point_le_scaled, ← not_le]

/-- What is found on a grid lies in the interval. -/
theorem holds_of_hit? (hit : i.hit? k = some c) : i.holds c k = true := by
  unfold hit? at hit
  dsimp only at hit
  split at hit
  · next below above =>
    split_ifs at hit <;> cases hit <;> assumption
  · next below _ => cases hit; exact below
  · next _ above => cases hit; exact above
  · cases hit

/-- On a grid with the value itself something is found. -/
theorem hit?_of_value (inside : i.low < i.value ∧ i.value < i.high) (value : i.scaled i.value k = c * i.point 1 k) :
    (i.hit? k).isSome = true := by
  have unit : 0 < i.point 1 k := by
    unfold point
    exact Nat.mul_pos (Nat.mul_pos one_pos (Nat.pow_pos (by decide))) (Nat.pow_pos (by decide))
  have point : i.point c k = i.scaled i.value k := by
    rw [value, point, point, Nat.one_mul, Nat.mul_assoc]
  have exact_ : (c * 10 ^ k : ℚ) = i.value * 2 ^ i.q :=
    le_antisymm (point_le_scaled.1 point.le) (scaled_le_point.1 point.ge)
  have two := two_zpow_pos i.q
  have holds : i.holds c k = true := by
    refine holds_iff.2 ⟨?_, ?_⟩
    · rintro rfl
      rw [Nat.cast_zero, zero_mul] at exact_
      have : (i.value : ℚ) ≠ 0 := Nat.cast_ne_zero.2 (by omega)
      exact mul_ne_zero this two.ne' exact_.symm
    · have low : (i.low * 2 ^ i.q : ℚ) < i.value * 2 ^ i.q := by gcongr; exact inside.1
      have high : (i.value * 2 ^ i.q : ℚ) < i.high * 2 ^ i.q := by gcongr; exact inside.2
      rw [exact_, Within]
      split
      · exact ⟨low.le, high.le⟩
      · exact ⟨low, high⟩
  unfold hit?
  dsimp only
  rw [value, Nat.mul_div_cancel c unit, holds]
  split <;> try rfl
  · split_ifs <;> rfl
  all_goals next same _ => cases same

/-- What is found on the coarsest grid lies in the interval, if something is found on one of the grids. -/
theorem coarsest_holds {steps : Nat} {j : ℤ} (hits : (i.hit? j).isSome = true) (low : k - steps < j) (high : j ≤ k) :
    i.holds (i.coarsest steps k).digits (i.coarsest steps k).exponent = true := by
  induction steps generalizing k with
  | zero => omega
  | succ steps ih =>
    unfold coarsest
    cases hit : i.hit? k with
    | some c => exact holds_of_hit? hit
    | none =>
      have other : j ≠ k := by
        rintro rfl
        rw [hit] at hits
        cases hits
      exact ih (by omega) (by omega)

end Interval

/-- The shortest digits of a double lie in its interval. -/
theorem shortest_within {d : Dyadic} (double : d.IsDouble) (zero : d.m ≠ 0) :
    d.interval.Within ((shortest d).digits * 10 ^ (shortest d).exponent) := by
  have place : -1074 ≤ d.q := by
    unfold Dyadic.IsDouble at double
    omega
  have inside : d.interval.low < d.interval.value ∧ d.interval.value < d.interval.high := by
    unfold Dyadic.interval
    dsimp only
    split <;> omega
  -- the double lies on the last grid
  obtain ⟨n, last⟩ : ∃ n : Nat, n = 1099 := ⟨_, rfl⟩
  obtain ⟨c, value⟩ : ∃ c, d.interval.scaled d.interval.value (-n) = c * d.interval.point 1 (-n) := by
    have divides : 2 ^ (-d.interval.q).toNat ∣ 10 ^ (-(-(n : ℤ))).toNat := by
      have fewer : (-(d.q - 2)).toNat ≤ (-(-(n : ℤ))).toNat := by omega
      exact (pow_dvd_pow 2 fewer).trans (pow_dvd_pow_of_dvd (by decide) _)
    have unit : d.interval.point 1 (-n) = 2 ^ (-d.interval.q).toNat := by
      have none : (-(n : ℤ)).toNat = 0 := by omega
      rw [Interval.point, none]
      exact Nat.one_mul _
    rw [unit]
    exact exists_eq_mul_left_of_dvd (divides.mul_left _)
  unfold shortest
  rw [if_neg zero]
  dsimp only
  refine (Interval.holds_iff.1 (Interval.coarsest_holds (Interval.hit?_of_value inside value) ?_ ?_)).2
  · split <;> omega
  · split <;> omega

/-- Only zero has zero for its digits, and it is written with no exponent. -/
theorem shortest_zero {d : Dyadic} (double : d.IsDouble) (none : (shortest d).digits = 0) :
    (shortest d).exponent = 0 := by
  by_cases zero : d.m = 0
  · rw [shortest, if_pos zero]
  · have low := (Dyadic.bounds_of_within double zero (shortest_within double zero)).1
    rw [none, Nat.cast_zero, zero_mul] at low
    exact absurd low (two_zpow_pos _).not_ge

/-- However the shortest digits are written, they are rounded to the double. -/
theorem ofScaled_shortest {x : Float} {d : Dyadic} (finite : Dyadic.ofFloat? x = some d) {c : Nat} {k : ℤ}
    (value : (c * 10 ^ k : ℚ) = (shortest d).digits * 10 ^ (shortest d).exponent) : ofScaled d.negative c k = x := by
  have parts := assemble_parts finite
  by_cases zero : d.m = 0
  · have none : c = 0 := by
      have ten : (10 : ℚ) ^ k ≠ 0 := zpow_ne_zero k (by norm_num)
      rw [shortest, if_pos zero, Nat.cast_zero, zero_mul] at value
      exact Nat.cast_eq_zero.1 ((mul_eq_zero.1 value).resolve_right ten)
    rw [zero] at parts
    rw [none, ← parts, ofScaled, if_pos (.inl rfl)]
    rfl
  · have double := Dyadic.isDouble finite
    exact (ofScaled_within double zero (value ▸ shortest_within double zero) d.negative).trans parts

end Workbench.Decimal
