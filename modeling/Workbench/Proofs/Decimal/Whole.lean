/-
Whole numbers as doubles.

A whole number below 2⁵³ has a double of its own: its digits, moved up until they
fill the 53 bits of a significand (`significand`). So it is read off that double
again (`ofFloat?_ofInt`), and two of them are added as they should be, as long as the
sum is not too large (`ofInt_add`): all that the addition rounds away is zeros.
-/
import Mathlib
import Workbench.Proofs.Decimal.Rounding

namespace Workbench.Decimal

open Float.Model (Format UnpackedFloat totalExponent)
open Float.Model.UnpackedFloat

/-! ## Significands -/

/-- The significand of 53 bits of a positive number below 2⁵³. -/
def significand (n : Nat) : Nat := n * 2 ^ (52 - n.log2)

section

variable {n : Nat}

theorem log2_le (positive : n ≠ 0) (small : n < 2 ^ 53) : n.log2 ≤ 52 :=
  Nat.le_of_lt_succ ((Nat.log2_lt positive).2 small)

theorem le_significand (positive : n ≠ 0) (small : n < 2 ^ 53) : 2 ^ 52 ≤ significand n := by
  have place := log2_le positive small
  calc 2 ^ 52 = 2 ^ n.log2 * 2 ^ (52 - n.log2) := by rw [← Nat.pow_add, Nat.add_sub_cancel' place]
    _ ≤ significand n := Nat.mul_le_mul_right _ (Nat.log2_self_le positive)

theorem significand_lt (positive : n ≠ 0) (small : n < 2 ^ 53) : significand n < 2 ^ 53 := by
  have place := log2_le positive small
  calc significand n < 2 ^ (n.log2 + 1) * 2 ^ (52 - n.log2) :=
        Nat.mul_lt_mul_of_pos_right Nat.lt_log2_self (Nat.two_pow_pos _)
    _ = 2 ^ 53 := by rw [← Nat.pow_add]; congr 1; omega

theorem significand_pos (positive : n ≠ 0) : 0 < significand n :=
  Nat.mul_pos (Nat.pos_of_ne_zero positive) (Nat.two_pow_pos _)

theorem log2_mul_two_pow (positive : n ≠ 0) (k : Nat) : (n * 2 ^ k).log2 = n.log2 + k := by
  have apart : n * 2 ^ k ≠ 0 := Nat.mul_ne_zero positive (Nat.two_pow_pos k).ne'
  refine (Nat.log2_eq_iff apart).2 ⟨?_, ?_⟩
  · rw [Nat.pow_add]
    exact Nat.mul_le_mul_right _ (Nat.log2_self_le positive)
  · rw [Nat.add_right_comm, Nat.pow_add _ (n.log2 + 1)]
    exact Nat.mul_lt_mul_of_pos_right Nat.lt_log2_self (Nat.two_pow_pos k)

end

/-! ## The double of a whole number -/

/-- The sign of an integer, zero being positive. -/
def signOf (n : Int) : Sign := if n < 0 then .negative else .positive

/-- The parts of the double of an integer below 2⁵³ in size. -/
def unpacked (n : Int) : UnpackedFloat :=
  if zero : n.natAbs = 0 then .zero .positive
  else .finite (signOf n) (significand n.natAbs) (n.natAbs.log2 - 52) (significand_pos zero)

/-- The bits of such a double. -/
def word (n : Int) : BitVec 64 :=
  if n = 0 then packComponents .binary64 .positive 0 0
  else packComponents .binary64 (signOf n) (.ofNat 11 (n.natAbs.log2 + 1023)) (.ofNat 52 (significand n.natAbs))

theorem unpack_word {n : Int} (small : n.natAbs < 2 ^ 53) : unpack .binary64 (word n) = unpacked n := by
  unfold unpacked word unpack
  by_cases zero : n = 0
  · rw [dif_pos (by simpa using zero), if_pos zero]
    rfl
  · have positive : n.natAbs ≠ 0 := by simpa using zero
    have place := log2_le positive small
    rw [dif_neg positive, if_neg zero]
    have large := le_significand positive small
    have bounded := significand_lt positive small
    have exponent : (BitVec.ofNat 11 (n.natAbs.log2 + 1023)).toNat = n.natAbs.log2 + 1023 := by
      rw [BitVec.toNat_ofNat]
      omega
    have finite : BitVec.ofNat 11 (n.natAbs.log2 + 1023) ≠ -1#11 := by
      intro same
      have top := congrArg BitVec.toNat same
      rw [exponent] at top
      simp at top
      omega
    have normal : BitVec.ofNat 11 (n.natAbs.log2 + 1023) ≠ 0#11 := by
      intro same
      have bottom := congrArg BitVec.toNat same
      rw [exponent] at bottom
      simp at bottom
    have mantissa : (1#1 ++ BitVec.ofNat 52 (significand n.natAbs)).toNat = significand n.natAbs := by
      rw [BitVec.toNat_append, ← Nat.shiftLeft_add_eq_or_of_lt (BitVec.isLt _), Nat.shiftLeft_eq, BitVec.toNat_ofNat]
      simp only [BitVec.toNat_ofNat]
      omega
    simp only [unpackMantissa_packComponents, unpackExponent_packComponents, unpackSign_packComponents,
      Sign.ofBitVec_toBitVec, finite, normal, ↓reduceIte, exponent, mantissa, Format.exponentBias]
    rw [UnpackedFloat.finite.injEq]
    exact ⟨rfl, rfl, by omega⟩

theorem pack_unpacked {n : Int} (small : n.natAbs < 2 ^ 53) : pack .binary64 (unpacked n) = word n := by
  rw [← unpack_word small, pack_unpack, if_neg]
  intro undefined
  have none : unpack .binary64 (word n) = .notANumber := by
    simp only [isNaNBits, decide_eq_true_eq] at undefined
    simp only [unpack, undefined.1, undefined.2, ↓reduceIte]
  rw [unpack_word small, unpacked] at none
  split at none <;> cases none

theorem packComponents_toNat (sign : Sign) (e : BitVec 11) (m : BitVec 52) :
    (packComponents .binary64 sign e m).toNat = sign.toBitVec.toNat * signBit + e.toNat * leadingBit + m.toNat := by
  unfold packComponents
  rw [BitVec.toNat_append, ← Nat.shiftLeft_add_eq_or_of_lt (BitVec.isLt _), Nat.shiftLeft_eq, BitVec.toNat_append,
    ← Nat.shiftLeft_add_eq_or_of_lt (BitVec.isLt _), Nat.shiftLeft_eq]
  ring

theorem word_toNat {n : Int} (zero : n ≠ 0) (small : n.natAbs < 2 ^ 53) :
    (word n).toNat = (if n < 0 then signBit else 0) +
      ((n.natAbs.log2 + 1023) * leadingBit + (significand n.natAbs - leadingBit)) := by
  have positive : n.natAbs ≠ 0 := by simpa using zero
  have place := log2_le positive small
  have large := le_significand positive small
  have bounded := significand_lt positive small
  have sign : (signOf n).toBitVec.toNat * signBit = if n < 0 then signBit else 0 := by
    unfold signOf
    split <;> rfl
  have exponent : (n.natAbs.log2 + 1023) % 2 ^ 11 = n.natAbs.log2 + 1023 := Nat.mod_eq_of_lt (by omega)
  have fraction : significand n.natAbs % 2 ^ 52 = significand n.natAbs - leadingBit := by
    unfold leadingBit
    omega
  rw [word, if_neg zero, packComponents_toNat, sign, BitVec.toNat_ofNat, BitVec.toNat_ofNat, exponent, fraction,
    Nat.add_assoc]

/-! ## What is rounded to it -/

theorem exponentOf_one {n : Nat} (positive : n ≠ 0) (small : n < 2 ^ 53) : exponentOf n 1 = n.log2 - 52 := by
  have place := log2_le positive small
  have large := le_significand positive small
  have one : Nat.log2 1 = 0 := by decide
  unfold exponentOf
  rw [one]
  dsimp only
  rw [if_neg, max_eq_left (by omega)]
  · omega
  · split
    · next whole =>
      have top : n.log2 = 52 := by omega
      rw [significand, top, Nat.sub_self, Nat.pow_zero, Nat.mul_one] at large
      rw [top, Nat.one_mul]
      exact Nat.not_lt.2 large
    · next below =>
      have amount : (-((n.log2 : Int) - (0 : Nat) - 52)).toNat = 52 - n.log2 := by omega
      rw [amount]
      exact Nat.not_lt.2 large

theorem roundHalfEven_one (n : Nat) : roundHalfEven n 1 = n := by
  simp [roundHalfEven, Nat.mod_one]

theorem ofInt_eq {n : Int} (small : n.natAbs < 2 ^ 53) : ofInt n = Float.ofBits (.ofBitVec (word n)) := by
  unfold ofInt nearest
  by_cases zero : n = 0
  · subst zero
    decide
  · have positive : n.natAbs ≠ 0 := by simpa using zero
    have place := log2_le positive small
    have large := le_significand positive small
    have bounded := significand_lt positive small
    have filled : (if 0 ≤ (n.natAbs.log2 : Int) - 52 then
        roundHalfEven n.natAbs (1 * Nat.pow 2 ((n.natAbs.log2 : Int) - 52).toNat)
        else roundHalfEven (n.natAbs * Nat.pow 2 (-((n.natAbs.log2 : Int) - 52)).toNat) 1) =
        significand n.natAbs := by
      split
      · have top : n.natAbs.log2 = 52 := by omega
        rw [significand, top]
        exact (roundHalfEven_one _).trans (Nat.mul_one _).symm
      · rw [roundHalfEven_one, significand]
        congr 2
        omega
    rw [if_neg (by omega), exponentOf_one positive small]
    dsimp only
    rw [filled, if_neg (by unfold leadingBit; omega)]
    unfold assemble
    have exponent : ((n.natAbs.log2 : Int) - 52 + 1075).toNat = n.natAbs.log2 + 1023 := by omega
    simp only [decide_eq_true_eq]
    rw [if_neg (show ¬ significand n.natAbs < leadingBit by unfold leadingBit; omega),
      if_neg (show ¬ (972 : Int) ≤ n.natAbs.log2 - 52 by omega), exponent, ← word_toNat zero small]
    have same : BitVec.ofNat 64 (word n).toNat = word n := by rw [BitVec.ofNat_toNat, BitVec.setWidth_eq]
    exact congrArg (fun b => Float.ofBits (.ofBitVec b)) same

/-- A whole number comes back from its double, with its significand. -/
theorem ofFloat?_ofInt {n : Int} (zero : n ≠ 0) (small : n.natAbs < 2 ^ 53) :
    Dyadic.ofFloat? (ofInt n) = some ⟨n < 0, significand n.natAbs, n.natAbs.log2 - 52⟩ := by
  have positive : n.natAbs ≠ 0 := by simpa using zero
  have place := log2_le positive small
  have large := le_significand positive small
  have bounded := significand_lt positive small
  have bits : (ofInt n).toBits.toNat = (word n).toNat := by
    have same : (Float.ofBits (.ofBitVec (word n))).toBits.toBitVec = pack .binary64 (unpack .binary64 (word n)) := rfl
    rw [ofInt_eq small, ← UInt64.toNat_toBitVec, same, unpack_word small, pack_unpacked small]
  obtain ⟨b, same⟩ : ∃ b, (ofInt n).toBits.toNat = b := ⟨_, rfl⟩
  have there := same
  rw [bits, word_toNat zero small] at there
  have exponent : b / leadingBit % 2048 = n.natAbs.log2 + 1023 := by
    unfold leadingBit signBit at *
    split at there <;> omega
  have fraction : b % leadingBit = significand n.natAbs - leadingBit := by
    unfold leadingBit signBit at *
    split at there <;> omega
  have sign : (b / signBit == 1) = decide (n < 0) := by
    rw [Bool.eq_iff_iff, beq_iff_eq, decide_eq_true_iff]
    unfold leadingBit signBit at *
    split at there <;> omega
  unfold Dyadic.ofFloat?
  rw [same]
  dsimp only
  rw [exponent, fraction, sign, if_neg (by omega), if_neg (by omega)]
  simp only [Option.some.injEq, Dyadic.mk.injEq, true_and]
  exact ⟨Nat.sub_add_cancel large, by omega⟩

/-- The number that fills a significand, moved down again. -/
theorem magnitude?_significand {n : Nat} (positive : n ≠ 0) (small : n < 2 ^ 53) (negative : Bool) :
    (Dyadic.mk negative (significand n) (n.log2 - 52)).magnitude? = some n := by
  have place := log2_le positive small
  unfold Dyadic.magnitude?
  obtain top | below : n.log2 = 52 ∨ n.log2 < 52 := by omega
  · rw [significand, top]
    exact congrArg some (by rw [Nat.sub_self]; exact (Nat.mul_one _).trans (Nat.mul_one _))
  · obtain ⟨k, same⟩ : ∃ k, 52 - n.log2 = k + 1 := ⟨51 - n.log2, by omega⟩
    have exponent : (n.log2 : Int) - 52 = .negSucc k := by omega
    rw [exponent, significand, same]
    have power : Nat.pow 2 (k + 1) = 2 ^ (k + 1) := rfl
    dsimp only
    rw [power, if_pos (Nat.mul_mod_left n _), Nat.mul_div_cancel n (Nat.two_pow_pos _)]

theorem ofFloat?_ofInt_zero : Dyadic.ofFloat? (ofInt 0) = some ⟨false, 0, -1074⟩ := by decide +kernel

theorem magnitude?_zero (negative : Bool) (q : Int) : (Dyadic.mk negative 0 q).magnitude? = some 0 := by
  cases q with
  | ofNat k => exact congrArg some (Nat.zero_mul _)
  | negSucc k =>
    unfold Dyadic.magnitude?
    simp only [Nat.zero_mod, Nat.zero_div, ↓reduceIte]

/-! ## Doubles that are whole numbers -/

/-- A double is given by its parts. -/
theorem ofFloat?_injective {x y : Float} {d : Dyadic} (first : Dyadic.ofFloat? x = some d)
    (second : Dyadic.ofFloat? y = some d) : x = y :=
  (assemble_parts first).symm.trans (assemble_parts second)

/-- A whole double that is small enough has the parts of the double of a whole number. -/
theorem Dyadic.eq_of_magnitude? {x : Float} {d : Dyadic} (finite : ofFloat? x = some d) {n : Nat}
    (whole : d.magnitude? = some n) (positive : n ≠ 0) (small : n < 2 ^ 53) :
    d = ⟨d.negative, significand n, n.log2 - 52⟩ := by
  obtain ⟨negative, m, q⟩ := d
  have place := log2_le positive small
  have kinds : m < leadingBit ∧ q = -1074 ∨ leadingBit ≤ m ∧ m < 2 * leadingBit :=
    (isDouble finite).imp_right fun full => ⟨full.1, full.2.1⟩
  unfold magnitude? at whole
  dsimp only at whole
  -- the digits reach from the place `q` up to that of the leading one
  obtain ⟨k, filled, exponent⟩ : ∃ k : Nat, m = n * 2 ^ k ∧ q = -k := by
    cases q with
    | ofNat j =>
      have large : leadingBit ≤ m := (kinds.resolve_left fun deep => nomatch deep.2).1
      cases j with
      | zero => exact ⟨0, by simpa using whole, rfl⟩
      | succ j =>
        have doubled : m * (2 * 2 ^ j) = n := by rw [← Nat.pow_succ']; exact Option.some.inj whole
        have least : m * 2 ≤ m * (2 * 2 ^ j) := by
          rw [← Nat.mul_assoc]
          exact Nat.le_mul_of_pos_right _ (Nat.two_pow_pos j)
        unfold leadingBit at large
        omega
    | negSucc j =>
      dsimp only at whole
      by_cases divides : m % Nat.pow 2 (j + 1) = 0
      · rw [if_pos divides, Option.some.injEq] at whole
        subst whole
        exact ⟨j + 1, (Nat.div_mul_cancel (Nat.dvd_of_mod_eq_zero divides)).symm, rfl⟩
      · rw [if_neg divides] at whole
        cases whole
  have large : leadingBit ≤ m ∧ m < 2 * leadingBit := by
    refine kinds.resolve_left fun ⟨below, deep⟩ => ?_
    have more : 2 ^ 52 ≤ n * 2 ^ k :=
      (Nat.pow_le_pow_right (by decide) (by omega)).trans (Nat.le_mul_of_pos_left _ (Nat.pos_of_ne_zero positive))
    exact Nat.not_lt.2 more (filled ▸ below)
  have last : n.log2 + k = 52 := by
    rw [← log2_mul_two_pow positive, ← filled]
    exact (Nat.log2_eq_iff (by unfold leadingBit at large; omega)).2 large
  have moved : k = 52 - n.log2 := by omega
  rw [filled, exponent, significand, ← moved]
  congr 1
  omega

/-- A whole double that is small enough is the double of a whole number. -/
theorem eq_ofInt {x : Float} {d : Dyadic} (finite : Dyadic.ofFloat? x = some d) {n : Nat}
    (whole : d.magnitude? = some n) (positive : n ≠ 0) (small : n < 2 ^ 53) :
    x = ofInt (if d.negative then -n else n) := by
  rw [Dyadic.eq_of_magnitude? finite whole positive small] at finite
  refine ofFloat?_injective finite ?_
  have size : (if d.negative then -(n : Int) else n).natAbs = n := by split <;> omega
  have sign : decide ((if d.negative then -(n : Int) else n) < 0) = d.negative := by
    split
    · next negative => simp [negative]; omega
    · next negative => simp [negative]
  rw [ofFloat?_ofInt (by omega) (by omega), size, sign]

/-! ## Rounding that loses nothing -/

/-- Zeros at the end are shifted out without a trace. -/
theorem shift_zeros (m k : Nat) : (ExtendedMantissa.mk (m * 2 ^ k) false false) >>> k = ⟨m, false, false⟩ := by
  induction k generalizing m with
  | zero => simp [HShiftRight.hShiftRight, Nat.repeat]
  | succ k ih =>
    have last := ih (m * 2)
    rw [show m * 2 * 2 ^ k = m * 2 ^ (k + 1) by ring] at last
    change ((ExtendedMantissa.mk (m * 2 ^ (k + 1)) false false) >>> k).shiftRightOne = _
    rw [last]
    simp [ExtendedMantissa.shiftRightOne]

theorem targetExponent_eq {n : Nat} (positive : n ≠ 0) {m : Nat} {e : Int} {k : Nat} (same : m = n * 2 ^ k)
    (place : e = -k) : Format.binary64.targetExponent (totalExponent m e) = n.log2 - 52 := by
  rw [same, totalExponent, log2_mul_two_pow positive, place]
  simp only [Format.targetExponent, Format.mantissaBits, Format.minExponent]
  omega

/-- Shifting keeps the number, and fills the significand. -/
theorem shiftToTargetExponent_whole {n : Nat} (positive : n ≠ 0) (small : n < 2 ^ 53) {k : Nat}
    (enough : 52 - n.log2 ≤ k) :
    shiftToTargetExponent .binary64 (n * 2 ^ k) (-k) .exact = (⟨significand n, false, false⟩, (n.log2 : Int) - 52) := by
  have place := log2_le positive small
  have amount : ((n.log2 : Int) - 52 - -(k : Int)).toNat = k - (52 - n.log2) := by omega
  have zeros : n * 2 ^ k = significand n * 2 ^ (k - (52 - n.log2)) := by
    rw [significand, Nat.mul_assoc, ← Nat.pow_add, Nat.add_sub_cancel' enough]
  rw [shiftToTargetExponent, targetExponent_eq positive rfl rfl, shiftToExponent, amount]
  dsimp only [ExtendedMantissa.ofMantissaAndAccuracy]
  rw [zeros, shift_zeros]
  refine Prod.ext rfl ?_
  dsimp only
  omega

theorem round_whole {n : Nat} (positive : n ≠ 0) (small : n < 2 ^ 53) (sign : Sign) (k : Nat) :
    UnpackedFloat.round .binary64 sign (n * 2 ^ k) (-k) =
      .finite sign (significand n) (n.log2 - 52) (significand_pos positive) := by
  have place := log2_le positive small
  obtain ⟨j, amount⟩ : ∃ j, j = (-(k : Int) - (n.log2 - 52)).toNat := ⟨_, rfl⟩
  have lowered : decreaseExponent (n * 2 ^ k) (-k) (n.log2 - 52) = (n * 2 ^ (k + j), -((k + j : Nat) : Int)) := by
    rw [decreaseExponent, ← amount]
    refine Prod.ext ?_ ?_ <;> dsimp only
    · rw [Nat.shiftLeft_eq, Nat.mul_assoc, Nat.pow_add]
    · omega
  have first := shiftToTargetExponent_whole positive small (k := k + j) (by omega)
  have second : shiftToTargetExponent .binary64 (significand n) ((n.log2 : Int) - 52) .exact =
      (⟨significand n, false, false⟩, (n.log2 : Int) - 52) := by
    have same := shiftToTargetExponent_whole positive small (Nat.le_refl (52 - n.log2))
    rwa [show -((52 - n.log2 : Nat) : Int) = (n.log2 : Int) - 52 by omega] at same
  rw [UnpackedFloat.round, targetExponent_eq positive rfl rfl, lowered]
  dsimp only
  rw [roundWithAccuracy, first]
  dsimp only [ExtendedMantissa.roundedMantissa, ExtendedMantissa.accuracy, Accuracy.roundToNearestEven]
  rw [second]
  exact dif_neg (significand_pos positive).ne'

theorem normalize_whole {n : Int} (small : n.natAbs < 2 ^ 53) (k : Nat) :
    UnpackedFloat.normalize .binary64 (n * 2 ^ k) (-k) .positive = unpacked n := by
  have two : (0 : Int) < 2 ^ k := Int.pow_pos (by decide)
  unfold UnpackedFloat.normalize unpacked signOf
  rcases lt_trichotomy n 0 with negative | rfl | positive
  · have size : (-(n * 2 ^ k)).toNat = n.natAbs * 2 ^ k := by
      rw [← Int.neg_mul, show -n = (n.natAbs : Int) by omega]
      exact Int.toNat_natCast (n.natAbs * 2 ^ k)
    rw [Int.compare_eq_lt.2 (Int.mul_neg_of_neg_of_pos negative two), dif_neg (by omega), if_pos negative]
    dsimp only
    rw [size]
    exact round_whole (by omega) small .negative k
  · simp
  · have size : (n * 2 ^ k).toNat = n.natAbs * 2 ^ k := by
      nth_rewrite 1 [show n = (n.natAbs : Int) by omega]
      exact Int.toNat_natCast (n.natAbs * 2 ^ k)
    rw [Int.compare_eq_gt.2 (Int.mul_pos positive two), dif_neg (by omega), if_neg (by omega)]
    dsimp only
    rw [size]
    exact round_whole (by omega) small .positive k

/-- The significand moved down again, to a place that is low enough. -/
theorem decreaseExponent_significand {n : Nat} {k : Nat} (small : n.log2 ≤ 52) (enough : 52 - n.log2 ≤ k) :
    (decreaseExponent (significand n) (n.log2 - 52) (-k)).1 = n * 2 ^ k := by
  have amount : ((n.log2 : Int) - 52 - -(k : Int)).toNat = k - (52 - n.log2) := by omega
  rw [decreaseExponent, amount]
  dsimp only
  rw [Nat.shiftLeft_eq, significand, Nat.mul_assoc, ← Nat.pow_add, Nat.add_sub_cancel' enough]

theorem signOf_apply (n : Int) (k : Nat) : (signOf n).apply ((n.natAbs * 2 ^ k : Nat) : Int) = n * 2 ^ k := by
  unfold signOf Sign.apply
  push_cast
  split
  · next same =>
    split at same
    · next negative => rw [abs_of_neg negative, Int.neg_mul, Int.neg_neg]
    · cases same
  · next same =>
    split at same
    · cases same
    · next whole => rw [abs_of_nonneg (by omega)]

theorem add_unpacked {m n : Int} (first : m.natAbs < 2 ^ 53) (second : n.natAbs < 2 ^ 53)
    (both : (m + n).natAbs < 2 ^ 53) : add .binary64 (unpacked m) (unpacked n) = unpacked (m + n) := by
  by_cases left : m.natAbs = 0
  · obtain rfl : m = 0 := by omega
    rw [Int.zero_add]
    unfold unpacked
    by_cases right : n.natAbs = 0 <;> simp [right, add]
  · by_cases right : n.natAbs = 0
    · obtain rfl : n = 0 := by omega
      rw [Int.add_zero]
      unfold unpacked
      simp [left, add]
    · obtain ⟨k, least⟩ : ∃ k : Nat, k = max (52 - m.natAbs.log2) (52 - n.natAbs.log2) := ⟨_, rfl⟩
      have place := log2_le left first
      have other := log2_le right second
      have lower : min ((m.natAbs.log2 : Int) - 52) (n.natAbs.log2 - 52) = -k := by omega
      unfold unpacked
      rw [dif_neg left, dif_neg right]
      unfold add
      dsimp only
      rw [lower, decreaseExponent_significand place (by omega), decreaseExponent_significand other (by omega),
        signOf_apply, signOf_apply, ← Int.add_mul]
      exact normalize_whole both k

/-- Two whole numbers are added as they should be. -/
theorem ofInt_add {m n : Int} (first : m.natAbs < 2 ^ 53) (second : n.natAbs < 2 ^ 53)
    (both : (m + n).natAbs < 2 ^ 53) : ofInt m + ofInt n = ofInt (m + n) := by
  have parts {n : Int} (small : n.natAbs < 2 ^ 53) : (ofInt n).toModel = .pack (unpacked n) := by
    rw [ofInt_eq small, ← unpack_word small]
    rfl
  have back {n : Int} (small : n.natAbs < 2 ^ 53) : (Float.Model.pack (unpacked n)).unpack = unpacked n := by
    have bits : (Float.Model.pack (unpacked n)).toBits.toBitVec = word n := pack_unpacked small
    rw [Float.Model.unpack, bits, unpack_word small]
  show Float.ofModel (.pack (add .binary64 (ofInt m).toModel.unpack (ofInt n).toModel.unpack)) = _
  rw [parts first, parts second, back first, back second, add_unpacked first second both, ← parts both]

end Workbench.Decimal
