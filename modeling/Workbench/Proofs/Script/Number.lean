/-
Numbers in scripts.

A number is computed with as a double and kept as an integer where it is whole and
below 2⁵³ in size, so that it shows no fraction. Nothing is lost by that but the sign of
a zero (`asDouble?_numberValue`), and whole numbers are added as integers are, as
long as the sum is small enough (`plus_int`). What is not finite is no number any
more (`numberValue_of_infinite`). Digits in a program denote the whole number that they
spell (`numberValue_digits`).
-/
import Workbench.Proofs.Decimal.Whole
import Workbench.Script.Machine

namespace Workbench.Script

open Decimal

/-- What is infinite or undefined has no value. -/
theorem numberValue_of_infinite {x : Float} (infinite : isFinite x = false) : numberValue x = .null := by
  have none : Dyadic.ofFloat? x = none := by simpa [isFinite] using infinite
  unfold numberValue
  rw [none]

/-- The value of a whole number that is small enough is that number. -/
theorem numberValue_ofInt {n : Int} (small : n.natAbs < 2 ^ 53) : numberValue (ofInt n) = .int n := by
  by_cases zero : n = 0
  · subst zero
    unfold numberValue
    rw [ofFloat?_ofInt_zero]
    dsimp only
    rw [magnitude?_zero]
    rfl
  · have positive : n.natAbs ≠ 0 := by simpa using zero
    have bound : n.natAbs < 2 * leadingBit := small
    unfold numberValue
    rw [ofFloat?_ofInt zero small]
    dsimp only
    rw [magnitude?_significand positive small]
    dsimp only
    rw [if_pos bound]
    congr 1
    simp only [decide_eq_true_eq]
    split <;> omega

/-- A finite number that is a value is the same double again when it is computed with, if it is not zero. -/
theorem asDouble?_numberValue {x : Float} (finite : isFinite x = true) :
    asDouble? (numberValue x) = some x ∨ numberValue x = .int 0 := by
  obtain ⟨d, parts⟩ := Option.isSome_iff_exists.1 finite
  unfold numberValue
  rw [parts]
  dsimp only
  cases whole : d.magnitude? with
  | none => exact .inl rfl
  | some n =>
    dsimp only
    split
    · next small =>
      by_cases zero : n = 0
      · subst zero
        exact .inr (by split <;> rfl)
      · exact .inl (congrArg some (eq_ofInt parts whole zero small).symm)
    · exact .inl rfl

/-- Whole numbers are added as integers are. -/
theorem plus_int {m n : Int} (first : m.natAbs < 2 ^ 53) (second : n.natAbs < 2 ^ 53)
    (both : (m + n).natAbs < 2 ^ 53) : plus (.int m) (.int n) = .ok (.int (m + n)) := by
  show Except.ok (numberValue (ofInt m + ofInt n)) = _
  rw [ofInt_add first second both, numberValue_ofInt both]

/-- Digits denote the whole number that they spell. -/
theorem numberValue_digits {ds : List Char} (small : ofDigits ds < 2 ^ 53) :
    numberValue (Numeral.value ⟨false, ds, [], 0⟩) = .int (ofDigits ds) := by
  have short : (natText (ofDigits ds)).length ≤ 16 :=
    (Nat.length_toDigits_le_iff (by decide) (by decide)).2 (small.trans (by decide))
  have value : Numeral.value ⟨false, ds, [], 0⟩ = ofInt (ofDigits ds) := by
    unfold Numeral.value ofScaled
    simp only [List.append_nil, List.length_nil]
    by_cases zero : ofDigits ds = 0
    · rw [if_pos (.inl zero), zero]
      rfl
    · rw [if_neg (by omega), if_neg (by omega), if_pos (by decide)]
      show nearest false (ofDigits ds * 1) 1 = nearest _ _ 1
      rw [Nat.mul_one]
      rfl
  exact value ▸ numberValue_ofInt (n := ofDigits ds) small

section

variable {bindings : List (String × Json)} {context : Context}

/-- A whole number in a program is that number. -/
theorem Expr.eval_whole {n : Int} (small : n.natAbs < 2 ^ 53) :
    (Expr.number (ofInt n)).eval bindings context = .ok (.int n) :=
  congrArg Except.ok (numberValue_ofInt small)

/-- The sum of two whole numbers is the sum of what they come to. -/
theorem Expr.eval_sum {l r : Expr} {m n : Int} (left : l.eval bindings context = .ok (.int m))
    (right : r.eval bindings context = .ok (.int n)) (first : m.natAbs < 2 ^ 53) (second : n.natAbs < 2 ^ 53)
    (both : (m + n).natAbs < 2 ^ 53) : (Expr.add l r).eval bindings context = .ok (.int (m + n)) := by
  rw [Expr.eval, left, right]
  exact plus_int first second both

end

end Workbench.Script
