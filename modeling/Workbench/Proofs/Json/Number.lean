/-
Numbers that are printed and read back.

A number is read to its end, whatever follows it that is no part of it
(`readNumber?_append`). A whole number of 64 bits is read as itself (`readNumber?_int`),
and so is a finite double: in each layout its text spells the shortest decimal
(`readNumber?_digits`), which is rounded to the double (`readNumber?_float`).
-/
import Mathlib
import Workbench.Json.Printer
import Workbench.Json.Reader
import Workbench.Proofs.Decimal.Shortest

namespace Workbench.Json

/-! ## Where a number ends -/

/-- What follows a number cannot be a part of it. -/
def EndsNumber (rest : List Char) : Prop :=
  ∀ c more, rest = c :: more → c.isDigit = false ∧ c ≠ '.' ∧ c ≠ 'e' ∧ c ≠ 'E'

theorem takeDigits_append {cs rest : List Char} (ends : EndsNumber rest) :
    Decimal.takeDigits (cs ++ rest) = ((Decimal.takeDigits cs).1, (Decimal.takeDigits cs).2 ++ rest) := by
  unfold Decimal.takeDigits
  induction cs with
  | nil =>
    cases rest with
    | nil => rfl
    | cons c more => simp [(ends c more rfl).1]
  | cons c cs ih =>
    simp only [Prod.mk.injEq] at ih
    cases digit : c.isDigit <;> simp [digit, ih]

theorem takeMinus_append {cs : List Char} (some_ : cs ≠ []) (rest : List Char) :
    takeMinus (cs ++ rest) = ((takeMinus cs).1, (takeMinus cs).2 ++ rest) := by
  obtain ⟨c, cs, rfl⟩ := List.exists_cons_of_ne_nil some_
  simp only [List.cons_append, takeMinus]
  split <;> rfl

theorem readFraction?_append {cs rest tail : List Char} {fraction : Option (List Char)} (ends : EndsNumber rest)
    (read : readFraction? cs = some (fraction, tail)) : readFraction? (cs ++ rest) = some (fraction, tail ++ rest) := by
  cases cs with
  | nil =>
    cases read
    cases rest with
    | nil => rfl
    | cons c more => exact if_neg (ends c more rfl).2.1
  | cons c cs =>
    simp only [List.cons_append, readFraction?] at *
    split at read
    · next point =>
      rw [if_pos point, takeDigits_append ends]
      split at read
      · cases read
      · next digits =>
        cases read
        exact if_neg digits
    · next plain =>
      cases read
      exact if_neg plain

theorem takeSign_cons (c : Char) (cs : List Char) :
    Decimal.takeSign (c :: cs) = if c = '-' then (true, cs) else if c = '+' then (false, cs) else (false, c :: cs) := by
  by_cases minus : c = '-'
  · subst minus
    rfl
  · by_cases plus : c = '+'
    · subst plus
      rfl
    · rw [if_neg minus, if_neg plus]
      unfold Decimal.takeSign
      split
      · next same => exact absurd (List.cons.inj same).1 minus
      · next same => exact absurd (List.cons.inj same).1 plus
      · rfl

theorem takeSign_append {cs : List Char} (some_ : cs ≠ []) (rest : List Char) :
    Decimal.takeSign (cs ++ rest) = ((Decimal.takeSign cs).1, (Decimal.takeSign cs).2 ++ rest) := by
  obtain ⟨c, cs, rfl⟩ := List.exists_cons_of_ne_nil some_
  rw [List.cons_append, takeSign_cons, takeSign_cons]
  split
  · rfl
  · split <;> rfl

theorem readExponent?_append {cs rest tail : List Char} {exponent : Option Int} (ends : EndsNumber rest)
    (read : readExponent? cs = some (exponent, tail)) : readExponent? (cs ++ rest) = some (exponent, tail ++ rest) := by
  cases cs with
  | nil =>
    cases read
    cases rest with
    | nil => rfl
    | cons c more => exact if_neg (not_or.2 (ends c more rfl).2.2)
  | cons c cs =>
    simp only [List.cons_append, readExponent?] at *
    split at read
    · next letter =>
      have digits : cs ≠ [] := by
        rintro rfl
        cases read
      rw [if_pos letter, takeSign_append digits, takeDigits_append ends]
      dsimp only
      split at read
      · cases read
      · next digits =>
        cases read
        exact if_neg digits
    · next plain =>
      cases read
      exact if_neg plain

/-- A number is read to its end, whatever follows it. -/
theorem readNumber?_append {cs rest tail : List Char} {j : Json} (ends : EndsNumber rest)
    (read : readNumber? cs = some (j, tail)) : readNumber? (cs ++ rest) = some (j, tail ++ rest) := by
  have digits : cs ≠ [] := by
    rintro rfl
    cases read
  simp only [readNumber?] at read ⊢
  rw [takeMinus_append digits, takeDigits_append ends]
  dsimp only
  split at read
  · cases read
  · next whole =>
    rw [if_neg whole]
    cases fraction : readFraction? (Decimal.takeDigits (takeMinus cs).2).2 with
    | none => simp [fraction] at read
    | some parts =>
      cases exponent : readExponent? parts.2 with
      | none => simp [fraction, exponent] at read
      | some more =>
        rw [readFraction?_append ends fraction]
        dsimp only
        rw [readExponent?_append ends exponent]
        dsimp only
        simp only [fraction, exponent] at read
        obtain ⟨j, number, same⟩ := Option.map_eq_some_iff.1 read
        cases same
        exact Option.map_eq_some_iff.2 ⟨j, number, rfl⟩

/-! ## Whole numbers -/

theorem takeDigits_digits {ds : List Char} (digits : ∀ c ∈ ds, c.isDigit = true) :
    Decimal.takeDigits ds = (ds, []) := by
  unfold Decimal.takeDigits
  rw [List.takeWhile_eq_self_iff.2 digits, List.dropWhile_eq_nil_iff.2 digits]

theorem isDigit_of_mem_natText {n : Nat} : ∀ c ∈ Decimal.natText n, c.isDigit = true :=
  fun _ there => Nat.isDigit_of_mem_toDigits (by decide) (by decide) there

theorem ofDigits_eq {cs : List Char} (digits : ∀ c ∈ cs, c.isDigit = true) :
    Decimal.ofDigits cs = Nat.ofDigitChars 10 cs 0 := by
  unfold Decimal.ofDigits
  generalize 0 = m
  induction cs generalizing m with
  | nil => exact Nat.ofDigitChars_nil.symm
  | cons c cs ih =>
    obtain ⟨first, others⟩ := List.forall_mem_cons.1 digits
    rw [List.foldl_cons, Nat.ofDigitChars_cons, ← ih others, Decimal.digit?, if_pos first]

theorem ofDigits_natText (n : Nat) : Decimal.ofDigits (Decimal.natText n) = n :=
  (ofDigits_eq isDigit_of_mem_natText).trans Nat.ofDigitChars_ten_toDigits

/-- A whole number does not begin with a zero, unless it is zero. -/
theorem natText_head {n : Nat} (zero : (Decimal.natText n).head? = some '0') : n = 0 := by
  unfold Decimal.natText at zero
  induction n using Nat.strongRecOn with
  | ind n ih =>
    by_cases small : n < 10
    · rw [Nat.toDigits_of_lt_base small] at zero
      have digit := Nat.toNat_digitChar_sub_48_of_lt_ten small
      rw [Option.some.inj zero] at digit
      exact digit.symm
    · rw [Nat.toDigits_of_base_le (by decide) (by omega), List.head?_append, Option.or_eq_some_iff] at zero
      rcases zero with zero | ⟨none, -⟩
      · have small := ih (n / 10) (by omega) zero
        omega
      · exact absurd (List.head?_eq_none_iff.1 none) Nat.toDigits_ne_nil

theorem takeMinus_int (n : Int) : takeMinus (toString n).toList = (decide (n < 0), Decimal.natText n.natAbs) := by
  rw [Int.toString_eq_repr, Int.repr_eq_if]
  split
  · next whole =>
    have size : n.toNat = n.natAbs := by omega
    obtain ⟨c, cs, text⟩ : ∃ c cs, Decimal.natText n.natAbs = c :: cs :=
      List.exists_cons_of_ne_nil Nat.toDigits_ne_nil
    have digit : c.isDigit = true := isDigit_of_mem_natText (n := n.natAbs) c (text ▸ .head _)
    have plain : c ≠ '-' := by
      rintro rfl
      cases digit
    rw [Nat.toList_repr, size]
    change takeMinus (Decimal.natText n.natAbs) = _
    rw [text, takeMinus, if_neg plain, decide_eq_false (by omega)]
  · next negative =>
    have size : (-n).toNat = n.natAbs := by omega
    rw [String.toList_append, Nat.toList_repr, size, decide_eq_true (by omega)]
    rfl

/-- A whole number that 64 bits hold, with or without sign. -/
def IsWord (n : Int) : Prop := -(Decimal.signBit : Int) ≤ n ∧ n < Decimal.wordCount

theorem ofWhole?_of_isWord {n : Int} (word : IsWord n) : ofWhole? (n < 0) n.natAbs = some (.int n) := by
  obtain ⟨low, high⟩ := word
  unfold ofWhole?
  by_cases negative : n < 0
  · rw [decide_eq_true negative, if_pos rfl, if_neg (by omega)]
    exact congrArg (fun n => some (Json.int n)) (by omega)
  · rw [decide_eq_false negative, if_neg Bool.false_ne_true, if_pos (by omega)]
    exact congrArg (fun n => some (Json.int n)) (by omega)

/-- The text of a whole number is read as that number. -/
theorem readNumber?_int {n : Int} (word : IsWord n) : readNumber? (toString n).toList = some (.int n, []) := by
  have first : ¬ (Decimal.natText n.natAbs = [] ∨
      (Decimal.natText n.natAbs).head? = some '0' ∧ Decimal.natText n.natAbs ≠ ['0']) := by
    rintro (none | ⟨zero, other⟩)
    · exact Nat.toDigits_ne_nil none
    · rw [natText_head zero] at other
      exact other rfl
  simp only [readNumber?, takeMinus_int, takeDigits_digits isDigit_of_mem_natText, first, ↓reduceIte, readFraction?,
    readExponent?, Option.isNone_none, and_self, ofDigits_natText, ofWhole?_of_isWord word]
  rfl

/-! ## Doubles -/

/-- What follows digits is none. -/
def EndsDigits (rest : List Char) : Prop := ∀ c more, rest = c :: more → c.isDigit = false

theorem endsDigits_nil : EndsDigits [] := fun _ _ same => absurd same.symm (List.cons_ne_nil _ _)

theorem endsDigits_cons {c : Char} (other : c.isDigit = false) (more : List Char) : EndsDigits (c :: more) := by
  rintro _ _ ⟨⟩
  exact other

section

variable {ds rest : List Char} (digits : ∀ c ∈ ds, c.isDigit = true) (ends : EndsDigits rest)

include digits ends

/-- Digits are read up to what is none. -/
theorem takeDigits_upTo : Decimal.takeDigits (ds ++ rest) = (ds, rest) := by
  unfold Decimal.takeDigits
  rw [List.takeWhile_append_of_pos digits, List.dropWhile_append_of_pos digits]
  cases rest with
  | nil => simp
  | cons c more => simp [ends c more rfl]

theorem readFraction?_point (some_ : ds ≠ []) : readFraction? ('.' :: (ds ++ rest)) = some (some ds, rest) := by
  rw [readFraction?, if_pos rfl, takeDigits_upTo digits ends]
  exact if_neg some_

end

theorem readExponent?_nil : readExponent? [] = some (none, []) := rfl

/-- The text of an exponent. -/
def exponentText (e : Int) : List Char := 'e' :: (if 0 ≤ e then '+' else '-') :: Decimal.natText e.natAbs

theorem readExponent?_exponentText (e : Int) : readExponent? (exponentText e) = some (some e, []) := by
  have sign : Decimal.takeSign ((if 0 ≤ e then '+' else '-') :: Decimal.natText e.natAbs) =
      (decide (e < 0), Decimal.natText e.natAbs) := by
    rcases Int.lt_or_le e 0 with negative | whole
    · rw [if_neg (Int.not_le.2 negative), decide_eq_true negative]
      rfl
    · rw [if_pos whole, decide_eq_false (Int.not_lt.2 whole)]
      rfl
  have some_ : Decimal.natText e.natAbs ≠ [] := Nat.toDigits_ne_nil
  simp only [exponentText, readExponent?, true_or, ↓reduceIte, sign, takeDigits_digits isDigit_of_mem_natText, some_,
    decide_eq_true_eq, ofDigits_natText, Option.some.injEq, Prod.mk.injEq, and_true]
  split <;> omega

section

variable (negative : Bool) {whole : List Char} (digits : ∀ c ∈ whole, c.isDigit = true)
  (first : whole ≠ [] ∧ (whole.head? = some '0' → whole = ['0']))

include digits first

/-- A number that is given by its parts. -/
theorem readNumber?_parts {rest tail : List Char} {fraction : Option (List Char)} {exponent : Option Int}
    (ends : EndsDigits rest) (point : readFraction? rest = some (fraction, tail))
    (power : readExponent? tail = some (exponent, [])) (broken : ¬ (fraction.isNone ∧ exponent.isNone)) :
    readNumber? ((if negative then ['-'] else []) ++ (whole ++ rest)) =
      (ofDouble? (Decimal.Numeral.value ⟨negative, whole, fraction.getD [], exponent.getD 0⟩)).map
        fun j => (j, []) := by
  have sign : takeMinus ((if negative then ['-'] else []) ++ (whole ++ rest)) = (negative, whole ++ rest) := by
    cases negative with
    | true => rfl
    | false =>
      obtain ⟨c, cs, rfl⟩ := List.exists_cons_of_ne_nil first.1
      have plain : c ≠ '-' := by
        rintro rfl
        cases digits '-' (.head _)
      exact if_neg plain
  have well : ¬ (whole = [] ∨ whole.head? = some '0' ∧ whole ≠ ['0']) := by
    rintro (none | ⟨zero, other⟩)
    · exact first.1 none
    · exact other (first.2 zero)
  simp only [readNumber?, sign, takeDigits_upTo digits ends, well, ↓reduceIte, point, power, broken]

/-- A number with a point. -/
theorem readNumber?_pointed {fraction tail : List Char} (behind : ∀ c ∈ fraction, c.isDigit = true)
    (some_ : fraction ≠ []) {exponent : Option Int} (ends : EndsDigits tail)
    (power : readExponent? tail = some (exponent, [])) :
    readNumber? ((if negative then ['-'] else []) ++ (whole ++ '.' :: (fraction ++ tail))) =
      (ofDouble? (Decimal.ofScaled negative (Nat.ofDigitChars 10 (whole ++ fraction) 0)
        (exponent.getD 0 - fraction.length))).map fun j => (j, []) := by
  have point := readFraction?_point behind ends some_
  have all : ∀ c ∈ whole ++ fraction, c.isDigit = true := List.forall_mem_append.2 ⟨digits, behind⟩
  rw [readNumber?_parts negative digits first (endsDigits_cons rfl _) point power (by simp), ← ofDigits_eq all]
  rfl

/-- A number with an exponent and without a point. -/
theorem readNumber?_scaled (e : Int) :
    readNumber? ((if negative then ['-'] else []) ++ (whole ++ exponentText e)) =
      (ofDouble? (Decimal.ofScaled negative (Nat.ofDigitChars 10 whole 0) e)).map fun j => (j, []) := by
  have power := readExponent?_exponentText e
  have none : readFraction? (exponentText e) = some (none, exponentText e) := rfl
  have value : Decimal.Numeral.value ⟨negative, whole, [], e⟩ =
      Decimal.ofScaled negative (Nat.ofDigitChars 10 whole 0) e := by
    rw [← ofDigits_eq digits, Decimal.Numeral.value, List.append_nil, List.length_nil]
    exact congrArg _ (Int.sub_zero e)
  have ends : EndsDigits (exponentText e) := endsDigits_cons rfl _
  rw [readNumber?_parts negative digits first ends none power (by simp), ← value]
  rfl

end

theorem natText_first {c : Nat} :
    Decimal.natText c ≠ [] ∧ ((Decimal.natText c).head? = some '0' → Decimal.natText c = ['0']) := by
  refine ⟨Nat.toDigits_ne_nil, fun zero => ?_⟩
  rw [natText_head zero]
  rfl

theorem isDigit_of_mem_zeros {n : Nat} : ∀ c ∈ List.replicate n '0', c.isDigit = true := by
  intro c there
  rw [List.eq_of_mem_replicate there]
  rfl

/-! ### The layouts -/

section

variable (negative : Bool) {ds : List Char} (digits : ∀ c ∈ ds, c.isDigit = true)
  (first : ds ≠ [] ∧ (ds.head? = some '0' → ds = ['0'])) {c : Nat} (value : Nat.ofDigitChars 10 ds 0 = c)

include digits first value

/-- Zeros behind the digits, and a point with a zero. -/
theorem readNumber?_zeros {n : Nat} (some_ : c = 0 → n = 0) :
    readNumber? ((if negative then ['-'] else []) ++ (ds ++ List.replicate n '0' ++ ['.', '0'])) =
      (ofDouble? (Decimal.ofScaled negative (10 ^ (n + 1) * c) (-1))).map fun j => (j, []) := by
  have whole : ds ++ List.replicate n '0' ≠ [] ∧
      ((ds ++ List.replicate n '0').head? = some '0' → ds ++ List.replicate n '0' = ['0']) := by
    refine ⟨List.append_ne_nil_of_left_ne_nil first.1 _, fun head => ?_⟩
    rw [List.head?_append_of_ne_nil _ first.1] at head
    have zero := first.2 head
    have none : n = 0 := some_ (by rw [← value, zero]; rfl)
    rw [zero, none]
    rfl
  have all : Nat.ofDigitChars 10 (ds ++ List.replicate n '0' ++ List.replicate 1 '0') 0 = 10 ^ (n + 1) * c := by
    rw [List.append_assoc, List.replicate_append_replicate, Nat.ofDigitChars_append, value,
      Nat.ofDigitChars_replicate_zero]
  have point : ∀ c ∈ List.replicate 1 '0', c.isDigit = true := isDigit_of_mem_zeros
  have read := readNumber?_pointed negative (List.forall_mem_append.2 ⟨digits, isDigit_of_mem_zeros⟩) whole point
    (List.cons_ne_nil _ _) endsDigits_nil readExponent?_nil
  rw [all] at read
  exact read

/-- A point among the digits. -/
theorem readNumber?_inside {n : Nat} (some_ : 0 < n) (fewer : n < ds.length) :
    readNumber? ((if negative then ['-'] else []) ++ (ds.take n ++ '.' :: ds.drop n)) =
      (ofDouble? (Decimal.ofScaled negative c (n - ds.length))).map fun j => (j, []) := by
  have whole : ds.take n ≠ [] ∧ ((ds.take n).head? = some '0' → ds.take n = ['0']) := by
    refine ⟨?_, fun head => ?_⟩
    · rw [Ne, List.take_eq_nil_iff]
      exact not_or.2 ⟨by omega, first.1⟩
    · rw [List.head?_take, if_neg (by omega)] at head
      rw [first.2 head, List.length_singleton] at fewer
      omega
  have behind : ds.drop n ≠ [] := by
    rw [Ne, List.drop_eq_nil_iff]
    omega
  have place : (none : Option Int).getD 0 - (ds.drop n).length = n - ds.length := by
    rw [List.length_drop, Option.getD_none]
    omega
  have read := readNumber?_pointed negative (fun d there => digits d (List.mem_of_mem_take there)) whole
    (fun d there => digits d (List.mem_of_mem_drop there)) behind endsDigits_nil readExponent?_nil
  rwa [List.take_append_drop, value, List.append_nil, place] at read

/-- A point in front of the digits, with zeros behind it. -/
theorem readNumber?_before (n : Nat) :
    readNumber? ((if negative then ['-'] else []) ++ (['0'] ++ '.' :: (List.replicate n '0' ++ ds))) =
      (ofDouble? (Decimal.ofScaled negative c (-(n + ds.length)))).map fun j => (j, []) := by
  have all : Nat.ofDigitChars 10 (['0'] ++ (List.replicate n '0' ++ ds)) 0 = c := by
    rw [← List.append_assoc, Nat.ofDigitChars_append, ← List.replicate_one, List.replicate_append_replicate,
      Nat.ofDigitChars_replicate_zero, Nat.mul_zero, value]
  have place : (none : Option Int).getD 0 - (List.replicate n '0' ++ ds).length = -(n + ds.length) := by
    rw [List.length_append, List.length_replicate, Option.getD_none]
    omega
  have zero : ∀ c ∈ ['0'], c.isDigit = true := List.forall_mem_singleton.2 rfl
  have read := readNumber?_pointed negative zero ⟨List.cons_ne_nil _ _, fun _ => rfl⟩
    (List.forall_mem_append.2 ⟨isDigit_of_mem_zeros, digits⟩)
    (List.append_ne_nil_of_right_ne_nil (List.replicate n '0') first.1) endsDigits_nil readExponent?_nil
  rwa [all, place, List.append_nil] at read

/-- An exponent behind the first digit, or behind a point and the others. -/
theorem readNumber?_lead {d : Char} {others : List Char} (cons : ds = d :: others) (lead : Int) :
    readNumber? ((if negative then ['-'] else []) ++
      (d :: ((if others = [] then [] else '.' :: others) ++ exponentText lead))) =
      (ofDouble? (Decimal.ofScaled negative c (lead - others.length))).map fun j => (j, []) := by
  subst cons
  obtain ⟨digit, rest⟩ := List.forall_mem_cons.1 digits
  have leading : ∀ c ∈ [d], c.isDigit = true := List.forall_mem_singleton.2 digit
  have whole : [d] ≠ [] ∧ ([d].head? = some '0' → [d] = ['0']) :=
    ⟨List.cons_ne_nil _ _, fun zero => congrArg (fun d => [d]) (Option.some.inj zero)⟩
  by_cases none : others = []
  · subst none
    have read := readNumber?_scaled negative leading whole lead
    rw [value] at read
    rw [if_pos rfl, List.length_nil, Nat.cast_zero, Int.sub_zero]
    exact read
  · have read := readNumber?_pointed negative leading whole rest none (endsDigits_cons rfl _)
      (readExponent?_exponentText lead)
    have all : Nat.ofDigitChars 10 ([d] ++ others) 0 = c := value
    rw [all] at read
    rw [if_neg none]
    exact read

end

/-- The characters of the plain layout. -/
theorem toList_digits (d : Char) (others : List Char) (k : Int) :
    (Decimal.plain.digits (d :: others) k).toList =
      if -5 ≤ k + others.length ∧ k + others.length < 16 then
        if 0 ≤ k then d :: others ++ List.replicate k.toNat '0' ++ ['.', '0']
        else if 0 ≤ k + others.length then
          (d :: others).take ((k + others.length).toNat + 1) ++
            '.' :: (d :: others).drop ((k + others.length).toNat + 1)
        else ['0'] ++ '.' :: (List.replicate ((-(k + others.length)).toNat - 1) '0' ++ d :: others)
      else d :: ((if others = [] then [] else '.' :: others) ++ exponentText (k + others.length)) := by
  have lead : k + (d :: others).length - 1 = k + others.length := by
    rw [List.length_cons]
    omega
  have sign (e : Int) : (if 0 ≤ e then Decimal.plain.exponentSign else "-").toList = [if 0 ≤ e then '+' else '-'] := by
    split <;> rfl
  unfold Decimal.Layout.digits
  dsimp only
  rw [lead]
  simp only [show Decimal.plain.positionalFrom = -5 from rfl, show Decimal.plain.positionalTo = 16 from rfl]
  split
  · split
    · rw [String.toList_append, String.toList_ofList]
      rfl
    · split
      · simp
      · simp
  · cases others with
    | nil => simp [exponentText, sign, Decimal.natText]
    | cons e rest => simp [exponentText, sign, Decimal.natText]

/-- Digits in the plain layout are read as a decimal of the same value. -/
theorem readNumber?_digits (negative : Bool) {ds : List Char} (digits : ∀ c ∈ ds, c.isDigit = true)
    (first : ds ≠ [] ∧ (ds.head? = some '0' → ds = ['0'])) {c : Nat} (value : Nat.ofDigitChars 10 ds 0 = c) {k : Int}
    (zero : c = 0 → k = 0) :
    ∃ (a : Nat) (e : Int), (a * 10 ^ e : ℚ) = c * 10 ^ k ∧
      readNumber? ((if negative then ['-'] else []) ++ (Decimal.plain.digits ds k).toList) =
        (ofDouble? (Decimal.ofScaled negative a e)).map fun j => (j, []) := by
  obtain ⟨d, others, rfl⟩ := List.exists_cons_of_ne_nil first.1
  have length : ((d :: others).length : Int) = others.length + 1 := by
    rw [List.length_cons, Nat.cast_succ]
  rw [toList_digits]
  by_cases positional : -5 ≤ k + others.length ∧ k + others.length < 16
  · rw [if_pos positional]
    by_cases whole : 0 ≤ k
    · obtain ⟨n, rfl⟩ := Int.eq_ofNat_of_zero_le whole
      rw [if_pos whole]
      refine ⟨10 ^ (n + 1) * c, -1, ?_, readNumber?_zeros negative digits first value fun none => ?_⟩
      · push_cast
        rw [zpow_neg_one, zpow_natCast, pow_succ]
        ring
      · exact Int.ofNat_eq_zero.1 (zero none)
    · rw [if_neg whole]
      by_cases inside : 0 ≤ k + others.length
      · rw [if_pos inside]
        have place : (((k + others.length).toNat + 1 : Nat) - (d :: others).length : Int) = k := by
          omega
        have read := readNumber?_inside negative digits first value (Nat.succ_pos (k + others.length).toNat) (by omega)
        rw [Nat.succ_eq_add_one, place] at read
        exact ⟨c, k, rfl, read⟩
      · rw [if_neg inside]
        have place : -(((-(k + others.length)).toNat - 1 : Nat) + (d :: others).length : Int) = k := by
          omega
        have read := readNumber?_before negative digits first value ((-(k + others.length)).toNat - 1)
        rw [place] at read
        exact ⟨c, k, rfl, read⟩
  · rw [if_neg positional]
    have read := readNumber?_lead negative digits first value rfl (k + others.length)
    rw [Int.add_sub_cancel] at read
    exact ⟨c, k, rfl, read⟩

/-- The text of a finite double is read as that double. -/
theorem readNumber?_float {x : Float} (finite : Decimal.isFinite x = true) :
    readNumber? (floatText x).toList = some (.float x, []) := by
  obtain ⟨d, parts⟩ := Option.isSome_iff_exists.1 finite
  obtain ⟨a, e, value, read⟩ := readNumber?_digits d.negative isDigit_of_mem_natText natText_first
    Nat.ofDigitChars_ten_toDigits (Decimal.shortest_zero (Decimal.Dyadic.isDouble parts))
  have text : (floatText x).toList =
      (if d.negative then ['-'] else []) ++
        (Decimal.plain.digits (Decimal.natText (Decimal.shortest d).digits) (Decimal.shortest d).exponent).toList := by
    have rendered : Decimal.text? x = some (Decimal.plain.render d) := congrArg _ parts
    rw [floatText, rendered, Option.getD_some, Decimal.Layout.render, String.toList_append]
    split <;> rfl
  rw [text, read, Decimal.ofScaled_shortest parts value, ofDouble?, if_pos finite]
  rfl

end Workbench.Json
