/-
How far lexemes reach.

No lexeme reaches beyond its text. What follows behind a line feed changes no
lexeme in front of it: gaps, words and numbers end there, and a quoted text that
has come to its end stays as it is. Only a quoted text that has not, and a
carriage return at the very end, would go on.
-/
import Workbench.Script.Lexeme

namespace Workbench.Script

/-- What is read lies within the text. -/
def Bounded {α : Type} (measure : List Char → Option (α × Nat)) : Prop :=
  ∀ cs a n, measure cs = some (a, n) → n ≤ cs.length

/-- What follows behind a line feed makes no difference. -/
def Settled {α : Type} (measure : List Char → Option (α × Nat)) : Prop :=
  ∀ cs more, measure (cs ++ '\n' :: more) = measure cs

variable {cs more : List Char}

/-! ## Gaps -/

theorem gapFrom_le (inComment : Bool) (cs : List Char) : gapFrom inComment cs ≤ cs.length := by
  fun_induction gapFrom inComment cs <;> simp_all

theorem gapFrom_cons (inComment : Bool) (c : Char) (rest : List Char) :
    gapFrom inComment (c :: rest) =
      if inComment then
        if isBreak c then 0 else gapFrom true rest + 1
      else if c = ' ' ∨ c = '\t' then gapFrom false rest + 1
      else
        match c, rest with
        | '/', '/' :: more => gapFrom true more + 2
        | _, _ => 0 :=
  gapFrom.eq_def ..

theorem gapFrom_blocked {c : Char} {rest : List Char} (solid : ¬ (c = ' ' ∨ c = '\t'))
    (single : ∀ more, c = '/' → rest = '/' :: more → False) : gapFrom false (c :: rest) = 0 := by
  rw [gapFrom_cons, if_neg (by simp), if_neg solid]
  split
  · exact absurd rfl (single _ rfl)
  · rfl

theorem gapFrom_break {inComment : Bool} {c : Char} (breaks : isBreak c = true) (rest : List Char) :
    gapFrom inComment (c :: rest) = 0 := by
  cases inComment with
  | true => rw [gapFrom_cons, if_pos rfl, if_pos breaks]
  | false =>
    refine gapFrom_blocked ?_ ?_
    · rintro (rfl | rfl) <;> cases breaks
    · rintro _ rfl
      cases breaks

theorem gapFrom_comment {c : Char} (text : ¬ isBreak c = true) (rest : List Char) :
    gapFrom true (c :: rest) = gapFrom true rest + 1 := by
  rw [gapFrom_cons, if_pos rfl, if_neg text]

theorem gapFrom_blank {c : Char} (blank : c = ' ' ∨ c = '\t') (rest : List Char) :
    gapFrom false (c :: rest) = gapFrom false rest + 1 := by
  rw [gapFrom_cons, if_neg Bool.false_ne_true, if_pos blank]

theorem gapFrom_slashes (rest : List Char) : gapFrom false ('/' :: '/' :: rest) = gapFrom true rest + 2 := by
  exact (gapFrom_cons ..).trans ((if_neg Bool.false_ne_true).trans (if_neg (by decide)))

theorem gapFrom_append (inComment : Bool) (cs more : List Char) :
    gapFrom inComment (cs ++ '\n' :: more) = gapFrom inComment cs := by
  fun_induction gapFrom inComment cs with
  | case1 inComment => exact gapFrom_break rfl more
  | case2 c rest breaks => exact gapFrom_break breaks _
  | case3 c rest text ih => rw [← ih, List.cons_append, gapFrom_comment text]
  | case4 inComment c rest code blank ih =>
    obtain rfl : inComment = false := by simpa using code
    rw [← ih, List.cons_append, gapFrom_blank blank]
  | case5 inComment code rest solid ih =>
    obtain rfl : inComment = false := by simpa using code
    rw [← ih, List.cons_append, List.cons_append, gapFrom_slashes]
  | case6 inComment c rest code solid single =>
    obtain rfl : inComment = false := by simpa using code
    refine gapFrom_blocked solid fun text slash same => ?_
    cases rest with
    | nil => cases same
    | cons d rest =>
      cases same
      exact single rest slash rfl

/-- Behind a gap there is none. -/
theorem gap_drop (cs : List Char) : gap (cs.drop (gap cs)) = 0 := by
  suffices all : ∀ inComment, gap (cs.drop (gapFrom inComment cs)) = 0 from all false
  intro inComment
  fun_induction gapFrom inComment cs with
  | case1 => rfl
  | case2 c rest breaks => exact gapFrom_break breaks _
  | case3 c rest text ih => exact ih
  | case4 inComment c rest code blank ih => exact ih
  | case5 inComment code rest solid ih => exact ih
  | case6 inComment c rest code solid single => exact gapFrom_blocked solid single

/-! ## Words -/

theorem takeWhile_append_line {p : Char → Bool} (stops : p '\n' = false) (cs more : List Char) :
    (cs ++ '\n' :: more).takeWhile p = cs.takeWhile p := by
  induction cs with
  | nil => simp [stops]
  | cons c rest ih => simp [List.takeWhile_cons, ih]

theorem dropWhile_append_line {p : Char → Bool} (stops : p '\n' = false) (cs more : List Char) :
    (cs ++ '\n' :: more).dropWhile p = cs.dropWhile p ++ '\n' :: more := by
  induction cs with
  | nil => simp [stops]
  | cons c rest ih =>
    simp only [List.cons_append, List.dropWhile_cons, ih]
    split <;> rfl

theorem word_append (cs more : List Char) : word (cs ++ '\n' :: more) = word cs :=
  takeWhile_append_line rfl cs more

theorem word_le (cs : List Char) : (word cs).length ≤ cs.length := (List.takeWhile_prefix _).length_le

theorem keyword?_bounded (k : String) : Bounded (keyword? k) := by
  intro cs a n read
  unfold keyword? at read
  split at read
  · next same =>
    cases read
    rw [← String.length_toList, ← same]
    exact word_le cs
  · cases read

theorem keyword?_settled (k : String) : Settled (keyword? k) := by
  intro cs more
  simp only [keyword?, word_append]

theorem bool?_bounded : Bounded bool? := by
  intro cs a n read
  unfold bool? at read
  have le := word_le cs
  split at read
  · next same =>
    cases read
    rwa [same] at le
  · split at read
    · next same =>
      cases read
      rwa [same] at le
    · cases read

theorem bool?_settled : Settled bool? := by
  intro cs more
  simp only [bool?, word_append]

theorem name?_bounded : Bounded name? := by
  intro cs a n read
  unfold name? at read
  split at read
  · cases read
  · dsimp only at read
    split at read
    · cases read
      exact word_le _
    · cases read

theorem name?_settled : Settled name? := by
  intro cs more
  cases cs with
  | nil => rfl
  | cons c rest => simp only [name?, List.cons_append, ← word_append (c :: rest) more]

/-! ## Numbers -/

theorem takeDigits_append (cs more : List Char) :
    Decimal.takeDigits (cs ++ '\n' :: more) =
      ((Decimal.takeDigits cs).1, (Decimal.takeDigits cs).2 ++ '\n' :: more) := by
  have stops : Char.isDigit '\n' = false := rfl
  simp only [Decimal.takeDigits, takeWhile_append_line stops, dropWhile_append_line stops]

theorem takeDigits_length (cs : List Char) :
    (Decimal.takeDigits cs).1.length + (Decimal.takeDigits cs).2.length = cs.length := by
  rw [← List.length_append, Decimal.takeDigits, List.takeWhile_append_dropWhile]

/-- Whether a number has a minus sign, and what follows it. -/
def minusSign : List Char → Bool × List Char
  | '-' :: rest => (true, rest)
  | rest => (false, rest)

/-- The digits of a fraction. -/
def fractionDigits : List Char → List Char
  | '.' :: more => (Decimal.takeDigits more).1
  | _ => []

theorem number?_eq (cs : List Char) :
    number? cs =
      if (Decimal.takeDigits (minusSign cs).2).1 = [] then none
      else
        let whole := (Decimal.takeDigits (minusSign cs).2).1
        let fraction := fractionDigits (Decimal.takeDigits (minusSign cs).2).2
        some (Decimal.Numeral.value ⟨(minusSign cs).1, whole, fraction, 0⟩,
          (if (minusSign cs).1 then 1 else 0) + whole.length +
            (if fraction = [] then 0 else fraction.length + 1)) := rfl

theorem minusSign_append (cs more : List Char) :
    minusSign (cs ++ '\n' :: more) = ((minusSign cs).1, (minusSign cs).2 ++ '\n' :: more) := by
  cases cs with
  | nil => rfl
  | cons c rest =>
    by_cases minus : c = '-'
    · subst minus
      rfl
    · have one (text : List Char) : minusSign (c :: text) = (false, c :: text) := by
        unfold minusSign
        split
        · next same => cases same; exact absurd rfl minus
        · rfl
      rw [List.cons_append, one, one]
      rfl

theorem minusSign_length (cs : List Char) :
    (if (minusSign cs).1 then 1 else 0) + (minusSign cs).2.length = cs.length := by
  unfold minusSign
  split <;> simp [Nat.add_comm]

theorem fractionDigits_append (cs more : List Char) : fractionDigits (cs ++ '\n' :: more) = fractionDigits cs := by
  cases cs with
  | nil => rfl
  | cons c rest =>
    by_cases point : c = '.'
    · subst point
      show (Decimal.takeDigits (rest ++ '\n' :: more)).1 = (Decimal.takeDigits rest).1
      rw [takeDigits_append]
    · have none (text : List Char) : fractionDigits (c :: text) = [] := by
        unfold fractionDigits
        split
        · next same => cases same; exact absurd rfl point
        · rfl
      rw [List.cons_append, none, none]

theorem fractionDigits_length (cs : List Char) :
    (if fractionDigits cs = [] then 0 else (fractionDigits cs).length + 1) ≤ cs.length := by
  unfold fractionDigits
  split
  · next more =>
    have digits := takeDigits_length more
    rw [List.length_cons]
    split <;> omega
  · simp

theorem number?_bounded : Bounded number? := by
  intro cs a n read
  rw [number?_eq] at read
  split at read
  · cases read
  · cases read
    have sign := minusSign_length cs
    have digits := takeDigits_length (minusSign cs).2
    have fraction := fractionDigits_length (Decimal.takeDigits (minusSign cs).2).2
    omega

theorem number?_settled : Settled number? := by
  intro cs more
  simp only [number?_eq, minusSign_append, takeDigits_append, fractionDigits_append]

/-! ## Quoted texts and line breaks -/

theorem quotedFrom?_plain {c : Char} (open_ : c ≠ '"') (plain : c ≠ '\\') (rest : List Char) :
    quotedFrom? (c :: rest) = (quotedFrom? rest).map fun (cs, n) => (c :: cs, n + 1) := by
  rw [quotedFrom?.eq_def]
  split <;> simp_all

/-- A quoted text that has come to its end stays as it is, whatever follows. -/
theorem quotedFrom?_append {cs text : List Char} {n : Nat} (read : quotedFrom? cs = some (text, n))
    (more : List Char) : n ≤ cs.length ∧ quotedFrom? (cs ++ more) = some (text, n) := by
  fun_induction quotedFrom? cs generalizing text n with
  | case1 | case3 => cases read
  | case2 =>
    cases read
    simp [quotedFrom?]
  | case4 c rest ih =>
    obtain ⟨⟨chars, m⟩, inner, same⟩ := Option.map_eq_some_iff.1 read
    cases same
    obtain ⟨within, kept⟩ := ih inner
    refine ⟨by simpa using within, ?_⟩
    simp only [List.cons_append, quotedFrom?, kept, Option.map_some]
  | case5 c rest open_ single escaped ih =>
    obtain ⟨⟨chars, m⟩, inner, same⟩ := Option.map_eq_some_iff.1 read
    cases same
    obtain ⟨within, kept⟩ := ih inner
    have plain : c ≠ '\\' := by
      rintro rfl
      cases rest with
      | nil => exact single rfl rfl
      | cons d rest => exact escaped d rest rfl rfl
    refine ⟨by simpa using within, ?_⟩
    rw [List.cons_append, quotedFrom?_plain open_ plain, kept]
    rfl

theorem quoted?_append {cs : List Char} {text : String} {n : Nat} (read : quoted? cs = some (text, n))
    (more : List Char) : n ≤ cs.length ∧ quoted? (cs ++ more) = some (text, n) := by
  unfold quoted? at read
  split at read
  · next rest =>
    obtain ⟨⟨chars, m⟩, inner, same⟩ := Option.map_eq_some_iff.1 read
    cases same
    obtain ⟨within, kept⟩ := quotedFrom?_append inner more
    refine ⟨by simpa using within, ?_⟩
    simp only [List.cons_append, quoted?, kept, Option.map_some]
  · cases read

theorem quoted?_bounded : Bounded quoted? := fun _ _ _ read => (quoted?_append read []).1

theorem quoted?_unquoted {cs : List Char} (unquoted : ∀ rest, cs ≠ '"' :: rest) : quoted? cs = none := by
  unfold quoted?
  split
  · exact absurd rfl (unquoted _)
  · rfl

theorem breakLength?_le {n : Nat} (read : breakLength? cs = some n) : 0 < n ∧ n ≤ cs.length := by
  unfold breakLength? at read
  split at read <;> cases read <;> simp

theorem breakLength?_return {d : Char} (other : d ≠ '\n') (rest : List Char) :
    breakLength? ('\r' :: d :: rest) = some 1 := by
  unfold breakLength?
  split <;> simp_all

theorem breakLength?_eq_none : breakLength? cs = none ↔ ∀ c rest, cs = c :: rest → isBreak c = false := by
  unfold breakLength?
  split
  · simp [isBreak]
  · simp [isBreak]
  · simp [isBreak]
  · next feed pair return_ =>
    refine iff_of_true rfl fun c rest same => ?_
    subst same
    have feed : c ≠ '\n' := by
      rintro rfl
      exact feed rest rfl
    have return_ : c ≠ '\r' := by
      rintro rfl
      exact return_ rest rfl
    simp [isBreak, feed, return_]

/-- A line break stays as it is, unless it is a carriage return at the very end. -/
theorem breakLength?_append (some_text : cs ≠ []) (open_ : cs ≠ ['\r']) (more : List Char) :
    breakLength? (cs ++ '\n' :: more) = breakLength? cs := by
  match cs with
  | [] => exact absurd rfl some_text
  | [c] =>
    have other : c ≠ '\r' := fun same => open_ (by rw [same])
    simp only [List.cons_append, List.nil_append]
    unfold breakLength?
    split <;> simp_all
  | c :: d :: rest =>
    by_cases feed : c = '\n'
    · subst feed
      rfl
    · by_cases return_ : c = '\r'
      · subst return_
        by_cases pair : d = '\n'
        · subst pair
          rfl
        · rw [List.cons_append, List.cons_append, breakLength?_return pair, breakLength?_return pair]
      · have solid : isBreak c = false := by simp [isBreak, feed, return_]
        have none (text : List Char) : breakLength? (c :: text) = none :=
          breakLength?_eq_none.2 fun _ _ same => by cases same; exact solid
        rw [List.cons_append, none, none]

end Workbench.Script
