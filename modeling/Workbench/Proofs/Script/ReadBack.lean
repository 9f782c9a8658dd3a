/-
Programs are read as they are written (`parse_spelled`).

`Reads` says what a reader makes of the characters of something in front of the rest
of a text. An expression is read with the gap behind it or without, as the reader of
sums sees fit; so places are compared up to the gap (`Cursor.Near`) until a line is
read whole. A sum is spelled from the left, as it is read, but the reader hands on the
calls that it has left from term to term. So what is proved of a sum is how far the
reader has come behind its last term, and with how many calls (`Extent.Read`).
-/
import Workbench.Proofs.Script.Spelling

namespace Workbench.Script

namespace Cursor

variable {c : Cursor} {cs rest : List Char}

theorem after_after (c : Cursor) (m n : Nat) : (c.after m).after n = c.after (m + n) := by
  unfold after
  simp only [List.drop_drop, List.take_add, Text.breaks_append, Nat.add_assoc]

theorem rest_after (here : c.rest = cs ++ rest) : (c.after cs.length).rest = rest := by
  show c.rest.drop cs.length = rest
  rw [here, List.drop_left]

theorem line_after (here : c.rest = cs ++ rest) : (c.after cs.length).line = c.line + Text.breaks cs := by
  show c.line + Text.breaks (c.rest.take cs.length) = _
  rw [here, List.take_left]

/-- The same place, up to the gap. -/
def Near (c c' : Cursor) : Prop := c.behindGap = c'.behindGap

theorem Near.behindGap_eq {c₁ : Cursor} {g : List Char} (near : c₁.Near (c.after cs.length))
    (here : c.rest = cs ++ (g ++ rest)) (is_gap : gap (g ++ rest) = g.length) :
    c₁.behindGap = (c.after cs.length).after g.length := by
  rw [near, behindGap, rest_after here, is_gap]

end Cursor

namespace Reading

variable {α β : Type} {p q : Reading α} {good : α → Prop} {good' : β → Prop} {near : Cursor → Cursor → Prop}
  {cs ds b rest : List Char}

/-- The reader reads the characters in front of the rest, as something good, and comes to the place behind them or
near to it. -/
def Reads (near : Cursor → Cursor → Prop) (p : Reading α) (good : α → Prop) (cs rest : List Char) : Prop :=
  ∀ (c : Cursor) (f : Furthest), c.rest = cs ++ rest →
    ∃ a c₁ f₁, p c f = (some (a, c₁), f₁) ∧ good a ∧ near c₁ (c.after cs.length)

/-- The reader reads nothing of the text. -/
def Misses (p : Reading α) (text : List Char) : Prop :=
  ∀ (c : Cursor) (f : Furthest), c.rest = text → ∃ f₁, p c f = (none, f₁)

theorem Misses.of_fails {text : List Char} (fails : ∀ c : Cursor, c.rest = text → Fails [] p p c) : p.Misses text := by
  intro c f here
  obtain ⟨f₁, missed, -⟩ := fails c here f
  exact ⟨f₁, missed⟩

theorem Misses.andThen {text : List Char} (first : p.Misses text) (k : α → Reading β) :
    (Reading.andThen p k).Misses text := by
  intro c f here
  obtain ⟨f₁, missed⟩ := first c f here
  exact ⟨f₁, by simp only [Reading.andThen, missed]⟩

theorem Misses.lexeme {measure : List Char → Option (α × Nat)} {text : List Char} (none_here : measure text = none) :
    (Reading.lexeme measure).Misses text := by
  rintro c f rfl
  exact ⟨f, by simp only [Reading.lexeme, none_here]⟩

theorem Misses.expecting {text : List Char} (part : Part) (missed : p.Misses text) :
    (Reading.expecting part p).Misses text := by
  intro c f here
  obtain ⟨f₁, missed⟩ := missed c f here
  exact ⟨f₁.note part c (f.countAt c.position), by simp only [Reading.expecting, missed]⟩

namespace Reads

theorem lexeme {measure : List Char → Option (α × Nat)} {a : α}
    (measured : measure (cs ++ rest) = some (a, cs.length)) :
    Reads Eq (Reading.lexeme measure) (a = ·) cs rest := by
  intro c f here
  refine ⟨a, _, f, ?_, rfl, rfl⟩
  simp only [Reading.lexeme, here, measured]

theorem expecting (part : Part) (reads : Reads near p good cs rest) :
    Reads near (Reading.expecting part p) good cs rest := by
  intro c f here
  obtain ⟨a, c₁, f₁, read, holds⟩ := reads c f here
  exact ⟨a, c₁, f₁, expecting_read.2 read, holds⟩

theorem andThen {k : α → Reading β} (first : Reads Eq p good cs (ds ++ rest))
    (second : ∀ a, good a → Reads near (k a) good' ds rest) :
    Reads near (Reading.andThen p k) good' (cs ++ ds) rest := by
  intro c f here
  rw [List.append_assoc] at here
  obtain ⟨a, c₁, f₁, began, holds, rfl⟩ := first c f here
  obtain ⟨b, c₂, f₂, went_on, holds', there⟩ := second a holds _ f₁ (Cursor.rest_after here)
  rw [Cursor.after_after, ← List.length_append] at there
  exact ⟨b, c₂, f₂, andThen_read.2 ⟨a, _, f₁, began, went_on⟩, holds', there⟩

/-- Behind what is read up to the gap, the gap is read in any case. -/
theorem andThenGaps {k : α → Reading β} (first : Reads Cursor.Near p good cs (b ++ (ds ++ rest))) (blank : IsBlank b)
    (solid : gap (ds ++ rest) = 0) (second : ∀ a, good a → Reads near (k a) good' ds rest) :
    Reads near (Reading.andThen p fun a => Reading.andThen Grammar.gaps fun _ => k a) good' (cs ++ (b ++ ds)) rest := by
  intro c f here
  rw [List.append_assoc, List.append_assoc] at here
  obtain ⟨a, c₁, f₁, began, holds, there⟩ := first c f here
  have behind := there.behindGap_eq here (gap_of_blank blank solid)
  obtain ⟨b', c₂, f₂, went_on, holds', there'⟩ :=
    second a holds _ f₁ (Cursor.rest_after (Cursor.rest_after here))
  rw [Cursor.after_after, Cursor.after_after, ← List.length_append, ← List.length_append] at there'
  rw [← behind] at went_on
  exact ⟨b', c₂, f₂, andThen_read.2 ⟨a, c₁, f₁, began, went_on⟩, holds', there'⟩

theorem toNear (reads : Reads Eq p good cs rest) : Reads Cursor.Near p good cs rest := by
  intro c f here
  obtain ⟨a, c₁, f₁, read, holds, rfl⟩ := reads c f here
  exact ⟨a, _, f₁, read, holds, rfl⟩

theorem map (reads : Reads near p good cs rest) {g : α → β} (holds : ∀ a, good a → good' (g a)) :
    Reads near (Reading.andThen p fun a => Reading.give (g a)) good' cs rest := by
  intro c f here
  obtain ⟨a, c₁, f₁, read, good, there⟩ := reads c f here
  exact ⟨g a, c₁, f₁, andThen_read.2 ⟨a, c₁, f₁, read, rfl⟩, holds a good, there⟩

theorem orElse_left (reads : Reads near p good cs rest) (q : Reading α) :
    Reads near (Reading.orElse p q) good cs rest := by
  intro c f here
  obtain ⟨a, c₁, f₁, read, holds⟩ := reads c f here
  exact ⟨a, c₁, f₁, orElse_read.2 (.inl read), holds⟩

theorem orElse_right (missed : p.Misses (cs ++ rest)) (reads : Reads near q good cs rest) :
    Reads near (Reading.orElse p q) good cs rest := by
  intro c f here
  obtain ⟨f₁, missed⟩ := missed c f here
  obtain ⟨a, c₁, f₂, read, holds⟩ := reads c f₁ here
  exact ⟨a, c₁, f₂, orElse_read.2 (.inr ⟨f₁, missed, read⟩), holds⟩

/-- A gap is read in front of something that none goes on with. -/
theorem gaps (blank : IsBlank b) (solid : gap rest = 0) : Reads Eq Grammar.gaps (fun _ => True) b rest := by
  intro c f here
  refine ⟨(), _, f, rfl, trivial, ?_⟩
  rw [here, gap_of_blank blank solid]

theorem symbol (ch : Char) (rest : List Char) : Reads Eq (Grammar.symbol ch) (fun _ => True) [ch] rest := by
  intro c f here
  exact ⟨(), _, f, Grammar.symbol_read.2 ⟨⟨_, here⟩, rfl, rfl⟩, trivial, rfl⟩

theorem behindSymbol (ch : Char) {k : Reading β} (reads : Reads near k good' ds rest) :
    Reads near (Reading.andThen (Grammar.symbol ch) fun _ => k) good' (ch :: ds) rest := by
  rw [← List.singleton_append]
  exact .andThen (.symbol ch _) fun _ _ => reads

theorem fromHere {k : Cursor → Reading β} (reads : ∀ c, Reads near (k c) good' ds rest) :
    Reads near (Reading.andThen here k) good' ds rest :=
  fun c f text => reads c c f text

end Reads

end Reading

/-! ## Where something written begins -/

/-- The text begins with a character that belongs to no gap. -/
def Begins (cs : List Char) : Prop := ∃ c more, cs = c :: more ∧ c ≠ ' ' ∧ c ≠ '\t' ∧ c ≠ '/'

theorem Begins.gap_eq {cs : List Char} (begins : Begins cs) (rest : List Char) : gap (cs ++ rest) = 0 := by
  obtain ⟨c, more, rfl, blank, tab, slash⟩ := begins
  exact gap_solid blank tab slash _

theorem Begins.append {cs : List Char} (begins : Begins cs) (rest : List Char) : Begins (cs ++ rest) := by
  obtain ⟨c, more, rfl, solid⟩ := begins
  exact ⟨c, more ++ rest, rfl, solid⟩

/-- Where no word goes on in front of a text, none does in front of more. -/
theorem Begins.endsWord {b cs : List Char} (begins : Begins cs) (apart : EndsWord (b ++ cs)) (rest : List Char) :
    EndsWord (b ++ cs ++ rest) := by
  obtain ⟨c, more, rfl, -⟩ := begins
  cases b with
  | nil =>
    rintro _ _ ⟨⟩
    exact apart c more rfl
  | cons d b =>
    rintro _ _ ⟨⟩
    exact apart d (b ++ c :: more) rfl

theorem isNameStart_not_digit {c : Char} (start : isNameStart c = true) : c.isDigit = false := by
  obtain letter | underscore := Bool.or_eq_true_iff.1 start
  · refine eq_false_of_ne_true fun digit => ?_
    have high : c.val ≤ '9'.val := of_decide_eq_true (Bool.and_eq_true_iff.1 digit).2
    have low : 'A'.val ≤ c.val := by
      obtain upper | lower := Bool.or_eq_true_iff.1 letter
      · exact (of_decide_eq_true upper).1
      · have small : 'a'.val ≤ c.val := of_decide_eq_true (Bool.and_eq_true_iff.1 lower).1
        exact UInt32.le_trans (by decide) small
    exact absurd (UInt32.le_trans low high) (by decide)
  · obtain rfl := of_decide_eq_true underscore
    rfl

theorem begins_part {c : Char} (part : isNamePart c = true) (more : List Char) : Begins (c :: more) := by
  refine ⟨c, more, rfl, ?_, ?_, ?_⟩ <;> rintro rfl <;> cases part

theorem IsName.begins {cs : List Char} (isName : IsName cs) : Begins cs := by
  obtain ⟨c, more, rfl, start⟩ := isName.start
  exact begins_part (isNameStart_isNamePart start) more

theorem WrittenNumber.begins (n : WrittenNumber) : Begins n.chars := by
  unfold chars
  cases n.negative with
  | true => exact ⟨'-', _, rfl, by decide⟩
  | false =>
    obtain ⟨c, more, same, digit⟩ := n.whole_head
    rw [same]
    exact begins_part (isDigit_isNamePart digit) _

theorem Expr.Spelled.begins {x : Extent} {e : Expr} {cs : List Char} (spelled : e.Spelled x cs) : Begins cs := by
  induction spelled with
  | @number n => exact n.begins
  | text s => exact ⟨'"', _, rfl, by decide⟩
  | bool b => cases b <;> exact begins_part rfl _
  | name isName => exact isName.begins
  | inParens => exact ⟨'(', _, rfl, by decide⟩
  | single _ ih => exact ih
  | plus _ _ _ _ ih => exact ih.append _

open Grammar in
/-- No expression begins with a word that commands begin with. -/
theorem Expr.Spelled.no_command {x : Extent} {e : Expr} {cs rest : List Char} (spelled : e.Spelled x cs)
    (ends : EndsTerm rest) : word (cs ++ rest) ∉ commandWords := by
  induction spelled generalizing rest with
  | @number n x denotes =>
    unfold WrittenNumber.chars
    cases n.negative with
    | true =>
      rw [if_pos rfl, List.append_assoc, List.singleton_append, word_solid rfl]
      decide
    | false =>
      obtain ⟨c, more, same, digit⟩ := n.whole_head
      have letters : ∀ w ∈ commandWords, w.head?.all (fun d => !d.isDigit) = true := by decide
      have part := isDigit_isNamePart digit
      intro command
      have letter := letters _ command
      simp [same, Script.word, part, digit] at letter
  | text s =>
    show word ('"' :: _) ∉ commandWords
    rw [word_solid rfl]
    decide
  | bool b =>
    cases b
    all_goals
      rw [word_append_ends (List.all_eq_true.1 rfl) ends.endsWord]
      decide
  | name isName =>
    rw [word_append_ends isName.parts ends.endsWord]
    exact fun command => isName.free ((by decide : ∀ w ∈ commandWords, w ∈ keywords) _ command)
  | inParens =>
    show word ('(' :: _) ∉ commandWords
    rw [word_solid rfl]
    decide
  | single _ ih => exact ih ends
  | @plus l r cs b b' ds _ before _ _ ih =>
    rw [List.append_assoc, List.append_assoc]
    exact ih (endsTerm_blank before (endsTerm_cons rfl (by decide) _))

namespace Grammar

open Reading

/-! ## Expressions -/

variable {n : WrittenNumber} {cs rest : List Char}

theorem number_reads (n : WrittenNumber) (ends : EndsTerm rest) : Reads Eq number (n.value = ·) n.chars rest :=
  .expecting .number (.lexeme (n.number?_chars ends))

theorem text_reads (s : String) (rest : List Char) : Reads Eq text (s = ·) (inQuotes s) rest :=
  .expecting .text (.lexeme (quoted?_inQuotes s rest))

theorem name_reads {n : String} (isName : IsName n.toList) (ends : EndsWord rest) :
    Reads Eq name (n = ·) n.toList rest :=
  .expecting .name (.lexeme (name?_spelled isName ends))

theorem bool_reads (b : Bool) (ends : EndsWord rest) :
    Reads Eq bool (b = ·) (if b then "true".toList else "false".toList) rest := by
  refine .expecting .bool (.lexeme ?_)
  cases b
  all_goals
    unfold bool?
    rw [word_append_ends (List.all_eq_true.1 rfl) ends]
    rfl

theorem number_misses {c : Char} (sign : c ≠ '-') (digit : c.isDigit = false) (more : List Char) :
    number.Misses (c :: more) := by
  refine .expecting .number (.lexeme ?_)
  have unsigned : minusSign (c :: more) = (false, c :: more) := by
    unfold minusSign
    split
    · next same => cases same; exact absurd rfl sign
    · rfl
  rw [number?_eq, unsigned]
  simp [Decimal.takeDigits, digit]

theorem text_misses {c : Char} (quote : c ≠ '"') (more : List Char) : text.Misses (c :: more) :=
  .expecting .text (.lexeme (quoted?_unquoted (by rintro _ ⟨⟩; exact quote rfl)))

end Grammar

open Grammar Reading in
/-- What is read of a term, and of a sum. Of a sum it is how far its terms reach, and that of the calls no more than
its characters have been used up. -/
def Extent.Read (e : Expr) (cs : List Char) : Extent → Prop
  | .term => ∀ calls rest, 2 * cs.length ≤ calls → EndsTerm rest → Reads Eq (Grammar.term calls) (e = ·) cs rest
  | .sum => ∀ calls, 2 * cs.length ≤ calls → ∃ left, calls ≤ left + cs.length ∧
      ∀ rest (c : Cursor) f, EndsTerm rest → c.rest = cs ++ rest → ∃ c₁ f₁, Cursor.Near c₁ (c.after cs.length) ∧
        andThen (Grammar.term calls) (fun first => andThen gaps fun _ => Grammar.sum calls first) c f =
          Grammar.sum left e c₁ f₁

namespace Grammar

open Reading

variable {e l r : Expr} {b b' cs ds rest : List Char} {calls : Nat}

/-- Behind the gap there is no plus sign. -/
def EndsPlus (rest : List Char) : Prop := ∀ more, rest.drop (gap rest) ≠ '+' :: more

theorem endsPlus_of_gap {g : List Char} (is_gap : gap (g ++ rest) = g.length) (no_plus : ∀ more, rest ≠ '+' :: more) :
    EndsPlus (g ++ rest) := by
  unfold EndsPlus
  rw [is_gap, List.drop_left]
  exact no_plus

theorem expr_reads (read : Extent.Read e cs .sum) (enough : 2 * cs.length + 1 ≤ calls) (ends : EndsTerm rest)
    (ends_sum : EndsPlus rest) : Reads Cursor.Near (expr calls) (e = ·) cs rest := by
  intro c f here
  obtain ⟨calls, rfl⟩ : ∃ k, calls = k + 1 := ⟨calls - 1, by omega⟩
  obtain ⟨left, -, reaches⟩ := read calls (by omega)
  obtain ⟨c₁, f₁, there, reached⟩ := reaches rest c f ends here
  have no_plus : c₁.EndsSum := by
    intro more plus
    rw [there, Cursor.behindGap] at plus
    refine ends_sum more ?_
    rw [← Cursor.rest_after here]
    exact plus
  have given : ∃ f₂, sum left e c₁ f₁ = (some (e, c₁), f₂) := by
    cases left with
    | zero => exact ⟨f₁, rfl⟩
    | succ left => exact ⟨f₁, by rw [sum_succ, addend_ends no_plus]⟩
  obtain ⟨f₂, given⟩ := given
  exact ⟨e, c₁, f₂, expecting_read.2 (reached.trans given), rfl, there⟩

theorem inParens_reads (read : Extent.Read e cs .sum) (enough : 2 * cs.length + 1 ≤ calls) (before : IsBlank b)
    (begins : Begins cs) (behind : IsBlank b') :
    Reads Eq (inParens calls) (e = ·) ('(' :: (b ++ (cs ++ (b' ++ [')'])))) rest := by
  have closing : ∀ rest, gap (')' :: rest) = 0 := fun rest => gap_solid (by decide) (by decide) (by decide) rest
  have ends : EndsTerm (b' ++ ([')'] ++ rest)) := endsTerm_blank behind (endsTerm_cons rfl (by decide) _)
  have no_plus : EndsPlus (b' ++ ([')'] ++ rest)) := endsPlus_of_gap (gap_of_blank behind (closing _)) nofun
  refine .behindSymbol '(' (.andThen (.gaps before ?_) fun _ _ => ?_)
  · rw [List.append_assoc]
    exact begins.gap_eq _
  · refine .andThenGaps (expr_reads read enough ends no_plus) behind (closing _) ?_
    rintro _ rfl
    exact (Reads.symbol ')' rest).map fun _ _ => rfl

theorem term_reads_sum (read : Extent.Read e cs .sum) (before : IsBlank b) (begins : Begins cs)
    (behind : IsBlank b') : Extent.Read e ('(' :: (b ++ (cs ++ (b' ++ [')'])))) .term := by
  intro calls rest enough ends
  simp only [List.length_cons, List.length_append, List.length_nil] at enough
  obtain ⟨calls, rfl⟩ : ∃ k, calls = k + 1 := ⟨calls - 1, by omega⟩
  rw [term_succ]
  have no_word : Script.word ('(' :: (b ++ (cs ++ (b' ++ [')']))) ++ rest) = [] := word_solid rfl _
  have no_bool : bool.Misses ('(' :: (b ++ (cs ++ (b' ++ [')']))) ++ rest) :=
    .expecting .bool (.lexeme (by rw [bool?, no_word]; rfl))
  have no_name : name.Misses ('(' :: (b ++ (cs ++ (b' ++ [')']))) ++ rest) := .expecting .name (.lexeme rfl)
  refine .orElse_right (.andThen (number_misses (by decide) rfl _) _) ?_
  refine .orElse_right (.andThen (text_misses (by decide) _) _) ?_
  refine .orElse_right (.andThen no_bool _) ?_
  refine .orElse_right (.andThen no_name _) ?_
  exact inParens_reads read (by omega) before begins behind

/-- The next term of a sum, behind its plus sign. -/
theorem addend_reads (read : Extent.Read r ds .term) (enough : 2 * ds.length ≤ calls) (begins : Begins ds)
    (behind : IsBlank b') (ends : EndsTerm rest) :
    Reads Eq (Reading.andThen (symbol '+') fun _ => Reading.andThen gaps fun _ => term calls) (r = ·)
      ('+' :: (b' ++ ds)) rest :=
  .behindSymbol '+' (.andThen (.gaps behind (begins.gap_eq rest)) fun _ _ => read calls rest enough ends)

theorem sum_reads (left : Extent.Read l cs .sum) (before : IsBlank b) (behind : IsBlank b')
    (begins : Begins ds) (right : Extent.Read r ds .term) :
    Extent.Read (.add l r) (cs ++ (b ++ '+' :: (b' ++ ds))) .sum := by
  intro calls enough
  simp only [List.length_cons, List.length_append] at enough
  -- the left side has used up no more calls than it has characters, so there are enough for the right one
  obtain ⟨more, some_left, reaches⟩ := left calls (by omega)
  obtain ⟨more, rfl⟩ : ∃ k, more = k + 1 := ⟨more - 1, by omega⟩
  refine ⟨more, by simp only [List.length_cons, List.length_append]; omega, fun rest c f ends here => ?_⟩
  have plus : ∀ rest, gap ('+' :: rest) = 0 := fun rest => gap_solid (by decide) (by decide) (by decide) rest
  rw [List.append_assoc, List.append_assoc] at here
  obtain ⟨c₁, f₁, there, reached⟩ :=
    reaches _ c f (endsTerm_blank before (endsTerm_cons rfl (by decide) _)) here
  have behind_gap := there.behindGap_eq here (gap_of_blank before (plus _))
  obtain ⟨_, c₂, f₂, added, rfl, rfl⟩ := addend_reads right (by omega : 2 * ds.length ≤ more) begins behind ends
    c₁.behindGap f₁ (by rw [behind_gap, Cursor.rest_after (Cursor.rest_after here)])
  refine ⟨_, f₂, ?_, by rw [reached, sum_succ, addend, andThen_gaps, added]⟩
  rw [behind_gap, Cursor.after_after, Cursor.after_after, ← List.length_append, ← List.length_append, Cursor.Near]

end Grammar

open Grammar Reading in
/-- By induction on how the expression is written. -/
theorem Expr.Spelled.read {x : Extent} {e : Expr} {cs : List Char} (spelled : e.Spelled x cs) : x.Read e cs := by
  have some_calls {cs : List Char} (begins : Begins cs) {calls : Nat} (enough : 2 * cs.length ≤ calls) :
      ∃ k, calls = k + 1 := by
    obtain ⟨c, more, rfl, -⟩ := begins
    exact ⟨calls - 1, by simp only [List.length_cons] at enough; omega⟩
  induction spelled with
  | @number n x denotes =>
    intro calls rest enough ends
    obtain ⟨calls, rfl⟩ := some_calls n.begins enough
    cases n.readFloat?_chars.symm.trans denotes
    exact .orElse_left ((number_reads n ends).map fun _ same => congrArg Expr.number same) _
  | text s =>
    intro calls rest enough ends
    obtain ⟨calls, rfl⟩ := some_calls (Expr.Spelled.text s).begins enough
    refine .orElse_right (.andThen (number_misses (by decide) rfl _) _) ?_
    exact .orElse_left ((text_reads s rest).map fun _ same => congrArg Expr.text same) _
  | bool b =>
    intro calls rest enough ends
    obtain ⟨calls, rfl⟩ := some_calls (Expr.Spelled.bool b).begins enough
    have reads : Reads Eq _ (Expr.bool b = ·) _ rest :=
      (bool_reads b ends.endsWord).map fun _ same => congrArg Expr.bool same
    cases b
    all_goals
      refine .orElse_right (.andThen (number_misses (by decide) rfl _) _) ?_
      refine .orElse_right (.andThen (text_misses (by decide) _) _) ?_
      exact .orElse_left reads _
  | @name n isName =>
    intro calls rest enough ends
    obtain ⟨calls, rfl⟩ := some_calls isName.begins enough
    have reads : Reads Eq _ (Expr.name n = ·) _ rest :=
      (name_reads isName ends.endsWord).map fun _ same => congrArg Expr.name same
    have no_bool : Grammar.bool.Misses (n.toList ++ rest) := by
      refine .expecting .bool (.lexeme ?_)
      have not_word : ∀ w ∈ keywords, n.toList ≠ w := fun w keyword same => isName.free (same ▸ keyword)
      rw [bool?, word_append_ends isName.parts ends.endsWord, if_neg (not_word _ (by decide)),
        if_neg (not_word _ (by decide))]
    obtain ⟨c, more, same, start⟩ := isName.start
    rw [same] at reads no_bool ⊢
    refine .orElse_right (.andThen (number_misses ?_ ?_ _) _) ?_
    · rintro rfl
      cases start
    · exact isNameStart_not_digit start
    refine .orElse_right (.andThen (text_misses ?_ _) _) ?_
    · rintro rfl
      cases start
    refine .orElse_right (.andThen no_bool _) ?_
    exact .orElse_left reads _
  | inParens before inner behind ih => exact term_reads_sum ih before inner.begins behind
  | single term ih =>
    intro calls enough
    refine ⟨calls, by omega, fun rest c f ends here => ?_⟩
    obtain ⟨_, c₁, f₁, read, rfl, rfl⟩ := ih calls rest enough ends c f here
    refine ⟨_, f₁, Cursor.behindGap_behindGap _, ?_⟩
    simp only [andThen, read]
    rfl
  | plus left before behind right left_ih right_ih => exact sum_reads left_ih before behind right.begins right_ih

namespace Grammar

open Reading

/-! ## Commands -/

variable {e : Expr} {b cs rest : List Char}

theorem expression_reads (spelled : e.Spelled .sum cs) (ends : EndsTerm rest) (ends_sum : EndsPlus rest) :
    Reads Cursor.Near expression (e = ·) cs rest := by
  intro c f here
  have enough : 2 * cs.length + 1 ≤ 2 * c.rest.length + 3 := by
    rw [here, List.length_append]
    omega
  exact expr_reads spelled.read enough ends ends_sum c f here

theorem word_reads (part : Part) {k : String} (parts : k.toList.all isNamePart = true) (ends : EndsWord rest) :
    Reads Eq (word part k) (fun _ => True) k.toList rest := by
  have measured : keyword? k (k.toList ++ rest) = some ((), k.toList.length) := by
    rw [keyword?, word_append_ends (List.all_eq_true.1 parts) ends, if_pos rfl, String.length_toList]
  intro c f here
  obtain ⟨a, c₁, f₁, read, -, there⟩ := Reads.expecting part (.lexeme measured) c f here
  exact ⟨a, c₁, f₁, read, trivial, there⟩

/-- The draft makes a statement of the command, wherever it stands. -/
def Draft.Makes (c : Command) (d : Draft) : Prop := ∀ n, d.statement n = .ok ⟨Int32.ofNat n, c⟩

theorem binding_reads {n : String} {b₁ b₂ b₃ : List Char} (apart : b₁ ≠ []) (blank₁ : IsBlank b₁)
    (isName : IsName n.toList) (blank₂ : IsBlank b₂) (blank₃ : IsBlank b₃) (value : e.Spelled .sum cs)
    (ends : EndsTerm rest) (ends_sum : EndsPlus rest) :
    Reads Cursor.Near binding (Draft.Makes (.bind n e))
      ("let".toList ++ (b₁ ++ (n.toList ++ (b₂ ++ '=' :: (b₃ ++ cs))))) rest := by
  have equals (rest : List Char) : gap ('=' :: rest) = 0 := gap_solid (by decide) (by decide) (by decide) rest
  have name_ends : EndsWord (b₂ ++ '=' :: (b₃ ++ cs) ++ rest) := by
    rw [List.append_assoc]
    exact (endsTerm_blank blank₂ (endsTerm_cons rfl (by decide) _)).endsWord
  refine .expecting .binding (.andThen (word_reads .letWord rfl ?_) fun _ _ => ?_)
  · rw [List.append_assoc]
    exact endsWord_blank blank₁ apart _
  refine .andThen (.gaps blank₁ ?_) fun _ _ => .andThen (name_reads isName name_ends) ?_
  · rw [List.append_assoc]
    exact isName.begins.gap_eq _
  rintro _ rfl
  refine .andThen (.gaps blank₂ (equals _)) fun _ _ => .behindSymbol '=' ?_
  refine .andThen (.gaps blank₃ (value.begins.gap_eq rest)) fun _ _ => ?_
  exact (expression_reads value ends ends_sum).map (by rintro _ rfl _; rfl)

theorem displaying_reads (apart : EndsWord (b ++ cs)) (blank : IsBlank b) (shown : e.Spelled .sum cs)
    (ends : EndsTerm rest) (ends_sum : EndsPlus rest) :
    Reads Cursor.Near displaying (Draft.Makes (.display e)) ("display".toList ++ (b ++ cs)) rest := by
  have apart_from_rest := shown.begins.endsWord apart rest
  refine .expecting .displaying (.andThen (word_reads .displayWord rfl apart_from_rest) fun _ _ => ?_)
  refine .andThen (.gaps blank (shown.begins.gap_eq rest)) fun _ _ => ?_
  exact (expression_reads shown ends ends_sum).map (by rintro _ rfl _; rfl)

theorem sleeping_reads {n : WrittenNumber} (apart : EndsWord (b ++ n.chars)) (blank : IsBlank b)
    (notNegative : ¬ n.value < 0) (ends : EndsTerm rest) :
    Reads Eq sleeping (Draft.Makes (.sleep (Decimal.toWord n.value))) ("sleep".toList ++ (b ++ n.chars)) rest := by
  refine .expecting .sleeping (.andThen (word_reads .sleepWord rfl (n.begins.endsWord apart rest)) fun _ _ => ?_)
  refine .andThen (.gaps blank (n.begins.gap_eq rest)) fun _ _ => .fromHere fun _ => ?_
  refine (number_reads n ends).map ?_
  rintro _ rfl m
  exact if_neg notNegative

theorem spinning_reads (ends : EndsWord rest) : Reads Eq spinning (Draft.Makes .spin) "spin".toList rest :=
  .expecting .spinning ((word_reads .spinWord rfl ends).map fun _ _ _ => rfl)

theorem failing_reads (message : String) (blank : IsBlank b) (rest : List Char) :
    Reads Eq failing (Draft.Makes (.fail message)) ("error".toList ++ (b ++ inQuotes message)) rest := by
  have quote (rest : List Char) : gap (inQuotes message ++ rest) = 0 := (Expr.Spelled.text message).begins.gap_eq rest
  refine .expecting .failing (.andThen (word_reads .errorWord rfl ?_) fun _ _ => ?_)
  · rw [List.append_assoc]
    exact (endsTerm_blank blank (endsTerm_cons rfl (by decide) _)).endsWord
  refine .andThen (.gaps blank (quote rest)) fun _ _ => (text_reads message rest).map ?_
  rintro _ rfl _
  rfl

theorem valuing_reads (own : e.Spelled .sum cs) (ends : EndsTerm rest) (ends_sum : EndsPlus rest) :
    Reads Cursor.Near valuing (Draft.Makes (.value e)) cs rest :=
  .expecting .valuing ((expression_reads own ends ends_sum).map (by rintro _ rfl _; rfl))

end Grammar

namespace Command.Spelled

open Grammar Reading

variable {c : Command} {cs rest : List Char}

theorem begins (spelled : c.Spelled cs) : Begins cs := by
  cases spelled with
  | value own => exact own.begins
  | _ => exact begins_part rfl _

/-- Each command is read by the reader of its kind: those before it fail at the first word. -/
theorem read (spelled : c.Spelled cs) (ends : EndsTerm rest) (ends_sum : EndsPlus rest) :
    Reads Cursor.Near draft (Draft.Makes c) cs rest := by
  have keyword {k : String} {more : List Char} (parts : k.toList.all isNamePart = true)
      (apart : EndsWord (more ++ rest)) : word (k.toList ++ more ++ rest) = k.toList := by
    rw [List.append_assoc]
    exact word_append_ends (List.all_eq_true.1 parts) apart
  -- the readers of commands that begin with another word
  have misses {p : Reading Draft} {k w text : List Char} (fails : ∀ c : Cursor, word c.rest ≠ k → Fails [] p p c)
      (is : word text = w) (other : w ≠ k) : p.Misses text :=
    .of_fails fun c here => fails c (by rw [here, is]; exact other)
  cases spelled with
  | @bind n e b₁ b₂ b₃ cs apart blank₁ isName blank₂ blank₃ value =>
    exact .orElse_left (binding_reads apart blank₁ isName blank₂ blank₃ value ends ends_sum) _
  | @display e b cs apart blank shown =>
    have is := keyword (k := "display") rfl (shown.begins.endsWord apart rest)
    refine .orElse_right (misses (fun _ => binding_fails) is (by decide)) ?_
    exact .orElse_left (displaying_reads apart blank shown ends ends_sum) _
  | @sleep n x b apart blank denotes notNegative =>
    cases n.readFloat?_chars.symm.trans denotes
    have is := keyword (k := "sleep") rfl (n.begins.endsWord apart rest)
    refine .orElse_right (misses (fun _ => binding_fails) is (by decide)) ?_
    refine .orElse_right (misses (fun _ => displaying_fails) is (by decide)) ?_
    exact .orElse_left (sleeping_reads apart blank notNegative ends).toNear _
  | spin =>
    have is : Script.word ("spin".toList ++ rest) = "spin".toList :=
      word_append_ends (List.all_eq_true.1 rfl) ends.endsWord
    refine .orElse_right (misses (fun _ => binding_fails) is (by decide)) ?_
    refine .orElse_right (misses (fun _ => displaying_fails) is (by decide)) ?_
    refine .orElse_right (misses (fun _ => sleeping_fails) is (by decide)) ?_
    exact .orElse_left (spinning_reads ends.endsWord).toNear _
  | @fail message b blank =>
    have apart : EndsWord (b ++ inQuotes message ++ rest) := by
      rw [List.append_assoc]
      exact (endsTerm_blank blank (endsTerm_cons rfl (by decide) _)).endsWord
    have is := keyword (k := "error") rfl apart
    refine .orElse_right (misses (fun _ => binding_fails) is (by decide)) ?_
    refine .orElse_right (misses (fun _ => displaying_fails) is (by decide)) ?_
    refine .orElse_right (misses (fun _ => sleeping_fails) is (by decide)) ?_
    refine .orElse_right (misses (fun _ => spinning_fails) is (by decide)) ?_
    exact .orElse_left (failing_reads message blank rest).toNear _
  | value own =>
    have none_is := own.no_command ends
    have other {k : List Char} (is_word : k ∈ commandWords) : word (cs ++ rest) ≠ k := fun same =>
      none_is (same ▸ is_word)
    refine .orElse_right (misses (fun _ => binding_fails) rfl (other (by decide))) ?_
    refine .orElse_right (misses (fun _ => displaying_fails) rfl (other (by decide))) ?_
    refine .orElse_right (misses (fun _ => sleeping_fails) rfl (other (by decide))) ?_
    refine .orElse_right (misses (fun _ => spinning_fails) rfl (other (by decide))) ?_
    refine .orElse_right (misses (fun _ => failing_fails) rfl (other (by decide))) ?_
    exact valuing_reads own ends ends_sum

end Command.Spelled

/-! ## Lines -/

namespace Grammar

open Reading

variable {c : Command} {cs b₁ b₂ comment rest : List Char} {place : Cursor}

theorem symbol_misses (ends : EndsLine rest) : (symbol ';').Misses rest := by
  refine .lexeme ?_
  cases rest with
  | nil => rfl
  | cons ch more => exact if_neg fun same => by cases same ▸ ends ch more rfl

theorem command_reads {g : List Char} (spelled : c.Spelled cs) (here : place.rest = cs ++ (g ++ rest))
    (is_gap : gap (g ++ rest) = g.length) (ends : EndsTerm (g ++ rest)) (no_plus : ∀ more, rest ≠ '+' :: more)
    (f : Furthest) :
    ∃ d c₁ f₁, command place f = (some ((place.line, d), c₁), f₁) ∧ d.Makes c ∧
      c₁.behindGap = (place.after cs.length).after g.length := by
  obtain ⟨d, c₁, f₁, read, makes, there⟩ := spelled.read ends (endsPlus_of_gap is_gap no_plus) place f here
  refine ⟨d, c₁, f₁, ?_, makes, there.behindGap_eq here is_gap⟩
  rw [command_eq]
  exact andThen_read.2 ⟨place, place, f, rfl, andThen_read.2 ⟨d, c₁, f₁, read, rfl⟩⟩

/-- Behind a command come blanks, a semicolon or none, blanks, and a comment or none. -/
theorem sentence_reads {semicolon : List Char} (spelled : c.Spelled cs) (blank₁ : IsBlank b₁)
    (optional : semicolon = [] ∨ semicolon = [';']) (blank₂ : IsBlank b₂) (isComment : IsComment comment)
    (ends : EndsLine rest) (here : place.rest = cs ++ (b₁ ++ (semicolon ++ (b₂ ++ comment))) ++ rest)
    (f : Furthest) :
    ∃ d c₁ f₁, sentence place f = (some ((place.line, d), c₁), f₁) ∧ d.Makes c ∧
      c₁.behindGap = place.after (cs ++ (b₁ ++ (semicolon ++ (b₂ ++ comment)))).length := by
  have late_gap : gap (b₂ ++ comment ++ rest) = (b₂ ++ comment).length := by
    rw [List.append_assoc, gap_blank blank₂, gap_comment isComment ends, List.length_append]
  have late_ends : EndsTerm (b₂ ++ comment ++ rest) := by
    rw [List.append_assoc]
    refine endsTerm_blank blank₂ ?_
    obtain rfl | ⟨text, rfl, -⟩ := isComment
    · exact ends.endsTerm
    · exact endsTerm_cons rfl (by decide) _
  obtain rfl | rfl := optional
  · -- without a semicolon all that follows is one gap, up to the end of the line
    have whole_gap : gap (b₁ ++ (b₂ ++ comment) ++ rest) = (b₁ ++ (b₂ ++ comment)).length := by
      rw [List.append_assoc, gap_blank blank₁, late_gap, ← List.length_append]
    have whole_ends : EndsTerm (b₁ ++ (b₂ ++ comment) ++ rest) := by
      rw [List.append_assoc]
      exact endsTerm_blank blank₁ late_ends
    have no_plus (more : List Char) : rest ≠ '+' :: more := fun plus => nomatch ends _ _ plus
    rw [List.nil_append, List.append_assoc] at here
    obtain ⟨d, c₁, f₁, read, makes, behind⟩ := command_reads spelled here whole_gap whole_ends no_plus f
    have at_end : c₁.behindGap.rest = rest := by
      rw [behind, Cursor.rest_after (Cursor.rest_after here)]
    obtain ⟨f₂, no_semicolon⟩ := symbol_misses ends c₁.behindGap f₁ at_end
    refine ⟨d, c₁.behindGap, f₂, andThen_read.2 ⟨_, c₁, f₁, read, ?_⟩, makes, ?_⟩
    · rw [andThen_gaps]
      exact andThen_read.2 ⟨none, _, f₂, optional_read.2 (.inr ⟨rfl, rfl, no_semicolon⟩), rfl⟩
    · rw [Cursor.behindGap_behindGap, behind, Cursor.after_after, ← List.length_append, List.nil_append]
  · -- the gap ends at the semicolon, and another one begins behind it
    have solid (rest : List Char) : gap (';' :: rest) = 0 := gap_solid (by decide) (by decide) (by decide) rest
    rw [List.singleton_append, List.append_assoc, List.append_assoc, List.cons_append] at here
    obtain ⟨d, c₁, f₁, read, makes, behind⟩ := command_reads spelled here (gap_of_blank blank₁ (solid _))
      (endsTerm_blank blank₁ (endsTerm_cons rfl (by decide) _)) nofun f
    have at_semicolon : c₁.behindGap.rest = ';' :: (b₂ ++ comment ++ rest) := by
      rw [behind, Cursor.rest_after (Cursor.rest_after here)]
    have semicolon : symbol ';' c₁.behindGap f₁ = (some ((), c₁.behindGap.after 1), f₁) :=
      symbol_read.2 ⟨⟨_, at_semicolon⟩, rfl, rfl⟩
    refine ⟨d, c₁.behindGap.after 1, f₁, andThen_read.2 ⟨_, c₁, f₁, read, ?_⟩, makes, ?_⟩
    · rw [andThen_gaps]
      exact andThen_read.2 ⟨some (), _, f₁, optional_read.2 (.inl ⟨(), rfl, semicolon⟩), rfl⟩
    · have left : (c₁.behindGap.after 1).rest = b₂ ++ comment ++ rest := by
        show c₁.behindGap.rest.drop 1 = _
        rw [at_semicolon]
        rfl
      rw [Cursor.behindGap, left, late_gap, behind, Cursor.after_after, Cursor.after_after, Cursor.after_after]
      simp only [List.length_append, List.length_cons, List.length_nil]

end Grammar

theorem BreaksBefore.breakLength_eq {b rest : List Char} (breaks : BreaksBefore rest b) :
    breakLength? (b ++ rest) = some b.length := by
  cases breaks with
  | feed => rfl
  | returnFeed => rfl
  | loneReturn alone =>
    cases rest with
    | nil => rfl
    | cons c more => exact breakLength?_return (fun feed => alone more (by rw [feed])) more

theorem BreaksBefore.endsLine {b rest : List Char} (breaks : BreaksBefore rest b) : EndsLine (b ++ rest) := by
  cases breaks <;> (rintro _ _ ⟨⟩; rfl)

open Grammar Reading

/-- A line is read as the statement that stands on it, up to where it ends. -/
theorem SpelledLine.read {before cs rest : List Char} {program : List Statement} {c : Cursor}
    (spelled : SpelledLine before program cs) (text : c.rest = cs ++ rest) (place : c.line = 1 + Text.breaks before)
    (ends : EndsLine rest) (f : Furthest) :
    ∃ l c₁ f₁, line c.behindGap f = (some (l, c₁), f₁) ∧ c₁.behindGap = c.after cs.length ∧
      statements l.toList = .ok program := by
  cases spelled with
  | @empty b comment blank isComment =>
    have whole_gap : gap c.rest = (b ++ comment).length := by
      rw [text, List.append_assoc, gap_blank blank, gap_comment isComment ends, List.length_append]
    have behind : c.behindGap = c.after (b ++ comment).length := by rw [Cursor.behindGap, whole_gap]
    have left : c.behindGap.rest = rest := by rw [behind, Cursor.rest_after text]
    have line_ends : c.behindGap.EndsLine := fun ch more same => ends ch more (left.symm.trans same)
    have fails : Fails [] sentence sentence c.behindGap := sentence_fails line_ends
    obtain ⟨f₁, missed, -⟩ := fails f
    refine ⟨none, c.behindGap, f₁, ?_, by rw [Cursor.behindGap_behindGap, behind], rfl⟩
    rw [line_eq]
    exact expecting_read.2 (optional_read.2 (.inr ⟨rfl, rfl, missed⟩))
  | @command k indent cs b₁ semicolon b₂ comment indented spelled blank₁ optional blank₂ isComment =>
    rw [List.append_assoc] at text
    have solid : gap (cs ++ (b₁ ++ (semicolon ++ (b₂ ++ comment))) ++ rest) = 0 := by
      rw [List.append_assoc]
      exact spelled.begins.gap_eq _
    have behind : c.behindGap = c.after indent.length := by
      rw [Cursor.behindGap, text, gap_of_blank indented solid]
    obtain ⟨d, c₁, f₁, read, makes, there⟩ :=
      sentence_reads spelled blank₁ optional blank₂ isComment ends (Cursor.rest_after text) f
    refine ⟨some ((c.after indent.length).line, d), c₁, f₁, ?_, ?_, ?_⟩
    · rw [line_eq, behind]
      exact expecting_read.2 (optional_read.2 (.inl ⟨_, rfl, read⟩))
    · rw [there, Cursor.after_after, ← List.length_append]
    · show statements [(_, d)] = _
      rw [statements, makes, Cursor.line_after text, place, Text.breaks_append, Nat.add_assoc]
      rfl

/-- By induction on the lines. -/
theorem SpelledProgram.read {before cs : List Char} {program : List Statement} {c : Cursor}
    (spelled : SpelledProgram before program cs) (text : c.rest = cs) (place : c.line = 1 + Text.breaks before)
    (f : Furthest) :
    ∃ drafts c₂ f₂, Lines c f drafts c₂ f₂ ∧ c₂.rest = [] ∧ statements drafts = .ok program := by
  induction spelled generalizing c f with
  | @last before cs program spelled =>
    rw [← List.append_nil cs] at text
    obtain ⟨l, c₁, f₁, read, there, makes⟩ := spelled.read text place (fun _ _ => nofun) f
    have left : c₁.behindGap.rest = [] := by rw [there, Cursor.rest_after text]
    refine ⟨_, _, _, .last read ?_, left, makes⟩
    rw [left]
    rfl
  | @next before cs b rest own more spelled breaks others ih =>
    obtain ⟨l, c₁, f₁, read, there, makes⟩ := spelled.read text place breaks.endsLine f
    have left : c₁.behindGap.rest = b ++ rest := by rw [there, Cursor.rest_after text]
    have line_behind : (c₁.behindGap.after b.length).line = 1 + Text.breaks (before ++ cs ++ b) := by
      rw [Cursor.line_after left, there, Cursor.line_after text, place]
      simp only [Text.breaks_append, Nat.add_assoc]
    obtain ⟨drafts, c₂, f₂, lines, done, further⟩ := ih (Cursor.rest_after left) line_behind f₁
    refine ⟨_, c₂, f₂, .next read (left ▸ breaks.breakLength_eq) lines, done, ?_⟩
    rw [statements_append makes, further]
    rfl

/-- A text that spells a program is read as that program, with every statement on its line; and whatever commands can
be written at all, some text spells a program of them. -/
theorem parse_spelled :
    (∀ (text : String) (program : List Statement), SpelledProgram [] program text.toList →
      parse text = .ok program) ∧
    ∀ commands : List Command, (∀ c ∈ commands, c.Sayable) →
      ∃ (text : String) (program : List Statement), SpelledProgram [] program text.toList ∧
        program.map (·.command) = commands := by
  refine ⟨fun text program spelled => ?_, fun commands sayable => ?_⟩
  · obtain ⟨drafts, c₂, f₂, lines, done, makes⟩ :=
      spelled.read (show (Cursor.ofText text).rest = text.toList from rfl) rfl {}
    rw [parse_of_lines lines, if_pos done, makes]
  · obtain ⟨program, cs, spelled, same⟩ := SpelledProgram.exists_of_sayable sayable []
    exact ⟨String.ofList cs, program, by rwa [String.toList_ofList], same⟩

/-! ### A name that begins with a keyword, a sum on the right, a quoted text over two lines -/

/-- One and a half. -/
def oneAndAHalf : WrittenNumber where
  negative := false
  whole := ['1']
  fraction := some ['5']
  whole_digits := ⟨nofun, List.all_eq_true.1 rfl⟩
  fraction_digits := by
    rintro _ ⟨⟩
    exact ⟨nofun, List.all_eq_true.1 rfl⟩

/-- Besides, an empty line, a line with a comment only, and all line breaks that there are. -/
def lettuceText : String := "  let lettuce =\t1.5+(x + 1.5); // sum\n\n// none\r\ndisplay \"a\\\"b\n// c\\\\\" \nspin\r error\"\";"

/-- The program that it spells. -/
def lettuce : List Statement :=
  [⟨1, .bind "lettuce" (.add (.number oneAndAHalf.value) (.add (.name "x") (.number oneAndAHalf.value)))⟩,
    ⟨4, .display (.text "a\"b\n// c\\")⟩, ⟨6, .spin⟩, ⟨6, .fail ""⟩]

theorem isName_lettuce : IsName "lettuce".toList := ⟨⟨'l', _, rfl, rfl⟩, List.all_eq_true.1 rfl, by decide⟩

theorem isName_x : IsName "x".toList := ⟨⟨'x', _, rfl, rfl⟩, List.all_eq_true.1 rfl, by decide⟩

theorem lettuce_value :
    Expr.Spelled .sum (.add (.number oneAndAHalf.value) (.add (.name "x") (.number oneAndAHalf.value)))
      "1.5+(x + 1.5)".toList := by
  have number := Expr.Spelled.number oneAndAHalf.readFloat?_chars
  have inner := Expr.Spelled.plus (.single (.name isName_x)) isBlank_single isBlank_single number
  exact .plus (.single number) isBlank_nil isBlank_nil (.inParens isBlank_nil inner isBlank_nil)

theorem lettuce_spelled : SpelledProgram [] lettuce lettuceText.toList := by
  have tab : IsBlank ['\t'] := by simp [IsBlank]
  have indented : IsBlank [' ', ' '] := by simp [IsBlank]
  have comment (text : List Char) (plain : text.all (fun c => !isBreak c) = true) : IsComment ('/' :: '/' :: text) :=
    .inr ⟨text, rfl, by simpa using plain⟩
  have sum_comment := comment " sum".toList rfl
  have own_comment := comment " none".toList rfl
  have binding := Command.Spelled.bind (List.cons_ne_nil ' ' []) isBlank_single isName_lettuce isBlank_single tab
    lettuce_value
  have displaying := Command.Spelled.display (endsWord_blank isBlank_single (List.cons_ne_nil ' ' []) _) isBlank_single
    (.single (.text "a\"b\n// c\\"))
  have spelled : SpelledProgram [] _ _ := .next
    (.command indented binding isBlank_nil (.inr rfl) isBlank_single sum_comment) .feed
    (.next (.empty isBlank_nil (.inl rfl)) .feed (.next (.empty isBlank_nil own_comment) .returnFeed
      (.next (.command isBlank_nil displaying isBlank_single (.inl rfl) isBlank_nil (.inl rfl)) .feed
        (.next (.command isBlank_nil .spin isBlank_nil (.inl rfl) isBlank_nil (.inl rfl)) (.loneReturn (by rintro _ ⟨⟩))
          (.last (.command isBlank_single (.fail "" isBlank_nil) isBlank_nil (.inr rfl) isBlank_nil (.inl rfl)))))))
  exact spelled

theorem parse_spelled_lettuce :
    (SpelledProgram [] lettuce lettuceText.toList ∧ parse lettuceText = .ok lettuce) ∧
      ∃ (text : String) (program : List Statement), SpelledProgram [] program text.toList ∧
        program.map (·.command) = lettuce.map (·.command) := by
  refine ⟨⟨lettuce_spelled, parse_spelled.1 _ _ lettuce_spelled⟩, parse_spelled.2 _ fun c there => ?_⟩
  have number : Expr.Sayable (.number oneAndAHalf.value) := ⟨oneAndAHalf, oneAndAHalf.readFloat?_chars⟩
  simp only [lettuce, List.map_cons, List.map_nil, List.mem_cons, List.not_mem_nil, or_false] at there
  obtain rfl | rfl | rfl | rfl := there
  · exact ⟨isName_lettuce, number, isName_x, number⟩
  all_goals trivial

end Workbench.Script
