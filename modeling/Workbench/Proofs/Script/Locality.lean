/-
A text in front of a line feed and more.

What was read of a text is read of it also with more text behind a line feed, as
long as what comes next does not go on with it: an expression must not be followed
by a plus sign, a line must be followed by its end. Most readers come to the same
result even where they fail (`Steady`). The exception is a quoted text that has not
come to its end, which may find one further on; so of the others it is shown that
what they read stays (`Kept`), and that they fail where they are tried and fail in a
line that is read in the end: at the first word (`Fails`).
-/
import Workbench.Proofs.Script.Lines

namespace Workbench.Script

namespace Cursor

/-- The place, with a line feed and more behind its text. -/
def inFront (c : Cursor) (more : List Char) : Cursor := { c with rest := c.rest ++ '\n' :: more }

theorem inFront_after {c : Cursor} {n : Nat} (within : n ≤ c.rest.length) (more : List Char) :
    (c.inFront more).after n = (c.after n).inFront more := by
  unfold after inFront
  rw [List.drop_append_of_le_length within, List.take_append_of_le_length within]

theorem inFront_behindGap (c : Cursor) (more : List Char) :
    (c.inFront more).behindGap = c.behindGap.inFront more := by
  show (c.inFront more).after (gapFrom false (c.rest ++ '\n' :: more)) = (c.after (gapFrom false c.rest)).inFront more
  rw [gapFrom_append, inFront_after (gapFrom_le false c.rest)]

theorem head_append {cs : List Char} {ch : Char} (none_here : ∀ rest, cs ≠ ch :: rest) (solid : ch ≠ '\n')
    (more rest : List Char) : cs ++ '\n' :: more ≠ ch :: rest := by
  intro same
  cases cs with
  | nil =>
    cases same
    exact solid rfl
  | cons d others =>
    cases same
    exact none_here others rfl

/-- The line ends here, or the text. -/
def EndsLine (c : Cursor) : Prop := ∀ ch rest, c.rest = ch :: rest → isBreak ch = true

/-- No plus sign comes next. -/
def EndsSum (c : Cursor) : Prop := ∀ rest, c.behindGap.rest ≠ '+' :: rest

theorem EndsSum.inFront {c : Cursor} (ends : c.EndsSum) (more : List Char) : (c.inFront more).EndsSum := by
  intro rest same
  rw [inFront_behindGap] at same
  exact head_append ends (by decide) more rest same

theorem EndsLine.of_break {c : Cursor} {n : Nat} (breaks : breakLength? c.rest = some n) : c.EndsLine := by
  intro ch rest same
  by_contra solid
  have none : breakLength? c.rest = none := by
    refine breakLength?_eq_none.2 fun d others text => ?_
    rw [same] at text
    cases text
    simpa using solid
  rw [none] at breaks
  cases breaks

end Cursor

/-! ## Reading in front of more text -/

namespace Reading

variable {α β : Type} {more : List Char} {follow : Cursor → Prop} {p q q' : Reading α} {c : Cursor}

section

variable {c' : Cursor} {f f' : Furthest} {a : α} {b : β}

theorem andThen_read {k : α → Reading β} :
    andThen p k c f = (some (b, c'), f') ↔ ∃ a c₁ f₁, p c f = (some (a, c₁), f₁) ∧ k a c₁ f₁ = (some (b, c'), f') := by
  unfold andThen
  rcases p c f with ⟨_ | ⟨a, c₁⟩, f₁⟩ <;> simp

theorem orElse_read :
    orElse p q c f = (some (a, c'), f') ↔
      p c f = (some (a, c'), f') ∨ ∃ f₁, p c f = (none, f₁) ∧ q c f₁ = (some (a, c'), f') := by
  unfold orElse
  rcases p c f with ⟨_ | ⟨a, c₁⟩, f₁⟩ <;> simp

theorem optional_read {o : Option α} :
    optional p c f = (some (o, c'), f') ↔
      (∃ a, o = some a ∧ p c f = (some (a, c'), f')) ∨ (o = none ∧ c' = c ∧ p c f = (none, f')) := by
  unfold optional
  rcases p c f with ⟨_ | ⟨a, c₁⟩, f₁⟩ <;> simp [and_assoc, eq_comm]

theorem expecting_read {part : Part} : expecting part p c f = (some (a, c'), f') ↔ p c f = (some (a, c'), f') := by
  unfold expecting
  rcases p c f with ⟨_ | ⟨a, c₁⟩, f₁⟩ <;> simp

end

/-- The reader comes to the same result, whether it reads or fails. -/
def Steady (more : List Char) (p : Reading α) (c : Cursor) : Prop :=
  ∀ f, p (c.inFront more) f = ((p c f).1.map fun (a, c) => (a, c.inFront more), (p c f).2)

/-- What the reader reads, if it is followed as it should be, stays as it is. -/
def Kept (more : List Char) (follow : Cursor → Prop) (p : Reading α) : Prop :=
  ∀ ⦃c f a c' f'⦄, p c f = (some (a, c'), f') → follow c' → p (c.inFront more) f = (some (a, c'.inFront more), f')

/-- Both readers fail, the second one in front of more text. -/
def Fails (more : List Char) (p q : Reading α) (c : Cursor) : Prop :=
  ∀ f, ∃ f', p c f = (none, f') ∧ q (c.inFront more) f = (none, f')

namespace Steady

theorem give (a : α) : (give a).Steady more c := fun _ => rfl

theorem lexeme {measure : List Char → Option (α × Nat)} (bounded : Bounded measure)
    (same : measure (c.rest ++ '\n' :: more) = measure c.rest) : (lexeme measure).Steady more c := by
  intro f
  have there : measure (c.inFront more).rest = measure c.rest := same
  unfold Reading.lexeme
  rw [there]
  cases read : measure c.rest with
  | none => rfl
  | some found =>
    obtain ⟨a, n⟩ := found
    dsimp only
    rw [Cursor.inFront_after (bounded _ _ _ read)]
    rfl

theorem expecting (part : Part) (steady : p.Steady more c) : (expecting part p).Steady more c := by
  intro f
  unfold Reading.expecting
  rw [steady f]
  rcases p c f with ⟨_ | ⟨a, c₁⟩, f₁⟩ <;> rfl

theorem andThen {k : α → Reading β} (first : p.Steady more c) (second : ∀ a c, (k a).Steady more c) :
    (andThen p k).Steady more c := by
  intro f
  unfold Reading.andThen
  rw [first f]
  rcases p c f with ⟨_ | ⟨a, c₁⟩, f₁⟩
  · rfl
  · exact second a c₁ f₁

theorem optional (steady : p.Steady more c) : (optional p).Steady more c := by
  intro f
  unfold Reading.optional
  rw [steady f]
  rcases p c f with ⟨_ | ⟨a, c₁⟩, f₁⟩ <;> rfl

theorem read {c' : Cursor} {f f' : Furthest} {a : α} (steady : p.Steady more c)
    (read : p c f = (some (a, c'), f')) : p (c.inFront more) f = (some (a, c'.inFront more), f') := by
  rw [steady f, read]
  rfl

theorem failed {f f' : Furthest} (steady : p.Steady more c) (failed : p c f = (none, f')) :
    p (c.inFront more) f = (none, f') := by
  rw [steady f, failed]
  rfl

/-- Behind an alternative that comes to the same result, another one stays as it is. -/
theorem orElse {c' : Cursor} {f f' : Furthest} {a : α} (steady : p.Steady more c)
    (read : Reading.orElse p q c f = (some (a, c'), f'))
    (other : ∀ f₁, q c f₁ = (some (a, c'), f') → q' (c.inFront more) f₁ = (some (a, c'.inFront more), f')) :
    Reading.orElse p q' (c.inFront more) f = (some (a, c'.inFront more), f') := by
  obtain first | ⟨f₁, failed, second⟩ := orElse_read.1 read
  · exact orElse_read.2 (.inl (steady.read first))
  · exact orElse_read.2 (.inr ⟨f₁, steady.failed failed, other f₁ second⟩)

end Steady

namespace Kept

theorem give (a : α) : (give a).Kept more follow := by
  intro c f b c' f' read _
  cases read
  rfl

theorem expecting (part : Part) (kept : p.Kept more follow) : (expecting part p).Kept more follow :=
  fun _ _ _ _ _ read ends => expecting_read.2 (kept (expecting_read.1 read) ends)

theorem andThen {k : α → Reading β} (first : ∀ c, p.Steady more c) (second : ∀ a, (k a).Kept more follow) :
    (andThen p k).Kept more follow := by
  intro c f b c' f' read ends
  obtain ⟨a, c₁, f₁, began, went_on⟩ := andThen_read.1 read
  exact andThen_read.2 ⟨a, _, f₁, (first c).read began, second a went_on ends⟩

theorem map (kept : p.Kept more follow) (g : α → β) :
    (Reading.andThen p fun a => Reading.give (g a)).Kept more follow := by
  intro c f b c' f' read ends
  obtain ⟨a, c₁, f₁, began, given⟩ := andThen_read.1 read
  cases given
  exact andThen_read.2 ⟨a, _, _, kept began ends, rfl⟩

theorem here {k : Cursor → Reading β} (same : ∀ c : Cursor, k (c.inFront more) = k c)
    (kept : ∀ c, (k c).Kept more follow) : (Reading.andThen here k).Kept more follow := by
  intro c f b c' f' read ends
  show k (c.inFront more) (c.inFront more) f = _
  rw [same]
  exact kept c read ends

end Kept

namespace Fails

theorem lexeme {measure : List Char → Option (α × Nat)} (none_here : measure c.rest = none)
    (none_there : measure (c.rest ++ '\n' :: more) = none) :
    Fails more (lexeme measure) (lexeme measure) c := by
  intro f
  refine ⟨f, ?_, ?_⟩
  · simp only [Reading.lexeme, none_here]
  · simp only [Reading.lexeme, Cursor.inFront, none_there]

theorem expecting (part : Part) (fails : Fails more p q c) :
    Fails more (expecting part p) (expecting part q) c := by
  intro f
  obtain ⟨f', here, there⟩ := fails f
  refine ⟨f'.note part c (f.countAt c.position), ?_, ?_⟩
  · simp only [Reading.expecting, here]
  · simp only [Reading.expecting, there]
    rfl

theorem andThen (fails : Fails more p q c) (k k' : α → Reading β) :
    Fails more (andThen p k) (andThen q k') c := by
  intro f
  obtain ⟨f', here, there⟩ := fails f
  refine ⟨f', ?_, ?_⟩
  · simp only [Reading.andThen, here]
  · simp only [Reading.andThen, there]

theorem orElse {p₁ q₁ : Reading α} (fails : Fails more p q c) (other : Fails more p₁ q₁ c) :
    Fails more (orElse p p₁) (orElse q q₁) c := by
  intro f
  obtain ⟨f₁, here, there⟩ := fails f
  obtain ⟨f₂, other_here, other_there⟩ := other f₁
  refine ⟨f₂, ?_, ?_⟩
  · simp only [Reading.orElse, here, other_here]
  · simp only [Reading.orElse, there, other_there]

theorem not_read {c' : Cursor} {f f' : Furthest} {a : α} (fails : Fails more p q c) :
    p c f ≠ (some (a, c'), f') := by
  intro read
  obtain ⟨_, failed, -⟩ := fails f
  rw [read] at failed
  cases failed

end Fails

end Reading

namespace Grammar

open Reading

variable {more : List Char} {follow : Cursor → Prop} {c c' : Cursor} {f f' : Furthest}

/-! ## Lexemes -/

theorem symbol?_settled {ch : Char} (solid : ch ≠ '\n') : Settled (symbol? ch) := by
  intro cs more
  cases cs with
  | nil => exact if_neg (Ne.symm solid)
  | cons d rest => rfl

theorem gaps_steady (c : Cursor) : gaps.Steady more c :=
  .lexeme gap?_bounded (congrArg (fun n => some ((), n)) (gapFrom_append false c.rest more))

theorem symbol_steady {ch : Char} (solid : ch ≠ '\n') (c : Cursor) : (symbol ch).Steady more c :=
  .lexeme (symbol?_bounded ch) (symbol?_settled solid c.rest more)

theorem word_steady (part : Part) (k : String) (c : Cursor) : (word part k).Steady more c :=
  .expecting part (.lexeme (keyword?_bounded k) (keyword?_settled k c.rest more))

theorem number_steady (c : Cursor) : number.Steady more c :=
  .expecting .number (.lexeme number?_bounded (number?_settled c.rest more))

theorem bool_steady (c : Cursor) : bool.Steady more c :=
  .expecting .bool (.lexeme bool?_bounded (bool?_settled c.rest more))

theorem name_steady (c : Cursor) : name.Steady more c :=
  .expecting .name (.lexeme name?_bounded (name?_settled c.rest more))

theorem text_steady (unquoted : ∀ rest, c.rest ≠ '"' :: rest) : text.Steady more c := by
  refine .expecting .text (.lexeme quoted?_bounded ?_)
  rw [quoted?_unquoted unquoted, quoted?_unquoted (Cursor.head_append unquoted (by decide) more)]

/-- A quoted text that has come to its end stays as it is. -/
theorem text_kept : text.Kept more follow := by
  refine .expecting .text ?_
  intro c f s c' f' read _
  unfold lexeme at read ⊢
  cases measured : quoted? c.rest with
  | none =>
    rw [measured] at read
    cases read
  | some found =>
    obtain ⟨s, n⟩ := found
    rw [measured] at read
    cases read
    obtain ⟨within, same⟩ := quoted?_append measured ('\n' :: more)
    have there : quoted? (c.inFront more).rest = some (s, n) := same
    rw [there]
    dsimp only
    rw [Cursor.inFront_after within]

theorem symbol_read {ch : Char} :
    symbol ch c f = (some ((), c'), f') ↔ (∃ rest, c.rest = ch :: rest) ∧ c' = c.after 1 ∧ f' = f := by
  show lexeme (symbol? ch) c f = _ ↔ _
  unfold lexeme
  cases text : c.rest with
  | nil => simp [symbol?]
  | cons d rest =>
    by_cases same : d = ch
    · simp [symbol?, same, eq_comm]
    · simp [symbol?, same]

/-! ## Where no term begins -/

/-- No term begins with this text. -/
structure NoTerm (cs : List Char) : Prop where
  number : number? cs = none
  unquoted : ∀ rest, cs ≠ '"' :: rest
  bool : bool? cs = none
  name : name? cs = none
  closed : ∀ rest, cs ≠ '(' :: rest

theorem NoTerm.inFront {cs : List Char} (no : NoTerm cs) (more : List Char) : NoTerm (cs ++ '\n' :: more) where
  number := (number?_settled cs more).trans no.number
  unquoted := Cursor.head_append no.unquoted (by decide) more
  bool := (bool?_settled cs more).trans no.bool
  name := (name?_settled cs more).trans no.name
  closed := Cursor.head_append no.closed (by decide) more

theorem word_solid {ch : Char} (solid : isNamePart ch = false) (rest : List Char) : Script.word (ch :: rest) = [] := by
  rw [Script.word, List.takeWhile_cons, solid]
  rfl

theorem NoTerm.of_break {ch : Char} (breaks : isBreak ch = true) (rest : List Char) : NoTerm (ch :: rest) := by
  obtain rfl | rfl : ch = '\n' ∨ ch = '\r' := by simpa [isBreak] using breaks
  all_goals
    refine ⟨rfl, by simp, ?_, rfl, by simp⟩
    rw [bool?, word_solid rfl]
    rfl

theorem NoTerm.of_endsLine {c : Cursor} (ends : c.EndsLine) : NoTerm c.rest := by
  cases text : c.rest with
  | nil => exact ⟨rfl, by simp, rfl, rfl, by simp⟩
  | cons ch rest => exact .of_break (ends ch rest text) rest

/-- The words that commands begin with. -/
def commandWords : List (List Char) := ["let", "display", "sleep", "spin", "error"].map String.toList

/-- What begins with a command word begins with no term: a command word is no name. -/
theorem NoTerm.of_word {cs : List Char} (command : Script.word cs ∈ commandWords) : NoTerm cs := by
  obtain ⟨others, text⟩ := List.takeWhile_prefix (l := cs) isNamePart
  change Script.word cs ++ others = cs at text
  simp only [commandWords, List.map_cons, List.map_nil, List.mem_cons, List.not_mem_nil, or_false] at command
  have no_bool {w : List Char} (is : Script.word cs = w) (not_true : w ≠ "true".toList)
      (not_false : w ≠ "false".toList) : bool? cs = none := by
    rw [bool?, is, if_neg not_true, if_neg not_false]
  have no_name {w : List Char} (is : Script.word cs = w) (keyword : keywords.contains w = true) :
      name? cs = none := by
    subst is
    unfold name?
    cases cs with
    | nil => rfl
    | cons ch rest => simp only [keyword, Bool.not_true, Bool.and_false, Bool.false_eq_true, if_false]
  rcases command with is | is | is | is | is
  all_goals
    refine ⟨?_, ?_, no_bool is (by decide) (by decide), no_name is (by decide), ?_⟩
    all_goals
      rw [← text, is]
      first
      | rfl
      | simp

/-- An expression in parentheses. -/
def inParens (calls : Nat) : Reading Expr :=
  Reading.andThen (symbol '(') fun _ => Reading.andThen gaps fun _ => Reading.andThen (expr calls) fun e =>
    Reading.andThen gaps fun _ => Reading.andThen (symbol ')') fun _ => give e

/-- The terms that are neither numbers nor quoted texts. -/
def unquotedTerm (calls : Nat) : Reading Expr :=
  orElse (Reading.andThen bool fun b => give (.bool b)) (
    orElse (Reading.andThen name fun n => give (.name n)) (inParens calls))

theorem term_succ (calls : Nat) :
    term (calls + 1) =
      orElse (Reading.andThen number fun x => give (.number x)) (
        orElse (Reading.andThen text fun s => give (.text s)) (unquotedTerm calls)) := rfl

theorem term_fails (no : NoTerm c.rest) (calls calls' : Nat) :
    Fails more (term (calls + 1)) (term (calls' + 1)) c := by
  have there := no.inFront more
  refine .orElse (.andThen (.expecting .number (.lexeme no.number there.number)) _ _) ?_
  refine .orElse (.andThen (.expecting .text
    (.lexeme (quoted?_unquoted no.unquoted) (quoted?_unquoted there.unquoted))) _ _) ?_
  refine .orElse (.andThen (.expecting .bool (.lexeme no.bool there.bool)) _ _) ?_
  refine .orElse (.andThen (.expecting .name (.lexeme no.name there.name)) _ _) ?_
  have none_open {cs : List Char} (closed : ∀ rest, cs ≠ '(' :: rest) : symbol? '(' cs = none := by
    cases cs with
    | nil => rfl
    | cons d rest => exact if_neg fun same => closed rest (by rw [same])
  have opening : Fails more (symbol '(') (symbol '(') c := .lexeme (none_open no.closed) (none_open there.closed)
  exact opening.andThen _ _

theorem expression_fails (no : NoTerm c.rest) : Fails more expression expression c := by
  have fails (calls calls' : Nat) : Fails more (expr (calls + 2)) (expr (calls' + 2)) c :=
    .expecting .expression (.andThen (term_fails no calls calls') _ _)
  intro f
  obtain ⟨f', here, there⟩ := fails (2 * c.rest.length + 1) (2 * (c.inFront more).rest.length + 1) f
  exact ⟨f', here, there⟩

theorem valuing_fails (no : NoTerm c.rest) : Fails more valuing valuing c :=
  .expecting .valuing (.andThen (expression_fails no) _ _)

/-! ## Expressions -/

/-- Where the sum ends, no further term is read. -/
theorem addend_ends (ends : c.EndsSum) (calls : Nat) (f : Furthest) : addend calls c f = (none, f) := by
  have fails : symbol '+' c.behindGap f = (none, f) := by
    show lexeme (symbol? '+') c.behindGap f = _
    unfold lexeme
    cases text : c.behindGap.rest with
    | nil => rfl
    | cons d rest =>
      have other : d ≠ '+' := by
        rintro rfl
        exact ends rest text
      have none_read : symbol? '+' (d :: rest) = none := if_neg other
      rw [none_read]
  unfold addend
  rw [andThen_gaps]
  simp only [Reading.andThen, fails]

/-- Behind a quote that is not closed, nothing else is read as a term. -/
theorem unquotedTerm_fails (quote : ∃ rest, c.rest = '"' :: rest) (calls : Nat) :
    Fails more (unquotedTerm calls) (unquotedTerm calls) c := by
  obtain ⟨rest, text⟩ := quote
  have no_bool : bool? c.rest = none := by
    rw [text, bool?, word_solid rfl]
    rfl
  have no_name : name? c.rest = none := by
    rw [text]
    rfl
  have no_parens : symbol? '(' c.rest = none := by
    rw [text]
    rfl
  refine .orElse (.andThen (.expecting .bool (.lexeme no_bool ((bool?_settled _ _).trans no_bool))) _ _) ?_
  refine .orElse (.andThen (.expecting .name (.lexeme no_name ((name?_settled _ _).trans no_name))) _ _) ?_
  have opening : Fails more (symbol '(') (symbol '(') c :=
    .lexeme no_parens ((symbol?_settled (by decide) _ _).trans no_parens)
  exact opening.andThen _ _

/-- What is read with calls enough for the text stays as it is, with as many calls or more. Two calls for each
character are enough: parentheses take two, and a plus sign one. -/
def Stays (more : List Char) (follow : Cursor → Prop) (size : Nat) (p : Nat → Reading Expr) (calls : Nat) : Prop :=
  ∀ ⦃calls' c f e c' f'⦄, 2 * c.rest.length + size ≤ calls → calls ≤ calls' → p calls c f = (some (e, c'), f') →
    follow c' → p calls' (c.inFront more) f = (some (e, c'.inFront more), f')

/-- A character that was read is read in front of a line feed too, and less is left behind it. -/
theorem symbol_stays {ch : Char} (solid : ch ≠ '\n') (read : symbol ch c f = (some ((), c'), f'))
    (more : List Char) :
    symbol ch (c.inFront more) f = (some ((), c'.inFront more), f') ∧ c'.rest.length < c.rest.length := by
  refine ⟨(symbol_steady solid c).read read, ?_⟩
  obtain ⟨⟨rest, text⟩, rfl, -⟩ := symbol_read.1 read
  simp [Cursor.after, text]

section

variable {calls calls' : Nat} {e : Expr}

theorem inParens_stays (exprs : Stays more Cursor.EndsSum 2 expr calls) (enough : 2 * c.rest.length ≤ calls)
    (le : calls ≤ calls') (read : inParens calls c f = (some (e, c'), f')) :
    inParens calls' (c.inFront more) f = (some (e, c'.inFront more), f') := by
  obtain ⟨_, c₁, f₁, opened, read⟩ := andThen_read.1 read
  rw [andThen_gaps] at read
  obtain ⟨e', c₂, f₂, inner, read⟩ := andThen_read.1 read
  rw [andThen_gaps] at read
  obtain ⟨_, c₃, f₃, closed, given⟩ := andThen_read.1 read
  cases given
  obtain ⟨opened_there, shorter⟩ := symbol_stays (by decide) opened more
  obtain ⟨closed_there, -⟩ := symbol_stays (by decide) closed more
  have ends : c₂.EndsSum := by
    intro rest plus
    obtain ⟨⟨others, text⟩, -, -⟩ := symbol_read.1 closed
    rw [text] at plus
    cases plus
  have gap_le := c₁.rest_behindGap_le
  refine andThen_read.2 ⟨(), _, _, opened_there, ?_⟩
  rw [andThen_gaps, Cursor.inFront_behindGap]
  refine andThen_read.2 ⟨e, _, _, exprs (by omega) le inner ends, ?_⟩
  rw [andThen_gaps, Cursor.inFront_behindGap]
  exact andThen_read.2 ⟨(), _, _, closed_there, rfl⟩

theorem addend_stays (terms : Stays more (fun _ => True) 1 term calls) (enough : 2 * c.rest.length ≤ calls)
    (le : calls ≤ calls') (read : addend calls c f = (some (e, c'), f')) :
    addend calls' (c.inFront more) f = (some (e, c'.inFront more), f') ∧ c'.rest.length < c.rest.length := by
  unfold addend at read ⊢
  rw [andThen_gaps] at read
  obtain ⟨_, c₁, f₁, plus, read⟩ := andThen_read.1 read
  rw [andThen_gaps] at read
  obtain ⟨plus_there, shorter⟩ := symbol_stays (by decide) plus more
  have gap_le := c.rest_behindGap_le
  have next_le := c₁.rest_behindGap_le
  have term_le := (expressions_alike calls).2.2.rest_le read
  refine ⟨?_, by omega⟩
  rw [andThen_gaps, Cursor.inFront_behindGap]
  refine andThen_read.2 ⟨(), _, _, plus_there, ?_⟩
  rw [andThen_gaps, Cursor.inFront_behindGap]
  exact terms (by omega) le read trivial

theorem term_stays (exprs : Stays more Cursor.EndsSum 2 expr calls) :
    Stays more (fun _ => True) 1 term (calls + 1) := by
  intro calls' c f e c' f' enough le read _
  obtain ⟨calls', rfl⟩ : ∃ n, calls' = n + 1 := ⟨calls' - 1, by omega⟩
  rw [term_succ] at read ⊢
  refine Steady.orElse (.andThen (number_steady c) fun _ _ => .give _) read fun f₁ read => ?_
  have unquoted {f : Furthest} (read : unquotedTerm calls c f = (some (e, c'), f')) :
      unquotedTerm calls' (c.inFront more) f = (some (e, c'.inFront more), f') := by
    refine Steady.orElse (.andThen (bool_steady c) fun _ _ => .give _) read fun f₁ read => ?_
    refine Steady.orElse (.andThen (name_steady c) fun _ _ => .give _) read fun f₁ read => ?_
    exact inParens_stays exprs (by omega) (by omega) read
  -- a quote that is not closed may be closed further on, but then nothing has been read here
  by_cases quote : ∃ rest, c.rest = '"' :: rest
  · have texts : (Reading.andThen text fun s => give (Expr.text s)).Kept more fun _ => True := text_kept.map _
    obtain closed | ⟨f₂, -, other⟩ := orElse_read.1 read
    · exact orElse_read.2 (.inl (texts closed trivial))
    · have fails : Fails more (unquotedTerm calls) (unquotedTerm calls) c := unquotedTerm_fails quote calls
      exact absurd other fails.not_read
  · have steady : text.Steady more c := text_steady fun rest same => quote ⟨rest, same⟩
    exact Steady.orElse (.andThen steady fun _ _ => .give _) read fun f₂ read => unquoted read

theorem sum_stays (terms : Stays more (fun _ => True) 1 term calls)
    (sums : ∀ acc, Stays more Cursor.EndsSum 1 (fun calls => sum calls acc) calls) (acc : Expr) :
    Stays more Cursor.EndsSum 1 (fun calls => sum calls acc) (calls + 1) := by
  intro calls' c f e c' f' enough le read ends
  obtain ⟨calls', rfl⟩ : ∃ n, calls' = n + 1 := ⟨calls' - 1, by omega⟩
  dsimp only at read ⊢
  rw [sum_succ] at read ⊢
  rcases added : addend calls c f with ⟨_ | ⟨next, c₁⟩, f₁⟩
  · rw [added] at read
    cases read
    rw [addend_ends ends] at added
    cases added
    rw [addend_ends (ends.inFront more)]
  · rw [added] at read
    obtain ⟨there, shorter⟩ := addend_stays terms (by omega) (by omega : calls ≤ calls') added
    rw [there]
    exact sums _ (by omega) (by omega) read ends

theorem expr_stays (terms : Stays more (fun _ => True) 1 term calls)
    (sums : ∀ acc, Stays more Cursor.EndsSum 1 (fun calls => sum calls acc) calls) :
    Stays more Cursor.EndsSum 2 expr (calls + 1) := by
  intro calls' c f e c' f' enough le read ends
  obtain ⟨calls', rfl⟩ : ∃ n, calls' = n + 1 := ⟨calls' - 1, by omega⟩
  refine expecting_read.2 ?_
  obtain ⟨first, c₁, f₁, began, read⟩ := andThen_read.1 (expecting_read.1 read)
  rw [andThen_gaps] at read
  have term_le := (expressions_alike calls).2.2.rest_le began
  have gap_le := c₁.rest_behindGap_le
  refine andThen_read.2 ⟨first, _, _, terms (by omega) (by omega : calls ≤ calls') began trivial, ?_⟩
  rw [andThen_gaps, Cursor.inFront_behindGap]
  exact sums first (by omega) (by omega) read ends

end

/-- By induction on the calls: each reader hands on as many calls as it needs itself, less what it has read. -/
theorem expressions_stay (more : List Char) (calls : Nat) :
    Stays more (fun _ => True) 1 term calls ∧
      (∀ acc, Stays more Cursor.EndsSum 1 (fun calls => sum calls acc) calls) ∧
      Stays more Cursor.EndsSum 2 expr calls := by
  induction calls with
  | zero => exact ⟨fun _ _ _ _ _ _ enough => by omega, fun _ _ _ _ _ _ _ enough => by omega,
      fun _ _ _ _ _ _ enough => by omega⟩
  | succ calls ih =>
    obtain ⟨terms, sums, exprs⟩ := ih
    exact ⟨term_stays exprs, sum_stays terms sums, expr_stays terms sums⟩

theorem expression_kept : expression.Kept more Cursor.EndsSum := by
  intro c f e c' f' read ends
  refine (expressions_stay more _).2.2 (by omega) ?_ read ends
  have longer : c.rest.length ≤ (c.inFront more).rest.length := by simp [Cursor.inFront]
  omega

/-! ## Commands -/

theorem word_fails {part : Part} {k : String} (other : Script.word c.rest ≠ k.toList) :
    Fails more (word part k) (word part k) c := by
  have none_here : keyword? k c.rest = none := if_neg other
  exact .expecting part (.lexeme none_here ((keyword?_settled k c.rest more).trans none_here))

theorem binding_fails (other : Script.word c.rest ≠ "let".toList) : Fails more binding binding c :=
  .expecting .binding (.andThen (word_fails other) _ _)

theorem displaying_fails (other : Script.word c.rest ≠ "display".toList) : Fails more displaying displaying c :=
  .expecting .displaying (.andThen (word_fails other) _ _)

theorem sleeping_fails (other : Script.word c.rest ≠ "sleep".toList) : Fails more sleeping sleeping c :=
  .expecting .sleeping (.andThen (word_fails other) _ _)

theorem spinning_fails (other : Script.word c.rest ≠ "spin".toList) : Fails more spinning spinning c :=
  .expecting .spinning (.andThen (word_fails other) _ _)

theorem failing_fails (other : Script.word c.rest ≠ "error".toList) : Fails more failing failing c :=
  .expecting .failing (.andThen (word_fails other) _ _)

theorem binding_kept : binding.Kept more Cursor.EndsSum := by
  refine .expecting .binding (.andThen (word_steady _ _) fun _ => .andThen gaps_steady fun _ =>
    .andThen name_steady fun n => .andThen gaps_steady fun _ => .andThen (symbol_steady (by decide)) fun _ =>
      .andThen gaps_steady fun _ => ?_)
  exact expression_kept.map fun e => Draft.command (.bind n e)

theorem displaying_kept : displaying.Kept more Cursor.EndsSum := by
  refine .expecting .displaying (.andThen (word_steady _ _) fun _ => .andThen gaps_steady fun _ => ?_)
  exact expression_kept.map fun e => Draft.command (.display e)

theorem sleeping_kept : sleeping.Kept more Cursor.EndsSum := by
  refine .expecting .sleeping (.andThen (word_steady _ _) fun _ => .andThen gaps_steady fun _ => ?_)
  exact .here (fun _ => rfl) fun _ => .andThen number_steady fun _ => .give _

theorem spinning_kept : spinning.Kept more Cursor.EndsSum :=
  .expecting .spinning (.andThen (word_steady _ _) fun _ => .give _)

theorem failing_kept : failing.Kept more Cursor.EndsSum := by
  refine .expecting .failing (.andThen (word_steady _ _) fun _ => .andThen gaps_steady fun _ => ?_)
  exact text_kept.map fun message => Draft.command (.fail message)

theorem valuing_kept : valuing.Kept more Cursor.EndsSum :=
  .expecting .valuing (expression_kept.map fun e => Draft.command (.value e))

/-- An alternative that begins with a word of its own: without that word it fails at once, with it none of
the others is read. -/
theorem orElse_kept {p q : Reading Draft} {k : List Char} (first : p.Kept more follow) (second : q.Kept more follow)
    (without : ∀ c : Cursor, Script.word c.rest ≠ k → Fails more p p c)
    (others : ∀ c : Cursor, Script.word c.rest = k → Fails more q q c) : (orElse p q).Kept more follow := by
  intro c f d c' f' read ends
  obtain began | ⟨f₁, failed, went_on⟩ := orElse_read.1 read
  · exact orElse_read.2 (.inl (first began ends))
  · by_cases is : Script.word c.rest = k
    · exact absurd went_on (others c is).not_read
    · obtain ⟨f₂, here, there⟩ := without c is f
      rw [failed] at here
      cases here
      exact orElse_read.2 (.inr ⟨f₁, there, second went_on ends⟩)

/-- The alternatives for a command. -/
def draft : Reading Draft :=
  orElse binding <| orElse displaying <| orElse sleeping <| orElse spinning <| orElse failing valuing

theorem draft_kept : draft.Kept more Cursor.EndsSum := by
  have valuing_fails' {k : List Char} (is_word : k ∈ commandWords) (c : Cursor) (is : Script.word c.rest = k) :
      Fails more valuing valuing c := valuing_fails (.of_word (is ▸ is_word))
  refine orElse_kept binding_kept (orElse_kept displaying_kept (orElse_kept sleeping_kept
    (orElse_kept spinning_kept (orElse_kept failing_kept valuing_kept
      (fun _ => failing_fails) (valuing_fails' (by decide)))
      (fun _ => spinning_fails) ?_) (fun _ => sleeping_fails) ?_) (fun _ => displaying_fails) ?_)
    (fun _ => binding_fails) ?_
  · intro c is
    exact .orElse (failing_fails (by rw [is]; decide)) (valuing_fails' (by decide) c is)
  · intro c is
    exact .orElse (spinning_fails (by rw [is]; decide)) <| .orElse (failing_fails (by rw [is]; decide))
      (valuing_fails' (by decide) c is)
  · intro c is
    exact .orElse (sleeping_fails (by rw [is]; decide)) <| .orElse (spinning_fails (by rw [is]; decide)) <|
      .orElse (failing_fails (by rw [is]; decide)) (valuing_fails' (by decide) c is)
  · intro c is
    exact .orElse (displaying_fails (by rw [is]; decide)) <| .orElse (sleeping_fails (by rw [is]; decide)) <|
      .orElse (spinning_fails (by rw [is]; decide)) <| .orElse (failing_fails (by rw [is]; decide))
        (valuing_fails' (by decide) c is)

/-- Where no term and no command word begins, no command is read. -/
theorem draft_fails (no_term : NoTerm c.rest) (no_word : Script.word c.rest ∉ commandWords) :
    Fails more draft draft c := by
  have other {k : List Char} (is_word : k ∈ commandWords) : Script.word c.rest ≠ k := by
    rintro rfl
    exact no_word is_word
  exact .orElse (binding_fails (other (by decide))) <| .orElse (displaying_fails (other (by decide))) <|
    .orElse (sleeping_fails (other (by decide))) <| .orElse (spinning_fails (other (by decide))) <|
      .orElse (failing_fails (other (by decide))) (valuing_fails no_term)

/-- A command, with the line it stands on. -/
theorem command_eq : command = Reading.andThen here fun c => Reading.andThen draft fun d => give (c.line, d) := rfl

theorem command_kept : command.Kept more Cursor.EndsSum := by
  rw [command_eq]
  exact .here (fun _ => rfl) fun c => draft_kept.map fun d => (c.line, d)

/-! ## Lines -/

/-- A command and the semicolon that may stand behind it. -/
def sentence : Reading (Nat × Draft) :=
  Reading.andThen command fun d => Reading.andThen gaps fun _ => Reading.andThen (optional (symbol ';')) fun _ => give d

theorem line_eq : line = expecting .line (optional sentence) := rfl

theorem sentence_fails (ends : c.EndsLine) : Fails more sentence sentence c := by
  have no_word : Script.word c.rest ∉ commandWords := by
    cases text : c.rest with
    | nil => decide
    | cons ch rest =>
      obtain rfl | rfl : ch = '\n' ∨ ch = '\r' := by simpa [isBreak] using ends ch rest text
      all_goals
        rw [word_solid rfl]
        decide
  have none_read : Fails more draft draft c := draft_fails (.of_endsLine ends) no_word
  have command_fails : Fails more command command c := fun f =>
    none_read.andThen (fun d => give (c.line, d)) (fun d => give (c.line, d)) f
  exact command_fails.andThen _ _

/-- A line that has come to its end stays as it is. -/
theorem line_kept {l : Option (Nat × Draft)} (gapped : c.behindGap = c) (read : line c f = (some (l, c'), f'))
    (ends : c'.behindGap.EndsLine) : line (c.inFront more) f = (some (l, c'.inFront more), f') := by
  rw [line_eq, expecting_read, optional_read] at read ⊢
  obtain ⟨d, rfl, read⟩ | ⟨rfl, rfl, failed⟩ := read
  · refine .inl ⟨d, rfl, ?_⟩
    obtain ⟨d', c₁, f₁, began, read⟩ := andThen_read.1 read
    rw [andThen_gaps] at read
    obtain ⟨o, c₂, f₂, semicolon, given⟩ := andThen_read.1 read
    cases given
    have sum_ends : c₁.EndsSum := by
      intro rest plus
      obtain ⟨_, -, behind⟩ | ⟨-, rfl, -⟩ := optional_read.1 semicolon
      · obtain ⟨⟨others, text⟩, -, -⟩ := symbol_read.1 behind
        rw [text] at plus
        cases plus
      · rw [Cursor.behindGap_behindGap] at ends
        cases ends _ _ plus
    have semicolon_there : optional (symbol ';') (c₁.behindGap.inFront more) f₁ = (some (o, c'.inFront more), f') :=
      (Steady.optional (symbol_steady (by decide) c₁.behindGap)).read semicolon
    refine andThen_read.2 ⟨d, _, _, command_kept began sum_ends, ?_⟩
    rw [andThen_gaps, Cursor.inFront_behindGap]
    exact andThen_read.2 ⟨o, _, _, semicolon_there, rfl⟩
  · rw [gapped] at ends
    have fails : Fails more sentence sentence c' := sentence_fails ends
    obtain ⟨f₁, here, there⟩ := fails f
    rw [failed] at here
    cases here
    exact .inr ⟨rfl, rfl, there⟩

end Grammar

end Workbench.Script
