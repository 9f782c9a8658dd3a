/-
Two readings of one text, at two places.

Every reader of the grammar looks at what is left of its text and at nothing
else. So if two places have the same text before them, and what has been expected
so far corresponds, a reader comes to corresponding results (`Likeness.Alike`).
Which places and records correspond is left open: with the place moved it says
that a text is read in the same way further down (`moved`), with the same place
on both sides that what reading on keeps is kept by a reader (`keeping`).
-/
import Workbench.Proofs.Script.Measure
import Workbench.Script.Grammar

namespace Workbench.Script

/-- Which places, and which records of what was expected, correspond. -/
structure Likeness where
  place : Cursor → Cursor → Prop
  seen : Furthest → Furthest → Prop
  line : Nat → Nat → Prop
  rest : ∀ {c c'}, place c c' → c'.rest = c.rest
  lines : ∀ {c c'}, place c c' → line c.line c'.line
  after : ∀ {c c' n}, place c c' → n ≤ c.rest.length → place (c.after n) (c'.after n)
  count : ∀ {c c' f f'}, place c c' → seen f f' → f'.countAt c'.position = f.countAt c.position
  note : ∀ {c c' f f'} part before, place c c' → seen f f' → seen (f.note part c before) (f'.note part c' before)

namespace Likeness

variable {α β γ δ : Type} {L : Likeness} {same : α → β → Prop} {also : γ → δ → Prop}

/-- Corresponding results of two readers. -/
inductive Results (L : Likeness) (same : α → β → Prop) :
    Option (α × Cursor) × Furthest → Option (β × Cursor) × Furthest → Prop
  | read {a : α} {b : β} {c c' : Cursor} {f f' : Furthest} (value : same a b) (place : L.place c c')
    (seen : L.seen f f') : L.Results same (some (a, c), f) (some (b, c'), f')
  | failed {f f' : Furthest} (seen : L.seen f f') : L.Results same (none, f) (none, f')

/-- Two readers that come to corresponding results at corresponding places. -/
def Alike (L : Likeness) (same : α → β → Prop) (p : Reading α) (q : Reading β) : Prop :=
  ∀ c c' f f', L.place c c' → L.seen f f' → L.Results same (p c f) (q c' f')

namespace Alike

open Reading

variable {p p₁ : Reading α} {q q₁ : Reading β}

theorem give {a : α} {b : β} (value : same a b) : L.Alike same (give a) (give b) :=
  fun _ _ _ _ place seen => .read value place seen

theorem fail : L.Alike same (fail : Reading α) (fail : Reading β) := fun _ _ _ _ _ seen => .failed seen

theorem here : L.Alike L.place here here := fun _ _ _ _ place seen => .read place place seen

theorem andThen (first : L.Alike same p q) {k : α → Reading γ} {k' : β → Reading δ}
    (second : ∀ a b, same a b → L.Alike also (k a) (k' b)) : L.Alike also (andThen p k) (andThen q k') := by
  intro c c' f f' place seen
  have results := first c c' f f' place seen
  unfold Reading.andThen
  generalize p c f = left at results ⊢
  generalize q c' f' = right at results ⊢
  cases results with
  | read value place seen => exact second _ _ value _ _ _ _ place seen
  | failed seen => exact .failed seen

theorem bind (first : L.Alike same p q) {k : α → Reading γ} {k' : β → Reading δ}
    (second : ∀ a b, same a b → L.Alike also (k a) (k' b)) : L.Alike also (p >>= k) (q >>= k') :=
  first.andThen second

theorem orElse (first : L.Alike same p q) (second : L.Alike same p₁ q₁) :
    L.Alike same (orElse p p₁) (orElse q q₁) := by
  intro c c' f f' place seen
  have results := first c c' f f' place seen
  unfold Reading.orElse
  generalize p c f = left at results ⊢
  generalize q c' f' = right at results ⊢
  cases results with
  | read value place seen => exact .read value place seen
  | failed seen => exact second _ _ _ _ place seen

theorem optional (alike : L.Alike same p q) : L.Alike (Option.Rel same) (optional p) (optional q) := by
  intro c c' f f' place seen
  have results := alike c c' f f' place seen
  unfold Reading.optional
  generalize p c f = left at results ⊢
  generalize q c' f' = right at results ⊢
  cases results with
  | read value place seen => exact .read (.some value) place seen
  | failed seen => exact .read .none place seen

theorem expecting (part : Part) (alike : L.Alike same p q) :
    L.Alike same (expecting part p) (expecting part q) := by
  intro c c' f f' place seen
  have results := alike c c' f f' place seen
  unfold Reading.expecting
  rw [L.count place seen]
  generalize p c f = left at results ⊢
  generalize q c' f' = right at results ⊢
  cases results with
  | read value place seen => exact .read value place seen
  | failed seen => exact .failed (L.note part _ place seen)

theorem lexeme {measure : List Char → Option (α × Nat)} (bounded : Bounded measure) :
    L.Alike Eq (lexeme measure) (lexeme measure) := by
  intro c c' f f' place seen
  unfold Reading.lexeme
  rw [L.rest place]
  cases read : measure c.rest with
  | none => exact .failed seen
  | some found =>
    obtain ⟨a, n⟩ := found
    exact .read rfl (L.after place (bounded _ _ _ read)) seen

end Alike

end Likeness

/-! ## The grammar -/

/-- What a gap is measured by. -/
def gap? (cs : List Char) : Option (Unit × Nat) := some ((), gap cs)

/-- What one character is measured by. -/
def symbol? (ch : Char) : List Char → Option (Unit × Nat)
  | c :: _ => if c = ch then some ((), 1) else none
  | [] => none

theorem gap?_bounded : Bounded gap? := by
  rintro cs _ _ ⟨⟩
  exact gapFrom_le false cs

theorem symbol?_bounded (ch : Char) : Bounded (symbol? ch) := by
  intro cs a n read
  match cs with
  | [] => cases read
  | c :: rest =>
    by_cases same : c = ch
    · cases (if_pos same).symm.trans read
      simp
    · cases (if_neg same).symm.trans read

/-- Drafts that stand on corresponding lines. -/
inductive Grammar.Draft.Like (line : Nat → Nat → Prop) : Draft → Draft → Prop
  | command (c : Command) : Like line (.command c) (.command c)
  | sleep (duration : Float) {n n' : Nat} (there : line n n') : Like line (.sleep duration n) (.sleep duration n')

/-- Commands that stand on corresponding lines. -/
def Grammar.CommandLike (line : Nat → Nat → Prop) (d d' : Nat × Grammar.Draft) : Prop :=
  line d.1 d'.1 ∧ d.2.Like line d'.2

namespace Grammar

open Likeness

variable {L : Likeness}

theorem gaps_alike : L.Alike Eq gaps gaps := .lexeme gap?_bounded

theorem symbol_alike (ch : Char) : L.Alike Eq (symbol ch) (symbol ch) := .lexeme (symbol?_bounded ch)

theorem word_alike (part : Part) (k : String) : L.Alike Eq (word part k) (word part k) :=
  .expecting part (.lexeme (keyword?_bounded k))

theorem number_alike : L.Alike Eq number number := .expecting .number (.lexeme number?_bounded)

theorem text_alike : L.Alike Eq text text := .expecting .text (.lexeme quoted?_bounded)

theorem bool_alike : L.Alike Eq bool bool := .expecting .bool (.lexeme bool?_bounded)

theorem name_alike : L.Alike Eq name name := .expecting .name (.lexeme name?_bounded)

/-- The next term, behind a plus sign. -/
def addend (calls : Nat) : Reading Expr :=
  Reading.andThen gaps fun _ => Reading.andThen (symbol '+') fun _ => Reading.andThen gaps fun _ => term calls

theorem addend_alike {calls : Nat} (alike : L.Alike Eq (term calls) (term calls)) :
    L.Alike Eq (addend calls) (addend calls) :=
  gaps_alike.andThen fun _ _ _ => (symbol_alike '+').andThen fun _ _ _ => gaps_alike.andThen fun _ _ _ => alike

theorem sum_succ (calls : Nat) (acc : Expr) (c : Cursor) (f : Furthest) :
    sum (calls + 1) acc c f =
      match addend calls c f with
      | (some (next, c), f) => sum calls (.add acc next) c f
      | (none, f) => (some (acc, c), f) := by
  rw [sum]
  rfl

theorem expressions_alike (calls : Nat) :
    L.Alike Eq (expr calls) (expr calls) ∧ (∀ acc, L.Alike Eq (sum calls acc) (sum calls acc)) ∧
      L.Alike Eq (term calls) (term calls) := by
  induction calls with
  | zero => exact ⟨.fail, fun acc => .give rfl, .fail⟩
  | succ calls ih =>
    obtain ⟨expr_alike, sum_alike, term_alike⟩ := ih
    refine ⟨?_, fun acc => ?_, ?_⟩
    · refine .expecting .expression (term_alike.andThen ?_)
      rintro first _ rfl
      exact gaps_alike.andThen fun _ _ _ => sum_alike first
    · intro c c' f f' place seen
      have results := addend_alike term_alike c c' f f' place seen
      rw [sum_succ, sum_succ]
      generalize addend calls c f = left at results ⊢
      generalize addend calls c' f' = right at results ⊢
      cases results with
      | read value place seen =>
        subst value
        exact sum_alike _ _ _ _ _ place seen
      | failed seen => exact .read rfl place seen
    · refine .orElse (number_alike.andThen ?_) (.orElse (text_alike.andThen ?_)
        (.orElse (bool_alike.andThen ?_) (.orElse (name_alike.andThen ?_) ?_)))
      any_goals
        rintro read _ rfl
        exact .give rfl
      refine (symbol_alike '(').andThen fun _ _ _ => gaps_alike.andThen fun _ _ _ => expr_alike.andThen ?_
      rintro inner _ rfl
      exact gaps_alike.andThen fun _ _ _ => (symbol_alike ')').andThen fun _ _ _ => .give rfl

theorem expression_alike : L.Alike Eq expression expression := by
  intro c c' f f' place seen
  unfold expression
  rw [L.rest place]
  exact (expressions_alike _).1 c c' f f' place seen

/-! ## Commands and lines -/

theorem binding_alike : L.Alike (Draft.Like L.line) binding binding := by
  refine .expecting .binding ((word_alike .letWord "let").bind fun _ _ _ => gaps_alike.bind fun _ _ _ =>
    name_alike.bind ?_)
  rintro n _ rfl
  refine gaps_alike.bind fun _ _ _ => (symbol_alike '=').bind fun _ _ _ => gaps_alike.bind fun _ _ _ =>
    expression_alike.bind ?_
  rintro e _ rfl
  exact .give (.command _)

theorem displaying_alike : L.Alike (Draft.Like L.line) displaying displaying := by
  refine .expecting .displaying ((word_alike .displayWord "display").bind fun _ _ _ => gaps_alike.bind fun _ _ _ =>
    expression_alike.bind ?_)
  rintro e _ rfl
  exact .give (.command _)

theorem sleeping_alike : L.Alike (Draft.Like L.line) sleeping sleeping := by
  refine .expecting .sleeping ((word_alike .sleepWord "sleep").bind fun _ _ _ => gaps_alike.bind fun _ _ _ =>
    Alike.here.bind fun c c' place => number_alike.bind ?_)
  rintro x _ rfl
  exact .give (.sleep x (L.lines place))

theorem spinning_alike : L.Alike (Draft.Like L.line) spinning spinning :=
  .expecting .spinning ((word_alike .spinWord "spin").bind fun _ _ _ => .give (.command _))

theorem failing_alike : L.Alike (Draft.Like L.line) failing failing := by
  refine .expecting .failing ((word_alike .errorWord "error").bind fun _ _ _ => gaps_alike.bind fun _ _ _ =>
    text_alike.bind ?_)
  rintro message _ rfl
  exact .give (.command _)

theorem valuing_alike : L.Alike (Draft.Like L.line) valuing valuing := by
  refine .expecting .valuing (expression_alike.bind ?_)
  rintro e _ rfl
  exact .give (.command _)

theorem command_alike : L.Alike (CommandLike L.line) command command := by
  refine Alike.here.bind fun c c' place => ?_
  have drafts := binding_alike (L := L) |>.orElse <| displaying_alike.orElse <| sleeping_alike.orElse <|
    spinning_alike.orElse <| failing_alike.orElse valuing_alike
  exact drafts.bind fun d d' like => .give ⟨L.lines place, like⟩

theorem line_alike : L.Alike (Option.Rel (CommandLike L.line)) line line := by
  refine .expecting .line (.optional (command_alike.bind fun d d' like => gaps_alike.bind fun _ _ _ => ?_))
  exact (symbol_alike ';').optional.bind fun _ _ _ => .give like

end Grammar

end Workbench.Script
