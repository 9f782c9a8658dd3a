/-
What a script comes to, said without a clock, a poll or a suspension.

The statements are gone through in order. `Ending.of` says what is written, how
long is slept, and the result; it knows nothing of how the machine slices a
sleep, lets others go on, or is taken up again. A machine, a flight and a result
each have an ending of their own: what is still to come from there. That polls
leave the ending alone, apart from what has happened meanwhile, is what a ride
comes to (`Ride.ending`).
-/
import Workbench.Script.Machine

namespace Workbench.Script

/-! ## Endings -/

/-- How a run comes out: what it writes, how long it sleeps in all, and its result. -/
structure Ending where
  lines : List String
  /-- in milliseconds -/
  slept : Nat
  result : RunResult Machine

namespace Ending

/-- An ending with nothing before it. -/
def at_ (result : RunResult Machine) : Ending := ⟨[], 0, result⟩

/-- An ending after lines were written and time was slept. -/
def after (e : Ending) (lines : List String) (slept : Nat) : Ending :=
  { e with lines := lines ++ e.lines, slept := slept + e.slept }

@[simp] theorem after_nil (e : Ending) : e.after [] 0 = e := by simp [after]

@[simp] theorem after_after (e : Ending) (first second : List String) (early late : Nat) :
    (e.after second late).after first early = e.after (first ++ second) (early + late) := by
  simp [after, Nat.add_assoc]

/-- The ending of statements. A spin ends when the time is used up, whatever the time. -/
def of (budgetMs : Nat) (context : Context) :
    (bindings : List (String × Json)) → (last : Json) → List Statement → Ending
  | _, last, [] => at_ (.finished last)
  | bindings, last, s :: rest =>
    match s.command with
    | .sleep ms => (of budgetMs context bindings last rest).after [] ms
    | .spin => at_ (Flight.faultAt .timeout (timeoutMessage budgetMs) s.line)
    | command =>
      match command.change bindings last context with
      | .error message => at_ (Flight.faultAt .runtime message s.line)
      | .ok c => (of budgetMs context c.bindings c.value rest).after c.line.toList 0

end Ending

/-! ## What is still to come -/

/-- The statements a machine still has before it; of a sleep that has begun, what is left. -/
def Machine.remaining (m : Machine) : List Statement :=
  match m.program.drop m.position, m.sleepLeft with
  | ⟨line, .sleep _⟩ :: rest, some left => ⟨line, .sleep left⟩ :: rest
  | statements, _ => statements

/-- The ending of a machine. -/
def Machine.ending (budgetMs : Nat) (context : Context) (m : Machine) : Ending :=
  .of budgetMs context m.bindings m.lastValue m.remaining

/-- The ending of a script's text. -/
@[irreducible] def sourceEnding (budgetMs : Nat) (context : Context) (text : String) : Ending :=
  match parse text with
  | .error e => .at_ (.failed [e.fault])
  | .ok program => ({ program := program } : Machine).ending budgetMs context

/-- The ending of a result: of a suspended run, that of the machine it is taken up with. -/
def resultEnding (budgetMs : Nat) (context : Context) : RunResult Machine → Ending
  | .suspended machine _ => machine.ending budgetMs context
  | result => .at_ result

/-- The ending of a flight at a time, which may be in the middle of a slice of a sleep. -/
def Flight.ending (now : Nat) (f : Flight) : Ending :=
  match f.waiting with
  | .slice since left =>
    { f.machine with sleepLeft := some (left - (now - since)) }.ending f.options.budgetMs f.context
  | _ => f.machine.ending f.options.budgetMs f.context

/-! ## The ending, statement by statement -/

namespace Machine

variable {m : Machine} {s : Statement} {budgetMs : Nat} {context : Context}

theorem drop_of_current (current : m.program[m.position]? = some s) :
    m.program.drop m.position = s :: m.program.drop (m.position + 1) := by
  obtain ⟨inside, found⟩ := List.getElem?_eq_some_iff.1 current
  rw [List.drop_eq_getElem_cons inside, found]

theorem remaining_of_fresh (fresh : m.sleepLeft = none) : m.remaining = m.program.drop m.position := by
  unfold remaining
  rw [fresh]
  cases m.program.drop m.position with
  | nil => rfl
  | cons s rest =>
    obtain ⟨line, command⟩ := s
    cases command <;> rfl

@[simp] theorem ending_advanced :
    m.advanced.ending budgetMs context =
      .of budgetMs context m.bindings m.lastValue (m.program.drop (m.position + 1)) := by
  unfold ending
  rw [remaining_of_fresh rfl]
  rfl

@[simp] theorem ending_changed (c : Change) :
    (m.changed c).ending budgetMs context =
      .of budgetMs context c.bindings c.value (m.program.drop (m.position + 1)) := by
  unfold changed
  rw [ending_advanced]

theorem ending_finished (none_left : m.program[m.position]? = none) :
    m.ending budgetMs context = .at_ (.finished m.lastValue) := by
  have empty : m.program.drop m.position = [] := List.drop_eq_nil_of_le (List.getElem?_eq_none_iff.1 none_left)
  unfold ending remaining
  rw [empty]
  rfl

/-- What is left of a sleep is slept. -/
theorem ending_sleep {ms : Nat} (current : m.program[m.position]? = some s) (sleeps : s.command = .sleep ms) :
    m.ending budgetMs context = (m.advanced.ending budgetMs context).after [] (m.sleepLeft.getD ms) := by
  rw [ending_advanced]
  unfold ending remaining
  rw [drop_of_current current]
  obtain ⟨line, command⟩ := s
  subst sleeps
  cases m.sleepLeft <;> rfl

theorem ending_left {ms : Nat} (current : m.program[m.position]? = some s) (sleeps : s.command = .sleep ms)
    (left : Nat) :
    ({ m with sleepLeft := some left } : Machine).ending budgetMs context =
      (m.advanced.ending budgetMs context).after [] left :=
  ending_sleep (m := { m with sleepLeft := some left }) current sleeps

/-- The statement of a machine that does not sleep is not changed by what was left of a sleep. -/
theorem remaining_awake (current : m.program[m.position]? = some s) (awake : ∀ ms, s.command ≠ .sleep ms) :
    m.remaining = s :: m.program.drop (m.position + 1) := by
  unfold remaining
  rw [drop_of_current current]
  obtain ⟨line, command⟩ := s
  cases command with
  | sleep ms => exact absurd rfl (awake ms)
  | _ => rfl

theorem ending_spin (current : m.program[m.position]? = some s) (spins : s.command = .spin) :
    m.ending budgetMs context = .at_ (Flight.faultAt .timeout (timeoutMessage budgetMs) s.line) := by
  unfold ending
  rw [remaining_awake current (by simp [spins])]
  simp only [Ending.of, spins]

/-- A command that takes no time either fails or makes its change. -/
theorem ending_command (current : m.program[m.position]? = some s) (awake : ∀ ms, s.command ≠ .sleep ms)
    (still : s.command ≠ .spin) :
    m.ending budgetMs context =
      match s.command.change m.bindings m.lastValue context with
      | .error message => .at_ (Flight.faultAt .runtime message s.line)
      | .ok c => ((m.changed c).ending budgetMs context).after c.line.toList 0 := by
  simp only [ending_changed]
  unfold ending
  rw [remaining_awake current awake]
  obtain ⟨line, command⟩ := s
  cases command with
  | sleep ms => exact absurd rfl (awake ms)
  | spin => exact absurd rfl still
  | _ => rfl

end Machine

end Workbench.Script
