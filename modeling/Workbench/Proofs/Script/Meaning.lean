/-
What a script means, said without a machine and without a clock.

What an expression comes to is a relation with one rule for each way it can come out
(`Expr.Yields`). What a program means is a fold over its statements (`meaning`): each
adds to what the ones before it have come to, until one fails or spins; what stands
behind it does not count. A machine that is run with its breakpoints off brings just
that, at any pace: the lines, the result, and the time at which it ends, which is the time
of all its sleeps, and for a spin one millisecond more than it is given
(`runs_as_meant`).
-/
import Workbench.Proofs.Script.Account
import Workbench.Proofs.Script.Number
import Workbench.Proofs.Script.Transparency

namespace Workbench.Script

/-! ## Expressions -/

/-- What an expression comes to: its value, or the first error in it from left to right. -/
inductive Expr.Yields (bindings : List (String × Json)) (context : Context) : Expr → Except EvalError Json → Prop
  | number (x : Float) : Yields bindings context (.number x) (.ok (numberValue x))
  | text (s : String) : Yields bindings context (.text s) (.ok (.str s))
  | bool (b : Bool) : Yields bindings context (.bool b) (.ok (.bool b))
  | bound {n : String} {v : Json} (found : Json.lookup n bindings = some v) :
    Yields bindings context (.name n) (.ok v)
  | global {n : String} {v : Json} (unbound : Json.lookup n bindings = none) (found : context.global? n = some v) :
    Yields bindings context (.name n) (.ok v)
  | constant {n : String} {v : Json} (unbound : Json.lookup n bindings = none) (no_global : context.global? n = none)
    (found : constant? n = some v) : Yields bindings context (.name n) (.ok v)
  | symbol {n : String} (unbound : Json.lookup n bindings = none) (no_global : context.global? n = none)
    (no_constant : constant? n = none) (shown : context.hasSymbol n = true) :
    Yields bindings context (.name n) (.ok (.str ("<function " ++ n ++ ">")))
  | undeclared {n : String} (unbound : Json.lookup n bindings = none) (no_global : context.global? n = none)
    (no_constant : constant? n = none) (hidden : context.hasSymbol n = false) :
    Yields bindings context (.name n) (.error (.undeclared n))
  | sum {l r : Expr} {a b : Json} {x y : Float} (left : Yields bindings context l (.ok a))
    (right : Yields bindings context r (.ok b)) (first : asDouble? a = some x) (second : asDouble? b = some y) :
    Yields bindings context (.add l r) (.ok (numberValue (x + y)))
  | joined {l r : Expr} {a b : Json} (left : Yields bindings context l (.ok a))
    (right : Yields bindings context r (.ok b)) (text : isText a = true ∨ isText b = true) :
    Yields bindings context (.add l r) (.ok (.str (displayed a ++ displayed b)))
  | illTyped {l r : Expr} {a b : Json} (left : Yields bindings context l (.ok a))
    (right : Yields bindings context r (.ok b)) (no_sum : asDouble? a = none ∨ asDouble? b = none)
    (no_text : isText a = false ∧ isText b = false) : Yields bindings context (.add l r) (.error (.illTyped a))
  | left {l r : Expr} {e : EvalError} (fails : Yields bindings context l (.error e)) :
    Yields bindings context (.add l r) (.error e)
  | right {l r : Expr} {a : Json} {e : EvalError} (left : Yields bindings context l (.ok a))
    (fails : Yields bindings context r (.error e)) : Yields bindings context (.add l r) (.error e)

/-- A text is no number. -/
theorem asDouble?_of_isText {v : Json} (text : isText v = true) : asDouble? v = none := by
  cases v with
  | str s => rfl
  | _ => cases text

section

variable {bindings : List (String × Json)} {context : Context} {e : Expr} {result : Except EvalError Json}

theorem plus_of_text {a b : Json} (text : isText a = true ∨ isText b = true) :
    plus a b = .ok (.str (displayed a ++ displayed b)) := by
  unfold plus
  split
  · next x y first second =>
    rcases text with text | text
    · cases (asDouble?_of_isText text).symm.trans first
    · cases (asDouble?_of_isText text).symm.trans second
  · rw [if_pos (by simpa using text)]

theorem plus_of_illTyped {a b : Json} (no_sum : asDouble? a = none ∨ asDouble? b = none)
    (no_text : isText a = false ∧ isText b = false) : plus a b = .error (.illTyped a) := by
  unfold plus
  split
  · next x y first second => simp [first, second] at no_sum
  · rw [if_neg (by simp [no_text])]

theorem Expr.Yields.eval (yields : e.Yields bindings context result) : e.eval bindings context = result := by
  induction yields with
  | number | text | bool => rfl
  | bound found => simp [Expr.eval, valueOf, found]
  | global unbound found => simp [Expr.eval, valueOf, unbound, found]
  | constant unbound no_global found => simp [Expr.eval, valueOf, unbound, no_global, found]
  | symbol unbound no_global no_constant shown => simp [Expr.eval, valueOf, unbound, no_global, no_constant, shown]
  | undeclared unbound no_global no_constant hidden =>
    simp [Expr.eval, valueOf, unbound, no_global, no_constant, hidden]
  | sum left right first second ihl ihr => simp [Expr.eval, ihl, ihr, plus, first, second]
  | joined left right text ihl ihr => simp only [Expr.eval, ihl, ihr, plus_of_text text]
  | illTyped left right no_sum no_text ihl ihr => simp only [Expr.eval, ihl, ihr, plus_of_illTyped no_sum no_text]
  | left fails ih => simp [Expr.eval, ih]
  | right left fails ihl ihr => simp [Expr.eval, ihl, ihr]

theorem yields_plus {l r : Expr} {a b : Json} (left : l.Yields bindings context (.ok a))
    (right : r.Yields bindings context (.ok b)) : (Expr.add l r).Yields bindings context (plus a b) := by
  unfold plus
  split
  · next x y first second => exact .sum left right first second
  · next no_sum =>
    split
    · next text => exact .joined left right (by simpa using text)
    · next no_text =>
      refine .illTyped left right ?_ (by simpa using no_text)
      cases first : asDouble? a with
      | none => exact .inl rfl
      | some x =>
        cases second : asDouble? b with
        | none => exact .inr rfl
        | some y => exact (no_sum x y first second).elim

theorem Expr.yields_eval (bindings : List (String × Json)) (context : Context) (e : Expr) :
    e.Yields bindings context (e.eval bindings context) := by
  induction e with
  | number x => exact .number x
  | text s => exact .text s
  | bool b => exact .bool b
  | name n =>
    simp only [eval, valueOf]
    cases unbound : Json.lookup n bindings with
    | some v => exact .bound unbound
    | none =>
      cases no_global : context.global? n with
      | some v => exact .global unbound no_global
      | none =>
        cases no_constant : constant? n with
        | some v => exact .constant unbound no_global no_constant
        | none =>
          cases shown : context.hasSymbol n with
          | true => exact .symbol unbound no_global no_constant shown
          | false => exact .undeclared unbound no_global no_constant shown
  | add l r left right =>
    simp only [eval]
    cases first : l.eval bindings context with
    | error err => exact .left (first ▸ left)
    | ok a =>
      cases second : r.eval bindings context with
      | error err => exact .right (first ▸ left) (second ▸ right)
      | ok b => exact yields_plus (first ▸ left) (second ▸ right)

/-- An expression is evaluated as the rules say, and by the rules it comes to nothing else. -/
theorem Expr.eval_eq_iff : e.eval bindings context = result ↔ e.Yields bindings context result :=
  ⟨fun same => same ▸ e.yields_eval bindings context, Yields.eval⟩

end

/-! ## Programs -/

/-- How a program ends in front of its end. -/
inductive Close where
  | fails (message : String) (line : Int32)
  | spins (line : Int32)

/-- What the statements of a program have come to. -/
structure Meaning where
  bindings : List (String × Json) := []
  last : Json := .null
  /-- what was displayed -/
  lines : List String := []
  /-- for how many milliseconds it was slept -/
  slept : Nat := 0
  /-- how it ended, if it did -/
  close : Option Close := none

namespace Meaning

/-- On with the value of an expression, or the end with its error. -/
def valued (m : Meaning) (context : Context) (line : Int32) (e : Expr) (goOn : Json → Meaning) : Meaning :=
  match e.eval m.bindings context with
  | .ok v => goOn v
  | .error err => { m with close := some (.fails err.message line) }

/-- One statement more. -/
def add (context : Context) (m : Meaning) (s : Statement) : Meaning :=
  match m.close with
  | some _ => m
  | none =>
    match s.command with
    | .bind name e =>
      m.valued context s.line e fun v => { m with bindings := Json.insertMember name v m.bindings, last := .null }
    | .display e => m.valued context s.line e fun v => { m with lines := m.lines ++ [displayed v], last := v }
    | .value e => m.valued context s.line e fun v => { m with last := v }
    | .sleep ms => { m with slept := m.slept + ms }
    | .fail message => { m with close := some (.fails message s.line) }
    | .spin => { m with close := some (.spins s.line) }

/-- The result of a program that means this. -/
def result (budgetMs : Nat) (m : Meaning) : RunResult Machine :=
  match m.close with
  | none => .finished m.last
  | some (.fails message line) => .failed [⟨.runtime, message, .line line⟩]
  | some (.spins line) => .failed [⟨.timeout, timeoutMessage budgetMs, .line line⟩]

/-- How long a program spins that means this, in milliseconds: until it has used up more than it is given. -/
def spun (budgetMs : Nat) (m : Meaning) : Nat :=
  match m.close with
  | some (.spins _) => budgetMs + 1
  | _ => 0

/-- How a program comes out that means this. -/
def ending (budgetMs : Nat) (m : Meaning) : Ending := ⟨m.lines, m.slept, m.result budgetMs⟩

end Meaning

/-- What a program means. -/
def meaning (context : Context) (program : List Statement) : Meaning := program.foldl (Meaning.add context) {}

namespace Meaning

variable {context : Context} {budgetMs : Nat} {m : Meaning} {program : List Statement}

/-- Behind the end nothing counts. -/
theorem foldl_closed {close : Close} (closed : m.close = some close) : program.foldl (add context) m = m := by
  induction program with
  | nil => rfl
  | cons s rest ih =>
    have same : m.add context s = m := by simp [add, closed]
    rw [List.foldl_cons, same, ih]

theorem ending_fails {line : Int32} {message : String} :
    (program.foldl (add context) { m with close := some (.fails message line) }).ending budgetMs =
      (Ending.at_ (Flight.faultAt .runtime message line)).after m.lines m.slept := by
  rw [foldl_closed rfl]
  simp [ending, result, Ending.after, Ending.at_, Flight.faultAt]

/-- What some statements have come to, and what is still to come from the others, is what all of them mean. -/
theorem ending_foldl (is_open : m.close = none) :
    (program.foldl (add context) m).ending budgetMs =
      (Ending.of budgetMs context m.bindings m.last program).after m.lines m.slept := by
  induction program generalizing m with
  | nil => simp [ending, result, is_open, Ending.of, Ending.after, Ending.at_]
  | cons s rest ih =>
    obtain ⟨line, command⟩ := s
    rw [List.foldl_cons]
    cases command with
    | bind name e | display e | value e =>
      simp only [add, is_open, valued, Ending.of, Command.change]
      cases e.eval m.bindings context with
      | error err => exact ending_fails
      | ok v =>
        rw [ih rfl]
        simp
    | sleep ms =>
      simp only [add, is_open, Ending.of]
      rw [ih rfl]
      simp
    | fail message =>
      simp only [add, is_open, Ending.of, Command.change]
      exact ending_fails
    | spin =>
      simp only [add, is_open, Ending.of]
      rw [foldl_closed rfl]
      simp [ending, result, Ending.after, Ending.at_, Flight.faultAt]

end Meaning

/-- A machine at the beginning of its program has all before it that the program means. -/
theorem Machine.ending_eq_meaning (program : List Statement) (budgetMs : Nat) (context : Context) :
    ({ program := program } : Machine).ending budgetMs context = (meaning context program).ending budgetMs := by
  rw [meaning, Meaning.ending_foldl rfl, Ending.after_nil, Machine.ending, remaining_of_fresh rfl]
  rfl

/-! ## The time at which a script on its own ends -/

/-- How long a run has spun that comes out so, in milliseconds. -/
def spunOf (budgetMs : Nat) : RunResult Machine → Nat
  | .failed [⟨.timeout, _, _⟩] => budgetMs + 1
  | _ => 0

namespace Flight

variable {now : Nat} {f : Flight}

/-- The time up to which the flight has slept all the time. -/
def restedUntil (now : Nat) (f : Flight) : Nat :=
  match f.waiting with
  | .slice since _ => f.started + f.slept + (now - since)
  | _ => f.started + f.slept

/-- A flight that has not spun on when it was over its time. -/
def Brisk (now : Nat) (f : Flight) : Prop :=
  match f.waiting with
  | .turn => f.started + f.slept = now
  | .slice _ _ => True
  | .tick time => time ≤ f.started + f.slept + f.options.budgetMs + 1

/-- What a poll answers of a flight that has slept up to a time: it has ended just then, or when it had spun its
time besides; or it is under way and has slept no more and no less. -/
inductive Keeps (now rested budgetMs : Nat) : List String × Polled Run Machine → Prop
  | ended {lines : List String} {result : RunResult Machine} (time : now = rested + spunOf budgetMs result) :
    Keeps now rested budgetMs (lines, .ended result)
  | pending {lines : List String} {next : Flight} {wake : Wake} (rested_eq : next.restedUntil now = rested)
    (brisk : next.Brisk now) : Keeps now rested budgetMs (lines, .pending (.flying next) wake)

theorem Keeps.after {rested budgetMs : Nat} {lines : List String} {polled : Polled Run Machine}
    (keeps : Keeps now rested budgetMs (lines, polled)) (written : List String) :
    Keeps now rested budgetMs (written ++ lines, polled) := by
  cases keeps with
  | ended time => exact .ended time
  | pending rested_eq brisk => exact .pending rested_eq brisk

/-- Between two statements all time was slept, unless the flight spins, and then not longer than until it is over
its time. -/
def OnTime (now : Nat) (f : Flight) : Prop :=
  f.started + f.slept = now ∨
    f.machine.Spins ∧ f.started + f.slept ≤ now ∧ now ≤ f.started + f.slept + f.options.budgetMs + 1

theorem OnTime.slept {s : Statement} (on_time : f.OnTime now)
    (current : f.machine.program[f.machine.position]? = some s) (still : s.command ≠ .spin) :
    f.started + f.slept = now := by
  rcases on_time with slept | ⟨⟨_, same, spins⟩, -⟩
  · exact slept
  · cases current.symm.trans same
    exact absurd spins still

theorem proceed_keeps_time {spare : Nat} (unbroken : f.options.Unbroken) (on_time : f.OnTime now) :
    Keeps now (f.started + f.slept) f.options.budgetMs (f.proceed now {} spare) := by
  fun_induction proceed now {} spare f with
  | case1 spare f cancelled => cases cancelled
  | case2 spare f _ paused => cases paused
  | case3 spare f _ _ done =>
    rcases on_time with slept | ⟨⟨s, current, -⟩, -⟩
    · exact .ended slept.symm
    · cases done.symm.trans current
  | case4 spare f _ _ s current elapsed =>
    refine .ended ?_
    show now = f.started + f.slept + (f.options.budgetMs + 1)
    unfold used at elapsed
    rcases on_time with slept | ⟨-, -, in_time⟩ <;> omega
  | case5 spare f _ _ s _ _ stops => cases (stopsAt_unbroken unbroken s).symm.trans stops
  | case6 spare f _ _ s current _ _ ms sleeps left nothing ih =>
    exact ih unbroken (.inl (on_time.slept current (by simp [sleeps])))
  | case7 spare f _ _ s current _ _ ms sleeps left more =>
    refine .pending ?_ trivial
    simp [restedUntil]
  | case8 spare f _ _ s current within _ spins =>
    refine .pending rfl ?_
    simp only [Brisk]
    unfold used at within
    unfold spinTick
    rcases on_time with slept | ⟨-, -, in_time⟩ <;> omega
  | case9 spare f _ _ s current _ _ message awake still failed => exact .ended (on_time.slept current still).symm
  | case10 spare f _ _ s current _ _ c written next pacing awake still changed =>
    exact .pending rfl (on_time.slept current still)
  | case11 spare f _ _ s current _ _ c written pacing more polled rest awake still changed ih =>
    rw [rest] at ih
    exact (ih unbroken (.inl (on_time.slept current still))).after written

theorem poll_keeps_time (unbroken : f.options.Unbroken) (timely : f.Timely now) (brisk : f.Brisk now) :
    Keeps now (f.restedUntil now) f.options.budgetMs (f.poll now {}) := by
  by_cases due : f.Due now false
  case neg =>
    rw [poll_early rfl due]
    exact .pending rfl brisk
  unfold Timely at timely
  unfold Brisk at brisk
  unfold Due at due
  unfold restedUntil poll
  cases waiting : f.waiting with
  | turn =>
    simp only [waiting] at brisk
    exact proceed_keeps_time unbroken (.inl brisk)
  | slice since left =>
    simp only [waiting] at timely due ⊢
    obtain ⟨-, slept, since_le, in_time⟩ := timely
    rw [if_pos (.inl (by simpa using due))]
    have rested : (f.awake now since left).started + (f.awake now since left).slept =
        f.started + f.slept + (now - since) := by
      simp only [awake]
      omega
    rw [← rested]
    refine proceed_keeps_time (f := f.awake now since left) unbroken (.inl ?_)
    omega
  | tick time =>
    simp only [waiting] at timely brisk due ⊢
    obtain ⟨spins, slept, in_time⟩ := timely
    rw [if_pos due]
    refine proceed_keeps_time (f := { f with waiting := .turn }) unbroken (.inr ⟨spins, ?_, ?_⟩)
    · show f.started + f.slept ≤ now
      omega
    · exact Nat.le_trans in_time brisk

/-- As time passes, a flight that sleeps goes on sleeping. -/
theorem Timely.rested {later : Nat} (timely : f.Timely now) (in_time : f.waiting.wake.Admits now later) :
    f.restedUntil later = f.restedUntil now + f.slumber now later := by
  unfold Timely at timely
  unfold restedUntil slumber
  cases waiting : f.waiting with
  | turn | tick time => rfl
  | slice since left =>
    simp only [waiting, Waiting.wake, Wake.Admits] at timely in_time ⊢
    omega

theorem Brisk.later {later : Nat} (brisk : f.Brisk now) (in_time : f.waiting.wake.Admits now later) :
    f.Brisk later := by
  unfold Brisk at *
  cases waiting : f.waiting with
  | turn =>
    rw [waiting] at brisk in_time
    exact brisk.trans in_time
  | slice since left => trivial
  | tick time =>
    rw [waiting] at brisk
    exact brisk

end Flight

namespace Run

variable {now time polls : Nat} {r : Run} {lines : List String} {result : RunResult Machine}

/-- The time up to which the run has slept all the time. -/
def restedUntil (now : Nat) : Run → Nat
  | .flying f => f.restedUntil now
  | _ => now

/-- A run that has not spun on when it was over its time. -/
def Brisk (now : Nat) : Run → Prop
  | .flying f => f.Brisk now
  | _ => True

/-- The time at which the run ends if it is left alone. -/
def endsAt (now : Nat) (r : Run) : Nat :=
  r.restedUntil now + (r.ending now).slept + spunOf r.options.budgetMs (r.ending now).result

theorem begin_keeps {machine : Machine} {context : Context} {options : RunOptions} (unbroken : options.Unbroken) :
    Flight.Keeps now now options.budgetMs
      (({ machine := machine, context := context, options := options, started := now } : Flight).proceed now {}
        Wake.allowance) :=
  Flight.proceed_keeps_time (f := { machine := machine, context := context, options := options, started := now }) unbroken
    (.inl (Nat.add_zero now))

theorem poll_keeps_time (unbroken : r.options.Unbroken) (timely : r.Timely now) (brisk : r.Brisk now) :
    Flight.Keeps now (r.restedUntil now) r.options.budgetMs (r.poll now {}) := by
  cases r with
  | ofSource source context options =>
    unfold Run.poll
    dsimp only
    cases parse source with
    | error e => exact .ended rfl
    | ok program => exact begin_keeps unbroken
  | ofMachine machine context options => exact begin_keeps unbroken
  | flying f => exact Flight.poll_keeps_time unbroken timely brisk

/-- A flight that is looked after when it wants to be ends at the time at which it was going to end. -/
theorem endsAt_later {f : Flight} {later : Nat} (timely : f.Timely now)
    (in_time : f.waiting.wake.Admits now later) : (Run.flying f).endsAt later = (Run.flying f).endsAt now := by
  obtain ⟨-, passing⟩ := timely.later in_time
  have rested := timely.rested in_time
  simp only [endsAt, restedUntil, ending, options, passing, rested, Ending.after]
  omega

/-- A run that is polled when it wants to be ends when it was going to end. -/
theorem solo_time (unbroken : r.options.Unbroken) (timely : r.Timely now) (brisk : r.Brisk now)
    (solo : engine.solo polls r now {} {} = (lines, some (result, time))) :
    time = r.endsAt now := by
  induction polls generalizing r now lines with
  | zero => cases solo
  | succ polls ih =>
    have leads := poll_leads (rfl : ({} : Tokens).cancelled = false) timely
    have keeps := poll_keeps_time unbroken timely brisk
    rcases polled : r.poll now {} with ⟨first, result | ⟨next, wake⟩⟩
    · rw [polled] at leads keeps
      have ended : engine.solo (polls + 1) r now {} {} = (first, some (result, now)) := engine.solo_ended polled
      cases ended.symm.trans solo
      cases leads with
      | ended same whole =>
        cases keeps with
        | ended rested =>
          rw [resultEnding_final (whole rfl unbroken)] at same
          rw [endsAt, same]
          exact rested
    · rw [polled] at leads keeps
      cases leads with
      | @pending _ f _ same still options_eq _ asks =>
        cases keeps with
        | pending rested still_brisk =>
          obtain ⟨later, in_time, -, wakes⟩ := Flight.next_poll still asks
          have in_time := still.admits asks in_time
          rcases more : engine.solo polls (.flying f) later {} {} with ⟨rest, last⟩
          have waited : engine.solo (polls + 1) r now {} {} = (first ++ rest, last) :=
            engine.solo_waited polled wakes more
          cases waited.symm.trans solo
          have unbroken : f.options.Unbroken := options_eq ▸ unbroken
          have ends := ih (r := .flying f) unbroken (still.later in_time).1 (still_brisk.later in_time) more
          rw [ends, endsAt_later still in_time, endsAt, endsAt, same]
          show f.restedUntil now + (f.ending now).slept + spunOf f.options.budgetMs (f.ending now).result =
            r.restedUntil now + (0 + (f.ending now).slept) + spunOf r.options.budgetMs (f.ending now).result
          rw [rested, options_eq, Nat.zero_add]

end Run

/-! ## Runs -/

/-- A program that does not spin is not over its time. -/
theorem Meaning.in_time {m : Meaning} (unspun : ∀ line, m.close ≠ some (.spins line)) (budgetMs : Nat) :
    ¬ OutOfTime (m.result budgetMs) ∧ m.spun budgetMs = 0 := by
  unfold result spun
  cases closed : m.close with
  | none => exact ⟨nofun, rfl⟩
  | some close =>
    cases close with
    | fails message line => exact ⟨nofun, rfl⟩
    | spins line => exact absurd closed (unspun line)

theorem Meaning.spunOf_result (budgetMs : Nat) (m : Meaning) : spunOf budgetMs (m.result budgetMs) = m.spun budgetMs := by
  unfold result spun
  cases m.close with
  | none => rfl
  | some close => cases close <;> rfl

/-- A machine whose breakpoints are off brings on each ride what its program means. -/
theorem Ride.meant {askable : Bool} {program : List Statement} {context : Context} {options : RunOptions}
    {now slept : Nat} {lines : List String} {result : RunResult Machine}
    (ride : Ride askable (.ofMachine { program := program } context options) now lines slept result)
    (final : result.Final) :
    lines = (meaning context program).lines ∧ slept = (meaning context program).slept ∧
      result = (meaning context program).result options.budgetMs := by
  have whole : ({ program := program } : Machine).ending options.budgetMs context = _ := ride.ending trivial
  rw [Machine.ending_eq_meaning] at whole
  have alone : resultEnding options.budgetMs context result = .at_ result := resultEnding_final final
  change Meaning.ending _ _ = (resultEnding options.budgetMs context result).after lines slept at whole
  rw [alone] at whole
  simpa [Meaning.ending, Ending.after, Ending.at_, eq_comm] using whole

/-- A machine that is run with its breakpoints off comes to its end, at any pace, and brings just what its program
means: the same lines and the same result, when it has slept as long as the program says; only for a spin it takes a
millisecond more than it is given. It is not over its time unless there is a spin on its way. What the expressions
come to on the way is given by their rules. -/
theorem runs_as_meant (program : List Statement) (context : Context) (options : RunOptions)
    (off : options.debuggerOn = false) (now : Nat) :
    let meant := meaning context program
    engine.runSolo (.ofMachine { program := program } context options) now {} =
        (meant.lines,
          some (meant.result options.budgetMs, now + meant.slept + meant.spun options.budgetMs)) ∧
      ((∀ line, meant.close ≠ some (.spins line)) →
        ¬ OutOfTime (meant.result options.budgetMs) ∧ meant.spun options.budgetMs = 0) ∧
      ∀ bindings e result, e.eval bindings context = result ↔ Expr.Yields bindings context e result := by
  intro meant
  refine ⟨?_, fun unspun => meant.in_time unspun options.budgetMs, fun bindings e result => e.eval_eq_iff⟩
  have unbroken : options.Unbroken := .inl off
  let r : Run := .ofMachine { program := program } context options
  have begins : ∀ f, r ≠ .flying f := nofun
  obtain ⟨lines, slept, result, time, solo, ride⟩ := Run.runSolo_ride begins now
  obtain ⟨rfl, rfl, rfl⟩ := ride.meant (ride.final rfl trivial unbroken)
  have own : r.ending now = meant.ending options.budgetMs := Machine.ending_eq_meaning program _ context
  have ends : time = r.endsAt now := Run.solo_time unbroken trivial trivial solo
  rw [Run.endsAt, own] at ends
  rw [solo, ends, ← Meaning.spunOf_result]
  rfl

/-- A script that joins two texts behind a sleep of the greatest length, adds two numbers, spins, and would fail. -/
def lullaby : List Statement :=
  [⟨1, .bind "x" (.text "a")⟩, ⟨2, .sleep 18446744073709551615⟩, ⟨3, .display (.add (.name "x") (.text "b"))⟩,
    ⟨4, .display (.add (.number (Decimal.ofInt 1)) (.number (Decimal.ofInt 2)))⟩, ⟨5, .spin⟩, ⟨6, .fail "not reached"⟩]

/-- Without any time of its own it sleeps on, and is over its time a millisecond after the spin began. -/
theorem runs_as_meant_of_lullaby :
    engine.runSolo (.ofMachine { program := lullaby } (engine.makeContext { chapter := 1 }) { budgetMs := 0 }) 7 {} =
      (["ab", "3"], some (.failed [⟨.timeout, timeoutMessage 0, .line 5⟩], 7 + 18446744073709551615 + 1)) := by
  have sum (bindings : List (String × Json)) (context : Context) :
      (Expr.add (.number (Decimal.ofInt 1)) (.number (Decimal.ofInt 2))).eval bindings context = .ok (.int 3) :=
    Expr.eval_sum (Expr.eval_whole (by decide)) (Expr.eval_whole (by decide)) (by decide) (by decide) (by decide)
  have runs := (runs_as_meant lullaby (engine.makeContext { chapter := 1 }) { budgetMs := 0 } rfl 7).1
  have meant : meaning (engine.makeContext { chapter := 1 }) lullaby =
      { bindings := [("x", .str "a")], last := .int 3, lines := ["ab", "3"], slept := 18446744073709551615,
        close := some (.spins 5) } := by
    simp only [meaning, lullaby, List.foldl_cons, List.foldl_nil, Meaning.add, Meaning.valued, sum]
    rfl
  rw [meant] at runs
  exact runs

end Workbench.Script
