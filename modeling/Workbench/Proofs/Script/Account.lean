/-
What a script has still to tell, whether it is looked after in time or late.

How long a script sleeps is left out of its account: what remains are the lines it
writes and its result. Whenever a script is polled that meets no breakpoint and is asked
for nothing, what it answers is the beginning of that account (`Run.poll_accounts`). Only
a script that is polled too late may be out of time before it comes to the end of it.
-/
import Workbench.Proofs.Script.Stop

namespace Workbench.Script

/-! ## Accounts -/

/-- What a run tells: its lines and its result. -/
structure Account where
  lines : List String
  result : RunResult Machine

/-- An account after lines that were told before. -/
def Account.after (a : Account) (lines : List String) : Account := { a with lines := lines ++ a.lines }

@[simp] theorem Account.after_nil (a : Account) : a.after [] = a := rfl

@[simp] theorem Account.after_after (a : Account) (first second : List String) :
    (a.after second).after first = a.after (first ++ second) := by
  simp [after]

/-- What an ending tells. How long is slept does not matter. -/
def Ending.account (e : Ending) : Account := ⟨e.lines, e.result⟩

@[simp] theorem Ending.account_after (e : Ending) (lines : List String) (slept : Nat) :
    (e.after lines slept).account = e.account.after lines := rfl

@[simp] theorem Ending.account_at (result : RunResult Machine) : (Ending.at_ result).account = ⟨[], result⟩ := rfl

/-- Whether a run was over its time. -/
def OutOfTime (result : RunResult Machine) : Prop := ∃ message line, result = Flight.faultAt .timeout message line

/-- How long is left of a sleep does not matter. -/
theorem Machine.account_left (m : Machine) (left : Option Nat) (budgetMs : Nat) (context : Context) :
    ({ m with sleepLeft := left }.ending budgetMs context).account = (m.ending budgetMs context).account := by
  cases current : m.program[m.position]? with
  | none => rw [ending_finished (m := { m with sleepLeft := left }) current, ending_finished current]
  | some s =>
    by_cases sleeps : ∃ ms, s.command = .sleep ms
    · obtain ⟨ms, sleeps⟩ := sleeps
      rw [ending_sleep (m := { m with sleepLeft := left }) current sleeps, ending_sleep current sleeps]
      rfl
    · have awake : ∀ ms, s.command ≠ .sleep ms := fun ms asleep => sleeps ⟨ms, asleep⟩
      unfold ending
      rw [remaining_awake (m := { m with sleepLeft := left }) current awake, remaining_awake current awake]

/-! ## Scripts under way -/

namespace Flight

variable {now : Nat} {f : Flight} {timely : Prop}

/-- What a script under way has still to tell. -/
def account (f : Flight) : Account := (f.machine.ending f.options.budgetMs f.context).account

/-- A script under way that meets no breakpoint, and has so much to tell. -/
structure Tells (told : Account) (f : Flight) : Prop where
  account_eq : f.account = told
  unbroken : f.options.Unbroken
  asleep : ∀ since left, f.waiting = .slice since left →
    ∃ s ms, f.machine.program[f.machine.position]? = some s ∧ s.command = .sleep ms

/-- Who waits for a turn or in a spin has nothing left of a sleep. -/
theorem Tells.of_awake {told : Account} (account : f.account = told) (unbroken : f.options.Unbroken)
    (awake : f.waiting = .turn ∨ ∃ time, f.waiting = .tick time) : f.Tells told := by
  refine ⟨account, unbroken, fun since left asleep => ?_⟩
  rcases awake with turn | ⟨time, spin⟩
  · cases turn.symm.trans asleep
  · cases spin.symm.trans asleep

/-- What a poll answers when an account is to be told: all of it, or its beginning. A script that was polled too
late may be out of time instead. -/
inductive Accounts (timely : Prop) (now : Nat) (told : Account) : List String × Polled Run Machine → Prop
  | ended {lines : List String} {result : RunResult Machine} (final : result.Final)
    (whole : timely ∨ ¬ OutOfTime result → told = ⟨lines, result⟩) : Accounts timely now told (lines, .ended result)
  | pending {lines : List String} {rest : Account} {next : Flight} {wake : Wake} (tells : next.Tells rest)
    (begun : told = rest.after lines) (prompt : timely → next.Prompt now) (asks : next.Asks wake) :
    Accounts timely now told (lines, .pending (.flying next) wake)

theorem Accounts.after {lines : List String} {polled : Polled Run Machine} {told : Account}
    (accounts : Accounts timely now told (lines, polled)) (written : List String) :
    Accounts timely now (told.after written) (written ++ lines, polled) := by
  cases accounts with
  | ended final whole => exact .ended final fun inTime => by rw [whole inTime]; rfl
  | pending tells begun prompt asks => exact .pending tells (by rw [begun, Account.after_after]) prompt asks

/-- Between two statements all time was slept, unless the script is in a spin. -/
def Steady (now : Nat) (f : Flight) : Prop := f.started + f.slept = now ∨ f.machine.Spins

theorem Steady.slept {s : Statement} (steady : f.Steady now)
    (current : f.machine.program[f.machine.position]? = some s) (still : s.command ≠ .spin) :
    f.started + f.slept = now := by
  rcases steady with slept | ⟨_, same, spins⟩
  · exact slept
  · cases current.symm.trans same
    exact absurd spins still

theorem proceed_accounts {spare : Nat} (unbroken : f.options.Unbroken) (steady : timely → f.Steady now) :
    Accounts timely now f.account (f.proceed now {} spare) := by
  fun_induction proceed now {} spare f with
  | case1 spare f cancelled => cases cancelled
  | case2 spare f _ paused => cases paused
  | case3 spare f _ _ done =>
    refine .ended trivial fun _ => ?_
    rw [account, Machine.ending_finished done, Ending.account_at]
  | case4 spare f _ _ s current elapsed =>
    -- only who spins is out of time without having been looked after too late
    refine .ended trivial fun inTime => ?_
    rcases steady (inTime.resolve_right (· ⟨_, _, rfl⟩)) with slept | ⟨_, same, spins⟩
    · unfold used at elapsed
      omega
    · cases current.symm.trans same
      rw [account, Machine.ending_spin current spins, Ending.account_at]
  | case5 spare f _ _ s _ _ stops => cases (stopsAt_unbroken unbroken s).symm.trans stops
  | case6 spare f _ _ s current _ _ ms sleeps left nothing ih =>
    have told : f.account = ({ f with machine := f.machine.advanced, waiting := .turn } : Flight).account := by
      rw [account, Machine.ending_sleep current sleeps]
      rfl
    rw [told]
    exact ih unbroken fun inTime => .inl ((steady inTime).slept current (by simp [sleeps]))
  | case7 spare f _ _ s current _ _ ms sleeps left more =>
    refine .pending ⟨Machine.account_left .., unbroken, ?_⟩ rfl (fun inTime => ?_) (asks_within ..)
    · exact fun _ _ _ => ⟨s, ms, current, sleeps⟩
    · exact ⟨(steady inTime).slept current (by simp [sleeps]), Nat.le_refl _, Nat.le_add_right _ _⟩
  | case8 spare f _ _ s current _ _ spins =>
    exact .pending (.of_awake rfl unbroken (.inr ⟨_, rfl⟩)) rfl (fun _ => ⟨s, current, spins⟩) (asks_within ..)
  | case9 spare f _ _ s current _ _ message awake still failed =>
    refine .ended trivial fun _ => ?_
    rw [account, Machine.ending_command current awake still, failed, Ending.account_at]
  | case10 spare f _ _ s current _ _ c written next pacing awake still changed =>
    have told : f.account = next.account.after written := by
      rw [account, Machine.ending_command current awake still, changed]
      rfl
    exact .pending (.of_awake rfl unbroken (.inl rfl)) told (fun inTime => (steady inTime).slept current still)
      (asks_within ..)
  | case11 spare f _ _ s current _ _ c written pacing more polled rest awake still changed ih =>
    have told : f.account =
        ({ f with machine := f.machine.changed c, waiting := .turn } : Flight).account.after written := by
      rw [account, Machine.ending_command current awake still, changed]
      rfl
    rw [rest] at ih
    rw [told]
    exact (ih unbroken fun inTime => .inl ((steady inTime).slept current still)).after written

/-- What was slept of a slice does not matter either. -/
theorem account_awake {since left : Nat} {s : Statement} {ms : Nat}
    (current : f.machine.program[f.machine.position]? = some s) (sleeps : s.command = .sleep ms) :
    (f.awake now since left).account = f.account := by
  unfold awake
  dsimp only
  split
  · rw [account, account, Machine.ending_sleep (m := f.machine) current sleeps]
    rfl
  · exact Machine.account_left ..

theorem poll_accounts {told : Account} (tells : f.Tells told) (prompt : timely → f.Prompt now) :
    Accounts timely now told (f.poll now {}) := by
  obtain ⟨rfl, unbroken, asleep⟩ := tells
  unfold Prompt at prompt
  unfold poll
  split <;> rename_i waiting <;> simp only [waiting] at prompt ⊢
  · exact proceed_accounts unbroken fun inTime => .inl (prompt inTime)
  · next since left =>
    split
    · obtain ⟨s, ms, current, sleeps⟩ := asleep since left waiting
      rw [← account_awake current sleeps]
      refine proceed_accounts unbroken fun inTime => .inl ?_
      obtain ⟨slept, began, late⟩ := prompt inTime
      simp only [Flight.awake]
      omega
    · exact .pending ⟨rfl, unbroken, asleep⟩ rfl (fun inTime => by simpa only [Prompt, waiting] using prompt inTime)
        (.inl (by rw [waiting]; rfl))
  · next time =>
    split
    · exact proceed_accounts (f := { f with waiting := .turn }) unbroken fun inTime => .inr (prompt inTime)
    · exact .pending ⟨rfl, unbroken, asleep⟩ rfl (fun inTime => by simpa only [Prompt, waiting] using prompt inTime)
        (.inl (by rw [waiting]; rfl))

end Flight

namespace Run

variable {now : Nat} {r : Run} {timely : Prop} {told : Account}

/-- A run that meets no breakpoint, and has so much to tell. -/
def Tells (told : Account) : Run → Prop
  | .ofSource source context options =>
    (sourceEnding options.budgetMs context source).account = told ∧ options.Unbroken
  | .ofMachine machine context options =>
    (machine.ending options.budgetMs context).account = told ∧ options.Unbroken
  | .flying f => f.Tells told

theorem begin_accounts {machine : Machine} {context : Context} {options : RunOptions} (unbroken : options.Unbroken) :
    Flight.Accounts timely now (machine.ending options.budgetMs context).account
      (({ machine := machine, context := context, options := options, started := now } : Flight).proceed now {}
        Wake.allowance) :=
  Flight.proceed_accounts (f := { machine := machine, context := context, options := options, started := now })
    unbroken fun _ => .inl (Nat.add_zero now)

theorem poll_accounts (tells : r.Tells told) (prompt : timely → r.Prompt now) :
    Flight.Accounts timely now told (r.poll now {}) := by
  cases r with
  | ofSource source context options =>
    obtain ⟨rfl, unbroken⟩ := tells
    unfold Run.poll sourceEnding
    dsimp only
    cases parse source with
    | error e => exact .ended trivial fun _ => rfl
    | ok program => exact begin_accounts unbroken
  | ofMachine machine context options =>
    obtain ⟨rfl, unbroken⟩ := tells
    exact begin_accounts unbroken
  | flying f => exact Flight.poll_accounts tells prompt

end Run

end Workbench.Script
