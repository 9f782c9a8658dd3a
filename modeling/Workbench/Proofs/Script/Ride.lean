/-
Rides: a script polled until it ends, whenever it wants to be polled or earlier,
and whatever it is asked meanwhile.

On such a ride the clock moves only while the script sleeps or spins, so a flight
stays timely, and what is still to come from it is at every moment the same
ending, less what has happened so far (`Ride.ending`). A script that is polled
when it wants to be does end (`Run.solo_ride`).
-/
import Workbench.Engine.Solo
import Workbench.Proofs.Script.Ending

namespace Workbench

/-- Whether a result is not a suspension. -/
def RunResult.Final {Snapshot : Type} : RunResult Snapshot → Prop
  | .suspended _ _ => False
  | _ => True

/-- Whether a run meets no breakpoint. -/
def RunOptions.Unbroken (options : RunOptions) : Prop :=
  options.debuggerOn = false ∨ options.breakpoints = .empty

namespace Wake

/-- Whether one who waits for a wake is looked after in time: when it comes, or earlier. -/
def Admits (now later : Nat) : Wake → Prop
  | .soon | .spent => now = later
  | .onTime time => now ≤ later ∧ later ≤ time
  | .never => False

/-- How many polls in vain a wake may bring about. -/
def vain : Wake → Nat
  | .spent => 1
  | _ => 0

theorem vain_within {spare : Nat} {wake : Wake} (none_vain : wake.vain = 0) : (wake.within spare).vain = 1 - spare := by
  unfold within
  split
  · next nothing => rw [nothing]; rfl
  · rw [none_vain]
    omega

end Wake

namespace Engine

variable (E : Engine) {polls now time : Nat} {run next : E.Run} {lines more : List String} {wake : Wake}
  {result : RunResult E.Snapshot} {last : Option (RunResult E.Snapshot × Nat)}

theorem solo_ended (polled : E.poll run now {} = (lines, .ended result)) :
    E.solo (polls + 1) run now {} {} = (lines, some (result, now)) := by
  simp only [solo, polled]

theorem solo_waited (polled : E.poll run now {} = (lines, .pending next wake))
    (wakes : (wake = .soon ∨ wake = .spent) ∧ time = now ∨ wake = .onTime time)
    (rest : E.solo polls next time {} {} = (more, last)) :
    E.solo (polls + 1) run now {} {} = (lines ++ more, last) := by
  have quiet : Requests.next? {} now {} = none := rfl
  have times : Requests.times {} {} = [] := rfl
  rcases wakes with ⟨rfl | rfl, rfl⟩ | rfl <;> simp [solo, polled, quiet, times, rest]

end Engine

namespace Script

/-! ## Timely flights -/

/-- Whether the next statement spins. -/
def Machine.Spins (m : Machine) : Prop := ∃ s, m.program[m.position]? = some s ∧ s.command = .spin

/-- Whether the next statement is a sleep that has begun, with so much left. -/
def Machine.Sleeps (m : Machine) (left : Nat) : Prop :=
  m.sleepLeft = some left ∧ ∃ s ms, m.program[m.position]? = some s ∧ s.command = .sleep ms

/-- What a flight tells its engine to be waiting for. -/
def Waiting.wake : Waiting → Wake
  | .turn => .soon
  | .slice since left => .onTime (since + min left sleepSlice)
  | .tick time => .onTime time

theorem Waiting.wake_vain (w : Waiting) : w.wake.vain = 0 := by cases w <;> rfl

namespace Flight

/-- Between two statements all time that has passed was slept, unless the flight spins. -/
def Punctual (now : Nat) (f : Flight) : Prop :=
  f.started + f.slept = now ∨ f.machine.Spins ∧ f.started + f.slept ≤ now

/-- A flight that was never polled later than it wanted to be. -/
def Timely (now : Nat) (f : Flight) : Prop :=
  match f.waiting with
  | .turn => f.Punctual now
  | .slice since left =>
    f.machine.Sleeps left ∧ f.started + f.slept = since ∧ since ≤ now ∧ now ≤ since + min left sleepSlice
  | .tick time => f.machine.Spins ∧ f.started + f.slept < time ∧ now ≤ time

/-- What a flight that waits may answer: when it wants to be polled again, or that it has left nothing of the turn. -/
def Asks (f : Flight) (wake : Wake) : Prop := wake = f.waiting.wake ∨ wake = .spent

theorem asks_within (f : Flight) (spare : Nat) : f.Asks (f.waiting.wake.within spare) := by
  unfold Asks Wake.within
  split
  · exact .inr rfl
  · exact .inl rfl

/-- How many polls a statement takes at most. -/
def effortOf (budgetMs : Nat) (s : Statement) : Nat :=
  match s.command with
  | .sleep ms => ms + 1
  | .spin => budgetMs + 2
  | _ => 1

/-- How many polls statements take at most, with the last one. -/
def effortsOf (budgetMs : Nat) (statements : List Statement) : Nat :=
  statements.foldr (fun s polls => effortOf budgetMs s + polls) 1

/-- How many polls a flight takes at most, each when it wants to be polled. -/
def effort (f : Flight) : Nat :=
  match f.waiting with
  | .turn => effortsOf f.options.budgetMs f.machine.remaining
  | .slice _ left => left + effortsOf f.options.budgetMs (f.machine.program.drop (f.machine.position + 1))
  | .tick time => effortsOf f.options.budgetMs f.machine.remaining - f.used time

/-- What a poll may answer when an ending is to come and no more than so many polls are needed for it. -/
inductive Leads (now : Nat) (tokens : Tokens) (options : RunOptions) (context : Context) (polls : Nat)
    (ending : Ending) : List String × Polled Run Machine → Prop
  | ended {lines : List String} {result : RunResult Machine}
    (same : ending = (resultEnding options.budgetMs context result).after lines 0)
    (whole : tokens.paused = false → options.Unbroken → result.Final) :
    Leads now tokens options context polls ending (lines, .ended result)
  | pending {lines : List String} {next : Flight} {wake : Wake} (same : ending = (next.ending now).after lines 0)
    (timely : next.Timely now) (options_eq : next.options = options) (context_eq : next.context = context)
    (asks : next.Asks wake) (fewer : next.effort + wake.vain < polls) :
    Leads now tokens options context polls ending (lines, .pending (.flying next) wake)

namespace Leads

variable {now polls : Nat} {tokens : Tokens} {options : RunOptions} {context : Context} {ending : Ending}
  {lines : List String} {polled : Polled Run Machine}

/-- The result that is to come, and nothing before it. -/
theorem done {result : RunResult Machine} (same : ending = resultEnding options.budgetMs context result)
    (whole : tokens.paused = false → options.Unbroken → result.Final) :
    Leads now tokens options context polls ending ([], .ended result) :=
  .ended (by rw [same, Ending.after_nil]) whole

theorem weaken {answer : List String × Polled Run Machine} {more : Nat}
    (leads : Leads now tokens options context polls ending answer) (most : polls ≤ more) :
    Leads now tokens options context more ending answer := by
  cases leads with
  | ended same whole => exact .ended same whole
  | pending same timely options_eq context_eq asks fewer =>
    exact .pending same timely options_eq context_eq asks (Nat.lt_of_lt_of_le fewer most)

theorem after (leads : Leads now tokens options context polls ending (lines, polled)) (written : List String) :
    Leads now tokens options context polls (ending.after written 0) (written ++ lines, polled) := by
  cases leads with
  | ended same whole => exact .ended (by rw [same, Ending.after_after]) whole
  | pending same timely options_eq context_eq asks fewer =>
    exact .pending (by rw [same, Ending.after_after]) timely options_eq context_eq asks fewer

end Leads

theorem stopsAt_unbroken {f : Flight} (unbroken : f.options.Unbroken) (s : Statement) : f.stopsAt s = false := by
  rcases unbroken with off | none_set
  · simp [stopsAt, off]
  · simp [stopsAt, none_set, LineSet.contains, LineSet.empty]

/-- A flight with time used up spins. -/
theorem Punctual.spins {now : Nat} {f : Flight} (punctual : f.Punctual now)
    (elapsed : f.options.budgetMs < f.used now) : f.machine.Spins := by
  rcases punctual with exact_ | ⟨spins, -⟩
  · unfold used at elapsed
    omega
  · exact spins

theorem Punctual.le {now : Nat} {f : Flight} (punctual : f.Punctual now) : f.started + f.slept ≤ now := by
  rcases punctual with exact_ | ⟨-, le⟩ <;> omega

/-- A flight that does not spin has slept all the time. -/
theorem Punctual.asleep {now : Nat} {f : Flight} {s : Statement} (punctual : f.Punctual now)
    (current : f.machine.program[f.machine.position]? = some s) (still : s.command ≠ .spin) :
    f.started + f.slept = now := by
  rcases punctual with exact_ | ⟨⟨_, same, spins⟩, -⟩
  · exact exact_
  · cases current.symm.trans same
    exact absurd spins still

/-! ## One poll -/

theorem efforts_awake {m : Machine} {s : Statement} (budgetMs : Nat)
    (current : m.program[m.position]? = some s) (awake : ∀ ms, s.command ≠ .sleep ms) :
    effortsOf budgetMs m.remaining =
      effortOf budgetMs s + effortsOf budgetMs (m.program.drop (m.position + 1)) := by
  rw [Machine.remaining_awake current awake]
  rfl

theorem efforts_sleep {m : Machine} {s : Statement} {ms : Nat} (budgetMs : Nat)
    (current : m.program[m.position]? = some s) (sleeps : s.command = .sleep ms) :
    effortsOf budgetMs m.remaining =
      m.sleepLeft.getD ms + 1 + effortsOf budgetMs (m.program.drop (m.position + 1)) := by
  unfold Machine.remaining
  rw [Machine.drop_of_current current]
  obtain ⟨line, command⟩ := s
  subst sleeps
  cases m.sleepLeft <;> rfl

theorem efforts_advanced (m : Machine) (budgetMs : Nat) :
    effortsOf budgetMs m.advanced.remaining = effortsOf budgetMs (m.program.drop (m.position + 1)) := by
  rw [Machine.remaining_of_fresh rfl]
  rfl

/-- A poll that leaves nothing of the turn has carried out a sleep of no time, which was counted among the polls. -/
theorem proceed_leads {now spare : Nat} {tokens : Tokens} {f : Flight} (going : tokens.cancelled = false)
    (punctual : f.Punctual now) :
    Leads now tokens f.options f.context
      (effortsOf f.options.budgetMs f.machine.remaining - f.used now + (1 - spare))
      (f.machine.ending f.options.budgetMs f.context) (f.proceed now tokens spare) := by
  fun_induction proceed now tokens spare f with
  | case1 spare f stop => simp [going] at stop
  | case2 spare f _ paused => exact .done rfl (by simp [paused])
  | case3 spare f _ _ finished => exact .done (Machine.ending_finished finished) fun _ _ => trivial
  | case4 spare f _ _ s current elapsed =>
    obtain ⟨_, same, spins⟩ := punctual.spins elapsed
    cases current.symm.trans same
    exact .done (Machine.ending_spin current spins) fun _ _ => trivial
  | case5 spare f _ _ s current _ stops =>
    refine .done rfl fun _ unbroken => ?_
    rw [stopsAt_unbroken unbroken] at stops
    cases stops
  | case6 spare f _ _ s current _ _ ms sleeps left elapsed ih =>
    have slept := punctual.asleep current (by simp [sleeps])
    have nothing : f.machine.sleepLeft.getD ms = 0 := elapsed.1
    rw [Machine.ending_sleep current sleeps, nothing, Ending.after_nil]
    refine (ih (.inl slept)).weaken ?_
    rw [efforts_sleep _ current sleeps, efforts_advanced]
    simp only [used]
    omega
  | case7 spare f _ _ s current _ _ ms sleeps left more =>
    have slept := punctual.asleep current (by simp [sleeps])
    have begun : ({ f.machine with sleepLeft := some left } : Machine).Sleeps left := ⟨rfl, s, ms, current, sleeps⟩
    refine .pending ?_ ⟨begun, slept, Nat.le_refl _, Nat.le_add_right _ _⟩ rfl rfl (asks_within ..) ?_
    · simp only [Flight.ending, Nat.sub_self, Nat.sub_zero, Ending.after_nil]
      rw [Machine.ending_sleep current sleeps]
      exact (Machine.ending_left current sleeps left).symm
    · rw [efforts_sleep _ current sleeps, Wake.vain_within rfl]
      simp only [used, effort]
      omega
  | case8 spare f _ _ s current within _ spins =>
    have early := punctual.le
    refine .pending ?_ ⟨⟨s, current, spins⟩, Nat.lt_succ_of_le early, Nat.le_succ _⟩ rfl rfl
      (asks_within ..) ?_
    · rw [Ending.after_nil]
      rfl
    · change effortsOf f.options.budgetMs f.machine.remaining - (now + spinTick - f.started - f.slept) + _ < _
      rw [Wake.vain_within rfl, efforts_awake _ current (by simp [spins])]
      simp only [used, effortOf, spins, spinTick] at within ⊢
      omega
  | case9 spare f _ _ s current _ _ message awake still failed =>
    refine .done ?_ fun _ _ => trivial
    rw [Machine.ending_command current awake still, failed]
    rfl
  | case10 spare f _ _ s current _ _ c written next pacing awake still changed =>
    have slept := punctual.asleep current still
    refine .pending ?_ (.inl slept) rfl rfl (asks_within ..) ?_
    · rw [Machine.ending_command current awake still, changed]
      rfl
    · change effortsOf f.options.budgetMs (f.machine.changed c).remaining + _ < _
      rw [Wake.vain_within rfl, Machine.changed, efforts_advanced, efforts_awake _ current awake]
      simp only [used]
      have one : effortOf f.options.budgetMs s = 1 := by
        unfold effortOf
        split
        · next ms sleeps => exact absurd sleeps (awake ms)
        · next spins => exact absurd spins still
        · rfl
      omega
  | case11 spare f _ _ s current _ _ c written pacing more polled rest awake still changed ih =>
    have slept := punctual.asleep current still
    rw [rest] at ih
    rw [Machine.ending_command current awake still, changed]
    refine Leads.after (Leads.weaken (ih (.inl slept)) ?_) written
    rw [Machine.changed, efforts_advanced, efforts_awake _ current awake]
    change effortsOf f.options.budgetMs (f.machine.program.drop (f.machine.position + 1)) - _ + _ ≤ _
    simp only [used]
    omega

/-- Behind a wake of its own nothing is left to be counted. -/
theorem Leads.of_spare {now polls spare : Nat} {tokens : Tokens} {options : RunOptions} {context : Context}
    {ending : Ending} {answer : List String × Polled Run Machine} (some_spare : spare ≠ 0)
    (leads : Leads now tokens options context (polls + (1 - spare)) ending answer) :
    Leads now tokens options context polls ending answer :=
  leads.weaken (by omega)

/-- A flight that begins. -/
theorem begin_leads {now : Nat} {tokens : Tokens} (going : tokens.cancelled = false) (machine : Machine)
    (context : Context) (options : RunOptions) :
    Leads now tokens options context (effortsOf options.budgetMs machine.remaining)
      (machine.ending options.budgetMs context)
      (({ machine := machine, context := context, options := options, started := now } : Flight).proceed now
        tokens Wake.allowance) := by
  let f : Flight := { machine := machine, context := context, options := options, started := now }
  have punctual : f.Punctual now := .inl (Nat.add_zero now)
  exact ((proceed_leads going punctual).of_spare (by decide)).weaken (Nat.sub_le _ _)

/-- Whether what a flight waits for has come. A request ends a slice of a sleep. -/
def Due (now : Nat) (paused : Bool) (f : Flight) : Prop :=
  match f.waiting with
  | .turn => True
  | .slice since left => since + min left sleepSlice ≤ now ∨ paused = true
  | .tick time => time ≤ now

/-- A flight that is polled too early goes on waiting. -/
theorem poll_early {now : Nat} {tokens : Tokens} {f : Flight} (going : tokens.cancelled = false)
    (early : ¬ f.Due now tokens.paused) : f.poll now tokens = ([], .pending (.flying f) f.waiting.wake) := by
  unfold Due at early
  unfold poll
  split <;> rename_i waiting <;> rw [waiting] at early ⊢
  · exact absurd trivial early
  · rw [if_neg (by simpa [going] using early)]
    rfl
  · rw [if_neg early]
    rfl

theorem proceed_paused {now : Nat} {tokens : Tokens} {spare : Nat} (f : Flight) (going : tokens.cancelled = false)
    (paused : tokens.paused = true) : f.proceed now tokens spare = ([], .ended f.machine.suspend) := by
  unfold proceed
  simp [going, paused]

/-- What is left of a slice when the flight wakes up is still to be slept. -/
theorem awake_ending {now since left : Nat} {f : Flight} (sleeps : f.machine.Sleeps left) (late : since ≤ now) :
    (f.awake now since left).machine.ending f.options.budgetMs f.context =
      ({ f.machine with sleepLeft := some (left - (now - since)) } : Machine).ending f.options.budgetMs
        f.context := by
  obtain ⟨-, s, ms, current, sleeping⟩ := sleeps
  have rest : left - min (now - since) left = left - (now - since) := by omega
  simp only [awake, rest]
  split
  · next nothing => rw [nothing, Machine.ending_left current sleeping, Ending.after_nil]
  · rfl

/-- A whole slice takes a poll at least, unless nothing was left of it. -/
theorem awake_efforts {now since left : Nat} {f : Flight} (sleeps : f.machine.Sleeps left)
    (elapsed : since + min left sleepSlice ≤ now) :
    effortsOf f.options.budgetMs (f.awake now since left).machine.remaining ≤
      left + effortsOf f.options.budgetMs (f.machine.program.drop (f.machine.position + 1)) := by
  obtain ⟨-, s, ms, current, sleeping⟩ := sleeps
  simp only [awake]
  split
  · rw [efforts_advanced]
    omega
  · next some_left =>
    have less : left - min (now - since) left < left := by
      unfold sleepSlice at elapsed
      omega
    have begun := efforts_sleep (m := { f.machine with sleepLeft := some (left - min (now - since) left) })
      f.options.budgetMs current sleeping
    rw [begun]
    simp only [Option.getD_some]
    omega

theorem poll_leads {now : Nat} {tokens : Tokens} {f : Flight} (going : tokens.cancelled = false)
    (timely : f.Timely now) (due : f.Due now tokens.paused) :
    Leads now tokens f.options f.context f.effort (f.ending now) (f.poll now tokens) := by
  unfold Timely at timely
  unfold Due at due
  unfold effort ending poll
  split <;> rename_i waiting <;> simp only [waiting] at timely due ⊢
  · exact ((proceed_leads going timely).of_spare (by decide)).weaken (Nat.sub_le ..)
  · next since left =>
    obtain ⟨sleeps, slept, since_le, in_time⟩ := timely
    have resting := awake_ending sleeps since_le
    rw [if_pos (by simpa [going] using due), ← resting]
    cases paused : tokens.paused with
    | true =>
      rw [proceed_paused _ going paused]
      exact .done rfl fun asked => by rw [paused] at asked; cases asked
    | false =>
      have punctual : (f.awake now since left).Punctual now := by
        left
        simp only [awake]
        omega
      have elapsed : since + min left sleepSlice ≤ now := by simpa [paused] using due
      exact ((proceed_leads going punctual).of_spare (by decide)).weaken
        (Nat.le_trans (Nat.sub_le ..) (awake_efforts sleeps elapsed))
  · next time =>
    obtain ⟨spins, slept, in_time⟩ := timely
    rw [if_pos due]
    have same : now = time := by omega
    subst same
    exact (proceed_leads (f := { f with waiting := .turn }) going (.inr ⟨spins, Nat.le_of_lt slept⟩)).of_spare
      (by decide)

/-! ## Time passes -/

/-- How much of a time that passes is slept. -/
def slumber (now later : Nat) (f : Flight) : Nat :=
  match f.waiting with
  | .slice _ _ => later - now
  | _ => 0

/-- A flight that left nothing of a turn is polled again at once, which is never too late. -/
theorem Timely.admits {now later : Nat} {f : Flight} {wake : Wake} (timely : f.Timely now)
    (asks : f.Asks wake) (in_time : wake.Admits now later) :
    f.waiting.wake.Admits now later := by
  rcases asks with rfl | rfl
  · exact in_time
  · obtain rfl : now = later := in_time
    unfold Timely at timely
    split at timely <;> rename_i waiting <;> rw [waiting]
    · exact rfl
    · exact ⟨Nat.le_refl _, timely.2.2.2⟩
    · exact ⟨Nat.le_refl _, timely.2.2⟩

theorem Timely.later {now later : Nat} {f : Flight} (timely : f.Timely now)
    (in_time : f.waiting.wake.Admits now later) :
    f.Timely later ∧ f.ending now = (f.ending later).after [] (f.slumber now later) := by
  unfold Timely at *
  unfold ending slumber
  split <;> rename_i waiting <;> simp only [waiting, Waiting.wake, Wake.Admits] at timely in_time ⊢
  · subst in_time
    exact ⟨timely, by rw [Ending.after_nil]⟩
  · next since left =>
    obtain ⟨sleeps, slept, since_le, -⟩ := timely
    refine ⟨⟨sleeps, slept, by omega, in_time.2⟩, ?_⟩
    obtain ⟨-, s, ms, current, sleeping⟩ := sleeps
    rw [Machine.ending_left current sleeping, Machine.ending_left current sleeping, Ending.after_after]
    congr 1
    omega
  · exact ⟨⟨timely.1, timely.2.1, in_time.2⟩, by rw [Ending.after_nil]⟩

end Flight

/-! ## Runs -/

namespace Run

/-- What the run is told. -/
def options : Run → RunOptions
  | .ofSource _ _ options => options
  | .ofMachine _ _ options => options
  | .flying f => f.options

/-- What the run runs in. -/
def context : Run → Context
  | .ofSource _ context _ => context
  | .ofMachine _ context _ => context
  | .flying f => f.context

/-- The ending of a run at a time. -/
def ending (now : Nat) : Run → Ending
  | .ofSource source context options => sourceEnding options.budgetMs context source
  | .ofMachine machine context options => machine.ending options.budgetMs context
  | .flying f => f.ending now

/-- A run that was never polled later than it wanted to be. -/
def Timely (now : Nat) : Run → Prop
  | .flying f => f.Timely now
  | _ => True

/-- Whether what the run waits for has come. -/
def Due (now : Nat) (paused : Bool) : Run → Prop
  | .flying f => f.Due now paused
  | _ => True

/-- How many polls the run takes at most, each when it wants to be polled. -/
def effort : Run → Nat
  | .ofSource source _ options =>
    match parse source with
    | .error _ => 1
    | .ok program => Flight.effortsOf options.budgetMs ({ program := program } : Machine).remaining
  | .ofMachine machine _ options => Flight.effortsOf options.budgetMs machine.remaining
  | .flying f => f.effort

variable {now : Nat} {tokens : Tokens} {r : Run}

theorem poll_due (going : tokens.cancelled = false) (timely : r.Timely now) (due : r.Due now tokens.paused) :
    Flight.Leads now tokens r.options r.context r.effort (r.ending now) (r.poll now tokens) := by
  cases r with
  | ofSource source context options =>
    unfold Run.poll ending effort Run.options Run.context sourceEnding
    dsimp only
    cases parse source with
    | error e => exact .done rfl fun _ _ => trivial
    | ok program => exact Flight.begin_leads going ..
  | ofMachine machine context options =>
    unfold Run.poll
    exact Flight.begin_leads going ..
  | flying f => exact Flight.poll_leads going timely due

/-- Whoever is due goes on if asked to pause as well. -/
theorem Due.paused (due : r.Due now false) (paused : Bool) : r.Due now paused := by
  cases r with
  | flying f =>
    unfold Due Flight.Due at *
    dsimp only at *
    split <;> simp_all
  | _ => trivial

open scoped Classical in
/-- How many polls the run takes at most from a time on: one more if the first comes too early. -/
noncomputable def pollsAt (now : Nat) (r : Run) : Nat := r.effort + if r.Due now false then 0 else 1

theorem pollsAt_of_due (due : r.Due now false) : r.pollsAt now = r.effort := by
  rw [pollsAt, if_pos due, Nat.add_zero]

/-- A poll, due or not. -/
theorem poll_leads (going : tokens.cancelled = false) (timely : r.Timely now) :
    Flight.Leads now tokens r.options r.context (r.pollsAt now) (r.ending now) (r.poll now tokens) := by
  by_cases due : r.Due now tokens.paused
  · exact (poll_due going timely due).weaken (Nat.le_add_right ..)
  · have later : r.pollsAt now = r.effort + 1 := by
      rw [pollsAt, if_neg fun now_due => due (now_due.paused _)]
    rw [later]
    cases r with
    | flying f =>
      have early := Flight.poll_early going due
      unfold Run.poll
      dsimp only
      rw [early]
      refine .pending (Ending.after_nil _).symm timely rfl rfl (.inl rfl) ?_
      rw [Waiting.wake_vain]
      exact Nat.lt_succ_self _
    | _ => exact absurd trivial due

/-- How much of a time that passes the run sleeps. -/
def slumber (now later : Nat) : Run → Nat
  | .flying f => f.slumber now later
  | _ => 0

end Run

/-! ## Rides -/

/-- A run polled to its end: the lines it writes on the way, the time it sleeps, and the result. It may be
polled before it wants to be, and it may be asked to suspend whenever it is polled, unless it is not askable. -/
inductive Ride (askable : Bool) : Run → (now : Nat) → List String → (slept : Nat) → RunResult Machine → Prop
  | ended {r : Run} {now : Nat} {paused : Bool} {lines : List String} {result : RunResult Machine}
    (asked : paused = true → askable = true) (polled : r.poll now { paused := paused } = (lines, .ended result)) :
    Ride askable r now lines 0 result
  | waited {r next : Run} {now later slept : Nat} {paused : Bool} {lines more : List String} {wake : Wake}
    {result : RunResult Machine} (asked : paused = true → askable = true)
    (polled : r.poll now { paused := paused } = (lines, .pending next wake)) (in_time : wake.Admits now later)
    (rest : Ride askable next later more slept result) :
    Ride askable r now (lines ++ more) (next.slumber now later + slept) result

namespace Ride

variable {askable : Bool} {r : Run} {now slept : Nat} {lines : List String} {result : RunResult Machine}

/-- What was to come from a run is what the ride brought, and what is to come from its result. -/
theorem ending (ride : Ride askable r now lines slept result) (timely : r.Timely now) :
    r.ending now = (resultEnding r.options.budgetMs r.context result).after lines slept := by
  induction ride with
  | @ended r now paused lines result asked polled =>
    have leads := Run.poll_leads (rfl : ({ paused := paused } : Tokens).cancelled = false) timely
    rw [polled] at leads
    cases leads with
    | ended same => exact same
  | @waited r next now later slept paused lines more wake result asked polled in_time rest ih =>
    have leads := Run.poll_leads (rfl : ({ paused := paused } : Tokens).cancelled = false) timely
    rw [polled] at leads
    cases leads with
    | @pending _ f _ same still options context asks =>
      obtain ⟨still, passing⟩ := still.later (still.admits asks in_time)
      have rest : f.ending later = _ := ih still
      rw [same, passing, rest, Ending.after_after, Ending.after_after, List.append_nil, Nat.zero_add]
      simp only [Run.options, Run.context, options, context, Run.slumber]

/-- A run that is asked for nothing and meets no breakpoint is not suspended. -/
theorem final (ride : Ride askable r now lines slept result) (unasked : askable = false) (timely : r.Timely now)
    (unbroken : r.options.Unbroken) : result.Final := by
  induction ride with
  | @ended r now paused lines result asked polled =>
    have leads := Run.poll_leads (rfl : ({ paused := paused } : Tokens).cancelled = false) timely
    rw [polled] at leads
    have unpaused : paused = false := by
      cases paused with
      | false => rfl
      | true => exact absurd (asked rfl) (by simp [unasked])
    cases leads with
    | ended _ whole => exact whole unpaused unbroken
  | @waited r next now later slept paused lines more wake result asked polled in_time rest ih =>
    have leads := Run.poll_leads (rfl : ({ paused := paused } : Tokens).cancelled = false) timely
    rw [polled] at leads
    cases leads with
    | @pending _ f _ same still options context asks =>
      refine ih (still.later (still.admits asks in_time)).1 ?_
      rw [← options] at unbroken
      exact unbroken

end Ride

/-! ## A run on its own ends -/

theorem Flight.due_at_wake {f : Flight} {now : Nat} (timely : f.Timely now) :
    ∃ time, f.waiting.wake.Admits now time ∧ f.Due time false ∧
      (f.waiting.wake = .soon ∧ time = now ∨ f.waiting.wake = .onTime time) := by
  unfold Timely at timely
  unfold Due Waiting.wake
  split <;> rename_i waiting <;> simp only [waiting] at timely ⊢
  · exact ⟨now, rfl, trivial, .inl ⟨trivial, rfl⟩⟩
  · exact ⟨_, ⟨timely.2.2.2, Nat.le_refl _⟩, .inl (Nat.le_refl _), .inr rfl⟩
  · exact ⟨_, ⟨timely.2.2, Nat.le_refl _⟩, Nat.le_refl _, .inr rfl⟩

/-- When a flight is polled next, and how many polls it takes at most from then on. -/
theorem Flight.next_poll {f : Flight} {now : Nat} {wake : Wake} (timely : f.Timely now) (asks : f.Asks wake) :
    ∃ time, wake.Admits now time ∧ (Run.flying f).pollsAt time ≤ f.effort + wake.vain ∧
      ((wake = .soon ∨ wake = .spent) ∧ time = now ∨ wake = .onTime time) := by
  rcases asks with rfl | rfl
  · obtain ⟨time, in_time, due, wakes⟩ := due_at_wake timely
    refine ⟨time, in_time, ?_, wakes.imp_left fun soon => ⟨.inl soon.1, soon.2⟩⟩
    rw [Run.pollsAt_of_due (r := .flying f) due]
    exact Nat.le_add_right ..
  · refine ⟨now, rfl, ?_, .inl ⟨.inr rfl, rfl⟩⟩
    unfold Run.pollsAt
    exact Nat.add_le_add_left (by split <;> decide) _

/-- A run that is polled when it wants to be, and at once where it left nothing of a turn, ends within as many polls
as it takes at most. -/
theorem Run.solo_ride (polls : Nat) {r : Run} {now : Nat} (timely : r.Timely now) (enough : r.pollsAt now < polls) :
    ∃ lines slept result time,
      engine.solo polls r now {} {} = (lines, some (result, time)) ∧ Ride false r now lines slept result := by
  induction polls generalizing r now with
  | zero => cases enough
  | succ polls ih =>
    have leads := Run.poll_leads (rfl : ({} : Tokens).cancelled = false) timely
    rcases polled : r.poll now {} with ⟨lines, result | ⟨next, wake⟩⟩
    · exact ⟨lines, 0, result, now, engine.solo_ended polled, .ended id polled⟩
    · rw [polled] at leads
      cases leads with
      | @pending _ f _ same still options context asks fewer =>
        obtain ⟨time, in_time, few, wakes⟩ := Flight.next_poll still asks
        obtain ⟨more, slept, result, last, rest, ride⟩ := ih (r := .flying f)
          (still.later (still.admits asks in_time)).1 (by omega)
        exact ⟨lines ++ more, _, result, last, engine.solo_waited polled wakes rest,
          .waited id polled in_time ride⟩

theorem Flight.efforts_le_polls (budgetMs : Nat) (statements : List Statement) :
    effortsOf budgetMs statements ≤ pollsOf budgetMs statements + 1 := by
  induction statements with
  | nil => exact Nat.le_refl _
  | cons s rest ih =>
    have one : effortOf budgetMs s ≤ s.command.polls budgetMs := by
      unfold effortOf Command.polls
      cases s.command <;> simp
    unfold effortsOf pollsOf at *
    simp only [List.foldr_cons]
    omega

theorem Machine.efforts_le_polls (m : Machine) (budgetMs : Nat) :
    Flight.effortsOf budgetMs m.remaining ≤ m.polls budgetMs := by
  have all := Flight.efforts_le_polls budgetMs (m.program.drop m.position)
  unfold remaining Machine.polls
  split
  · next line ms rest left statements begun =>
    rw [statements] at all ⊢
    simp only [Flight.effortsOf, pollsOf, Flight.effortOf, Command.polls, List.foldr_cons, begun,
      Option.getD_some] at all ⊢
    omega
  · omega

/-- A run that has not begun yet is timely, and due. -/
theorem Run.timely_of_begins {r : Run} (begins : ∀ f, r ≠ .flying f) (now : Nat) :
    r.Timely now ∧ r.pollsAt now ≤ r.patience := by
  cases r with
  | ofSource source context options =>
    have due : (Run.ofSource source context options).Due now false := trivial
    refine ⟨trivial, ?_⟩
    rw [pollsAt_of_due due]
    unfold effort patience
    dsimp only
    cases parse source with
    | error e => exact Nat.le_refl _
    | ok program =>
      dsimp only
      rw [Machine.remaining_of_fresh rfl]
      exact Nat.le_succ_of_le (Flight.efforts_le_polls _ program)
  | ofMachine machine context options =>
    have due : (Run.ofMachine machine context options).Due now false := trivial
    refine ⟨trivial, ?_⟩
    rw [pollsAt_of_due due]
    exact Nat.le_succ_of_le (machine.efforts_le_polls _)
  | flying f => exact absurd rfl (begins f)

/-- A script on its own ends. -/
theorem Run.runSolo_ride {r : Run} (begins : ∀ f, r ≠ .flying f) (now : Nat) :
    ∃ lines slept result time,
      engine.runSolo r now {} = (lines, some (result, time)) ∧ Ride false r now lines slept result := by
  obtain ⟨timely, polls⟩ := timely_of_begins begins now
  exact solo_ride (r.patience + 6) timely (by omega)

end Script

end Workbench
