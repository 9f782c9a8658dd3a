/-
Where a script stops that is neither paused nor stopped from outside.

Its statements are executed one after the other (`executed`). A script that
stands at a statement has executed all statements before it, and it stops there if
the statement has a breakpoint, unless it has just been taken up again there
(`Stopped`). While it goes on it has passed no such statement (`Run.Along`), so it
stops at the first one that it reaches.

A script that is polled when it wants to be, or earlier, uses up its time only in a
spin (`Flight.Prompt`).
-/
import Workbench.Proofs.Script.Ride

namespace Workbench.Script

/-! ## Statements one after the other -/

/-- The bindings and the last value when so many statements have been executed, if the program gets that far. A
spin does not come to an end. -/
def executed (context : Context) (program : List Statement) : Nat → Option (List (String × Json) × Json)
  | 0 => some ([], .null)
  | j + 1 =>
    match executed context program j, program[j]? with
    | some (bindings, last), some s =>
      if s.command = .spin then none
      else
        match s.command.change bindings last context with
        | .error _ => none
        | .ok c => some (c.bindings, c.value)
    | _, _ => none

/-- Whether the program gets to a statement, or to its end. -/
def Reaches (context : Context) (program : List Statement) (j : Nat) : Prop :=
  (executed context program j).isSome = true

section

variable {context : Context} {program : List Statement} {i j : Nat} {s : Statement} {bindings : List (String × Json)}
  {last : Json}

theorem executed_succ (before : executed context program j = some (bindings, last)) (current : program[j]? = some s) :
    executed context program (j + 1) =
      if s.command = .spin then none
      else
        match s.command.change bindings last context with
        | .error _ => none
        | .ok c => some (c.bindings, c.value) := by
  rw [executed, before, current]

theorem Reaches.earlier (reaches : Reaches context program j) (le : i ≤ j) : Reaches context program i := by
  induction j with
  | zero =>
    obtain rfl : i = 0 := Nat.le_zero.1 le
    exact reaches
  | succ j ih =>
    rcases Nat.le_succ_iff.1 le with le | rfl
    · refine ih ?_ le
      unfold Reaches at reaches ⊢
      unfold executed at reaches
      cases before : executed context program j with
      | some _ => rfl
      | none => simp [before] at reaches
    · exact reaches

/-- Behind a statement that is not executed nothing is reached. -/
theorem Reaches.le (reaches : Reaches context program i) (stuck : executed context program (j + 1) = none) : i ≤ j := by
  rcases Nat.lt_or_ge j i with beyond | le
  · have further : Reaches context program (j + 1) := reaches.earlier beyond
    simp [Reaches, stuck] at further
  · exact le

theorem Reaches.within (reaches : Reaches context program j) : j ≤ program.length := by
  cases j with
  | zero => exact Nat.zero_le _
  | succ j =>
    cases current : program[j]? with
    | some s => exact (List.getElem?_eq_some_iff.1 current).1
    | none =>
      unfold Reaches executed at reaches
      simp [current] at reaches

end

/-- A machine of the program that has executed all statements before its own. -/
structure Machine.Stands (context : Context) (program : List Statement) (m : Machine) : Prop where
  program_eq : m.program = program
  executed_eq : executed context program m.position = some (m.bindings, m.lastValue)

namespace Machine.Stands

variable {context : Context} {program : List Statement} {m : Machine} {s : Statement}

theorem reaches (stands : m.Stands context program) : Reaches context program m.position := by
  simp [Reaches, stands.executed_eq]

theorem changed (stands : m.Stands context program) (current : program[m.position]? = some s)
    (still : s.command ≠ .spin) {c : Change} (makes : s.command.change m.bindings m.lastValue context = .ok c) :
    (m.changed c).Stands context program where
  program_eq := stands.program_eq
  executed_eq := by
    show executed context program (m.position + 1) = some (c.bindings, c.value)
    rw [executed_succ stands.executed_eq current, if_neg still, makes]

/-- A sleep changes nothing. -/
theorem advanced (stands : m.Stands context program) (current : program[m.position]? = some s) {ms : Nat}
    (sleeps : s.command = .sleep ms) : m.advanced.Stands context program :=
  stands.changed (c := { bindings := m.bindings, value := m.lastValue }) current (by simp [sleeps])
    (by rw [sleeps]; rfl)

end Machine.Stands

/-! ## Breakpoints -/

/-- A script that begins at its first statement, or is taken up again at one, and what it is told: its breakpoints
count, those of the lines that are asked for. -/
@[ext] structure Outset where
  context : Context
  program : List Statement
  /-- the statement at which it has been suspended, if it is taken up again -/
  resumed : Option Nat := none
  halts : Int32 → Bool
  budgetMs : Nat

namespace Outset

variable (o : Outset)

/-- Whether the script has to stop in front of a statement: one that it has not executed yet, other than the one
that it is taken up at. -/
def Armed (j : Nat) : Prop :=
  o.resumed.getD 0 ≤ j ∧ o.resumed ≠ some j ∧ ∃ s, o.program[j]? = some s ∧ o.halts s.line = true

/-- No statement before this one has a breakpoint that counts. -/
def Clear (j : Nat) : Prop := ∀ i, i < j → ¬ o.Armed i

variable {o} {j : Nat}

theorem clear_start : o.Clear (o.resumed.getD 0) := fun _ before armed => Nat.not_le.2 before armed.1

theorem Clear.next (clear : o.Clear j) (unarmed : ¬ o.Armed j) : o.Clear (j + 1) := by
  intro i before
  rcases Nat.lt_succ_iff_lt_or_eq.1 before with earlier | rfl
  · exact clear i earlier
  · exact unarmed

end Outset

/-- Why a script fails at a statement that it has come to: a fault of a kind, with a message. If it was always
looked after in time, it has used up its time only if it spins. -/
inductive Falters (o : Outset) (timely : Prop) (j : Nat) (s : Statement) : FaultKind → String → Prop
  | runtime {bindings : List (String × Json)} {last : Json} {message : String}
    (before : executed o.context o.program j = some (bindings, last))
    (fails : s.command.change bindings last o.context = .error message) (unarmed : ¬ o.Armed j) :
    Falters o timely j s .runtime message
  | timeout (spins : timely → s.command = .spin ∧ ¬ o.Armed j) :
    Falters o timely j s .timeout (timeoutMessage o.budgetMs)

/-- How a script stops that is neither paused nor stopped from outside. -/
inductive Stopped (o : Outset) (timely : Prop) : RunResult Machine → Prop
  | halted {m : Machine} {s : Statement} (stands : m.Stands o.context o.program)
    (current : o.program[m.position]? = some s) (armed : o.Armed m.position) (clear : o.Clear m.position) :
    Stopped o timely (.suspended { m with suspendedAt := some m.position } (some (.line s.line)))
  | finished {m : Machine} (stands : m.Stands o.context o.program) (done : o.program[m.position]? = none)
    (clear : o.Clear m.position) : Stopped o timely (.finished m.lastValue)
  | failed {j : Nat} {s : Statement} {kind : FaultKind} {message : String} (reaches : Reaches o.context o.program j)
    (ahead : o.resumed.getD 0 ≤ j) (current : o.program[j]? = some s) (clear : o.Clear j)
    (fails : Falters o timely j s kind message) : Stopped o timely (.failed [⟨kind, message, .line s.line⟩])

/-- Where a run gets to a statement with a breakpoint, it gets no further than to the first. -/
theorem Falters.unreached {o : Outset} {timely : Prop} {i j : Nat} {s : Statement} {kind : FaultKind} {message : String}
    (fails : Falters o timely j s kind message) (current : o.program[j]? = some s)
    (reaches : Reaches o.context o.program j) (clear : o.Clear j) (inTime : timely ∨ kind ≠ .timeout)
    (armed : o.Armed i) (beyond : Reaches o.context o.program i) : False := by
  obtain ⟨⟨bindings, last⟩, before⟩ := Option.isSome_iff_exists.1 reaches
  have stuck : executed o.context o.program (j + 1) = none ∧ ¬ o.Armed j := by
    cases fails with
    | runtime before fails unarmed =>
      refine ⟨?_, unarmed⟩
      rw [executed_succ before current, fails]
      split <;> rfl
    | timeout spins =>
      obtain ⟨spins, unarmed⟩ := spins (inTime.resolve_right (· rfl))
      exact ⟨by rw [executed_succ before current, if_pos spins], unarmed⟩
  rcases Nat.lt_or_eq_of_le (beyond.le stuck.1) with earlier | rfl
  · exact clear i earlier armed
  · exact stuck.2 armed

/-! ## Under way -/

namespace Flight

variable {now : Nat} {f : Flight}

/-- A script under way, between its first statement and the first that it has to stop at. What it has begun to wait
in is not one of those. -/
structure Along (o : Outset) (f : Flight) : Prop where
  stands : f.machine.Stands o.context o.program
  context_eq : f.context = o.context
  debugged : f.options.debuggerOn = true
  halts : ∀ line, f.options.breakpoints.contains line = o.halts line
  budget : f.options.budgetMs = o.budgetMs
  ahead : o.resumed.getD 0 ≤ f.machine.position
  clear : o.Clear f.machine.position
  resumed : f.machine.suspendedAt = some f.machine.position ↔ o.resumed = some f.machine.position
  begun : f.waiting ≠ .turn → ¬ o.Armed f.machine.position
  asleep : ∀ since left, f.waiting = .slice since left →
    ∃ s ms, o.program[f.machine.position]? = some s ∧ s.command = .sleep ms

/-- A script that was never polled later than it wanted to be: all its time was slept, unless it spins. -/
def Prompt (now : Nat) (f : Flight) : Prop :=
  match f.waiting with
  | .turn => f.started + f.slept = now
  | .slice since left => f.started + f.slept = since ∧ since ≤ now ∧ now ≤ since + min left sleepSlice
  | .tick _ => f.machine.Spins

theorem Prompt.later {later : Nat} {wake : Wake} (prompt : f.Prompt now) (asks : f.Asks wake)
    (in_time : wake.Admits now later) : f.Prompt later := by
  rcases asks with rfl | rfl
  case inr =>
    obtain rfl : now = later := in_time
    exact prompt
  unfold Prompt at *
  cases waiting : f.waiting with
  | turn =>
    rw [waiting] at prompt in_time
    exact prompt.trans in_time
  | slice since left =>
    rw [waiting] at prompt in_time
    exact ⟨prompt.1, Nat.le_trans prompt.2.1 in_time.1, in_time.2⟩
  | tick time =>
    rw [waiting] at prompt
    exact prompt

/-- What a poll answers: the script stops, or is still under way. -/
inductive Goes (o : Outset) (timely : Prop) (now : Nat) : List String × Polled Run Machine → Prop
  | ended {lines : List String} {result : RunResult Machine} (stopped : Stopped o timely result) :
    Goes o timely now (lines, .ended result)
  | pending {lines : List String} {next : Flight} {wake : Wake} (along : next.Along o)
    (prompt : timely → next.Prompt now) (asks : next.Asks wake) :
    Goes o timely now (lines, .pending (.flying next) wake)

variable {o : Outset} {timely : Prop}

theorem Goes.after {lines : List String} {polled : Polled Run Machine} (goes : Goes o timely now (lines, polled))
    (written : List String) : Goes o timely now (written ++ lines, polled) := by
  cases goes with
  | ended stopped => exact .ended stopped
  | pending along prompt asks => exact .pending along prompt asks

theorem Along.stopsAt (along : f.Along o) {s : Statement} (current : f.machine.program[f.machine.position]? = some s) :
    f.stopsAt s = true ↔ o.Armed f.machine.position := by
  rw [along.stands.program_eq] at current
  simp only [Flight.stopsAt, along.debugged, along.halts, Bool.true_and, Bool.and_eq_true, Bool.not_eq_true',
    decide_eq_false_iff_not, along.resumed]
  constructor
  · rintro ⟨halts, other⟩
    exact ⟨along.ahead, other, s, current, halts⟩
  · rintro ⟨-, other, _, same, halts⟩
    cases current.symm.trans same
    exact ⟨halts, other⟩

/-- On to the next statement. -/
theorem Along.next {m : Machine} (along : f.Along o) (unarmed : ¬ o.Armed f.machine.position)
    (stands : m.Stands o.context o.program) (position : m.position = f.machine.position + 1)
    (fresh : m.suspendedAt = none) (slept : Nat) :
    ({ f with machine := m, slept := slept, waiting := .turn } : Flight).Along o where
  stands := stands
  context_eq := along.context_eq
  debugged := along.debugged
  halts := along.halts
  budget := along.budget
  ahead := by
    show _ ≤ m.position
    rw [position]
    exact Nat.le_succ_of_le along.ahead
  clear := by
    show o.Clear m.position
    rw [position]
    exact along.clear.next unarmed
  resumed := by
    show m.suspendedAt = some m.position ↔ o.resumed = some m.position
    rw [fresh, position]
    refine ⟨nofun, fun same => ?_⟩
    have ahead := along.ahead
    rw [same, Option.getD_some] at ahead
    exact absurd ahead (Nat.not_succ_le_self _)
  begun := fun other => absurd rfl other
  asleep := nofun

/-- The statement that it stands at begins to take its time. -/
theorem Along.waits (along : f.Along o) (unarmed : ¬ o.Armed f.machine.position) (left : Option Nat)
    (waiting : Waiting)
    (asleep : ∀ since left, waiting = .slice since left →
      ∃ s ms, o.program[f.machine.position]? = some s ∧ s.command = .sleep ms) :
    ({ f with machine := { f.machine with sleepLeft := left }, waiting := waiting } : Flight).Along o where
  stands := ⟨along.stands.program_eq, along.stands.executed_eq⟩
  context_eq := along.context_eq
  debugged := along.debugged
  halts := along.halts
  budget := along.budget
  ahead := along.ahead
  clear := along.clear
  resumed := along.resumed
  begun := fun _ => unarmed
  asleep := asleep

/-- Between two statements all time was slept, unless the script is in a spin that it has begun. -/
def Poised (o : Outset) (now : Nat) (f : Flight) : Prop :=
  f.started + f.slept = now ∨ f.machine.Spins ∧ ¬ o.Armed f.machine.position

theorem Poised.slept {s : Statement} (poised : f.Poised o now)
    (current : f.machine.program[f.machine.position]? = some s) (still : s.command ≠ .spin) :
    f.started + f.slept = now := by
  rcases poised with slept | ⟨⟨_, same, spins⟩, -⟩
  · exact slept
  · cases current.symm.trans same
    exact absurd spins still

theorem proceed_goes {spare : Nat} (along : f.Along o) (poised : timely → f.Poised o now) :
    Goes o timely now (f.proceed now {} spare) := by
  fun_induction proceed now {} spare f with
  | case1 spare f cancelled => cases cancelled
  | case2 spare f _ paused => cases paused
  | case3 spare f _ _ done => exact .ended (.finished along.stands (along.stands.program_eq ▸ done) along.clear)
  | case4 spare f _ _ s current elapsed =>
    rw [along.budget]
    refine .ended (.failed along.stands.reaches along.ahead (along.stands.program_eq ▸ current) along.clear
      (.timeout fun timely => ?_))
    rcases poised timely with slept | ⟨⟨_, same, spins⟩, unarmed⟩
    · unfold used at elapsed
      omega
    · cases current.symm.trans same
      exact ⟨spins, unarmed⟩
  | case5 spare f _ _ s current _ stops =>
    have here : o.program[f.machine.position]? = some s := along.stands.program_eq ▸ current
    have halted : f.machine.suspend = .suspended { f.machine with suspendedAt := some f.machine.position }
        (some (.line s.line)) := by
      simp [Machine.suspend, Machine.currentLine?, Machine.current?, current]
    rw [halted]
    exact .ended (.halted along.stands here ((along.stopsAt current).1 stops) along.clear)
  | case6 spare f _ _ s current _ unarmed ms sleeps left nothing ih =>
    have unarmed : ¬ o.Armed f.machine.position := fun armed => unarmed ((along.stopsAt current).2 armed)
    refine ih (along.next unarmed (along.stands.advanced (along.stands.program_eq ▸ current) sleeps) rfl rfl _) ?_
    exact fun timely => .inl ((poised timely).slept current (by simp [sleeps]))
  | case7 spare f _ _ s current _ unarmed ms sleeps left more =>
    have unarmed : ¬ o.Armed f.machine.position := fun armed => unarmed ((along.stopsAt current).2 armed)
    refine .pending (along.waits unarmed (some left) (.slice now left) ?_) (fun timely => ?_) (asks_within ..)
    · exact fun _ _ _ => ⟨s, ms, along.stands.program_eq ▸ current, sleeps⟩
    · exact ⟨(poised timely).slept current (by simp [sleeps]), Nat.le_refl _, Nat.le_add_right _ _⟩
  | case8 spare f _ _ s current _ unarmed spins =>
    have unarmed : ¬ o.Armed f.machine.position := fun armed => unarmed ((along.stopsAt current).2 armed)
    have ticks := along.waits unarmed f.machine.sleepLeft (.tick (now + spinTick)) (by simp)
    exact .pending ticks (fun _ => ⟨s, current, spins⟩) (asks_within ..)
  | case9 spare f _ _ s current _ unarmed message awake still failed =>
    have unarmed : ¬ o.Armed f.machine.position := fun armed => unarmed ((along.stopsAt current).2 armed)
    refine .ended (.failed along.stands.reaches along.ahead (along.stands.program_eq ▸ current) along.clear
      (.runtime along.stands.executed_eq ?_ unarmed))
    rw [← along.context_eq]
    exact failed
  | case10 spare f _ _ s current _ unarmed c written next pacing awake still changed =>
    have unarmed : ¬ o.Armed f.machine.position := fun armed => unarmed ((along.stopsAt current).2 armed)
    rw [along.context_eq] at changed
    have stands := along.stands.changed (along.stands.program_eq ▸ current) still changed
    exact .pending (along.next unarmed stands rfl rfl _) (fun timely => (poised timely).slept current still)
      (asks_within ..)
  | case11 spare f _ _ s current _ unarmed c written pacing more polled rest awake still changed ih =>
    have unarmed : ¬ o.Armed f.machine.position := fun armed => unarmed ((along.stopsAt current).2 armed)
    rw [along.context_eq] at changed
    have stands := along.stands.changed (along.stands.program_eq ▸ current) still changed
    rw [rest] at ih
    have goes := ih (along.next unarmed stands rfl rfl _) fun timely => .inl ((poised timely).slept current still)
    exact goes.after written

theorem Along.awake {since left : Nat} (along : f.Along o) (waiting : f.waiting = .slice since left) :
    (f.awake now since left).Along o := by
  have unarmed := along.begun (by simp [waiting])
  obtain ⟨s, ms, current, sleeps⟩ := along.asleep since left waiting
  unfold Flight.awake
  dsimp only
  split
  · exact along.next unarmed (along.stands.advanced current sleeps) rfl rfl _
  · have rests := along.waits unarmed (some (left - min (now - since) left)) .turn (by simp)
    exact { rests with }

theorem poll_goes (along : f.Along o) (prompt : timely → f.Prompt now) : Goes o timely now (f.poll now {}) := by
  unfold Prompt at prompt
  unfold poll
  split <;> rename_i waiting <;> simp only [waiting] at prompt ⊢
  · exact proceed_goes along fun timely => .inl (prompt timely)
  · next since left =>
    split
    · next due =>
      refine proceed_goes (along.awake waiting) fun timely => .inl ?_
      obtain ⟨slept, began, in_time⟩ := prompt timely
      simp only [Flight.awake]
      omega
    · exact .pending along (fun timely => by simpa only [Prompt, waiting] using prompt timely)
        (.inl (by rw [waiting]; rfl))
  · next time =>
    split
    · have turns := along.waits (along.begun (by simp [waiting])) f.machine.sleepLeft .turn (by simp)
      exact proceed_goes turns fun timely => .inr ⟨prompt timely, along.begun (by simp [waiting])⟩
    · exact .pending along (fun timely => by simpa only [Prompt, waiting] using prompt timely)
        (.inl (by rw [waiting]; rfl))

end Flight

namespace Run

variable {o : Outset} {timely : Prop} {now : Nat} {r : Run}

/-- A machine that a script begins with. -/
structure Begins (o : Outset) (m : Machine) (context : Context) (options : RunOptions) : Prop where
  stands : m.Stands o.context o.program
  context_eq : context = o.context
  debugged : options.debuggerOn = true
  halts : ∀ line, options.breakpoints.contains line = o.halts line
  budget : options.budgetMs = o.budgetMs
  position : m.position = o.resumed.getD 0
  resumed : m.suspendedAt = o.resumed

/-- A script that is about to begin, or under way. -/
def Along (o : Outset) : Run → Prop
  | .ofSource source context options =>
    ∃ program, parse source = .ok program ∧ Begins o { program := program } context options
  | .ofMachine m context options => Begins o m context options
  | .flying f => f.Along o

/-- A script that was never polled later than it wanted to be. -/
def Prompt (now : Nat) : Run → Prop
  | .flying f => f.Prompt now
  | _ => True

theorem Begins.along {m : Machine} {context : Context} {options : RunOptions} (begins : Begins o m context options) :
    ({ machine := m, context := context, options := options, started := now } : Flight).Along o where
  stands := begins.stands
  context_eq := begins.context_eq
  debugged := begins.debugged
  halts := begins.halts
  budget := begins.budget
  ahead := Nat.le_of_eq begins.position.symm
  clear := by
    show o.Clear m.position
    rw [begins.position]
    exact Outset.clear_start
  resumed := by
    show m.suspendedAt = some m.position ↔ o.resumed = some m.position
    rw [begins.resumed]
  begun := fun other => absurd rfl other
  asleep := nofun

theorem poll_goes (along : r.Along o) (prompt : timely → r.Prompt now) :
    Flight.Goes o timely now (r.poll now {}) := by
  cases r with
  | ofSource source context options =>
    obtain ⟨program, parses, begins⟩ := along
    unfold Run.poll
    simp only [parses]
    exact Flight.proceed_goes begins.along fun _ => .inl (Nat.add_zero now)
  | ofMachine machine context options => exact Flight.proceed_goes along.along fun _ => .inl (Nat.add_zero now)
  | flying f => exact Flight.poll_goes along prompt

end Run

end Workbench.Script
