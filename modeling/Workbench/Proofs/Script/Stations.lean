/-
Where a script is suspended that is run and taken up again until it has come to its end.

A journey is a sequence of rides, each from the machine that the one before it left
behind (`Journey`); on the way the script may be asked to pause at any time. The stations
of a program are the statements that it comes to and that stand on a line with a
breakpoint (`stations`). A script that is not asked to pause is suspended at each of its
stations, once, in their order, and nowhere else; one that is asked passes none over, and
where it was paused it is not stopped again by a breakpoint (`stops_once`).
-/
import Mathlib.Data.List.Sort
import Workbench.Proofs.Script.Meaning

namespace Workbench.Script

/-! ## What is behind a machine and what is before it -/

namespace Meaning

variable {context : Context} {m : Meaning} {program : List Statement}

/-- A statement behind others that have not come to an end: a spin is the end, and a sleep takes its time; otherwise
the command either fails or makes its change. -/
theorem add_open (is_open : m.close = none) (s : Statement) :
    m.add context s =
      if s.command = .spin then { m with close := some (.spins s.line) }
      else
        match s.command.change m.bindings m.last context with
        | .error message => { m with close := some (.fails message s.line) }
        | .ok c =>
          { m with
            bindings := c.bindings, last := c.value, lines := m.lines ++ c.line.toList
            slept := m.slept + match s.command with
              | .sleep ms => ms
              | _ => 0 } := by
  obtain ⟨line, command⟩ := s
  cases command with
  | bind name e | display e | value e =>
    simp only [add, is_open, valued, Command.change, reduceCtorEq, ↓reduceIte]
    cases e.eval m.bindings context <;> simp
  | sleep ms => simp [add, is_open, Command.change]
  | fail message => simp [add, is_open, Command.change]
  | spin => simp [add, is_open]

/-- What some statements have written and slept stands before what the others write and sleep. -/
theorem foldl_behind (context : Context) (program : List Statement) {m : Meaning} (is_open : m.close = none) :
    (program.foldl (add context) m).lines =
        m.lines ++ (program.foldl (add context) { bindings := m.bindings, last := m.last }).lines ∧
      (program.foldl (add context) m).slept =
        m.slept + (program.foldl (add context) { bindings := m.bindings, last := m.last }).slept := by
  have whole : (program.foldl (add context) m).ending 0 =
      (Ending.of 0 context m.bindings m.last program).after m.lines m.slept := ending_foldl is_open
  have rest : (program.foldl (add context) { bindings := m.bindings, last := m.last }).ending 0 =
      (Ending.of 0 context m.bindings m.last program).after [] 0 := ending_foldl rfl
  rw [Ending.after_nil] at rest
  rw [← rest] at whole
  exact ⟨congrArg Ending.lines whole, congrArg Ending.slept whole⟩

end Meaning

section

variable {context : Context} {program : List Statement} {j : Nat} {s : Statement}

theorem meaning_take_succ (current : program[j]? = some s) :
    meaning context (program.take (j + 1)) = (meaning context (program.take j)).add context s := by
  rw [List.take_add_one, current, meaning, List.foldl_append]
  rfl

/-- The statements that a program executes are those that do not come to an end. -/
theorem executed_as_meant (within : j ≤ program.length) :
    executed context program j =
      match (meaning context (program.take j)).close with
      | none => some ((meaning context (program.take j)).bindings, (meaning context (program.take j)).last)
      | some _ => none := by
  induction j with
  | zero => rfl
  | succ j ih =>
    have current : program[j]? = some program[j] := List.getElem?_eq_getElem within
    have before := ih (Nat.le_of_succ_le within)
    rw [meaning_take_succ current]
    cases is_open : (meaning context (program.take j)).close with
    | some close =>
      rw [is_open] at before
      simp [executed, before, Meaning.add, is_open]
    | none =>
      rw [is_open] at before
      rw [executed_succ before current, Meaning.add_open is_open]
      split
      · rfl
      · split <;> simp_all

theorem reaches_iff (within : j ≤ program.length) :
    Reaches context program j ↔ (meaning context (program.take j)).close = none := by
  rw [Reaches, executed_as_meant within]
  cases (meaning context (program.take j)).close <;> simp

end

/-- What a machine has still to come to. -/
def Machine.toCome (context : Context) (m : Machine) : Meaning :=
  m.remaining.foldl (Meaning.add context) { bindings := m.bindings, last := m.lastValue }

theorem Machine.ending_eq_toCome (budgetMs : Nat) (context : Context) (m : Machine) :
    m.ending budgetMs context = (m.toCome context).ending budgetMs := by
  rw [toCome, Meaning.ending_foldl rfl, Ending.after_nil]
  rfl

/-- What a machine in front of a statement has written and slept, if with what is to come it makes up what the program
means. -/
theorem Machine.Stands.behind {context : Context} {program : List Statement} {m : Machine} {lines : List String}
    {slept : Nat} (stands : m.Stands context program) (fresh : m.sleepLeft = none)
    (all_lines : lines ++ (m.toCome context).lines = (meaning context program).lines)
    (all_slept : slept + (m.toCome context).slept = (meaning context program).slept) :
    (meaning context (program.take m.position)).bindings = m.bindings ∧
      (meaning context (program.take m.position)).last = m.lastValue ∧
      lines = (meaning context (program.take m.position)).lines ∧
      slept = (meaning context (program.take m.position)).slept := by
  have within : m.position ≤ program.length := stands.reaches.within
  have is_open := (reaches_iff within).1 stands.reaches
  have own := stands.executed_eq
  rw [executed_as_meant within, is_open] at own
  obtain ⟨bindings, last⟩ : _ ∧ _ := by simpa using own
  have whole : meaning context program =
      (program.drop m.position).foldl (Meaning.add context) (meaning context (program.take m.position)) := by
    rw [meaning, meaning, ← List.foldl_append, List.take_append_drop]
  have rest := Meaning.foldl_behind context (program.drop m.position) is_open
  have here : (m.toCome context) = (program.drop m.position).foldl (Meaning.add context)
      { bindings := m.bindings, last := m.lastValue } := by
    rw [Machine.toCome, Machine.remaining_of_fresh fresh, stands.program_eq]
  rw [bindings, last, ← here, ← whole] at rest
  refine ⟨bindings, last, ?_, ?_⟩
  · exact List.append_cancel_right (all_lines.trans rest.1)
  · have := all_slept.trans rest.2
    omega

/-! ## In front of a statement nothing of it has been done -/

namespace Flight

variable {now : Nat} {f : Flight}

/-- Who is to stop at a breakpoint has not begun to sleep there. -/
def Unslept (f : Flight) : Prop :=
  ∀ s, f.machine.program[f.machine.position]? = some s → f.stopsAt s = true →
    f.machine.sleepLeft = none ∧ f.waiting = .turn

/-- What a poll answers that is not asked to pause: who stops at a breakpoint has nothing left of a sleep. -/
inductive Awakes : List String × Polled Run Machine → Prop
  | ended {lines : List String} {result : RunResult Machine}
    (fresh : ∀ m location, result = .suspended m location → m.sleepLeft = none) : Awakes (lines, .ended result)
  | pending {lines : List String} {next : Flight} {wake : Wake} (unslept : next.Unslept) :
    Awakes (lines, .pending (.flying next) wake)

theorem Awakes.after {lines : List String} {polled : Polled Run Machine} (awakes : Awakes (lines, polled))
    (written : List String) : Awakes (written ++ lines, polled) := by
  cases awakes with
  | ended fresh => exact .ended fresh
  | pending unslept => exact .pending unslept

theorem proceed_awakes {spare : Nat} (turn : f.waiting = .turn) (unslept : f.Unslept) :
    Awakes (f.proceed now {} spare) := by
  fun_induction proceed now {} spare f with
  | case1 spare f cancelled => cases cancelled
  | case2 spare f _ paused => cases paused
  | case3 | case4 | case9 =>
    refine .ended fun m location suspended => ?_
    cases suspended
  | case5 spare f _ _ s current _ stops =>
    refine .ended fun m location suspended => ?_
    cases suspended
    exact (unslept s current stops).1
  | case6 spare f _ _ s current _ _ ms sleeps left nothing ih => exact ih rfl fun _ _ _ => ⟨rfl, rfl⟩
  | case7 spare f _ _ s current _ unarmed ms sleeps left more =>
    refine .pending fun other same stops => absurd stops ?_
    cases current.symm.trans same
    exact unarmed
  | case8 spare f _ _ s current _ unarmed spins =>
    refine .pending fun other same stops => absurd stops ?_
    cases current.symm.trans same
    exact unarmed
  | case10 => exact .pending fun _ _ _ => ⟨rfl, rfl⟩
  | case11 spare f _ _ s current _ _ c written pacing more polled rest awake still changed ih =>
    rw [rest] at ih
    exact (ih rfl fun _ _ _ => ⟨rfl, rfl⟩).after written

theorem poll_awakes (unslept : f.Unslept) : Awakes (f.poll now {}) := by
  -- who waits for something else than its turn is not to stop where it stands
  have unarmed (other : f.waiting ≠ .turn) (s : Statement)
      (current : f.machine.program[f.machine.position]? = some s) : ¬ f.stopsAt s = true :=
    fun stops => other (unslept s current stops).2
  cases waiting : f.waiting with
  | turn =>
    simp only [poll, waiting]
    exact proceed_awakes waiting unslept
  | slice since left =>
    simp only [poll, waiting]
    split
    · refine proceed_awakes rfl ?_
      intro s current stops
      refine ⟨?_, rfl⟩
      unfold awake at current stops ⊢
      dsimp only at current stops ⊢
      split at current
      · next nothing =>
        rw [if_pos nothing]
        rfl
      · next more =>
        rw [if_neg more] at stops
        exact absurd stops (unarmed (by simp [waiting]) s current)
    · exact .pending unslept
  | tick time =>
    simp only [poll, waiting]
    split
    · refine proceed_awakes rfl ?_
      intro s current stops
      exact absurd stops (unarmed (by simp [waiting]) s current)
    · exact .pending unslept

end Flight

namespace Run

variable {now : Nat} {r : Run}

/-- Who is to stop at a breakpoint has not begun to sleep there. -/
def Unslept : Run → Prop
  | .ofSource _ _ _ => True
  | .ofMachine m _ _ => m.suspendedAt = some m.position ∨ m.sleepLeft = none
  | .flying f => f.Unslept

theorem begin_awakes {m : Machine} {context : Context} {options : RunOptions}
    (unslept : m.suspendedAt = some m.position ∨ m.sleepLeft = none) :
    Flight.Awakes
      (({ machine := m, context := context, options := options, started := now } : Flight).proceed now {}
        Wake.allowance) := by
  refine Flight.proceed_awakes rfl fun s _ stops => ⟨?_, rfl⟩
  rcases unslept with resumed | fresh
  · simp [Flight.stopsAt, resumed] at stops
  · exact fresh

theorem poll_awakes (unslept : r.Unslept) : Flight.Awakes (r.poll now {}) := by
  cases r with
  | ofSource source context options =>
    unfold Run.poll
    dsimp only
    cases parse source with
    | error e => exact .ended nofun
    | ok program => exact begin_awakes (.inr rfl)
  | ofMachine machine context options => exact begin_awakes unslept
  | flying f => exact Flight.poll_awakes unslept

end Run

/-! ## Rides that may be asked to pause -/

/-- A ride of which it is known whether the poll that ended it was asked to suspend the script. -/
inductive Leg : Run → (now : Nat) → List String → (slept : Nat) → RunResult Machine → (asked : Bool) → Prop
  | ended {r : Run} {now : Nat} {asked : Bool} {lines : List String} {result : RunResult Machine}
    (polled : r.poll now { paused := asked } = (lines, .ended result)) : Leg r now lines 0 result asked
  | waited {r next : Run} {now later slept : Nat} {paused asked : Bool} {lines more : List String} {wake : Wake}
    {result : RunResult Machine} (polled : r.poll now { paused := paused } = (lines, .pending next wake))
    (in_time : wake.Admits now later) (rest : Leg next later more slept result asked) :
    Leg r now (lines ++ more) (next.slumber now later + slept) result asked

section

variable {r : Run} {now slept : Nat} {lines : List String} {result : RunResult Machine} {asked : Bool}

theorem Leg.ride (leg : Leg r now lines slept result asked) : Ride true r now lines slept result := by
  induction leg with
  | ended polled => exact .ended (fun _ => rfl) polled
  | waited polled in_time _ ih => exact .waited (fun _ => rfl) polled in_time ih

theorem Ride.leg {askable : Bool} (ride : Ride askable r now lines slept result) (unasked : askable = false) :
    Leg r now lines slept result false := by
  have never (paused : Bool) (asked : paused = true → askable = true) : paused = false :=
    Bool.eq_false_iff.2 fun paused => by simp [asked paused] at unasked
  induction ride with
  | ended asked polled =>
    cases never _ asked
    exact .ended polled
  | waited asked polled in_time _ ih => exact .waited polled in_time ih

end

/-- A machine that a script has come to since it began, without passing a breakpoint. -/
structure Outset.Reached (o : Outset) (m : Machine) : Prop where
  stands : m.Stands o.context o.program
  ahead : o.resumed.getD 0 ≤ m.position
  clear : o.Clear m.position

namespace Flight

variable {o : Outset} {f : Flight}

theorem Along.reached (along : f.Along o) : o.Reached f.machine := ⟨along.stands, along.ahead, along.clear⟩

/-- Who is asked to pause is suspended where it stands, or goes on waiting for the end of a turn of a spin. -/
theorem poll_asked (now : Nat) (along : f.Along o) :
    f.poll now { paused := true } = ([], .pending (.flying f) f.waiting.wake) ∨
      ∃ m, o.Reached m ∧ f.poll now { paused := true } = ([], .ended m.suspend) := by
  cases waiting : f.waiting with
  | turn =>
    refine .inr ⟨f.machine, along.reached, ?_⟩
    simp only [poll, waiting]
    exact proceed_paused f rfl rfl
  | slice since left =>
    refine .inr ⟨(f.awake now since left).machine, (along.awake waiting).reached, ?_⟩
    simp only [poll, waiting]
    rw [if_pos (by simp)]
    exact proceed_paused _ rfl rfl
  | tick time =>
    by_cases due : time ≤ now
    · refine .inr ⟨f.machine, along.reached, ?_⟩
      simp only [poll, waiting]
      rw [if_pos due]
      exact proceed_paused { f with waiting := .turn } rfl rfl
    · left
      simp only [poll, waiting]
      rw [if_neg due]
      rfl

end Flight

/-- How a script comes out that begins with a machine: it has stopped by itself, or it was asked to. -/
inductive Arrives (o : Outset) : RunResult Machine → (asked : Bool) → Prop
  | stopped {result : RunResult Machine} (stopped : Stopped o True result)
    (fresh : ∀ m location, result = .suspended m location → m.sleepLeft = none) : Arrives o result false
  | paused {m : Machine} (reached : o.Reached m) : Arrives o m.suspend true

theorem Run.Begins.reached {o : Outset} {m : Machine} {context : Context} {options : RunOptions}
    (begins : Run.Begins o m context options) : o.Reached m :=
  have along : Flight.Along o { machine := m, context := context, options := options, started := 0 } := begins.along
  along.reached

theorem Run.poll_asked {o : Outset} {r : Run} (now : Nat) (along : r.Along o) :
    (∃ f : Flight, r = .flying f ∧
        r.poll now { paused := true } = ([], .pending (.flying f) f.waiting.wake)) ∨
      ∃ m, o.Reached m ∧ r.poll now { paused := true } = ([], .ended m.suspend) := by
  cases r with
  | ofSource source context options =>
    obtain ⟨program, parses, begins⟩ := along
    refine .inr ⟨_, begins.reached, ?_⟩
    unfold Run.poll
    simp only [parses]
    exact Flight.proceed_paused _ rfl rfl
  | ofMachine machine context options =>
    exact .inr ⟨_, Run.Begins.reached along, Flight.proceed_paused _ rfl rfl⟩
  | flying f =>
    rcases Flight.poll_asked now along with waits | ⟨m, reached, ends⟩
    · exact .inl ⟨f, rfl, waits⟩
    · exact .inr ⟨m, reached, ends⟩

theorem Leg.arrives {o : Outset} {r : Run} {now slept : Nat} {lines : List String} {result : RunResult Machine}
    {asked : Bool} (leg : Leg r now lines slept result asked) (along : r.Along o) (prompt : r.Prompt now) (unslept : r.Unslept) :
    Arrives o result asked := by
  induction leg with
  | @ended r now asked lines result polled =>
    cases asked with
    | false =>
      have goes : Flight.Goes o True now (r.poll now {}) := Run.poll_goes along fun _ => prompt
      have awakes : Flight.Awakes (r.poll now {}) := Run.poll_awakes unslept
      rw [polled] at goes awakes
      cases goes with
      | ended stopped =>
        cases awakes with
        | ended fresh => exact .stopped stopped fresh
    | true =>
      rcases Run.poll_asked now along with ⟨f, -, waits⟩ | ⟨m, reached, ends⟩
      · cases polled.symm.trans waits
      · cases polled.symm.trans ends
        exact .paused reached
  | @waited r next now later slept paused asked lines more wake result polled in_time rest ih =>
    cases paused with
    | false =>
      have goes : Flight.Goes o True now (r.poll now {}) := Run.poll_goes along fun _ => prompt
      have awakes : Flight.Awakes (r.poll now {}) := Run.poll_awakes unslept
      rw [polled] at goes awakes
      cases goes with
      | pending along prompt asks =>
        cases awakes with
        | pending unslept => exact ih along ((prompt trivial).later asks in_time) unslept
    | true =>
      rcases Run.poll_asked now along with ⟨f, rfl, waits⟩ | ⟨m, -, ends⟩
      · cases polled.symm.trans waits
        exact ih along (Flight.Prompt.later prompt (.inl rfl) in_time) unslept
      · cases polled.symm.trans ends

/-! ## Journeys -/

/-- A suspension of a script, and what has happened by then since the script first began. -/
structure Stay where
  machine : Machine
  location : Option Location
  /-- whether the script was asked to pause, and has not come to a breakpoint -/
  asked : Bool
  lines : List String
  slept : Nat

/-- A script that is run and taken up again at each suspension until it ends otherwise; each time it is told something
that may be told. Before it began with the machine it had written some lines and slept some time. -/
inductive Journey (context : Context) (told : RunOptions → Prop) :
    Machine → List String → Nat → List Stay → RunResult Machine → Prop
  | last {m : Machine} {earlier lines : List String} {before slept now : Nat} {options : RunOptions}
    {result : RunResult Machine} {asked : Bool} (allowed : told options)
    (leg : Leg (.ofMachine m context options) now lines slept result asked) (final : result.Final) :
    Journey context told m earlier before [] result
  | resumed {m next : Machine} {earlier lines : List String} {before slept now : Nat} {options : RunOptions}
    {location : Option Location} {asked : Bool} {stops : List Stay} {result : RunResult Machine}
    (allowed : told options)
    (leg : Leg (.ofMachine m context options) now lines slept (.suspended next location) asked)
    (rest : Journey context told next (earlier ++ lines) (before + slept) stops result) :
    Journey context told m earlier before (⟨next, location, asked, earlier ++ lines, before + slept⟩ :: stops) result

/-- The statements with a breakpoint on their line that a program comes to: no statement before them has been its end. -/
def stations (context : Context) (breakpoints : LineSet) (program : List Statement) : List Nat :=
  (List.range program.length).filter fun i =>
    program[i]?.any (fun s => breakpoints.contains s.line) && (meaning context (program.take i)).close.isNone

/-- A suspension in front of a statement of which nothing has been done: the machine has made the changes of the
statements before it, and the lines and the time slept are theirs. -/
structure Stay.InFront (context : Context) (program : List Statement) (t : Stay) (i : Nat) : Prop where
  machine_eq : t.machine =
    { program := program, position := i, suspendedAt := some i
      bindings := (meaning context (program.take i)).bindings, lastValue := (meaning context (program.take i)).last }
  location_eq : t.location = program[i]?.map fun s => .line s.line
  lines_eq : t.lines = (meaning context (program.take i)).lines
  slept_eq : t.slept = (meaning context (program.take i)).slept

/-- A script that begins, or is taken up again, and stops at all breakpoints on its way. -/
def voyage (context : Context) (program : List Statement) (breakpoints : LineSet) (resumed : Option Nat)
    (budgetMs : Nat) : Outset where
  context := context
  program := program
  resumed := resumed
  halts := breakpoints.contains
  budgetMs := budgetMs

/-- A machine with which a script begins or is taken up again, when it has written some lines and slept some time. -/
structure Ready (context : Context) (program : List Statement) (resumed : Option Nat) (m : Machine)
    (lines : List String) (slept : Nat) : Prop where
  stands : m.Stands context program
  position : m.position = resumed.getD 0
  suspended : m.suspendedAt = resumed
  fresh : resumed = none → m.sleepLeft = none
  all_lines : lines ++ (m.toCome context).lines = (meaning context program).lines
  all_slept : slept + (m.toCome context).slept = (meaning context program).slept

section

variable {context : Context} {program : List Statement} {breakpoints : LineSet} {told : RunOptions → Prop}
  {resumed : Option Nat} {m : Machine} {earlier : List String} {before : Nat}

theorem Ready.start (context : Context) (program : List Statement) :
    Ready context program none { program := program } [] 0 where
  stands := ⟨rfl, rfl⟩
  position := rfl
  suspended := rfl
  fresh := fun _ => rfl
  all_lines := by
    rw [Machine.toCome, Machine.remaining_of_fresh rfl]
    rfl
  all_slept := by
    rw [Machine.toCome, Machine.remaining_of_fresh rfl, Nat.zero_add]
    rfl

theorem Ready.begins {options : RunOptions} (ready : Ready context program resumed m earlier before)
    (debugged : options.debuggerOn = true) (halts : options.breakpoints = breakpoints) :
    Run.Begins (voyage context program breakpoints resumed options.budgetMs) m context options where
  stands := ready.stands
  context_eq := rfl
  debugged := debugged
  halts := fun line => by rw [halts]; rfl
  budget := rfl
  position := ready.position
  resumed := ready.suspended

/-- A machine that was suspended on a ride is ready to be taken up again. -/
theorem Ready.next {options : RunOptions} {now slept : Nat} {lines : List String} {next : Machine}
    {location : Option Location} {asked : Bool} (ready : Ready context program resumed m earlier before)
    (leg : Leg (.ofMachine m context options) now lines slept (.suspended next location) asked)
    (stands : next.Stands context program) (suspended : next.suspendedAt = some next.position) :
    Ready context program (some next.position) next (earlier ++ lines) (before + slept) where
  stands := stands
  position := rfl
  suspended := suspended
  fresh := nofun
  all_lines := by
    have whole : m.ending options.budgetMs context = (next.ending options.budgetMs context).after lines slept :=
      leg.ride.ending trivial
    rw [Machine.ending_eq_toCome, Machine.ending_eq_toCome] at whole
    have own : (m.toCome context).lines = lines ++ (next.toCome context).lines := congrArg Ending.lines whole
    rw [List.append_assoc, ← own, ready.all_lines]
  all_slept := by
    have whole : m.ending options.budgetMs context = (next.ending options.budgetMs context).after lines slept :=
      leg.ride.ending trivial
    rw [Machine.ending_eq_toCome, Machine.ending_eq_toCome] at whole
    have own : (m.toCome context).slept = slept + (next.toCome context).slept := congrArg Ending.slept whole
    rw [Nat.add_assoc, ← own, ready.all_slept]

/-- A suspension that was not asked for stands in front of its statement. -/
theorem Ready.inFront {location : Option Location} {s : Statement} {asked : Bool}
    (ready : Ready context program resumed m earlier before) (at_ : resumed = some m.position)
    (fresh : m.sleepLeft = none) (current : program[m.position]? = some s) (located : location = some (.line s.line)) :
    Stay.InFront context program ⟨m, location, asked, earlier, before⟩ m.position := by
  obtain ⟨bindings, last, lines, slept⟩ := ready.stands.behind fresh ready.all_lines ready.all_slept
  refine ⟨?_, ?_, lines, slept⟩
  · have at_own := ready.suspended
    have same := ready.stands.program_eq
    obtain ⟨_, _, _, _, _, _⟩ := m
    simp_all
  · rw [located, current]
    rfl

/-- What one ride of a journey comes to: the end of the script, with no station left; or a suspension, with no station
passed, and if it was not asked for, at a station. -/
theorem Ready.leg {options : RunOptions} {now slept : Nat} {lines : List String} {result : RunResult Machine}
    {asked : Bool} (ready : Ready context program resumed m earlier before) (debugged : options.debuggerOn = true)
    (halts : options.breakpoints = breakpoints)
    (leg : Leg (.ofMachine m context options) now lines slept result asked) :
    (result.Final ∧ ∀ i, (voyage context program breakpoints resumed 0).Armed i → ¬ Reaches context program i) ∨
      ∃ next location, result = .suspended next location ∧
        Ready context program (some next.position) next (earlier ++ lines) (before + slept) ∧
        resumed.getD 0 ≤ next.position ∧ (voyage context program breakpoints resumed 0).Clear next.position ∧
        (asked = false → (voyage context program breakpoints resumed 0).Armed next.position ∧
          Stay.InFront context program ⟨next, location, asked, earlier ++ lines, before + slept⟩
            next.position) := by
  have unslept : (Run.ofMachine m context options).Unslept := by
    cases resumed with
    | none => exact .inr (ready.fresh rfl)
    | some p => exact .inl (ready.suspended.trans (congrArg some ready.position.symm))
  have along : (Run.ofMachine m context options).Along (voyage context program breakpoints resumed options.budgetMs) :=
    ready.begins debugged halts
  have arrives := leg.arrives along trivial unslept
  cases arrives with
  | paused reached =>
    refine .inr ⟨_, _, rfl, ?_, reached.ahead, reached.clear, nofun⟩
    exact ready.next leg ⟨reached.stands.program_eq, reached.stands.executed_eq⟩ rfl
  | stopped stopped fresh =>
    cases stopped with
    | @halted at_ s stands current armed clear =>
      have next := ready.next leg ⟨stands.program_eq, stands.executed_eq⟩ rfl
      refine .inr ⟨_, _, rfl, next, armed.1, clear, fun _ => ⟨armed, ?_⟩⟩
      exact next.inFront rfl (fresh _ _ rfl) current rfl
    | @finished at_ stands done clear =>
      refine .inl ⟨trivial, fun i armed reaches => ?_⟩
      have ⟨_, _, s, current, _⟩ := armed
      have inside : i < program.length := (List.getElem?_eq_some_iff.1 current).1
      have beyond : program.length ≤ at_.position := List.getElem?_eq_none_iff.1 done
      exact clear i (Nat.lt_of_lt_of_le inside beyond) armed
    | @failed j s kind message reaches ahead current clear fails =>
      refine .inl ⟨trivial, fun i armed beyond => ?_⟩
      exact fails.unreached current reaches clear (.inl trivial) armed beyond

/-- Who is taken up again further on has no other stations before it. -/
theorem Outset.Armed.nearer {p j : Nat} (armed : (voyage context program breakpoints (some p) 0).Armed j)
    (ahead : resumed.getD 0 ≤ p) : (voyage context program breakpoints resumed 0).Armed j ∧ p < j := by
  obtain ⟨from_, other, s, current, halts⟩ := armed
  have beyond : p < j := Nat.lt_of_le_of_ne from_ fun same => other (congrArg some same)
  refine ⟨⟨Nat.le_trans ahead from_, fun same => ?_, s, current, halts⟩, beyond⟩
  have same : resumed = some j := same
  rw [same] at ahead
  exact absurd beyond (Nat.not_lt.2 ahead)

/-- The stations that are left when a script is taken up again: all behind it. -/
theorem Outset.Armed.later {p j : Nat} (armed : (voyage context program breakpoints resumed 0).Armed j)
    (behind : p < j) : (voyage context program breakpoints (some p) 0).Armed j := by
  obtain ⟨-, -, s, current, halts⟩ := armed
  refine ⟨Nat.le_of_lt behind, fun same => ?_, s, current, halts⟩
  cases same
  exact Nat.lt_irrefl _ behind

/-- On a journey each suspension that was not asked for is in front of a station at which the script was not suspended
before, the suspensions follow the program's order, and no station is passed. -/
theorem Journey.marks {stops : List Stay} {result : RunResult Machine}
    (journey : Journey context told m earlier before stops result)
    (halting : ∀ options, told options → options.debuggerOn = true ∧ options.breakpoints = breakpoints)
    (ready : Ready context program resumed m earlier before) :
    (∀ t ∈ stops, resumed.getD 0 ≤ t.machine.position ∧ (t.asked = false →
      (voyage context program breakpoints resumed 0).Armed t.machine.position ∧
        Reaches context program t.machine.position ∧ t.InFront context program t.machine.position)) ∧
      (∀ i, (voyage context program breakpoints resumed 0).Armed i → Reaches context program i →
        ∃ t ∈ stops, t.machine.position = i) ∧
      stops.Pairwise fun t u => t.machine.position ≤ u.machine.position ∧
        (u.asked = false → t.machine.position < u.machine.position) := by
  induction journey generalizing resumed with
  | last allowed leg final =>
    obtain ⟨debugged, halts⟩ := halting _ allowed
    refine ⟨by simp, fun i armed reaches => ?_, .nil⟩
    rcases ready.leg debugged halts leg with ⟨-, none_left⟩ | ⟨next, location, rfl, -⟩
    · exact absurd reaches (none_left i armed)
    · cases final
  | @resumed m next earlier lines before slept now options location asked stops result allowed leg rest ih =>
    obtain ⟨debugged, halts⟩ := halting _ allowed
    rcases ready.leg debugged halts leg with ⟨final, -⟩ | ⟨_, _, same, again, ahead, clear, at_station⟩
    · cases final
    · cases same
      obtain ⟨own, passed, ordered⟩ := ih again
      have from_here : ∀ t ∈ stops, next.position ≤ t.machine.position := fun t within => (own t within).1
      refine ⟨?_, fun i armed reaches => ?_, List.pairwise_cons.2 ⟨fun t within => ⟨from_here t within, ?_⟩, ordered⟩⟩
      · intro t within
        rcases List.mem_cons.1 within with rfl | within
        · exact ⟨ahead, fun unasked => ⟨(at_station unasked).1, again.stands.reaches, (at_station unasked).2⟩⟩
        · refine ⟨Nat.le_trans ahead (from_here t within), fun unasked => ?_⟩
          obtain ⟨armed, reaches, inFront⟩ := (own t within).2 unasked
          exact ⟨(armed.nearer ahead).1, reaches, inFront⟩
      · rcases Nat.lt_trichotomy i next.position with before | rfl | behind
        · exact absurd armed (clear i before)
        · exact ⟨_, List.mem_cons_self .., rfl⟩
        · obtain ⟨t, within, at_⟩ := passed i (armed.later behind) reaches
          exact ⟨t, List.mem_cons_of_mem _ within, at_⟩
      · intro unasked
        obtain ⟨armed, -⟩ := (own t within).2 unasked
        exact (armed.nearer ahead).2

/-- How many statements may still have a breakpoint at which a script stops. -/
def reach (program : List Statement) : Option Nat → Nat
  | none => program.length + 1
  | some p => program.length - p

/-- A script that is never asked to pause comes to its end, however often it is suspended. -/
theorem Ready.journey {options : RunOptions} (allowed : told options) (debugged : options.debuggerOn = true)
    (halts : options.breakpoints = breakpoints) (ready : Ready context program resumed m earlier before) :
    ∃ stops result, Journey context told m earlier before stops result ∧ ∀ t ∈ stops, t.asked = false := by
  induction left : reach program resumed using Nat.strongRecOn generalizing resumed m earlier before with
  | _ n ih
  obtain ⟨lines, slept, result, time, -, ride⟩ :=
    Run.runSolo_ride (r := .ofMachine m context options) nofun 0
  have leg := ride.leg rfl
  rcases ready.leg debugged halts leg with ⟨final, -⟩ | ⟨next, location, rfl, again, ahead, -, at_station⟩
  · exact ⟨[], result, .last allowed leg final, by simp⟩
  · have armed := (at_station rfl).1
    have nearer : reach program (some next.position) < reach program resumed := by
      obtain ⟨-, other, s, current, -⟩ := armed
      have inside : next.position < program.length := (List.getElem?_eq_some_iff.1 current).1
      cases resumed with
      | none => exact Nat.lt_succ_of_le (Nat.sub_le ..)
      | some p =>
        have beyond : p ≠ next.position := fun same => other (congrArg some same)
        have ahead : p ≤ next.position := ahead
        simp only [reach]
        omega
    obtain ⟨stops, result, rest, unasked⟩ := ih _ (left ▸ nearer) again rfl
    refine ⟨_, result, .resumed allowed leg rest, fun t within => ?_⟩
    rcases List.mem_cons.1 within with rfl | within
    · rfl
    · exact unasked t within

theorem mem_stations {i : Nat} :
    i ∈ stations context breakpoints program ↔
      (voyage context program breakpoints none 0).Armed i ∧ Reaches context program i := by
  unfold stations
  rw [List.mem_filter, List.mem_range, Bool.and_eq_true]
  constructor
  · rintro ⟨inside, halts, is_open⟩
    rw [List.getElem?_eq_getElem inside] at halts
    refine ⟨⟨Nat.zero_le _, nofun, _, List.getElem?_eq_getElem inside, halts⟩, ?_⟩
    exact (reaches_iff (Nat.le_of_lt inside)).2 (Option.isNone_iff_eq_none.1 is_open)
  · rintro ⟨⟨-, -, s, current, halts⟩, reaches⟩
    have current : program[i]? = some s := current
    have inside : i < program.length := (List.getElem?_eq_some_iff.1 current).1
    refine ⟨inside, ?_, Option.isNone_iff_eq_none.2 ((reaches_iff (Nat.le_of_lt inside)).1 reaches)⟩
    rw [current]
    exact halts

end

/-- A script that stops at its breakpoints, is taken up again each time and is never asked to pause comes to its end.
On the way, and however often it is asked to pause besides:
if it was never asked, it was suspended at its stations, in their order, each of them once;
a suspension that was not asked for is in front of a station, with nothing of its statement done;
no station is passed without a suspension;
and the suspensions follow the order of the program, so that where a script was suspended before, at a breakpoint or
because it was asked to pause, no breakpoint stops it again. -/
theorem stops_once (context : Context) (breakpoints : LineSet) (program : List Statement) (told : RunOptions → Prop)
    (halting : ∀ options, told options → options.debuggerOn = true ∧ options.breakpoints = breakpoints) :
    (∀ options, told options → ∃ stops result,
      Journey context told { program := program } [] 0 stops result ∧ ∀ t ∈ stops, t.asked = false) ∧
    ∀ stops result, Journey context told { program := program } [] 0 stops result →
      ((∀ t ∈ stops, t.asked = false) →
        stops.map (·.machine.position) = stations context breakpoints program) ∧
      (∀ t ∈ stops, t.asked = false → t.machine.position ∈ stations context breakpoints program ∧
        t.InFront context program t.machine.position) ∧
      (∀ i ∈ stations context breakpoints program, ∃ t ∈ stops, t.machine.position = i) ∧
      stops.Pairwise fun t u => t.machine.position ≤ u.machine.position ∧
        (u.asked = false → t.machine.position < u.machine.position) := by
  have start := Ready.start context program
  refine ⟨fun options allowed => ?_, fun stops result journey => ?_⟩
  · obtain ⟨debugged, halts⟩ := halting options allowed
    exact start.journey allowed debugged halts
  · obtain ⟨own, passed, ordered⟩ := journey.marks halting start
    have at_station : ∀ t ∈ stops, t.asked = false → t.machine.position ∈ stations context breakpoints program ∧
        t.InFront context program t.machine.position := by
      intro t within unasked
      obtain ⟨armed, reaches, inFront⟩ := (own t within).2 unasked
      exact ⟨mem_stations.2 ⟨armed, reaches⟩, inFront⟩
    have none_passed : ∀ i ∈ stations context breakpoints program, ∃ t ∈ stops, t.machine.position = i :=
      fun i station => passed i (mem_stations.1 station).1 (mem_stations.1 station).2
    refine ⟨fun unasked => ?_, at_station, none_passed, ordered⟩
    -- two strictly increasing lists with the same members
    have increasing : (stops.map (·.machine.position)).Pairwise (· < ·) := by
      rw [List.pairwise_map]
      exact ordered.imp_of_mem fun _ within pair => pair.2 (unasked _ within)
    have program_order : (stations context breakpoints program).Pairwise (· < ·) :=
      List.pairwise_lt_range.filter _
    refine increasing.eq_of_mem_iff program_order fun i => ⟨fun stopped => ?_, fun station => ?_⟩
    · obtain ⟨t, within, rfl⟩ := List.mem_map.1 stopped
      exact (at_station t within (unasked t within)).1
    · obtain ⟨t, within, at_⟩ := none_passed i station
      exact List.mem_map.2 ⟨t, within, at_⟩

/-- A script with two statements on one line, a sleep among them, and with a spin that it does not come to. -/
def walk : List Statement :=
  [⟨1, .display (.text "a")⟩, ⟨2, .sleep 5⟩, ⟨2, .display (.text "b")⟩, ⟨3, .fail "the end"⟩, ⟨2, .spin⟩]

/-- With a breakpoint on that line it is suspended at the sleep, and when that is over at the statement behind it. -/
theorem stops_once_of_walk :
    ∃ stops result,
      Journey (engine.makeContext { chapter := 3 })
          (fun options => options.debuggerOn = true ∧ options.breakpoints = .ofList [2]) { program := walk } [] 0
          stops result ∧
        stops.map (·.machine.position) = [1, 2] ∧
        ∃ t ∈ stops, t.machine.position = 2 ∧ t.lines = ["a"] ∧ t.slept = 5 ∧ t.location = some (.line 2) := by
  let context := engine.makeContext { chapter := 3 }
  obtain ⟨goes, comes⟩ := stops_once context (.ofList [2]) walk
    (fun options => options.debuggerOn = true ∧ options.breakpoints = .ofList [2]) fun _ allowed => allowed
  obtain ⟨stops, result, journey, unasked⟩ :=
    goes { budgetMs := 0, debuggerOn := true, breakpoints := .ofList [2] } ⟨rfl, rfl⟩
  obtain ⟨all, inFront, passed, -⟩ := comes stops result journey
  have two : stations context (.ofList [2]) walk = [1, 2] := rfl
  obtain ⟨t, within, second⟩ := passed 2 (by simp [two])
  have stands := (inFront t within (unasked t within)).2
  rw [second] at stands
  exact ⟨stops, result, journey, (all unasked).trans two, t, within, second, stands.lines_eq, stands.slept_eq,
    stands.location_eq⟩

end Workbench.Script
