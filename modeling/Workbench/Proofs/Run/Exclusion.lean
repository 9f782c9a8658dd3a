/-
Mutual exclusion in a workspace, at every moment of every course of events.

Three things belong to the holder of the permit and to nobody else: the engine
while it runs, the listener that signals are delivered to, and the context. No
listener is ever armed in the place of another, and the context is exchanged
only when no engine runs.
-/
import Workbench.Proofs.Run.Ownership
import Workbench.Script.Machine

namespace Workbench

variable {E : Engine}

/-! ## Who touches the context -/

namespace Job

variable {h : House} {id : JobId} {sc : Scene E} {job : Job E} {a : Advance E}

/-- Whether the engine runs for the job. -/
def Runs (job : Job E) : Prop := ∃ live, job.stage = .running live

/-- Whether it does, as a test. -/
def isRunning (job : Job E) : Bool :=
  match job.stage with
  | .running _ => true
  | _ => false

theorem isRunning_iff : job.isRunning = true ↔ job.Runs := by
  unfold isRunning Runs
  cases job.stage <;> simp

theorem Runs.owning (runs : job.Runs) : job.stage.place = .owning := by
  obtain ⟨live, stage⟩ := runs
  rw [stage]
  rfl

/-- When a run is over, no engine runs. -/
theorem conclude_still {mode : Mode} {end_ : Scene E × Outcome} : ¬ (conclude job mode end_).job.Runs := by
  rintro ⟨live, stage⟩
  cases stage

theorem finishInterrupted_context (mode : Mode) :
    (sc.finishInterrupted h mode).1.slot.state.context = sc.slot.state.context.report [Scene.stopped] := by
  cases mode <;> rfl

theorem settleMode_context (mode : Mode) (verdict : Verdict) (occurrence : Nat → Occurrence) :
    (sc.settleMode mode verdict occurrence).slot.state.context = sc.slot.state.context := by
  cases mode <;> rfl

theorem finishFaults_context (mode : Mode) (faults : List Fault) (prependLines : Int32) :
    (sc.finishFaults mode faults prependLines).1.slot.state.context = sc.slot.state.context.report faults := by
  rw [Scene.finishFaults_slot, settleMode_context]
  rfl

/-- The end of a run leaves the context as it is, or reports faults in it. -/
theorem finish_context (h : House) (sc : Scene E) (l : Live E) (result : RunResult E.Snapshot) :
    (finish h sc l result).1.slot.state.context = sc.slot.state.context ∨
      ∃ faults, (finish h sc l result).1.slot.state.context = sc.slot.state.context.report faults := by
  cases result with
  | finished value =>
    left
    simp only [finish, Scene.finishValue_slot, settleMode_context]
    rfl
  | failed faults => exact .inr ⟨faults, finishFaults_context ..⟩
  | suspended snapshot location =>
    simp only [finish]
    split
    · right
      refine ⟨[], ?_⟩
      rw [finishFaults_context]
    · left
      rw [Scene.finishSuspended_slot]
      dsimp only
      split <;> rfl

/-- A step leaves the context as it is, makes a new one when no engine runs for the job, or reports faults in
it after the engine has been released. -/
theorem Rule.context (rule : Rule h id sc job a) :
    a.scene.slot.state.context = sc.slot.state.context ∨
      job.stage.place = .owning ∧ ¬ a.job.Runs ∧
        (¬ job.Runs ∧ a.scene.slot.state.context = E.makeContext sc.slot.state.selection ∨
          (¬ job.Runs ∨ .engine .release ∈ a.scene.effects) ∧
            ∃ faults, a.scene.slot.state.context = sc.slot.state.context.report faults) := by
  cases rule with
  | @loaded purpose wait next stage waited =>
    right
    have still : ¬ job.Runs := by
      rintro ⟨live, runs⟩
      cases stage.symm.trans runs
    refine ⟨by rw [stage]; rfl, ?_, .inl ⟨still, ?_⟩⟩
    · rintro ⟨live, runs⟩
      cases purpose <;> cases runs
    · rw [← waited.slot]
      cases purpose <;> rfl
  | @stoppedEarly l number rest stage =>
    right
    have still : ¬ job.Runs := by
      rintro ⟨live, runs⟩
      cases stage.symm.trans runs
    exact ⟨by rw [stage]; rfl, conclude_still, .inr ⟨.inl still, _, finishInterrupted_context ..⟩⟩
  | @ended l lines result stage =>
    rcases finish_context h ((sc.heard lines).add (.engine .release)) l result with same | ⟨faults, reported⟩
    · exact .inl same
    · right
      refine ⟨by rw [stage]; rfl, conclude_still, .inr ⟨.inr ?_, faults, reported⟩⟩
      obtain ⟨more, seen, -⟩ := finish_effects h ((sc.heard lines).add (.engine .release)) l result
      simp [seen]
  | @stopped l lines run wake number rest stage =>
    right
    refine ⟨by rw [stage]; rfl, conclude_still, .inr ⟨.inr ?_, _, finishInterrupted_context ..⟩⟩
    simp
  | chapter | library =>
    left
    rw [Scene.forgetShown_slot]
    split <;> rfl
  | enqueued => rw [enqueue_slot]; exact .inl rfl
  | left => rw [leave_slot]; exact .inl rfl
  | cutShort | aborted | completed => rw [endBatch_slot]; exact .inl rfl
  | launched => rw [launch_slot]; exact .inl rfl
  | gradedEmpty | gradedBegun =>
    left
    simp only [Scene.occur_slot, Scene.sayBriefly_slot, refusePause_slot]
  | _ => exact .inl rfl

end Job

/-! ## The theorem -/

namespace Site

/-- Whether no engine runs for any job of the workspace. -/
def Quiescent (s : Site E) : Prop := ∀ id job, s.job? id = some job → ¬ job.Runs

/-- What the holder of the permit has to itself at a moment. -/
structure Exclusive (s : Site E) : Prop where
  /-- the engine runs for the holder of the permit only -/
  engine : ∀ {id job}, s.job? id = some job → job.Runs → s.slot.permit.holder = some id
  /-- and for one job at most -/
  single : ∀ {id j job other}, s.job? id = some job → job.Runs → s.job? j = some other → other.Runs → id = j
  /-- if somebody listens, it is the holder -/
  listener : ∀ {l}, s.slot.mailbox.listener = some l →
    ∃ id job, s.slot.permit.holder = some id ∧ s.job? id = some job ∧ job.receiver = some l.number
  /-- only the holder can receive anything -/
  receiver : ∀ {id job number}, s.job? id = some job → job.receiver = some number →
    s.slot.permit.holder = some id

/-- What nobody but the holder of the permit does to the workspace in a move. -/
structure Guarded (hub : Hub E) (m : Move) (s next : Site E) : Prop where
  /-- a new number is given to a listener only by the holder, and nobody else's listener is replaced -/
  arming : next.slot.mailbox.next ≠ s.slot.mailbox.next →
    s.slot.mailbox.listener = none ∧ ∃ id now, m = .step id now ∧ s.slot.permit.holder = some id
  /-- a signal is delivered to the holder only -/
  delivery : ∀ number, (s.slot.mailbox.queue number).length < (next.slot.mailbox.queue number).length →
    ∃ id job, s.slot.permit.holder = some id ∧ s.job? id = some job ∧ job.receiver = some number
  /-- the context is exchanged by the holder only: made anew while no engine runs, or with faults reported in
  it while no engine runs or after it was released, and no engine runs then -/
  context : next.slot.state.context = s.slot.state.context ∨
    ∃ id now, m = .step id now ∧ s.slot.permit.holder = some id ∧ next.Quiescent ∧
      (s.Quiescent ∧ next.slot.state.context = E.makeContext s.slot.state.selection ∨
        (s.Quiescent ∨ .engine .release ∈ (hub.step now id).2) ∧
          ∃ faults, next.slot.state.context = s.slot.state.context.report faults)

/-- A job that runs owns the workspace. -/
theorem Owned.runs {s : Site E} (owned : s.Owned) {id : JobId} {job : Job E} (known : s.job? id = some job)
    (runs : job.Runs) : s.slot.permit.holder = some id := owned.owner known runs.owning

theorem Owned.exclusive {s : Site E} (owned : s.Owned) : s.Exclusive where
  engine := owned.runs
  single := by
    intro id j job other known runs there running
    exact Option.some.inj ((owned.runs known runs).symm.trans (owned.runs there running))
  listener := by
    intro l armed
    obtain ⟨id, job, known, receiver⟩ := owned.listener l armed
    exact ⟨id, job, owned.holder known receiver, known, receiver⟩
  receiver := owned.holder

/-- Where the holder's engine does not run, none does. -/
theorem Owned.quiescent {s : Site E} (owned : s.Owned) {id : JobId} {job : Job E} (known : s.job? id = some job)
    (held : s.slot.permit.holder = some id) (still : ¬ job.Runs) : s.Quiescent := by
  intro j other there runs
  cases held.symm.trans (owned.runs there runs)
  cases known.symm.trans there
  exact still runs

/-- Where the holder has stopped the engine, none runs. -/
theorem Owned.quiescent_take {s : Site E} (owned : s.Owned) {id : JobId} (held : s.slot.permit.holder = some id)
    {a : Advance E} (still : ¬ a.job.Runs) : (s.take id a).Quiescent := by
  intro j other there runs
  by_cases same : j = id
  · subst same
    cases (s.take_own j a).symm.trans there
    exact still runs
  · rw [s.take_other a same] at there
    cases held.symm.trans (owned.runs there runs)
    exact same rfl

/-- A number is given out by one who has just been admitted. -/
theorem Owned.arming {s : Site E} (owned : s.Owned) {id : JobId} {job : Job E} (known : s.job? id = some job)
    {a : Advance E} (trade : Job.Trade id s.slot job a.scene.slot a.job)
    (given : a.scene.slot.mailbox.next ≠ s.slot.mailbox.next) :
    s.slot.mailbox.listener = none ∧ s.slot.permit.holder = some id := by
  have standing := owned.standing known
  cases trade with
  | arms place =>
    rw [Job.Standing, place] at standing
    exact ⟨owned.unarmed known place, standing.1⟩
  | stays _ _ _ mailbox | asks _ _ _ _ mailbox | admitted _ _ _ _ _ mailbox | works _ _ _ _ mailbox
  | leaves _ _ _ _ mailbox => exact absurd mailbox.next given

end Site

/-- In every workspace, at every moment of every course of events, engine, listener, receivers and context are
the permit holder's, and whatever happens next respects that. -/
theorem Hub.Reachable.mutual_exclusion {hub : Hub E} (reached : hub.Reachable) {w : WorkspaceId} {s : Site E}
    (here : hub.site? w = some s) :
    s.Exclusive ∧ ∀ m next, (hub.move m).site? w = some next → Site.Guarded hub m s next := by
  have owned := reached.owned here
  refine ⟨owned.exclusive, fun m next there => ?_⟩
  have delivered : ∀ {n l}, s.slot.mailbox.listener = some l → l.number = n →
      ∃ id job, s.slot.permit.holder = some id ∧ s.job? id = some job ∧ job.receiver = some n := by
    rintro _ l armed rfl
    exact owned.exclusive.listener armed
  obtain ⟨_, moved, rfl | ⟨c, cause, step⟩⟩ := move_site reached.sound m here
  · cases moved.symm.trans there
    exact ⟨fun given => absurd rfl given, fun n grown => absurd grown (Nat.lt_irrefl _), .inl rfl⟩
  · cases moved.symm.trans there
    cases step with
    | edit e =>
      refine ⟨fun given => absurd rfl given, fun n grown => absurd grown (Nat.lt_irrefl _), .inl ?_⟩
      cases e <;> rfl
    | clearOutput => exact ⟨fun given => absurd rfl given, fun n grown => absurd grown (Nat.lt_irrefl _), .inl rfl⟩
    | submit => exact ⟨fun given => absurd rfl given, fun n grown => absurd grown (Nat.lt_irrefl _), .inl rfl⟩
    | signal sig =>
      refine ⟨fun given => absurd (Mailbox.fire_within _ sig).next given, fun n grown => ?_, .inl rfl⟩
      obtain ⟨l, armed, number⟩ := Mailbox.fire_queue grown
      exact delivered armed number
    | step h same asked id job known =>
      obtain ⟨now, rfl⟩ : ∃ now, m = .step id now := by
        cases cause
        exact ⟨_, rfl⟩
      obtain ⟨own, seen⟩ := step_own reached.sound here known now
      rw [← Option.some.inj (own.symm.trans there)]
      have rule := Job.step_rule (hub.house now) id { slot := s.slot, asked := hub.asked } job
      refine ⟨fun given => ?_, fun n grown => ?_, ?_⟩
      · obtain ⟨unarmed, held⟩ := owned.arming known rule.trade given
        exact ⟨unarmed, id, now, rfl, held⟩
      · obtain ⟨-, -, l, armed, number⟩ := rule.delivery grown
        exact delivered armed number
      · rcases rule.context with kept | ⟨place, later, exchanged⟩
        · exact .inl kept
        · have held := owned.owner known place
          have quiescent := owned.quiescent known held
          refine .inr ⟨id, now, rfl, held, owned.quiescent_take held later, ?_⟩
          rw [seen]
          exact exchanged.imp (And.imp_left quiescent) (And.imp_left (Or.imp_left quiescent))

/-- While a script runs in the playground, it is all the job's own. -/
theorem mutual_exclusion_of_running_script :
    ∃ (hub : Hub Script.engine) (s : Site Script.engine) (job : Job Script.engine),
      hub.Reachable ∧ hub.site? .playground = some s ∧ s.job? 0 = some job ∧ job.Runs ∧ s.Exclusive ∧
        ∀ m next, (hub.move m).site? .playground = some next → Site.Guarded hub m s next := by
  let moves : List Move := .submit 0 .playground (.evaluate .replRun) :: List.replicate 6 (.step 0 0)
  have reached := (Hub.Reachable.create (E := Script.engine) {} .bundled).after moves
  have opened : (((Hub.create (E := Script.engine) {} .bundled).1.after moves).site? .playground).isSome = true := by
    decide +kernel
  have runs : (((Hub.create (E := Script.engine) {} .bundled).1.after moves).jobOn? .playground 0).any
      (·.isRunning) = true := by
    decide +kernel
  generalize (Hub.create (E := Script.engine) {} .bundled).1.after moves = hub at reached opened runs
  obtain ⟨s, here⟩ := Option.isSome_iff_exists.1 opened
  obtain ⟨job, known, runs⟩ := (Option.any_eq_true _ _).1 runs
  rw [← (Hub.site?_eq_some.1 here).2] at known
  obtain ⟨exclusive, guarded⟩ := reached.mutual_exclusion here
  exact ⟨hub, s, job, reached, here, known, Job.isRunning_iff.1 runs, exclusive, guarded⟩

end Workbench
