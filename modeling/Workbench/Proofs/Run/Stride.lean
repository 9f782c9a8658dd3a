/-
The steps that one job takes in a course of events (`Hub.strides`), and what a
step has to do with the engine and with the console.

In a step the engine is started once, or polled once, or neither
(`Job.Rule.engine`). What a poll writes comes to the console; otherwise lines
only ever go there when the whole output is cleared.
-/
import Workbench.Proofs.Run.Attention
import Workbench.Proofs.Run.Exclusion
import Workbench.Proofs.Workspace.Journal

namespace Workbench

variable {E : Engine}

/-! ## The engine -/

/-- Whether a run is started, or a suspended one taken up again. -/
@[simp] def Effect.isStart : Effect E → Bool
  | .engine (.start ..) => true
  | .engine (.resume ..) => true
  | _ => false

/-- Whether a run is polled. -/
@[simp] def Effect.isPoll : Effect E → Bool
  | .engine (.poll _) => true
  | _ => false

/-- The lines that a run has written when it was polled. -/
def Effect.written : Effect E → List String
  | .engine (.poll lines) => lines
  | _ => []

/-- Whether a run is started or polled. -/
@[simp] def Effect.isOfRun (e : Effect E) : Bool := e.isStart || e.isPoll

namespace Scene

variable (h : House) (sc : Scene E)

/-- The starts and polls of runs among what has been seen. -/
def traffic (sc : Scene E) : List (Effect E) := sc.effects.filter Effect.isOfRun

/-- Where nothing is done with the engine, no run is started or polled. -/
theorem filter_of_silent {more : List (Effect E)} (silent : ∀ e ∈ more, e.isCall = false) :
    more.filter Effect.isOfRun = [] := by
  refine List.filter_eq_nil_iff.2 fun e there => ?_
  have other := silent e there
  cases e with
  | engine => cases other
  | _ => exact Bool.false_ne_true

@[simp] theorem filter_ended (mode : Mode) (occurrence : Nat → Occurrence) :
    (sc.ended mode occurrence).filter Effect.isOfRun = [] := filter_of_silent (sc.isCall_ended mode occurrence)

/-- What is on the console. -/
def console (sc : Scene E) : List String := sc.slot.state.output.lines

@[simp] theorem onState_console (f : WorkspaceState → WorkspaceState) :
    (sc.onState f).console = (f sc.slot.state).output.lines := rfl

@[simp] theorem add_console (e : Effect E) : (sc.add e).console = sc.console := rfl

@[simp] theorem took_console (number : Nat) (rest : List Signal) : (sc.took number rest).console = sc.console := rfl

@[simp] theorem heard_console (lines : List String) : (sc.heard lines).console = sc.console ++ lines :=
  OutputLog.appendLines_lines ..

@[simp] theorem finishInterrupted_console (mode : Mode) : (sc.finishInterrupted h mode).1.console = sc.console := by
  cases mode <;> rfl

@[simp] theorem settleMode_console (mode : Mode) (verdict : Verdict) (occurrence : Nat → Occurrence) :
    (sc.settleMode mode verdict occurrence).console = sc.console := by
  cases mode <;> rfl

@[simp] theorem finishValue_console (mode : Mode) (value : Json) :
    (sc.finishValue mode value).1.console = sc.console := by
  simp only [finishValue, settleMode_console, onState_console]
  exact OutputLog.appendResult_lines ..

@[simp] theorem finishFaults_console (mode : Mode) (faults : List Fault) (prependLines : Int32) :
    (sc.finishFaults mode faults prependLines).1.console = sc.console := by
  simp only [finishFaults, settleMode_console, onState_console]
  exact OutputLog.appendFaults_lines ..

@[simp] theorem finishSuspended_console (s : Suspension E.Snapshot) (paused : Bool) :
    (sc.finishSuspended h s paused).1.console = sc.console := by
  cases paused with
  | true => rfl
  | false => exact OutputLog.appendResult_lines ..

end Scene

namespace Job

variable {h : House} {id : JobId} {sc : Scene E} {job : Job E} {a : Advance E}

@[simp] theorem filter_finish (l : Live E) (result : RunResult E.Snapshot) :
    (finish h sc l result).1.effects.filter Effect.isOfRun = sc.effects.filter Effect.isOfRun := by
  obtain ⟨more, seen, silent⟩ := finish_effects h sc l result
  rw [seen, List.filter_append, Scene.filter_of_silent silent, List.append_nil]

@[simp] theorem finish_console (l : Live E) (result : RunResult E.Snapshot) :
    (finish h sc l result).1.console = sc.console := by
  unfold finish
  split
  · simp
  · simp
  · split <;> simp

/-- What a step has to do with the engine and with the console. -/
inductive Traffic (h : House) (sc : Scene E) (job : Job E) (a : Advance E) : Prop
  /-- nothing, except that the output may be cleared -/
  | idle (still : ¬ job.Runs) (calls : a.scene.traffic = sc.traffic)
    (console : a.scene.console = [] ∨ a.scene.console = sc.console)
  /-- a run is started, with no signal left to be looked at -/
  | starts {l : Launch E} (stage : job.stage = .starting l) (quiet : Quiet sc job)
    (calls : a.scene.traffic = sc.traffic ++ [.engine (call l)]) (console : a.scene.console = sc.console)
  /-- the run is polled -/
  | polls {l : Live E} {lines : List String} (stage : job.stage = .running l)
    (wrote : lines = (E.poll l.run h.now { paused := l.paused }).1)
    (calls : a.scene.traffic = sc.traffic ++ [.engine (.poll lines)]) (console : a.scene.console = sc.console ++ lines)

theorem not_runs {stage : Stage E} (at_ : job.stage = stage) (other : ∀ live, stage ≠ .running live) : ¬ job.Runs := by
  rintro ⟨live, runs⟩
  exact other live (at_.symm.trans runs)

theorem isRunning_of {stage : Stage E} (at_ : job.stage = stage) (other : ∀ l, stage ≠ .running l) :
    job.isRunning = false := by
  rw [← Bool.not_eq_true, isRunning_iff]
  exact not_runs at_ other

@[simp] theorem conclude_console (mode : Mode) (end_ : Scene E × Outcome) :
    (conclude job mode end_).scene.console = end_.1.console := rfl

/-- Every step is of one of these kinds. -/
theorem Rule.engine (rule : Rule h id sc job a) : Traffic h sc job a := by
  cases rule with
  | refused stage | waiting stage | admitted stage | unchanged stage | deprived stage | answered stage | next stage
  | settled stage | editor stage =>
    exact .idle (not_runs stage (by simp)) rfl (.inr rfl)
  | armed stage | allEmpty stage | pausedEarly stage =>
    exact .idle (not_runs stage (by simp)) rfl (.inr rfl)
  | allBegun stage => exact .idle (not_runs stage (by simp)) (by simp [Scene.traffic, arm]) (.inr rfl)
  | testcase stage | loading stage => exact .idle (not_runs stage (by simp)) (by simp [Scene.traffic]) (.inr rfl)
  | repl stage => exact .idle (not_runs stage (by simp)) rfl (.inr (OutputLog.pushCode_lines ..))
  | reset stage | resumed stage => exact .idle (not_runs stage (by simp)) (by simp [Scene.traffic]) (.inl rfl)
  | chapter stage | library stage =>
    refine .idle (not_runs stage (by simp)) (by simp [Scene.traffic]) (.inr ?_)
    rw [Scene.console, Scene.forgetShown_slot]
    split <;> rfl
  | cutShort stage | aborted stage | completed stage =>
    exact .idle (not_runs stage (by simp)) (by simp [Scene.traffic]) (.inr (by simp [Scene.console]))
  | enqueued stage =>
    exact .idle (not_runs stage (by simp)) (by simp [Scene.traffic]) (.inr (by simp [Scene.console, enqueue_slot]))
  | left stage =>
    exact .idle (not_runs stage (by simp)) (by simp [Scene.traffic]) (.inr (by simp [Scene.console, leave_slot]))
  | gradedEmpty stage | gradedBegun stage =>
    exact .idle (not_runs stage (by simp)) (by simp [Scene.traffic]) (.inr (by simp [Scene.console, refusePause_slot]))
  | launched stage =>
    refine .idle (not_runs stage (by simp)) ?_ (.inr (by rw [Scene.console, launch_slot]; rfl))
    simp only [Scene.traffic, launch_effects]
    split <;> simp
  | @loaded purpose wait next stage waited =>
    have calls : next.effects.filter Effect.isOfRun = sc.traffic := by
      rcases waited with rfl | rfl <;> simp [Scene.traffic]
    have console : next.console = sc.console := congrArg (·.state.output.lines) waited.slot
    refine .idle (not_runs stage (by simp)) ?_ ?_
    · cases purpose <;> simp [Scene.traffic, proceed, calls]
    · cases purpose with
      | testcaseRun => exact .inr console
      | _ => exact .inl rfl
  | stoppedEarly stage => exact .idle (not_runs stage (by simp)) (by simp [Scene.traffic]) (.inr (by simp))
  | started stage quiet =>
    refine .starts stage quiet ?_ rfl
    unfold call
    split <;> simp [Scene.traffic]
  | ended stage polled | stopped stage polled =>
    exact .polls stage (by rw [polled]) (by simp [Scene.traffic]) (by simp)
  | paused stage polled | unheard stage polled | running stage polled =>
    exact .polls stage (by rw [polled]) (by simp [Scene.traffic]) (by simp)

end Job

/-! ## The steps of one job -/

/-- The run that has just come to its end, and how. -/
def Stage.ended? : Stage E → Option (Mode × Outcome)
  | .concluded mode o => some (mode, o)
  | _ => none

/-- A stage at which the libraries are waited for. -/
def Stage.isLoading : Stage E → Bool
  | .loading .. => true
  | _ => false

/-- Whether a run that was polled has left nothing of the turn. -/
def Advance.spends (a : Advance E) : Bool := a.wake == some .spent

/-- A step that a job takes: the time, what it finds, and what it makes of it. -/
structure Stride (E : Engine) where
  now : Nat
  slot : Slot E
  job : Job E
  made : Advance E

namespace Stride

/-- How often a run is polled. -/
def polls (s : Stride E) : Nat := s.made.scene.effects.countP Effect.isPoll

/-- How often a run is started, or a suspended one taken up again. -/
def starts (s : Stride E) : Nat := s.made.scene.effects.countP Effect.isStart

/-- What the runs that are polled write. -/
def written (s : Stride E) : List String := s.made.scene.effects.flatMap Effect.written

/-- The run that is over with this step, and how it ended. -/
def ended? (s : Stride E) : Option (Mode × Outcome) := s.made.job.stage.ended?

/-- Whether the libraries are waited for, and not yet long enough. -/
def waits (s : Stride E) : Bool := s.job.stage.isLoading && s.made.wake.isSome

/-- Whether a run that is polled leaves nothing of the turn, so that no signal can be looked at. -/
def spends (s : Stride E) : Bool := s.made.spends

/-- Whether the step brings nothing about: the libraries are waited for, or no signal can be looked at. -/
def stalls (s : Stride E) : Bool := s.waits || s.spends

/-- A step that has been made so. -/
def Made (s : Stride E) : Prop :=
  ∃ h id asked, s.now = h.now ∧ s.made = Job.step h id { slot := s.slot, asked := asked } s.job

theorem written_traffic (effects : List (Effect E)) :
    (effects.filter Effect.isOfRun).flatMap Effect.written = effects.flatMap Effect.written := by
  induction effects with
  | nil => rfl
  | cons e rest ih =>
    cases kept : e.isOfRun with
    | true => rw [List.filter_cons_of_pos kept, List.flatMap_cons, List.flatMap_cons, ih]
    | false =>
      have silent : e.written = [] := by
        cases e with
        | engine c => cases c <;> first | rfl | cases kept
        | _ => rfl
      rw [List.filter_cons_of_neg (ne_true_of_eq_false kept), List.flatMap_cons, silent, ih, List.nil_append]

theorem polls_traffic (s : Stride E) : s.polls = s.made.scene.traffic.countP Effect.isPoll := by
  rw [polls, Scene.traffic, List.countP_filter]
  congr
  funext e
  show e.isPoll = (e.isPoll && (e.isStart || e.isPoll))
  cases e.isPoll <;> cases e.isStart <;> rfl

theorem starts_traffic (s : Stride E) : s.starts = s.made.scene.traffic.countP Effect.isStart := by
  rw [starts, Scene.traffic, List.countP_filter]
  congr
  funext e
  show e.isStart = (e.isStart && (e.isStart || e.isPoll))
  cases e.isStart <;> rfl

/-- What a step that has been made has to do with engine and console, when it finds a signal if it is about to
start a run. -/
theorem Made.engine {s : Stride E} (made : s.Made)
    (unquiet : ∀ l asked, s.job.stage = .starting l → ¬ Job.Quiet { slot := s.slot, asked := asked } s.job) :
    s.starts = 0 ∧ (s.polls = if s.job.isRunning then 1 else 0) ∧
      (s.made.scene.console = [] ∨ s.made.scene.console = s.slot.state.output.lines ++ s.written) := by
  obtain ⟨h, id, asked, -, step⟩ := made
  have rule := Job.step_rule h id { slot := s.slot, asked := asked } s.job
  rw [← step] at rule
  have written : s.written = s.made.scene.traffic.flatMap Effect.written := (written_traffic _).symm
  rw [s.starts_traffic, s.polls_traffic, written]
  cases rule.engine with
  | idle still calls console =>
    have stands : s.job.isRunning = false := by rw [← Bool.not_eq_true, Job.isRunning_iff]; exact still
    rw [calls, stands]
    exact ⟨rfl, rfl, console.imp_right fun same => same.trans (List.append_nil _).symm⟩
  | starts stage quiet => exact absurd quiet (unquiet _ _ stage)
  | @polls l lines stage wrote calls console =>
    have runs : s.job.isRunning = true := Job.isRunning_iff.2 ⟨l, stage⟩
    rw [calls, runs]
    exact ⟨rfl, rfl, .inr (console.trans (congrArg (_ ++ ·) (List.append_nil lines).symm))⟩

end Stride

namespace Hub

/-- The step that a job takes in a move, if it takes one. -/
def stride? (hub : Hub E) (w : WorkspaceId) (id : JobId) : Move → Option (Stride E)
  | .step j now =>
    if j = id then do
      let s ← hub.site? w
      let job ← s.job? id
      return {
        now := now
        slot := s.slot
        job := job
        made := Job.step (hub.house now) id { slot := s.slot, asked := hub.asked } job }
    else none
  | _ => none

/-- The steps that a job takes in a course of moves. -/
def strides (hub : Hub E) (w : WorkspaceId) (id : JobId) : List Move → List (Stride E)
  | [] => []
  | m :: moves => (hub.stride? w id m).toList ++ (hub.move m).strides w id moves

variable {hub : Hub E} {w : WorkspaceId} {s : Site E} {id : JobId} {job : Job E}

/-- A job takes a step of its own, or is left as it is. -/
theorem Reachable.stride (reached : hub.Reachable) (here : hub.site? w = some s) (known : s.job? id = some job)
    (m : Move) :
    (∃ now, hub.stride? w id m = some ⟨now, s.slot, job,
        Job.step (hub.house now) id { slot := s.slot, asked := hub.asked } job⟩ ∧
      (hub.move m).site? w =
        some (s.take id (Job.step (hub.house now) id { slot := s.slot, asked := hub.asked } job))) ∨
    hub.stride? w id m = none ∧ ∃ next, (hub.move m).site? w = some next ∧ next.job? id = some job ∧
      ∀ number, job.receiver = some number →
        next.slot.mailbox = s.slot.mailbox ∨ ∃ sig, next.slot.mailbox = (s.slot.mailbox.fire sig).1 := by
  by_cases own : ∃ now, m = .step id now
  · obtain ⟨now, rfl⟩ := own
    exact .inl ⟨now, by simp [stride?, here, known], (step_own reached.sound here known now).1⟩
  · have none : hub.stride? w id m = none := by
      cases m with
      | step j now =>
        have other : j ≠ id := by
          rintro rfl
          exact own ⟨now, rfl⟩
        simp [stride?, other]
      | _ => rfl
    obtain ⟨next, there, rfl | ⟨c, cause, step⟩⟩ := move_site reached.sound m here
    · exact .inr ⟨none, _, there, known, fun _ _ => .inl rfl⟩
    · rcases (reached.owned here).attended known step with ⟨rfl, -⟩ | ⟨-, same, mailbox⟩
      · cases cause
        exact absurd ⟨_, rfl⟩ own
      · exact .inr ⟨none, _, there, same, mailbox⟩

theorem stride?_eq_some {m : Move} {step : Stride E} (took : hub.stride? w id m = some step) :
    ∃ s, hub.site? w = some s ∧ s.slot = step.slot ∧ s.job? id = some step.job ∧ step.Made := by
  cases m with
  | step j now =>
    simp only [stride?] at took
    split at took
    · cases here : hub.site? w with
      | none => simp [here] at took
      | some s =>
        cases known : s.job? id with
        | none => simp [here, known] at took
        | some job =>
          simp only [here, known, Option.bind_eq_bind, Option.bind_some, Option.pure_def, Option.some.injEq] at took
          subst took
          exact ⟨s, rfl, rfl, known, hub.house now, id, hub.asked, rfl, rfl⟩
    · cases took
  | _ => cases took

end Hub

end Workbench
