/-
How an interrupt comes through.

From the moment at which it is accepted for a job, the job comes to its end
within ten steps, whatever else goes on, beside those in which it waits for the
libraries and those in which the engine leaves nothing of the turn, so that no
signal can be looked at (`Hub.Reachable.interrupted`).
-/
import Workbench.Directive.Engine
import Workbench.Proofs.Run.Halt

namespace Workbench

variable {E : Engine}

/-! ## What is seen of an interruption -/

theorem Scene.finishSuspended_outcome (h : House) (sc : Scene E) (s : Suspension E.Snapshot) (paused : Bool) :
    (sc.finishSuspended h s paused).2 = if paused then .paused else .breakpointHit := by
  cases paused <;> rfl

namespace Job

variable {h : House} {id : JobId} {sc : Scene E} {job : Job E} {a : Advance E}

/-- An interruption in a run of a mode, with what the run has written before. -/
structure Interrupts (slot : Slot E) (mode : Mode) (written : List String) (later : Slot E) : Prop where
  fault : later.state.context.faults = slot.state.context.faults ++ [.interrupted {}]
  /-- neither a result nor faults are added to the output -/
  output : later.state.output = slot.state.output.appendLines written
  testcase : ∀ i, mode = .testcaseRun i →
    later.state.testcases = slot.state.testcases.modify i ({ · with result := .failure [.interrupted {}] })
  forgotten : (∀ i, mode ≠ .testcaseRun i) → later.suspended = none

theorem finishInterrupted_interrupts (h : House) (sc : Scene E) (mode : Mode) :
    Interrupts sc.slot mode [] (sc.finishInterrupted h mode).1.slot := by
  cases mode with
  | testcaseRun i =>
    refine ⟨rfl, rfl, ?_, fun other => absurd rfl (other i)⟩
    rintro _ ⟨⟩
    rfl
  | _ => exact ⟨rfl, rfl, fun _ same => (by cases same), fun _ => rfl⟩

/-- A run that is interrupted in a step was under way, or about to be. -/
theorem Rule.interrupts {mode : Mode} (rule : Rule h id sc job a)
    (ended : a.job.stage.ended? = some (mode, .interrupted)) :
    job.stage.mode? = some mode ∧ ∃ calls, a.scene.traffic = sc.traffic ++ calls ∧
      Interrupts sc.slot mode (calls.flatMap Effect.written) a.scene.slot := by
  cases rule with
  | @stoppedEarly l number rest stage =>
    cases ended
    have interrupts := finishInterrupted_interrupts h (sc.took number rest) l.mode
    refine ⟨by rw [stage]; rfl, [], by simp [Scene.traffic], ?_⟩
    exact ⟨interrupts.fault, interrupts.output, interrupts.testcase, interrupts.forgotten⟩
  | @stopped l lines run wake number rest stage =>
    cases ended
    have interrupts := finishInterrupted_interrupts h
      ((((sc.heard lines).took number rest).add (.engine (.interrupt l.context))).add (.engine .release)) l.mode
    refine ⟨by rw [stage]; rfl, [.engine (.poll lines)], ?_, interrupts.fault, ?_, interrupts.testcase,
      interrupts.forgotten⟩
    · simp [Scene.traffic]
    · rw [List.flatMap_singleton]
      exact interrupts.output
  | @ended l lines result =>
    simp only [conclude, at_, Stage.ended?, Option.some.injEq, Prod.mk.injEq] at ended
    exact absurd ended.2 (finish_ran l result)
  | waiting stage | settled stage => simp [stage, Stage.ended?] at ended
  | @loaded purpose => cases purpose <;> cases ended
  | _ => cases ended

/-- The engine comes with a result in a step. -/
def Answered (now : Nat) (job : Job E) (l : Live E) (result : RunResult E.Snapshot) : Prop :=
  job.stage = .running l ∧ ∃ lines, E.poll l.run now { paused := l.paused } = (lines, .ended result)

theorem Answered.unique {now : Nat} {l other : Live E} {result second : RunResult E.Snapshot}
    (answered : job.Answered now l result) (again : job.Answered now other second) : result = second := by
  obtain ⟨stage, lines, polled⟩ := answered
  obtain ⟨same, more, repeated⟩ := again
  cases stage.symm.trans same
  cases polled.symm.trans repeated
  rfl

/-- A run that is not interrupted ends with a result of the engine. -/
theorem Rule.answered_of_ended {mode : Mode} {o : Outcome} (rule : Rule h id sc job a)
    (ended : a.job.stage.ended? = some (mode, o)) (ran : o ≠ .interrupted) :
    ∃ l result sc', job.Answered h.now l result ∧ l.mode = mode ∧ o = (finish h sc' l result).2 ∧
      a.scene.slot = (finish h sc' l result).1.slot := by
  cases rule with
  | @ended l lines result stage polled =>
    cases ended
    exact ⟨l, result, _, ⟨stage, lines, polled⟩, rfl, rfl, rfl⟩
  | stoppedEarly | stopped =>
    cases ended
    exact absurd rfl ran
  | waiting stage | settled stage => simp [stage, Stage.ended?] at ended
  | @loaded purpose => cases purpose <;> cases ended
  | _ => cases ended

/-- A result of the engine ends the run. -/
theorem Rule.ended_of_answered {l : Live E} {result : RunResult E.Snapshot} (rule : Rule h id sc job a)
    (answered : job.Answered h.now l result) :
    ∃ o, a.job.stage.ended? = some (l.mode, o) ∧ o ≠ .interrupted := by
  obtain ⟨running, lines, answer⟩ := answered
  cases rule with
  | ended stage =>
    cases running.symm.trans stage
    exact ⟨_, rfl, finish_ran l _⟩
  | stopped stage polled | paused stage polled | unheard stage polled | running stage polled =>
    cases running.symm.trans stage
    cases answer.symm.trans polled
  | _ => simp_all

/-- The engine runs after a step if it did so before, or if it is started with no signal left. -/
theorem Rule.runs (rule : Rule h id sc job a) (later : a.job.Runs) :
    job.Runs ∨ ∃ l, job.stage = .starting l ∧ Quiet sc job := by
  obtain ⟨live, later⟩ := later
  cases rule with
  | started stage quiet => exact .inr ⟨_, stage, quiet⟩
  | paused stage | unheard stage | running stage => exact .inl ⟨_, stage⟩
  | waiting stage | settled stage => cases stage.symm.trans later
  | @loaded purpose => cases purpose <;> cases later
  | _ => cases later

/-- Until its run is over a job stays at it, unless it finds that what it prepares is not there. -/
theorem Rule.goes_on {mode : Mode} (rule : Rule h id sc job a) (run : job.stage.mode? = some mode)
    (unended : job.stage.ended? = none) :
    a.job.stage.mode? = some mode ∨
      a.job.Over ∧ job.stage = .preparing mode ∧ ∃ r, refusal? sc.slot mode = some r := by
  cases rule with
  | @loaded purpose _ _ stage =>
    rw [stage] at run
    cases purpose <;> cases run <;> exact .inl rfl
  | deprived stage because | cutShort stage because =>
    rw [stage] at run
    cases run
    exact .inr ⟨⟨_, .inl rfl⟩, stage, _, because⟩
  | editor stage | repl stage | resumed stage | testcase stage | launched stage | pausedEarly stage | started stage
  | loading stage | stoppedEarly stage | ended stage | stopped stage | paused stage | unheard stage | running stage =>
    rw [stage] at run
    exact .inl run
  | aborted stage | next stage | completed stage | gradedEmpty stage | gradedBegun stage | answered stage =>
    simp [stage, Stage.ended?] at unended
  | refused stage | enqueued stage | waiting stage | admitted stage | armed stage | allEmpty stage | allBegun stage
  | reset stage | unchanged stage | chapter stage | library stage | left stage | settled stage =>
    simp [stage, Stage.mode?] at run

/-- After an interrupted run a batch is told to be aborted. -/
theorem Rule.aborted_told {mode : Mode} {batch : Batch} (rule : Rule h id sc job a)
    (stage : job.stage = .concluded mode .interrupted) (under : job.batch = some batch) :
    ∃ summary, summary.aborted = true ∧ .event ⟨sc.slot.id, .batchFinished summary⟩ ∈ a.scene.effects := by
  cases rule with
  | @aborted _ own at_ same =>
    cases under.symm.trans same
    refine ⟨.ofTestcases sc.slot.state.testcases true, BatchSummary.ofTestcases_aborted .., ?_⟩
    simp [endBatch, Scene.occur, Scene.add]
  | _ => simp_all

/-- Whoever still waits for the libraries is not late. -/
theorem ask_deadline {loader : Loader} {now times asked : Nat} {w later : Wait}
    (left : (Wait.ask loader now times asked w).2 = some later) : later.deadline = w.deadline := by
  induction times generalizing asked w with
  | zero =>
    cases left
    rfl
  | succ times ih =>
    unfold Wait.ask at left
    split at left
    · split at left
      · cases left
      · exact (ih left).trans rfl
    · cases left
      rfl

theorem await_patient {purpose : Purpose} {wait : Wait} (waits : (await h sc job purpose wait).wake.isSome = true) :
    h.now < wait.deadline := by
  have none : ∀ sc, (proceed h sc job purpose).wake = none := fun _ => by cases purpose <;> rfl
  unfold await Wait.poll at waits
  rcases asked : Wait.ask h.loader h.now Wait.inARow sc.asked wait with ⟨count, _ | later⟩
  · simp [asked, none] at waits
  · have deadline : later.deadline = wait.deadline := ask_deadline (by rw [asked])
    by_cases late : later.deadline ≤ h.now
    · simp [asked, late, none] at waits
    · omega

end Job

/-- How a run of a mode ends in a step. -/
inductive Stride.Ends (s : Stride E) (mode : Mode) : Outcome → Prop
  /-- it is interrupted, and not kept to be resumed -/
  | interrupted (records : Job.Interrupts s.slot mode s.written s.made.scene.slot) : s.Ends mode .interrupted
  | value {l : Live E} {value : Json} (own : l.mode = mode) (answered : s.job.Answered s.now l (.finished value)) :
    s.Ends mode (.finished value)
  | faults {l : Live E} {faults : List Fault} (own : l.mode = mode)
    (answered : s.job.Answered s.now l (.failed faults)) :
    s.Ends mode (.errored (faults.map (·.remapped l.prependLines)))
  /-- a testcase's run cannot be suspended -/
  | unkept {l : Live E} {snapshot : E.Snapshot} {location : Option Location} {i : Nat}
    (testcase : mode = .testcaseRun i) (own : l.mode = mode)
    (answered : s.job.Answered s.now l (.suspended snapshot location)) :
    s.Ends mode (.errored [])
  /-- it is suspended, and kept to be resumed -/
  | suspended {l : Live E} {snapshot : E.Snapshot} {location : Option Location} (own : l.mode = mode)
    (other : ∀ i, mode ≠ .testcaseRun i) (answered : s.job.Answered s.now l (.suspended snapshot location))
    (kept : s.made.scene.slot.suspended =
      some { snapshot := snapshot, context := l.context, prependLines := l.prependLines, location := location }) :
    s.Ends mode (if l.paused then .paused else .breakpointHit)

theorem Stride.Ends.runs {s : Stride E} {mode : Mode} {o : Outcome} (ends : s.Ends mode o) (ran : o ≠ .interrupted) :
    s.job.Runs := by
  cases ends with
  | interrupted => exact absurd rfl ran
  | value _ answered | faults _ answered | unkept _ _ answered | suspended _ _ answered => exact ⟨_, answered.1⟩

/-- Each run that ends does so in one of these ways, and it is the one that the job was at. -/
theorem Stride.Made.ends {s : Stride E} (made : s.Made) {mode : Mode} {o : Outcome}
    (ended : s.ended? = some (mode, o)) : s.Ends mode o ∧ s.job.stage.mode? = some mode := by
  obtain ⟨h, id, asked, now, step⟩ := made
  have rule := Job.step_rule h id { slot := s.slot, asked := asked } s.job
  rw [← step] at rule
  by_cases interrupted : o = .interrupted
  · subst interrupted
    obtain ⟨run, calls, traffic, records⟩ := rule.interrupts ended
    have written : s.written = calls.flatMap Effect.written := by
      rw [Stride.written, ← Stride.written_traffic]
      exact congrArg (List.flatMap Effect.written) traffic
    exact ⟨.interrupted (written ▸ records), run⟩
  · obtain ⟨l, result, sc, answered, rfl, outcome, slot⟩ := rule.answered_of_ended ended interrupted
    refine ⟨?_, by rw [answered.1]; rfl⟩
    rw [← now] at answered
    subst outcome
    cases result with
    | finished value => exact .value rfl answered
    | failed faults => exact .faults rfl answered
    | suspended snapshot location =>
      unfold Job.finish at slot ⊢
      dsimp only at slot ⊢
      split at slot
      · next i testcase => exact .unkept testcase rfl answered
      · next other =>
        rw [Scene.finishSuspended_outcome]
        exact .suspended rfl other answered ((congrArg Slot.suspended slot).trans (by rw [Scene.finishSuspended_slot]))

/-- A result of the engine ends the run. -/
theorem Stride.Made.ended {s : Stride E} (made : s.Made) {l : Live E} {result : RunResult E.Snapshot}
    (answered : s.job.Answered s.now l result) : ∃ o, s.ended? = some (l.mode, o) ∧ o ≠ .interrupted := by
  obtain ⟨h, id, asked, now, step⟩ := made
  have rule := Job.step_rule h id { slot := s.slot, asked := asked } s.job
  rw [← step] at rule
  rw [now] at answered
  exact rule.ended_of_answered answered

/-! ## The course to the end -/

/-- What is seen of a step of a job that an interrupt has been accepted for. -/
structure Stride.Heedful (s : Stride E) : Prop where
  /-- no run is started, and no suspended one taken up again -/
  unstarted : s.starts = 0
  /-- nothing but what a polled run writes comes to the console -/
  console : s.made.scene.console = [] ∨ s.made.scene.console = s.slot.state.output.lines ++ s.written
  ends : ∀ mode o, s.ended? = some (mode, o) → s.Ends mode o
  result : ∀ l result, s.job.Answered s.now l result → ∃ o, s.ended? = some (l.mode, o) ∧ o ≠ .interrupted
  /-- a batch is told to be aborted after an interrupted run -/
  aborted : ∀ mode batch, s.job.stage = .concluded mode .interrupted → s.job.batch = some batch →
    ∃ summary, summary.aborted = true ∧ .event ⟨s.slot.id, .batchFinished summary⟩ ∈ s.made.scene.effects
  /-- the libraries are waited for until the time for that is over, and no longer -/
  patient : s.waits = true → ∃ purpose wait, s.job.stage = .loading purpose wait ∧ s.now < wait.deadline

/-- A run is kept to be resumed exactly if the engine says that it is suspended, and it is not a testcase's. -/
theorem Stride.Heedful.suspended_iff {s : Stride E} (heedful : s.Heedful) {mode : Mode} {o : Outcome}
    (ended : s.ended? = some (mode, o)) :
    (o = .paused ∨ o = .breakpointHit) ↔
      (∀ i, mode ≠ .testcaseRun i) ∧ ∃ l snapshot location, s.job.Answered s.now l (.suspended snapshot location) := by
  constructor
  · intro resumable
    cases heedful.ends mode o ended with
    | suspended _ other answered => exact ⟨other, _, _, _, answered⟩
    | interrupted | value | faults | unkept => rcases resumable with resumable | resumable <;> cases resumable
  · rintro ⟨other, l, snapshot, location, answered⟩
    cases heedful.ends mode o ended with
    | suspended => split <;> simp
    | interrupted =>
      obtain ⟨o, same, ran⟩ := heedful.result l _ answered
      cases ended.symm.trans same
      exact absurd rfl ran
    | value _ own => cases own.unique answered
    | faults _ own => cases own.unique answered
    | unkept testcase => exact absurd testcase (other _)

namespace Job

variable {job last : Job E} {m : Mailbox} {pauses : List Signal}

theorem Bound.unquiet {slot : Slot E} (bound : job.Bound slot.mailbox pauses) (l : Launch E) (asked : Nat)
    (stage : job.stage = .starting l) : ¬ Quiet { slot := slot, asked := asked } job := by
  cases bound with
  | called called => exact called.unquiet
  | stopped other => cases stage.symm.trans other
  | past answer => simp [stage, Stage.answer?] at answer

theorem unended_of_over (past : job.Over) : job.stage.ended? = none := by
  obtain ⟨reply, stage | stage⟩ := past <;> rw [stage] <;> rfl

theorem Bound.heedful {s : Stride E} (bound : s.job.Bound s.slot.mailbox pauses) (made : s.Made) : s.Heedful := by
  obtain ⟨unstarted, -, console⟩ := made.engine bound.unquiet
  refine ⟨unstarted, console, fun mode o ended => (made.ends ended).1, fun l result => made.ended,
    fun mode batch stage under => ?_, ?_⟩ <;> obtain ⟨h, id, asked, now, step⟩ := made
  · have rule := step_rule h id { slot := s.slot, asked := asked } s.job
    rw [← step] at rule
    exact rule.aborted_told stage under
  · intro waits
    obtain ⟨loading, wake⟩ := Bool.and_eq_true_iff.1 waits
    cases stage : s.job.stage with
    | loading purpose wait =>
      rw [step, Job.step, stage] at wake
      exact ⟨purpose, wait, rfl, now ▸ await_patient wake⟩
    | _ => simp [stage, Stage.isLoading] at loading

/-- What becomes of the run that a job is at. -/
inductive Opens (first last : Job E) (mode : Mode) (steps : List (Stride E)) : Prop
  /-- it ends, before any other, and if it is not interrupted, it was under way -/
  | ends {o : Outcome} {rest : List (Mode × Outcome)} (ends : steps.filterMap Stride.ended? = (mode, o) :: rest)
    (under : o ≠ .interrupted → first.Runs)
  | goesOn (none : steps.filterMap Stride.ended? = []) (still : last.stage.mode? = some mode)
  /-- what it is about is not there any more -/
  | givesUp {s : Stride E} (here : s ∈ steps) (none : steps.filterMap Stride.ended? = [])
    (stage : s.job.stage = .preparing mode) (missing : ∃ r, refusal? s.slot mode = some r)

/-- The steps of a job from a moment at which it is bound to stop, behind so many pauses. -/
structure Halts (first last : Job E) (pauses : List Signal) (steps : List (Stride E)) : Prop where
  each : ∀ s ∈ steps, s.Heedful
  polls : (steps.map Stride.polls).sum ≤ first.pollsLeft pauses + steps.countP Stride.spends
  settles : first.stage.toGo (pauses.length + 1) ≤ steps.countP (!·.stalls) → ∃ reply, last.stage = .settled reply
  past : first.Over → steps.filterMap Stride.ended? = []
  opens : ∀ mode, first.stage.mode? = some mode → first.stage.ended? = none → Opens first last mode steps
  ends : (∀ s ∈ steps, s.job.Provided s.slot) → ∀ reply, last.stage.answer? = some reply →
    Halt first last.batch reply (steps.filterMap Stride.ended?)

/-- A job that is bound to stop has steps to go until it is settled. -/
theorem Bound.settled (bound : job.Bound m pauses) {signals : Nat} (there : job.stage.toGo signals = 0) :
    ∃ reply, job.stage = .settled reply := by
  cases bound with
  | called _ run =>
    generalize job.stage = stage at run there
    cases stage with
    | concluded mode o => cases o <;> cases there
    | submitted | queued | admitted | settled => cases run
    | _ => cases there
  | stopped stage =>
    rw [stage] at there
    cases there
  | past answer =>
    generalize job.stage = stage at answer there
    cases stage with
    | settled reply => exact ⟨reply, rfl⟩
    | leaving => cases there
    | _ => cases answer

theorem Bound.halts (bound : job.Bound m pauses) : Halts job job pauses [] where
  each := fun _ here => absurd here List.not_mem_nil
  polls := Nat.zero_le _
  settles := fun there => bound.settled (Nat.le_zero.1 there)
  past := fun _ => rfl
  opens := fun _ run _ => .goesOn rfl run
  ends := fun _ _ answer => .past answer rfl

/-- One step more, in front. -/
theorem Halts.cons {s : Stride E} {steps : List (Stride E)} {later : List Signal} (heedful : s.Heedful)
    (polls : s.polls = if s.job.isRunning then 1 else 0) (heeds : Heeds s.slot s.job s.made pauses later)
    (goes : ∀ mode, s.job.stage.mode? = some mode → s.job.stage.ended? = none →
      s.made.job.stage.mode? = some mode ∨
        s.made.job.Over ∧ s.job.stage = .preparing mode ∧ ∃ r, refusal? s.slot mode = some r)
    (runs : s.made.job.Runs → s.job.Runs) (past : s.job.Over → s.made.job.Over)
    (rest : Halts s.made.job last later steps) : Halts s.job last pauses (s :: steps) where
  each := by
    intro t here
    rcases List.mem_cons.1 here with rfl | later
    · exact heedful
    · exact rest.each t later
  polls := by
    have here := heeds.polls
    have more := rest.polls
    have same : s.made.spends = s.spends := rfl
    rw [List.map_cons, List.sum_cons, polls, List.countP_cons]
    rw [same] at here
    omega
  settles := by
    intro far
    refine rest.settles ?_
    have nearer := heeds.nearer
    have same : (s.job.stage.isLoading && s.made.wake.isSome || s.made.spends) = s.stalls := rfl
    rw [same] at nearer
    cases stalls : s.stalls <;> simp [stalls] at nearer far <;> omega
  past := by
    intro ended
    have none : s.ended? = none := unended_of_over (past ended)
    rw [List.filterMap_cons, none]
    exact rest.past (past ended)
  opens := by
    intro mode run unended
    cases ended : s.ended? with
    | some end_ =>
      obtain ⟨mode', o⟩ := end_
      have later : s.made.job.stage.mode? = some mode' := Stage.mode?_of_ended ended
      obtain rfl : mode' = mode := by
        rcases goes mode run unended with still | ⟨past, -⟩
        · exact Option.some.inj (later.symm.trans still)
        · cases (unended_of_over past : s.ended? = none).symm.trans ended
      refine .ends (by rw [List.filterMap_cons, ended]) fun ran => ?_
      exact (heedful.ends mode' o ended).runs ran
    | none =>
      have skipped : (s :: steps).filterMap Stride.ended? = steps.filterMap Stride.ended? := by
        rw [List.filterMap_cons, ended]
      rcases goes mode run unended with still | ⟨past, stage, missing⟩
      · cases rest.opens mode still ended with
        | ends ends under => exact .ends (skipped.trans ends) fun ran => runs (under ran)
        | goesOn none still => exact .goesOn (skipped.trans none) still
        | givesUp here none stage missing => exact .givesUp (.tail _ here) (skipped.trans none) stage missing
      · exact .givesUp (.head _) (skipped.trans (rest.past past)) stage missing
  ends := by
    intro provided reply answer
    have later := rest.ends (fun t here => provided t (.tail _ here)) reply answer
    have halt := heeds.halt (provided s (.head _)) later
    have first : s.ended? = s.made.job.stage.ended? := rfl
    rw [List.filterMap_cons, first]
    cases ended : s.made.job.stage.ended? <;> simpa [ended] using halt

end Job

/-! ## Courses of moves -/

namespace Hub

variable {hub : Hub E} {w : WorkspaceId} {s next : Site E} {id : JobId} {job : Job E}

/-- From any moment at which a job is bound to stop, it stops so. -/
theorem Reachable.halts {pauses : List Signal} (reached : hub.Reachable) (moves : List Move)
    (here : hub.site? w = some s) (known : s.job? id = some job) (bound : job.Bound s.slot.mailbox pauses) :
    ∃ last, (hub.after moves).jobOn? w id = some last ∧ Job.Halts job last pauses (hub.strides w id moves) := by
  induction moves generalizing hub s job pauses with
  | nil => exact ⟨job, (site?_eq_some.1 here).2 ▸ known, bound.halts⟩
  | cons m moves ih =>
    rcases reached.stride here known m with ⟨now, stride, there⟩ | ⟨none, next, there, known', mailbox⟩
    · have orderly := (reached.attentive here).orderly known
      have rule := Job.step_rule (hub.house now) id { slot := s.slot, asked := hub.asked } job
      have listening : ∀ l, job.stage = .running l → l.listening = true := by
        intro l stage
        cases bound with
        | called called =>
          obtain ⟨number, receiver, -⟩ := called.queue
          exact ((reached.attentive here).attends known receiver).listening l stage
        | stopped other => cases stage.symm.trans other
        | past answer => simp [stage, Stage.answer?] at answer
      obtain ⟨later, heeds⟩ := rule.heeds bound orderly listening
      obtain ⟨last, end_, rest⟩ := ih (reached.move m) there (s.take_own ..) heeds.bound
      have made : Stride.Made
          ⟨now, s.slot, job, Job.step (hub.house now) id { slot := s.slot, asked := hub.asked } job⟩ :=
        ⟨hub.house now, id, hub.asked, rfl, rfl⟩
      refine ⟨last, end_, ?_⟩
      rw [strides, stride]
      exact rest.cons (bound.heedful made) (made.engine bound.unquiet).2.1 heeds
        (fun mode run unended => rule.goes_on run unended)
        (fun later => (rule.runs later).resolve_right fun unheard => by
          obtain ⟨l, stage, quiet⟩ := unheard
          exact bound.unquiet l hub.asked stage quiet)
        rule.over_kept
    · have bound' : job.Bound next.slot.mailbox pauses := by
        cases bound with
        | called called run going =>
          refine .called (called.kept ?_ rfl) run going
          obtain ⟨number, receiver, -⟩ := called.queue
          rcases mailbox number receiver with mailbox | ⟨sig, mailbox⟩
          · exact mailbox
          · rw [mailbox, Mailbox.fire_refused (by simp [called.unarmed])]
        | stopped stage => exact .stopped stage
        | past answer => exact .past answer
      obtain ⟨last, end_, rest⟩ := ih (reached.move m) there known' bound'
      rw [strides, none]
      exact ⟨last, end_, rest⟩

/-- In a move a signal is accepted for a job, behind those that wait for it already. -/
def Accepts (hub : Hub E) (m : Move) (w : WorkspaceId) (id : JobId) (sig : Signal) (ahead : List Signal) : Prop :=
  ∃ s next job number, hub.site? w = some s ∧ (hub.move m).site? w = some next ∧ next.job? id = some job ∧
    job.receiver = some number ∧ s.slot.mailbox.queue number = ahead ∧
    next.slot.mailbox.queue number = ahead ++ [sig]

/-- A signal that is fired is accepted for a job exactly if the answer says that it is delivered. -/
theorem Reachable.signal_accepts (reached : hub.Reachable) (sig : Signal) :
    (hub.signal w sig).2 = true ↔ ∃ id ahead, hub.Accepts (.signal w sig) w id sig ahead := by
  constructor
  · intro delivered
    unfold signal at delivered
    cases slot : hub.slot w with
    | error r => simp [slot] at delivered
    | ok own =>
      have here : hub.site? w = some ⟨own, hub.jobOn? w⟩ := site?_eq_some.2 ⟨slot, rfl⟩
      obtain ⟨l, armed, takes⟩ := Mailbox.fire_taken.1 (by simpa [slot] using delivered)
      obtain ⟨id, job, known, receiver⟩ := (reached.owned here).listener l armed
      have there := onSlot_site reached.sound (v := w)
        (f := fun slot => { slot with mailbox := (slot.mailbox.fire sig).1 }) (fun _ => rfl) here
      rw [← move_signal, if_pos rfl] at there
      exact ⟨id, own.mailbox.queue l.number, _, _, job, l.number, here, there, known, receiver, rfl,
        Mailbox.fire_queue_taken armed takes⟩
  · rintro ⟨id, ahead, s, next, job, number, here, there, -, -, before, after⟩
    rw [move_signal, onSlot_site reached.sound (by exact fun _ => rfl) here, if_pos rfl] at there
    cases there
    unfold signal
    rw [(site?_eq_some.1 here).1]
    dsimp only
    cases delivered : (s.slot.mailbox.fire sig).2 with
    | true => rfl
    | false =>
      have refused : ∀ l, s.slot.mailbox.listener = some l → l.takes sig = false := by
        intro l armed
        cases takes : l.takes sig with
        | false => rfl
        | true => exact absurd (Mailbox.fire_taken.2 ⟨l, armed, takes⟩) (by simp [delivered])
      have same : s.slot.mailbox.queue number = ahead ++ [sig] := Mailbox.fire_refused refused ▸ after
      simp [before] at same

/-- A job that an interrupt is accepted for is bound to stop. -/
theorem Reachable.bound {m : Move} {pauses : List Signal} (reached : hub.Reachable)
    (accepted : hub.Accepts m w id .interrupt pauses) :
    ∃ s job, (hub.move m).site? w = some s ∧ s.job? id = some job ∧ job.Bound s.slot.mailbox pauses ∧
      (pauses = [] ∨ pauses = [.pause]) := by
  obtain ⟨-, next, job, number, -, there, known, receiver, -, queue⟩ := accepted
  have attentive := (reached.move m).attentive there
  refine ⟨next, job, there, known, ?_⟩
  cases (attentive.attends known receiver).line with
  | listening l armed same waiting =>
    rcases waiting with waiting | ⟨waiting, -⟩ <;> rw [waiting] at queue
    · simp at queue
    · have last := congrArg List.getLast? queue
      simp at last
  | called unarmed own few waiting =>
    obtain rfl : own = pauses := List.append_cancel_right (waiting.symm.trans queue)
    refine ⟨?_, few⟩
    cases run : job.stage.mode? with
    | none =>
      rcases (attentive.orderly known).unarmed run with none | ⟨reply, past | past⟩
      · cases none.symm.trans receiver
      · exact .past (by rw [past]; rfl)
      · exact .past (by rw [past]; rfl)
    | some mode =>
      by_cases stopped : ∃ mode, job.stage = .concluded mode .interrupted
      · obtain ⟨mode, stage⟩ := stopped
        exact .stopped stage
      · exact .called ⟨unarmed, few, number, receiver, queue⟩ (by rw [run]; rfl) fun mode stage => stopped ⟨mode, stage⟩
  | spent unarmed empty =>
    rw [empty] at queue
    simp at queue

/-- Whatever the engine does and whatever else goes on, from the moment at which an interrupt is accepted for a
job it polls a run that is under way once more, and once more still for a pause that came before, and each time that
such a poll leaves nothing of the turn once more, which an engine may do again and again. It starts no run, and is
over after ten steps at most beside those, and beside those in which it waits for the libraries. The run that it is
at is interrupted, unless the engine comes with a result in one of those polls: then the next testcase is, if there
is one. -/
theorem Reachable.interrupted (reached : hub.Reachable) (free : hub.tasks.contains id = false)
    {past moves : List Move} {m : Move} {pauses : List Signal}
    (kept : ∀ ts, .edit w (.testcases ts) ∉ past ++ m :: moves)
    (accepted : (hub.after past).Accepts m w id .interrupt pauses) :
    let steps := ((hub.after past).move m).strides w id moves
    ∃ first last, ((hub.after past).move m).jobOn? w id = some first ∧
      (((hub.after past).move m).after moves).jobOn? w id = some last ∧ (pauses = [] ∨ pauses = [.pause]) ∧
      first.stage.toGo (pauses.length + 1) ≤ 10 ∧ Job.Halts first last pauses steps ∧
      (∀ reply, last.stage.answer? = some reply → Halt first last.batch reply (steps.filterMap Stride.ended?)) ∧
      ∀ s ∈ steps, ∀ i o, s.ended? = some (.testcaseRun i, o) → i < s.slot.state.testcases.length := by
  intro steps
  have before := reached.after past
  obtain ⟨s, first, there, known, bound, few⟩ := before.bound accepted
  obtain ⟨last, end_, halts⟩ := (before.move m).halts moves there known bound
  have furnished : ∀ s ∈ steps, s.Made ∧ s.job.Orderly ∧ s.job.Furnished s.slot.state.testcases.length := by
    have early := (Furnished.of_free (w := w) free).after reached fun ts here => kept ts (List.mem_append_left _ here)
    have now := early.move before (m := m) fun ts same => kept ts (same ▸ List.mem_append_right _ (.head _))
    exact now.strides (before.move m) fun ts here => kept ts (List.mem_append_right _ (.tail _ here))
  have far : first.stage.toGo (pauses.length + 1) ≤ pauses.length + 1 + 8 := first.stage.toGo_le _
  refine ⟨first, last, (site?_eq_some.1 there).2 ▸ known, end_, few, ?_, halts, halts.ends fun t here => ?_,
    fun t here i o ended => ?_⟩
  · rcases few with rfl | rfl <;> exact Nat.le_trans far (by decide)
  · obtain ⟨-, orderly, there⟩ := furnished t here
    exact orderly.provided there
  · obtain ⟨made, orderly, there⟩ := furnished t here
    exact orderly.within there (made.ends ended).2

/-- An interrupt that is accepted for a job whose run is not over is lost on it only if the engine comes with a
result first, in one of the polls that are still made. If the result is that the run is suspended, then it is kept
to be resumed, although the interrupt was accepted. -/
theorem Reachable.interrupted_or_answered (reached : hub.Reachable) {m : Move} {pauses : List Signal}
    (accepted : hub.Accepts m w id .interrupt pauses) {first : Job E}
    (known : (hub.move m).jobOn? w id = some first) {mode : Mode} (run : first.stage.mode? = some mode)
    (unended : first.stage.ended? = none) (moves : List Move) :
    let steps := (hub.move m).strides w id moves
    ((steps.map Stride.polls).sum ≤
      (if first.isRunning then pauses.length + 1 else 0) + steps.countP Stride.spends) ∧
    (∀ mode' o rest, steps.filterMap Stride.ended? = (mode', o) :: rest →
      mode' = mode ∧ (o ≠ .interrupted → first.Runs) ∧
      ∃ s ∈ steps, s.ended? = some (mode, o) ∧ s.Ends mode o ∧
        ((o = .paused ∨ o = .breakpointHit) ↔ (∀ i, mode ≠ .testcaseRun i) ∧
          ∃ l snapshot location, s.job.Answered s.now l (.suspended snapshot location))) ∧
    (10 ≤ steps.countP (!·.stalls) → steps.filterMap Stride.ended? ≠ [] ∨
      ∃ s ∈ steps, s.job.stage = .preparing mode ∧ ∃ r, Job.refusal? s.slot mode = some r) := by
  intro steps
  obtain ⟨s, own, there, here, bound, few⟩ := reached.bound accepted
  obtain rfl : own = first := by
    rw [(site?_eq_some.1 there).2, known] at here
    exact (Option.some.inj here).symm
  obtain ⟨last, -, halts⟩ := (reached.move m).halts moves there here bound
  have opens := halts.opens mode run unended
  refine ⟨halts.polls, fun mode' o rest first => ?_, fun enough => ?_⟩
  · cases opens with
    | ends ends under =>
      cases first.symm.trans ends
      have member : (mode, o) ∈ steps.filterMap Stride.ended? := first ▸ .head _
      obtain ⟨t, at_, ended⟩ := List.mem_filterMap.1 member
      have heedful := halts.each t at_
      exact ⟨rfl, under, t, at_, ended, heedful.ends mode o ended, heedful.suspended_iff ended⟩
    | goesOn none => cases first.symm.trans none
    | givesUp _ none => cases first.symm.trans none
  · have far : own.stage.toGo (pauses.length + 1) ≤ 10 := by
      refine Nat.le_trans (own.stage.toGo_le _) ?_
      rcases few with rfl | rfl <;> decide
    obtain ⟨reply, settled⟩ := halts.settles (Nat.le_trans far enough)
    cases opens with
    | ends ends => exact .inl fun none => by cases none.symm.trans ends
    | goesOn _ still =>
      rw [settled] at still
      cases still
    | givesUp here _ stage missing => exact .inr ⟨_, here, stage, missing⟩

/-- Whether a signal is accepted can be seen from the hub before and after. -/
theorem accepts_of {m : Move} {sig : Signal} (ahead : List Signal) (number : Nat)
    (before : (hub.site? w).any (fun s => s.slot.mailbox.queue number = ahead) = true)
    (after : ((hub.move m).site? w).any (fun s => s.slot.mailbox.queue number = ahead ++ [sig] &&
      (s.job? id).any (·.receiver = some number)) = true) : hub.Accepts m w id sig ahead := by
  obtain ⟨s, here, queue⟩ := (Option.any_eq_true _ _).1 before
  obtain ⟨next, there, both⟩ := (Option.any_eq_true _ _).1 after
  obtain ⟨queue', known⟩ := Bool.and_eq_true_iff.1 both
  obtain ⟨job, known, receiver⟩ := (Option.any_eq_true _ _).1 known
  exact ⟨s, next, job, number, here, there, known, of_decide_eq_true receiver, of_decide_eq_true queue,
    of_decide_eq_true queue'⟩

end Hub

/-! ### A batch that is interrupted in its first testcase -/

/-- Two testcases, the first of which takes its time. -/
def timely : Hub Directive.engine :=
  (Hub.create {} .bundled).1.move
    (.edit .assessment (.testcases [{ program := "sleep 100\nfinish 1" }, { program := "finish 2" }]))

/-- A batch has come to the first. -/
def timelyBegun : List Move := .submit 0 .assessment .runAll :: List.replicate 9 (.step 0 0)

/-- The batch goes on at the moment at which the first testcase comes to its end. -/
def timelyRest : List Move := List.replicate 12 (.step 0 100)

/-- The first testcase comes to its result, and the second one is interrupted. -/
theorem interrupted_of_timely :
    timely.Reachable ∧ timely.tasks.contains 0 = false ∧
      (∀ ts, .edit .assessment (.testcases ts) ∉ timelyBegun ++ .signal .assessment .interrupt :: timelyRest) ∧
      (timely.after timelyBegun).Accepts (.signal .assessment .interrupt) .assessment 0 .interrupt [] ∧
      ∃ (first last : Job Directive.engine) (reply : Reply) (ends : List (Mode × Outcome)),
        ((timely.after timelyBegun).move (.signal .assessment .interrupt)).jobOn? .assessment 0 = some first ∧
        last.stage.answer? = some reply ∧ Halt first last.batch reply ends ∧
        ends.map (fun e => (e.1, e.2.kind)) = [(.testcaseRun 0, .finished), (.testcaseRun 1, .interrupted)] := by
  have reached : timely.Reachable := (Hub.Reachable.create {} .bundled).move _
  have free : timely.tasks.contains 0 = false := by decide +kernel
  have kept : ∀ ts, .edit .assessment (.testcases ts) ∉
      timelyBegun ++ .signal .assessment .interrupt :: timelyRest := by
    simp [timelyBegun, timelyRest]
  have accepted : (timely.after timelyBegun).Accepts (.signal .assessment .interrupt) .assessment 0 .interrupt [] :=
    Hub.accepts_of [] 0 (by decide +kernel) (by decide +kernel)
  obtain ⟨first, last, here, there, -, -, -, ends, -⟩ :=
    reached.interrupted free kept accepted
  have runs : ((((timely.after timelyBegun).move (.signal .assessment .interrupt)).strides .assessment 0
      timelyRest).filterMap Stride.ended?).map (fun e => (e.1, e.2.kind)) =
        [(.testcaseRun 0, .finished), (.testcaseRun 1, .interrupted)] := by
    decide +kernel
  have settled : ((((timely.after timelyBegun).move (.signal .assessment .interrupt)).after timelyRest).jobOn?
      .assessment 0).any (·.stage.answer?.isSome) = true := by
    decide +kernel
  rw [there] at settled
  obtain ⟨reply, answer⟩ := Option.isSome_iff_exists.1 settled
  exact ⟨reached, free, kept, accepted, first, last, reply, _, here, answer, ends reply answer, runs⟩

/-! ### A pause and an interrupt one after the other -/

/-- A run waits until it is asked to pause, and has just been. -/
def pausing : Hub Directive.engine :=
  (Hub.create {} .bundled).1.after
    ([.edit .playground (.editorValue "wait-pause\nfinish 1"), .submit 0 .playground (.evaluate .editorRun)] ++
      List.replicate 7 (.step 0 0) ++ [.signal .playground .pause])

theorem pausing_reachable : pausing.Reachable := by
  unfold pausing
  exact (Hub.Reachable.create {} .bundled).after _

/-- The interrupt comes behind the pause. -/
theorem pausing_accepts :
    pausing.Accepts (.signal .playground .interrupt) .playground 0 .interrupt [.pause] :=
  Hub.accepts_of [.pause] 0 (by decide +kernel) (by decide +kernel)

theorem pausing_runs : ∃ job, (pausing.move (.signal .playground .interrupt)).jobOn? .playground 0 = some job ∧
    job.Runs ∧ job.stage.mode? = some .editorRun ∧ job.stage.ended? = none := by
  have running : ((pausing.move (.signal .playground .interrupt)).jobOn? .playground 0).any
      (fun job => job.isRunning && job.stage.mode? = some .editorRun) = true := by
    decide +kernel
  obtain ⟨job, known, both⟩ := (Option.any_eq_true _ _).1 running
  obtain ⟨running, mode⟩ := Bool.and_eq_true_iff.1 both
  obtain ⟨l, stage⟩ := Job.isRunning_iff.1 running
  exact ⟨job, known, ⟨l, stage⟩, of_decide_eq_true mode, by rw [stage]; rfl⟩

/-- The run takes the pause first, and is suspended. -/
theorem pausing_ends :
    ((pausing.move (.signal .playground .interrupt)).strides .playground 0
      (List.replicate 2 (.step 0 0))).filterMap Stride.ended? = [(.editorRun, .paused)] := by
  have kinds : (((pausing.move (.signal .playground .interrupt)).strides .playground 0
      (List.replicate 2 (.step 0 0))).filterMap Stride.ended?).map (fun e => (e.1, e.2.kind)) =
        [(.editorRun, .paused)] := by
    decide +kernel
  obtain ⟨⟨mode, o⟩, ends, kind⟩ := List.map_eq_singleton_iff.1 kinds
  cases o <;> cases kind
  exact ends

/-- The engine says so itself, in one of two polls. -/
theorem interrupted_or_answered_of_pausing :
    ∃ first s, pausing.Reachable ∧
      pausing.Accepts (.signal .playground .interrupt) .playground 0 .interrupt [.pause] ∧
      (pausing.move (.signal .playground .interrupt)).jobOn? .playground 0 = some first ∧
      first.stage.mode? = some .editorRun ∧ first.stage.ended? = none ∧
      s ∈ (pausing.move (.signal .playground .interrupt)).strides .playground 0 (List.replicate 2 (.step 0 0)) ∧
      s.Ends .editorRun .paused ∧
      ∃ l snapshot location, s.job.Answered s.now l (.suspended snapshot location) := by
  obtain ⟨first, known, -, run, unended⟩ := pausing_runs
  obtain ⟨-, ends, -⟩ := pausing_reachable.interrupted_or_answered pausing_accepts known run unended
    (List.replicate 2 (.step 0 0))
  obtain ⟨-, -, s, here, -, ends, suspended⟩ := ends _ _ _ pausing_ends
  exact ⟨first, s, pausing_reachable, pausing_accepts, known, run, unended, here, ends, (suspended.1 (.inl rfl)).2⟩

/-- An interrupt accepted while the engine runs does not keep the run from being suspended and kept to be
resumed. -/
theorem accepted_interrupt_swallowed :
    ∃ job last, pausing.Reachable ∧
      pausing.Accepts (.signal .playground .interrupt) .playground 0 .interrupt [.pause] ∧
      (pausing.move (.signal .playground .interrupt)).jobOn? .playground 0 = some job ∧ job.Runs ∧
      ((pausing.move (.signal .playground .interrupt)).strides .playground 0
        (List.replicate 2 (.step 0 0))).filterMap Stride.ended? = [(.editorRun, .paused)] ∧
      ((pausing.move (.signal .playground .interrupt)).after (List.replicate 2 (.step 0 0))).site? .playground =
        some last ∧
      last.slot.suspended.isSome = true ∧ last.slot.state.context.faults.isEmpty = true := by
  obtain ⟨job, known, runs, -, -⟩ := pausing_runs
  have kept : (((pausing.move (.signal .playground .interrupt)).after (List.replicate 2 (.step 0 0))).site?
      .playground).any (fun s => s.slot.suspended.isSome && s.slot.state.context.faults.isEmpty) = true := by
    decide +kernel
  obtain ⟨last, there, both⟩ := (Option.any_eq_true _ _).1 kept
  obtain ⟨suspended, faults⟩ := Bool.and_eq_true_iff.1 both
  exact ⟨job, last, pausing_reachable, pausing_accepts, known, runs, pausing_ends, there, suspended, faults⟩

end Workbench
