/-
What a job does once an interrupt has been accepted for it, step by step.

From then on nothing else can reach the job (`Job.Called`), and each of its steps
brings it nearer to its end (`Job.Heeds`): it polls a run that is under way once,
and once more for a pause that came first; and the run that it is at, or the
next one of its batch, is interrupted (`Halt`). Where the engine leaves nothing of
a turn the job cannot look for signals, and has to poll once more.
-/
import Mathlib.Algebra.Ring.Nat
import Workbench.Proofs.Run.Provision

namespace Workbench

variable {E : Engine}

/-! ## What comes after an interrupt -/

/-- The batch that a run is followed by: the same one at its next testcase, or a new one at its first. -/
inductive Batch.Follows : Batch → Option Batch → Prop
  | next (b : Batch) (more : b.index + 1 < b.total) : Follows { b with index := b.index + 1 } (some b)
  | first (b : Batch) (start : b.index = 0) : Follows b none

/-- What a job answers when its last run has come to an outcome. -/
inductive Answers (o : Outcome) : Option Batch → Reply → Prop
  | alone : Answers o none (.outcome o)
  | all {batch : Batch} {summary : BatchSummary} (first : batch.after = none)
    (aborted : summary.aborted = true ↔ o = .interrupted) : Answers o (some batch) (.summary summary)
  | graded {batch : Batch} {editor : Outcome} (after : batch.after = some editor) :
    Answers o (some batch) (.outcome editor)

/-- The runs that end after one that was not interrupted: the next testcase's is interrupted, if there is one. -/
inductive Rest (o : Outcome) (earlier batch : Option Batch) (reply : Reply) : List (Mode × Outcome) → Prop
  | next {b : Batch} (under : batch = some b) (follows : b.Follows earlier)
    (answer : Answers .interrupted batch reply) : Rest o earlier batch reply [(.testcaseRun b.index, .interrupted)]
  | nothing (same : batch = earlier) (done : ∀ b, earlier = some b → b.total ≤ b.index + 1)
    (answer : Answers o batch reply) : Rest o earlier batch reply []

/-- A stage at which a run gets ready. -/
inductive Stage.Early (mode : Mode) : Stage E → Prop
  | preparing : Early mode (.preparing mode)
  | loading {purpose : Purpose} {wait : Wait} (about : purpose.mode? = some mode) : Early mode (.loading purpose wait)
  | launching {p : Prepared E} : Early mode (.launching mode p)
  | starting {l : Launch E} (about : l.mode = mode) : Early mode (.starting l)

/-- What a job has come to. -/
def Stage.answer? : Stage E → Option Reply
  | .leaving reply => some reply
  | .settled reply => some reply
  | _ => none

/-- The runs of a job that end from some moment on if an interrupt is accepted for it then, given the batch and
the reply that it comes to. -/
inductive Halt (first : Job E) (batch : Option Batch) (reply : Reply) : List (Mode × Outcome) → Prop
  /-- the run that it is at is interrupted -/
  | stopped {mode : Mode} (run : first.stage.mode? = some mode) (unended : first.stage.ended? = none)
    (same : batch = first.batch) (answer : Answers .interrupted batch reply) :
    Halt first batch reply [(mode, .interrupted)]
  /-- the engine comes with a result before the interrupt is looked at -/
  | overtaken {l : Live E} {o : Outcome} {ends : List (Mode × Outcome)} (stage : first.stage = .running l)
    (ran : o ≠ .interrupted) (rest : Rest o first.batch batch reply ends) :
    Halt first batch reply ((l.mode, o) :: ends)
  /-- it is between two runs -/
  | between {mode : Mode} {o : Outcome} {ends : List (Mode × Outcome)} (stage : first.stage = .concluded mode o)
    (ran : o ≠ .interrupted) (rest : Rest o first.batch batch reply ends) : Halt first batch reply ends
  /-- its run has been interrupted before -/
  | told {mode : Mode} (stage : first.stage = .concluded mode .interrupted) (same : batch = first.batch)
    (answer : Answers .interrupted batch reply) : Halt first batch reply []
  /-- it has come to its reply before -/
  | past (answer : first.stage.answer? = some reply) (same : batch = first.batch) : Halt first batch reply []
  /-- there is no run that it could resume -/
  | refused {r : Refusal} (stage : first.stage = .preparing .debugResume) (refusal : reply = .refused r) :
    Halt first batch reply []

/-- How many steps a job for which so many signals wait takes at most, apart from those in which it waits for the
libraries. -/
def Stage.toGo (signals : Nat) : Stage E → Nat
  | .running _ => signals + 8
  | .concluded _ .interrupted => 2
  | .concluded .. => signals + 7
  | .preparing _ => signals + 6
  | .loading .. => signals + 5
  | .launching .. => signals + 4
  | .starting _ => signals + 3
  | .leaving _ => 1
  | _ => 0

theorem Stage.mode?_of_ended {stage : Stage E} {mode : Mode} {o : Outcome} (ended : stage.ended? = some (mode, o)) :
    stage.mode? = some mode := by
  cases stage <;> cases ended
  rfl

theorem Stage.toGo_le (stage : Stage E) (signals : Nat) : stage.toGo signals ≤ signals + 8 := by
  cases stage with
  | concluded mode o => cases o <;> simp only [toGo] <;> omega
  | _ =>
    simp only [toGo]
    omega

namespace Stage.Early

variable {mode : Mode} {stage : Stage E}

theorem mode? (early : stage.Early mode) : stage.mode? = some mode := by
  cases early with
  | loading about => exact about
  | starting about => exact congrArg some about
  | _ => rfl

theorem unended (early : stage.Early mode) : stage.ended? = none := by cases early <;> rfl

end Stage.Early

namespace Job

/-- An interrupt waits for a job, behind a pause at most, and nothing else can come. -/
structure Called (m : Mailbox) (job : Job E) (pauses : List Signal) : Prop where
  unarmed : m.listener = none
  few : pauses = [] ∨ pauses = [.pause]
  queue : ∃ number, job.receiver = some number ∧ m.queue number = pauses ++ [.interrupt]

/-- A job that an interrupt waits for, or that it has reached. -/
inductive Bound (m : Mailbox) (job : Job E) (pauses : List Signal) : Prop
  | called (called : job.Called m pauses) (run : job.stage.mode?.isSome = true)
    (going : ∀ mode, job.stage ≠ .concluded mode .interrupted)
  | stopped {mode : Mode} (stage : job.stage = .concluded mode .interrupted)
  | past {reply : Reply} (past : job.stage.answer? = some reply)

/-- How often a job that so many pauses wait for may still poll. -/
def pollsLeft (job : Job E) (pauses : List Signal) : Nat := if job.isRunning then pauses.length + 1 else 0

/-- What a step of a job does while it is bound to stop. -/
structure Heeds (slot : Slot E) (job : Job E) (a : Advance E) (pauses later : List Signal) : Prop where
  bound : a.job.Bound a.scene.slot.mailbox later
  polls : (if job.isRunning then 1 else 0) + a.job.pollsLeft later ≤
    job.pollsLeft pauses + if a.spends then 1 else 0
  nearer : a.job.stage.toGo (later.length + 1) ≤
    job.stage.toGo (pauses.length + 1) - if job.stage.isLoading && a.wake.isSome || a.spends then 0 else 1
  halt : job.Provided slot → ∀ {batch reply ends}, Halt a.job batch reply ends →
    Halt job batch reply (a.job.stage.ended?.toList ++ ends)

variable {h : House} {id : JobId} {sc : Scene E} {job : Job E} {a : Advance E} {m : Mailbox} {pauses : List Signal}

theorem Called.unquiet (called : job.Called sc.slot.mailbox pauses) : ¬ Quiet sc job := by
  obtain ⟨number, receiver, queue⟩ := called.queue
  intro quiet
  rw [quiet number receiver] at queue
  rcases called.few with rfl | rfl <;> cases queue

/-- The next signal is the pause, or the interrupt. -/
theorem Called.next (called : job.Called m pauses) {number : Nat} {s : Signal} {rest : List Signal}
    (receiver : job.receiver = some number) (signal : m.queue number = s :: rest) :
    s = .interrupt ∧ pauses = [] ∨ s = .pause ∧ pauses = [.pause] ∧
      ∀ next : Job E, next.receiver = some number →
        next.Called { m with queues := m.queues.set number rest } [] := by
  obtain ⟨own, same, queue⟩ := called.queue
  cases receiver.symm.trans same
  rw [signal] at queue
  rcases called.few with rfl | rfl <;> cases queue
  · exact .inl ⟨rfl, rfl⟩
  · exact .inr ⟨rfl, rfl, fun next receiver =>
      ⟨called.unarmed, .inl rfl, number, receiver, Mailbox.queue_set ..⟩⟩

theorem Called.kept (called : job.Called m pauses) {m' : Mailbox} {next : Job E} (mailbox : m' = m)
    (receiver : next.receiver = job.receiver) : next.Called m' pauses := by
  obtain ⟨number, own, queue⟩ := called.queue
  subst mailbox
  exact ⟨called.unarmed, called.few, number, receiver.trans own, queue⟩

/-- What is less has lost one, whether or not one counts. -/
theorem sooner {m n : Nat} (less : m < n) (uncounted : Bool) : m ≤ n - if uncounted then 0 else 1 := by
  cases uncounted <;> simp <;> omega

theorem early_not_running {mode : Mode} (early : job.stage.Early mode) : job.isRunning = false := by
  unfold isRunning
  generalize job.stage = stage at early
  cases early <;> rfl

/-- A step in which the job gets its run ready. -/
theorem Heeds.readies {later : List Signal} (mode : Mode) (early : job.stage.Early mode)
    (still : a.job.stage.Early mode) (unprepared : a.job.stage ≠ .preparing mode) (batch : a.job.batch = job.batch)
    (called : a.job.Called a.scene.slot.mailbox later)
    (nearer : a.job.stage.toGo (later.length + 1) ≤
      job.stage.toGo (pauses.length + 1) - if job.stage.isLoading && a.wake.isSome || a.spends then 0 else 1) :
    Heeds sc.slot job a pauses later where
  bound := by
    refine .called called (by rw [still.mode?]; rfl) fun mode stage => ?_
    rw [stage] at still
    cases still
  polls := Nat.le_add_right_of_le (by simp [pollsLeft, early_not_running early, early_not_running still])
  nearer := nearer
  halt := by
    intro _ _ reply ends halt
    rw [still.unended]
    cases halt with
    | stopped there _ whole answer =>
      cases still.mode?.symm.trans there
      exact .stopped early.mode? early.unended (whole.trans batch) answer
    | overtaken stage | between stage | told stage => rw [stage] at still; cases still
    | past answer => cases stage : a.job.stage <;> rw [stage] at still answer <;> cases still <;> cases answer
    | refused stage =>
      rw [stage] at still unprepared
      cases still
      exact absurd rfl unprepared

/-- A step in which the run is polled and goes on: the pause is looked at, or nothing can be. -/
theorem Heeds.pollsOn {later : List Signal} {l next : Live E} (stage : job.stage = .running l)
    (still : a.job.stage = .running next) (mode : next.mode = l.mode) (batch : a.job.batch = job.batch)
    (called : a.job.Called a.scene.slot.mailbox later)
    (looked : later.length + 1 = pauses.length ∨ later = pauses ∧ a.spends = true) :
    Heeds sc.slot job a pauses later where
  bound := .called called (by rw [still]; rfl) (by simp [still])
  polls := by
    have running : job.isRunning = true := isRunning_iff.2 ⟨l, stage⟩
    have later : a.job.isRunning = true := isRunning_iff.2 ⟨next, still⟩
    simp only [pollsLeft, running, later, if_true]
    rcases looked with fewer | ⟨rfl, spends⟩
    · omega
    · rw [spends, if_pos rfl]
      omega
  nearer := by
    rw [stage, still]
    rcases looked with fewer | ⟨rfl, spends⟩
    · exact sooner (by simp only [Stage.toGo]; omega) _
    · rw [spends, Bool.or_true]
      exact Nat.le_refl _
  halt := by
    intro _ _ reply ends halt
    rw [still]
    cases halt with
    | stopped run _ whole answer =>
      rw [still] at run
      cases run
      rw [mode]
      exact .stopped (by rw [stage]; rfl) (by rw [stage]; rfl) (whole.trans batch) answer
    | overtaken running ran rest =>
      cases still.symm.trans running
      rw [mode]
      exact .overtaken stage ran (batch ▸ rest)
    | between other | told other | refused other => cases still.symm.trans other
    | past answer => simp [still, Stage.answer?] at answer

/-- A step in which the engine comes with a result. -/
theorem Heeds.ended {l : Live E} {o : Outcome} (stage : job.stage = .running l)
    (concluded : a.job.stage = .concluded l.mode o) (ran : o ≠ .interrupted) (batch : a.job.batch = job.batch)
    (called : a.job.Called a.scene.slot.mailbox pauses) : Heeds sc.slot job a pauses pauses where
  bound := by
    refine .called called (by rw [concluded]; rfl) fun mode other => ?_
    cases concluded.symm.trans other
    exact ran rfl
  polls := by
    have running : job.isRunning = true := isRunning_iff.2 ⟨l, stage⟩
    exact Nat.le_add_right_of_le (by simp [pollsLeft, running, isRunning_of concluded])
  nearer := by
    refine sooner ?_ _
    rw [stage, concluded]
    cases o <;> simp [Stage.toGo]
  halt := by
    intro _ _ reply ends halt
    rw [concluded]
    cases halt with
    | between same _ rest =>
      cases concluded.symm.trans same
      exact .overtaken stage ran (batch ▸ rest)
    | told same =>
      cases concluded.symm.trans same
      exact absurd rfl ran
    | stopped _ unfinished => simp [concluded, Stage.ended?] at unfinished
    | overtaken other | refused other => cases concluded.symm.trans other
    | past answer => simp [concluded, Stage.answer?] at answer

/-- A step in which the job goes on to the next run of its batch. -/
theorem Heeds.next {mode : Mode} {o : Outcome} {b : Batch} (concluded : job.stage = .concluded mode o)
    (ran : o ≠ .interrupted) (preparing : a.job.stage = .preparing (.testcaseRun b.index))
    (under : a.job.batch = some b) (follows : b.Follows job.batch)
    (called : a.job.Called a.scene.slot.mailbox pauses) : Heeds sc.slot job a pauses pauses where
  bound := .called called (by rw [preparing]; rfl) (by simp [preparing])
  polls := Nat.le_add_right_of_le (by simp [pollsLeft, isRunning_of concluded, isRunning_of preparing])
  nearer := by
    refine sooner ?_ _
    rw [concluded, preparing]
    cases o <;> first | exact absurd rfl ran | (simp only [Stage.toGo]; omega)
  halt := by
    intro _ _ reply ends halt
    rw [preparing]
    cases halt with
    | stopped run _ whole answer =>
      rw [preparing] at run
      cases run
      exact .between concluded ran (.next (whole.trans under) follows answer)
    | overtaken other | between other | told other | refused other => cases preparing.symm.trans other
    | past answer => simp [preparing, Stage.answer?] at answer

/-- A step in which the run is interrupted. -/
theorem Heeds.stops {later : List Signal} {mode : Mode} (run : job.stage.mode? = some mode)
    (unended : job.stage.ended? = none) (concluded : a.job.stage = .concluded mode .interrupted)
    (batch : a.job.batch = job.batch) (far : 2 < job.stage.toGo (pauses.length + 1)) :
    Heeds sc.slot job a pauses later where
  bound := .stopped concluded
  polls := by
    refine Nat.le_add_right_of_le ?_
    rw [pollsLeft, pollsLeft, isRunning_of concluded (by simp)]
    split <;> simp
  nearer := sooner (by rw [concluded]; exact far) _
  halt := by
    intro _ _ reply ends halt
    rw [concluded]
    cases halt with
    | told _ whole answer => exact .stopped run unended (whole.trans batch) answer
    | between stage ran =>
      cases concluded.symm.trans stage
      exact absurd rfl ran
    | stopped _ unfinished => simp [concluded, Stage.ended?] at unfinished
    | overtaken stage | refused stage => cases concluded.symm.trans stage
    | past answer => simp [concluded, Stage.answer?] at answer

/-- A step in which the job comes to its reply. -/
theorem Heeds.answers {later : List Signal} {mode : Mode} {o : Outcome} {reply : Reply}
    (concluded : job.stage = .concluded mode o) (leaving : a.job.stage = .leaving reply)
    (batch : a.job.batch = job.batch) (done : o ≠ .interrupted → ∀ b, job.batch = some b → b.total ≤ b.index + 1)
    (answer : Answers o job.batch reply) : Heeds sc.slot job a pauses later where
  bound := .past (by rw [leaving]; rfl)
  polls := Nat.le_add_right_of_le (by simp [pollsLeft, isRunning_of concluded, isRunning_of leaving])
  nearer := by
    refine sooner ?_ _
    rw [concluded, leaving]
    cases o <;> simp [Stage.toGo]
  halt := by
    intro _ _ own ends halt
    rw [leaving]
    cases halt with
    | past same whole =>
      rw [leaving] at same
      cases same
      rw [whole, batch]
      by_cases interrupted : o = .interrupted
      · subst interrupted
        exact .told concluded rfl answer
      · exact .between concluded interrupted (.nothing rfl (done interrupted) answer)
    | stopped run => simp [leaving, Stage.mode?] at run
    | overtaken stage | between stage | told stage | refused stage => cases leaving.symm.trans stage

/-- A step in which the job finds that what it prepares is not there. -/
theorem Heeds.givesUp {later : List Signal} {mode : Mode} {reply : Reply} (stage : job.stage = .preparing mode)
    (leaving : a.job.stage = .leaving reply)
    (missing : job.Provided sc.slot → mode = .debugResume ∧ ∃ r, reply = .refused r) :
    Heeds sc.slot job a pauses later where
  bound := .past (by rw [leaving]; rfl)
  polls := Nat.le_add_right_of_le (by simp [pollsLeft, isRunning_of stage, isRunning_of leaving])
  nearer := by
    refine sooner ?_ _
    rw [stage, leaving]
    show 1 < _ + 6
    omega
  halt := by
    intro provided _ own ends halt
    obtain ⟨rfl, r, rfl⟩ := missing provided
    rw [leaving]
    cases halt with
    | past same whole =>
      rw [leaving] at same
      cases same
      exact .refused stage rfl
    | stopped run => simp [leaving, Stage.mode?] at run
    | overtaken stage | between stage | told stage | refused stage => cases leaving.symm.trans stage

/-- A step of a job that has come to its reply. -/
theorem Heeds.rests {later : List Signal} {reply : Reply} (past : job.stage.answer? = some reply)
    (settled : a.job.stage = .settled reply) (batch : a.job.batch = job.batch)
    (nearer : a.job.stage.toGo (later.length + 1) ≤
      job.stage.toGo (pauses.length + 1) - if job.stage.isLoading && a.wake.isSome || a.spends then 0 else 1) :
    Heeds sc.slot job a pauses later where
  bound := .past (by rw [settled]; rfl)
  polls := by
    have still : job.isRunning = false := by
      cases stage : job.stage <;> simp [stage, Stage.answer?] at past <;> simp [isRunning, stage]
    exact Nat.le_add_right_of_le (by simp [pollsLeft, still, isRunning_of settled])
  nearer := nearer
  halt := by
    intro _ _ own ends halt
    rw [settled]
    cases halt with
    | past same whole =>
      rw [settled] at same
      cases same
      exact .past past (whole.trans batch)
    | stopped run => simp [settled, Stage.mode?] at run
    | overtaken stage | between stage | told stage | refused stage => cases settled.symm.trans stage

theorem endBatch_answers (h : House) (sc : Scene E) (job : Job E) (batch : Batch) (aborted : Bool) {o : Outcome}
    (interrupted : aborted = true ↔ o = .interrupted) :
    ∃ reply, (endBatch h sc job batch aborted).job.stage = .leaving reply ∧ Answers o (some batch) reply := by
  refine ⟨_, rfl, ?_⟩
  cases after : batch.after with
  | some editor => exact .graded after
  | none => exact .all after (by rw [BatchSummary.ofTestcases_aborted]; exact interrupted)

/-- No outcome of a run that the engine has ended is an interruption. -/
theorem finish_ran (l : Live E) (result : RunResult E.Snapshot) : (finish h sc l result).2 ≠ .interrupted := by
  unfold finish
  split
  · exact Outcome.noConfusion
  · exact Outcome.noConfusion
  · split
    · exact Outcome.noConfusion
    · unfold Scene.finishSuspended
      dsimp only
      split <;> exact Outcome.noConfusion

/-- Each step of a job that an interrupt waits for brings it nearer to its end. -/
theorem Rule.heeds_called (rule : Rule h id sc job a) (called : job.Called sc.slot.mailbox pauses)
    (run : job.stage.mode?.isSome = true) (going : ∀ mode, job.stage ≠ .concluded mode .interrupted)
    (orderly : job.Orderly) (listening : ∀ l, job.stage = .running l → l.listening = true) :
    ∃ later, Heeds sc.slot job a pauses later := by
  cases rule with
  | refused stage | enqueued stage | waiting stage | admitted stage | armed stage | allEmpty stage | allBegun stage
  | reset stage | unchanged stage | chapter stage | library stage | left stage | settled stage =>
    simp [stage, Stage.mode?] at run
  | started _ quiet => exact absurd quiet called.unquiet
  | unheard _ _ _ quiet => exact absurd quiet called.unquiet
  | @running l lines run wake stage polled quiet =>
    obtain rfl : wake = .spent := by
      by_contra left
      exact called.unquiet (quiet left (listening l stage))
    exact ⟨pauses, .pollsOn stage rfl rfl rfl (called.kept rfl rfl) (.inr ⟨rfl, rfl⟩)⟩
  | aborted stage => exact absurd stage (going _)
  | editor stage =>
    exact ⟨pauses, .readies .editorRun (by rw [stage]; exact .preparing) (.loading rfl) (fun same => by cases same) rfl
      (called.kept rfl rfl) (sooner (by rw [stage]; show _ + 5 < _ + 6; omega) _)⟩
  | repl stage =>
    exact ⟨pauses, .readies .replRun (by rw [stage]; exact .preparing) .launching (fun same => by cases same) rfl
      (called.kept rfl rfl) (sooner (by rw [stage]; show _ + 4 < _ + 6; omega) _)⟩
  | resumed stage =>
    exact ⟨pauses, .readies .debugResume (by rw [stage]; exact .preparing) .launching (fun same => by cases same) rfl
      (called.kept rfl rfl) (sooner (by rw [stage]; show _ + 4 < _ + 6; omega) _)⟩
  | @testcase i t stage =>
    exact ⟨pauses, .readies (.testcaseRun i) (by rw [stage]; exact .preparing) (.loading rfl) (fun same => by cases same) rfl
      (called.kept rfl rfl) (sooner (by rw [stage]; show _ + 5 < _ + 6; omega) _)⟩
  | @loading purpose wait _ _ stage =>
    obtain ⟨mode, about⟩ := Option.isSome_iff_exists.1 (by simpa [stage, Stage.mode?] using run)
    exact ⟨pauses, .readies mode (by rw [stage]; exact .loading about) (.loading about) (fun same => by cases same) rfl
      (called.kept rfl rfl) (by rw [stage]; exact Nat.le_refl _)⟩
  | @loaded purpose wait next stage waited =>
    have mailbox : (proceed h next job purpose).scene.slot.mailbox = sc.slot.mailbox := by
      rw [(proceed_door ..).2.2, waited.slot]
    cases purpose with
    | editorRun =>
      exact ⟨pauses, .readies .editorRun (by rw [stage]; exact .loading rfl) .launching (fun same => by cases same) rfl
        (called.kept mailbox rfl) (sooner (by rw [stage]; show _ + 4 < _ + 5; omega) _)⟩
    | testcaseRun i program =>
      exact ⟨pauses, .readies (.testcaseRun i) (by rw [stage]; exact .loading rfl) .launching (fun same => by cases same) rfl
        (called.kept mailbox rfl) (sooner (by rw [stage]; show _ + 4 < _ + 5; omega) _)⟩
    | selection => simp [stage, Stage.mode?, Purpose.mode?] at run
  | @launched mode p stage =>
    exact ⟨pauses, .readies mode (by rw [stage]; exact .launching) (.starting rfl) (fun same => by cases same) rfl
      (called.kept (by rw [launch_slot]) rfl) (sooner (by rw [stage]; show _ + 3 < _ + 4; omega) _)⟩
  | @pausedEarly l number rest stage receiver signal =>
    rcases called.next receiver signal with ⟨other, -⟩ | ⟨-, rfl, left⟩
    · cases other
    · exact ⟨[], .readies l.mode (by rw [stage]; exact .starting rfl) (.starting rfl) (fun same => by cases same) rfl
        (left _ receiver) (sooner (by rw [stage]; show 4 < 5; decide) _)⟩
  | stoppedEarly stage =>
    refine ⟨[], .stops (by rw [stage]; rfl) (by rw [stage]; rfl) rfl rfl ?_⟩
    rw [stage]
    show 2 < _ + 3
    omega
  | stopped stage =>
    refine ⟨[], .stops (by rw [stage]; rfl) (by rw [stage]; rfl) rfl rfl ?_⟩
    rw [stage]
    show 2 < _ + 8
    omega
  | @paused l lines after wake number rest stage polled listening receiver signal =>
    rcases called.next receiver signal with ⟨other, -⟩ | ⟨-, rfl, left⟩
    · cases other
    · exact ⟨[], .pollsOn stage rfl rfl rfl (left _ receiver) (.inl rfl)⟩
  | @ended l lines result stage =>
    refine ⟨pauses, .ended stage rfl (finish_ran l result) rfl (called.kept ?_ rfl)⟩
    rw [conclude_slot, (finish_door ..).2.2]
    rfl
  | @next mode o batch stage under ran more =>
    refine ⟨pauses, .next stage ran rfl rfl ?_ (called.kept rfl rfl)⟩
    rw [under]
    exact .next batch more
  | @gradedBegun value stage alone =>
    refine ⟨pauses, .next stage Outcome.noConfusion rfl rfl ?_ ?_⟩
    · rw [alone]
      exact .first _ rfl
    · obtain ⟨number, receiver, queue⟩ := called.queue
      simp only [Scene.occur_slot, Scene.sayBriefly_slot, refusePause_slot, receiver]
      exact ⟨by simp [Mailbox.acceptPause, called.unarmed], called.few, number, rfl, queue⟩
  | @completed mode o batch stage under ran last =>
    obtain ⟨reply, leaving, answer⟩ := endBatch_answers h sc job batch false (o := o) (by simp [ran])
    refine ⟨pauses, .answers stage leaving rfl (fun _ b same => ?_) (under ▸ answer)⟩
    cases under.symm.trans same
    exact last
  | gradedEmpty stage alone =>
    refine ⟨pauses, .answers stage rfl rfl (fun _ b same => ?_) (alone ▸ .alone)⟩
    cases alone.symm.trans same
  | answered stage alone =>
    refine ⟨pauses, .answers stage rfl rfl (fun _ b same => ?_) (alone ▸ .alone)⟩
    cases alone.symm.trans same
  | deprived stage because => exact ⟨pauses, .givesUp stage rfl fun provided => ⟨provided _ _ stage because, _, rfl⟩⟩
  | @cutShort mode r batch stage because under =>
    refine ⟨pauses, .givesUp stage rfl fun provided => ?_⟩
    obtain ⟨place | ⟨reply, past | past⟩, -⟩ := orderly.batch batch under
    · -- the runs of a batch are those of testcases
      rw [stage, provided _ _ stage because] at place
      cases place
    · cases stage.symm.trans past
    · cases stage.symm.trans past

/-- Each step of a job whose run has been interrupted, or that has come to its reply, brings it nearer to its
end. -/
theorem Rule.heeds (rule : Rule h id sc job a) (bound : job.Bound sc.slot.mailbox pauses)
    (orderly : job.Orderly) (listening : ∀ l, job.stage = .running l → l.listening = true) :
    ∃ later, Heeds sc.slot job a pauses later := by
  cases bound with
  | called called run going => exact rule.heeds_called called run going orderly listening
  | @stopped mode stage =>
    cases rule with
    | @aborted m batch at_ under =>
      cases stage.symm.trans at_
      obtain ⟨reply, leaving, answer⟩ := endBatch_answers h sc job batch true (o := .interrupted) (by simp)
      exact ⟨pauses, .answers stage leaving rfl (fun ran => absurd rfl ran) (under ▸ answer)⟩
    | @answered m o at_ alone =>
      cases stage.symm.trans at_
      exact ⟨pauses, .answers stage rfl rfl (fun ran => absurd rfl ran) (alone ▸ .alone)⟩
    | _ => simp_all
  | @past reply past =>
    cases rule with
    | @left own stage =>
      exact ⟨[], .rests (by rw [stage]; rfl) rfl rfl (by rw [stage]; exact Nat.zero_le _)⟩
    | @settled own stage =>
      exact ⟨[], .rests (by rw [stage]; rfl) stage rfl (by rw [stage]; exact Nat.zero_le _)⟩
    | _ => simp_all [Stage.answer?]

end Job

end Workbench
