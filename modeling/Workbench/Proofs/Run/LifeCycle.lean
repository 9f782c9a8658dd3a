/-
The life of a suspended run, from the step that stores it to the one that takes
it up again or forgets it.

Nothing else touches it (`Hub.Turns`). So a run that is taken up again was stored
before, and since then nothing was stored, forgotten or taken up, and no run of
the editor's program has come to its end (`Hub.Reachable.life_cycle`).

That an editor's run which has finished also forgets what is stored changes
nothing: it forgot that before it began (`Site.Bare`).
-/
import Workbench.Proofs.Run.Interruption

namespace Workbench

variable {E : Engine}

/-! ## What a step does to the stored run -/

namespace Stride

/-- The stored run is taken up again: a job that is to resume one finds it, and will give the engine what was
stored. -/
structure Resumes (s : Stride E) (x : Suspension E.Snapshot) : Prop where
  stage : s.job.stage = .preparing .debugResume
  found : s.slot.suspended = some x
  launched : s.made.job.stage = .launching .debugResume
    { origin := .snapshot x.snapshot, context := x.context, prependLines := x.prependLines }

/-- A run of a mode, which is no testcase's, is suspended by the engine: with the engine's snapshot and location,
and the run's own context and offset. -/
structure Suspends (s : Stride E) (mode : Mode) (x : Suspension E.Snapshot) : Prop where
  own : ∀ i, mode ≠ .testcaseRun i
  run : ∃ l, l.mode = mode ∧ l.context = x.context ∧ l.prependLines = x.prependLines ∧
    s.job.Answered s.now l (.suspended x.snapshot x.location) ∧
    s.ended? = some (mode, if l.paused then .paused else .breakpointHit)

/-- The stored run is forgotten. -/
inductive Forgets (s : Stride E) : Prop
  /-- an editor's run begins to be prepared -/
  | editor (stage : s.job.stage = .preparing .editorRun)
  | resumed {x : Suspension E.Snapshot} (resumes : s.Resumes x)
  | reset (stage : s.job.stage = .admitted) (operation : s.job.operation = .reset)
  /-- the selection changes -/
  | chapter {chapter : UInt8} (stage : s.job.stage = .admitted) (operation : s.job.operation = .selectChapter chapter)
    (other : s.slot.state.chapter ≠ chapter)
  | library {library : LibraryName} (stage : s.job.stage = .admitted)
    (operation : s.job.operation = .selectLibrary library) (other : s.slot.state.library ≠ library)
  | interrupted {mode : Mode} (own : ∀ i, mode ≠ .testcaseRun i) (ended : s.ended? = some (mode, .interrupted))

/-- The stored run is neither forgotten nor is another one stored. -/
structure Calm (s : Stride E) : Prop where
  kept : ¬ s.Forgets
  unstored : ∀ mode x, ¬ s.Suspends mode x

/-- A run of the editor's program, or one that was taken up again, has come to its end for good. -/
def Concludes (s : Stride E) : Prop :=
  ∃ mode o, s.ended? = some (mode, o) ∧ (mode = .editorRun ∨ mode = .debugResume) ∧ o ≠ .breakpointHit ∧ o ≠ .paused

/-- The steps that have nothing to do with the stored run, whatever comes of them. -/
inductive Spares (s : Stride E) : Prop
  | testcase {i : Nat} (run : s.job.stage.mode? = some (.testcaseRun i))
  | batch {b : Batch} (under : s.job.batch = some b)
  | all (operation : s.job.operation = .runAll)
  /-- a run beside the editor's, unless it is interrupted or suspended in the step -/
  | repl (run : s.job.stage.mode? = some .replRun)
    (ran : ∀ o, s.ended? = some (.replRun, o) → (∃ value, o = .finished value) ∨ ∃ faults, o = .errored faults)
  /-- a selection of what is selected -/
  | chapter (operation : s.job.operation = .selectChapter s.slot.state.chapter)
  | library (operation : s.job.operation = .selectLibrary s.slot.state.library)

variable {s : Stride E} {mode : Mode} {x : Suspension E.Snapshot}

/-- Which run a step is of that stores one, or forgets the one that is stored. -/
theorem Suspends.stage (suspends : s.Suspends mode x) : s.job.stage.mode? = some mode := by
  obtain ⟨l, rfl, -, -, answered, -⟩ := suspends.run
  rw [answered.1]
  rfl

theorem Forgets.stage (made : s.Made) (forgets : s.Forgets) :
    (∃ mode, s.job.stage.mode? = some mode ∧ (∀ i, mode ≠ .testcaseRun i) ∧
      (mode = .replRun → s.ended? = some (.replRun, .interrupted))) ∨
    s.job.stage = .admitted ∧ (s.job.operation = .reset ∨
      (∃ chapter, s.job.operation = .selectChapter chapter ∧ s.slot.state.chapter ≠ chapter) ∨
      ∃ library, s.job.operation = .selectLibrary library ∧ s.slot.state.library ≠ library) := by
  cases forgets with
  | editor stage => exact .inl ⟨.editorRun, by rw [stage]; rfl, nofun, nofun⟩
  | resumed resumes => exact .inl ⟨.debugResume, by rw [resumes.stage]; rfl, nofun, nofun⟩
  | reset stage operation => exact .inr ⟨stage, .inl operation⟩
  | chapter stage operation other => exact .inr ⟨stage, .inr (.inl ⟨_, operation, other⟩)⟩
  | library stage operation other => exact .inr ⟨stage, .inr (.inr ⟨_, operation, other⟩)⟩
  | @interrupted mode own ended =>
    refine .inl ⟨mode, (made.ends ended).2, own, ?_⟩
    rintro rfl
    exact ended

/-- The steps that are said to spare the stored run neither forget it nor store another one. -/
theorem Spares.calm (made : s.Made) (orderly : s.job.Orderly) (spares : s.Spares) : s.Calm := by
  -- a run that is no testcase's is in no batch, and is the one that was asked for
  have asked : ∀ {mode}, s.job.stage.mode? = some mode → (∀ i, mode ≠ .testcaseRun i) →
      s.job.batch = none ∧ s.job.operation = .evaluate mode := by
    intro mode run own
    cases under : s.job.batch with
    | none => exact ⟨rfl, orderly.alone under mode run⟩
    | some b =>
      rcases (orderly.batch b under).1 with testcase | ⟨reply, past | past⟩
      · exact absurd (Option.some.inj (run.symm.trans testcase)) (own _)
      · simp [past, Stage.mode?] at run
      · simp [past, Stage.mode?] at run
  have idle : s.job.stage = .admitted → s.job.stage.mode? = none ∧ s.job.batch = none := by
    intro stage
    have none : s.job.stage.mode? = none := by rw [stage]; rfl
    refine ⟨none, (orderly.outside none ?_).1⟩
    rintro ⟨reply, past | past⟩ <;> cases stage.symm.trans past
  constructor
  · intro forgets
    rcases forgets.stage made with ⟨mode, run, own, stops⟩ | ⟨stage, operation⟩
    · obtain ⟨alone, operation⟩ := asked run own
      cases spares with
      | testcase there => exact own _ (Option.some.inj (run.symm.trans there))
      | batch under => cases alone.symm.trans under
      | repl there ran =>
        cases run.symm.trans there
        rcases ran _ (stops rfl) with ⟨_, same⟩ | ⟨_, same⟩ <;> cases same
      | all other | chapter other | library other => cases operation.symm.trans other
    · obtain ⟨none, alone⟩ := idle stage
      cases spares with
      | testcase there | repl there => cases none.symm.trans there
      | batch under => cases alone.symm.trans under
      | all other => rcases operation with same | ⟨_, same, -⟩ | ⟨_, same, -⟩ <;> cases other.symm.trans same
      | chapter other =>
        rcases operation with same | ⟨_, same, changed⟩ | ⟨_, same, -⟩ <;> cases other.symm.trans same
        exact changed rfl
      | library other =>
        rcases operation with same | ⟨_, same, -⟩ | ⟨_, same, changed⟩ <;> cases other.symm.trans same
        exact changed rfl
  · intro mode x suspends
    obtain ⟨alone, operation⟩ := asked suspends.stage suspends.own
    cases spares with
    | testcase there => exact suspends.own _ (Option.some.inj (suspends.stage.symm.trans there))
    | batch under => cases alone.symm.trans under
    | repl there ran =>
      cases suspends.stage.symm.trans there
      obtain ⟨l, -, -, -, -, ended⟩ := suspends.run
      rcases ran _ ended with ⟨_, same⟩ | ⟨_, same⟩ <;> split at same <;> cases same
    | all other | chapter other | library other => cases operation.symm.trans other

end Stride

/-! ## Runs for whose sake the stored run was forgotten -/

/-- A stage of a run that began with forgetting what was stored. -/
def Stage.isBare : Stage E → Bool
  | .loading .editorRun _ => true
  | .launching mode _ => mode.acceptsPause
  | .starting l => l.mode.acceptsPause
  | .running l => l.mode.acceptsPause
  | _ => false

theorem Stage.place_of_isBare {stage : Stage E} (bare : stage.isBare = true) : stage.place = .owning := by
  cases stage with
  | submitted | queued | admitted | settled => cases bare
  | _ => rfl

/-- While such a run is under way nothing is stored. -/
def Site.Bare (s : Site E) : Prop :=
  ∀ id job, s.job? id = some job → job.stage.isBare = true → s.slot.suspended = none

namespace Job

variable {h : House} {id : JobId} {sc : Scene E} {job : Job E} {a : Advance E}

theorem Rule.bare (rule : Rule h id sc job a) (bare : job.stage.isBare = true → sc.slot.suspended = none)
    (later : a.job.stage.isBare = true) : a.scene.slot.suspended = none := by
  cases rule with
  | waiting | settled => exact bare later
  | editor | resumed => rfl
  | @loading purpose _ _ _ stage =>
    rw [stage] at bare
    cases purpose with
    | editorRun => exact bare rfl
    | _ => cases later
  | @loaded purpose wait next stage waited =>
    rw [stage] at bare
    cases purpose with
    | editorRun => exact (congrArg Slot.suspended waited.slot).trans (bare rfl)
    | _ => cases later
  | launched stage =>
    rw [launch_slot]
    rw [stage] at bare
    exact bare later
  | pausedEarly stage | started stage | paused stage | unheard stage | running stage =>
    rw [stage] at bare
    exact bare later
  | _ => cases later

end Job

theorem Site.Bare.step {settings : Settings} {s next : Site E} {c : Cause} (bare : s.Bare) (owned : s.Owned)
    (step : s.Step settings c next) : next.Bare := by
  intro id job known later
  cases before : s.job? id with
  | none =>
    -- a job that comes in has done nothing yet
    cases step with
    | edit | clearOutput | signal => cases before.symm.trans known
    | submit j operation free =>
      dsimp only at known
      split at known
      · cases known
        cases later
      · cases before.symm.trans known
    | step h _ asked j other theirs =>
      have different : id ≠ j := by
        rintro rfl
        cases before.symm.trans theirs
      rw [s.take_other _ different] at known
      cases before.symm.trans known
  | some earlier =>
    rcases owned.undisturbed before step with ⟨h, asked, rfl⟩ | ⟨same, kept⟩
    · cases (s.take_own ..).symm.trans known
      exact (Job.step_rule ..).bare (bare id earlier before) later
    · cases same.symm.trans known
      exact (kept (Stage.place_of_isBare later)).1.trans (bare id job before later)

theorem Hub.Reachable.bare {hub : Hub E} (reached : hub.Reachable) {w : WorkspaceId} {s : Site E}
    (here : hub.site? w = some s) : s.Bare := by
  refine (reached.site (P := fun s => s.Owned ∧ s.Bare) ?_ ?_ here).2
  · intro w s fresh
    refine ⟨fresh.owned, fun id job known later => ?_⟩
    rcases (fresh.jobs id job known).2.2 with stage | ⟨r, stage⟩ <;> rw [stage] at later <;> cases later
  · exact fun s c next ⟨owned, bare⟩ step => ⟨owned.step step, bare.step owned step⟩

/-! ## What is stored after a step -/

@[simp] theorem Scene.forgetShown_suspended (sc : Scene E) : sc.forgetShown.slot.suspended = none := by
  rw [Scene.forgetShown_slot]
  split
  · rfl
  · next nothing => exact nothing

@[simp] theorem Scene.settleMode_suspended (sc : Scene E) (mode : Mode) (verdict : Verdict)
    (occurrence : Nat → Occurrence) :
    (sc.settleMode mode verdict occurrence).slot.suspended =
      if mode = .editorRun then none else sc.slot.suspended := by
  cases mode <;> rfl

namespace Job

variable {h : House} {id : JobId} {sc : Scene E} {job : Job E} {a : Advance E}

/-- The end of a run, unless it is interrupted or suspended, leaves the stored run as it is, if an editor's run
finds none. -/
theorem finish_suspended {l : Live E} {result : RunResult E.Snapshot}
    (bare : l.mode.acceptsPause = true → sc.slot.suspended = none)
    (unstored : ∀ snapshot location, result = .suspended snapshot location → ∃ i, l.mode = .testcaseRun i) :
    (finish h sc l result).1.slot.suspended = sc.slot.suspended := by
  have settled : ∀ {mode : Mode}, (mode.acceptsPause = true → sc.slot.suspended = none) →
      (if mode = .editorRun then none else sc.slot.suspended) = sc.slot.suspended := by
    intro mode bare
    split
    · next editor => exact (bare (by rw [editor]; rfl)).symm
    · rfl
  cases result with
  | finished value =>
    simp only [finish, Scene.finishValue_slot, Scene.settleMode_suspended]
    exact settled bare
  | failed faults =>
    simp only [finish, Scene.finishFaults_slot, Scene.settleMode_suspended]
    exact settled bare
  | suspended snapshot location =>
    obtain ⟨i, testcase⟩ := unstored snapshot location rfl
    simp only [finish, testcase, Scene.finishFaults_slot, Scene.settleMode_suspended]
    rfl

end Job

namespace Stride.Made

variable {s : Stride E} {mode : Mode} {x : Suspension E.Snapshot}

theorem forgets (made : s.Made) (forgets : s.Forgets) : s.made.scene.slot.suspended = none := by
  obtain ⟨h, id, asked, -, step⟩ := id made
  have rule := Job.step_rule h id { slot := s.slot, asked := asked } s.job
  rw [← step] at rule
  cases forgets with
  | editor stage =>
    rw [step, Job.step, stage]
    rfl
  | resumed resumes =>
    rw [step, Job.step, resumes.stage]
    simp only [Job.prepare, resumes.found]
    rfl
  | reset stage operation =>
    rw [step, Job.step, stage]
    simp only [Job.begin, operation]
    rfl
  | chapter stage operation other =>
    rw [step, Job.step, stage]
    simp only [Job.begin, operation, other, ↓reduceIte, Job.select, Scene.forgetShown_suspended]
  | library stage operation other =>
    rw [step, Job.step, stage]
    simp only [Job.begin, operation, other, ↓reduceIte, Job.select, Scene.forgetShown_suspended]
  | @interrupted mode own ended =>
    obtain ⟨-, _, -, records⟩ := rule.interrupts ended
    exact records.forgotten own

theorem suspends (made : s.Made) (suspends : s.Suspends mode x) : s.made.scene.slot.suspended = some x := by
  obtain ⟨l, rfl, context, prependLines, answered, ended⟩ := suspends.run
  have kept : (if l.paused then Outcome.paused else .breakpointHit) ≠ .interrupted := by split <;> nofun
  generalize (if l.paused then Outcome.paused else .breakpointHit) = o at ended kept
  cases (made.ends ended).1 with
  | @suspended own snapshot location same _ again kept =>
    cases answered.1.symm.trans again.1
    cases answered.unique again
    rw [kept, context, prependLines]
  | interrupted => exact absurd rfl kept
  | value own again => cases answered.unique again
  | faults own again => cases answered.unique again
  | unkept testcase => exact absurd testcase (suspends.own _)

/-- A step that neither forgets nor stores a run leaves the stored one as it is. -/
theorem calm (made : s.Made) (bare : s.job.stage.isBare = true → s.slot.suspended = none) (calm : s.Calm) :
    s.made.scene.slot.suspended = s.slot.suspended := by
  obtain ⟨h, id, asked, now, step⟩ := id made
  have rule := Job.step_rule h id { slot := s.slot, asked := asked } s.job
  -- a run that is interrupted here is a testcase's
  have interrupted : ∀ mode, s.ended? = some (mode, .interrupted) → ∃ i, mode = .testcaseRun i := by
    intro mode ended
    by_contra own
    exact calm.kept (.interrupted (not_exists.1 own) ended)
  unfold Stride.ended? at interrupted
  rw [← step] at rule
  generalize same : s.made = a at rule interrupted ⊢
  cases rule with
  | waiting | settled | refused | admitted | armed | allEmpty | allBegun | unchanged | deprived | repl | testcase
  | loading | pausedEarly | started | paused | unheard | running | next | answered => rfl
  | enqueued => rw [Job.enqueue_slot]
  | left => rw [Job.leave_slot]
  | cutShort | aborted | completed => rw [Job.endBatch_slot]
  | launched => rw [Job.launch_slot]
  | gradedEmpty | gradedBegun => simp only [Scene.occur_slot, Scene.sayBriefly_slot, Job.refusePause_slot]
  | reset stage operation => exact absurd (.reset stage operation) calm.kept
  | chapter stage operation other => exact absurd (.chapter stage operation other) calm.kept
  | library stage operation other => exact absurd (.library stage operation other) calm.kept
  | editor stage => exact absurd (.editor stage) calm.kept
  | resumed stage found => exact absurd (.resumed ⟨stage, found, by rw [same]; rfl⟩) calm.kept
  | @loaded purpose wait next stage waited =>
    refine Eq.trans ?_ (congrArg Slot.suspended waited.slot)
    cases purpose <;> rfl
  | stoppedEarly | stopped =>
    obtain ⟨i, testcase⟩ := interrupted _ rfl
    rw [Job.conclude_slot, testcase]
    rfl
  | @ended l lines result stage polled =>
    rw [Job.conclude_slot]
    refine Job.finish_suspended (fun accepts => bare (by rw [stage]; exact accepts)) ?_
    rintro snapshot location rfl
    by_contra own
    refine calm.unstored l.mode ⟨snapshot, l.context, l.prependLines, location⟩ ⟨not_exists.1 own, l, rfl, rfl, rfl,
      ⟨stage, lines, now ▸ polled⟩, ?_⟩
    rw [Stride.ended?, same]
    simp only [Job.finish]
    split
    · next i testcase => exact absurd ⟨i, testcase⟩ own
    · exact congrArg (fun o => some (l.mode, o)) (Scene.finishSuspended_outcome ..)

/-- After a run of the editor's program, or one that was taken up again, has ended for good, nothing is stored. -/
theorem concludes (made : s.Made) (bare : s.job.stage.isBare = true → s.slot.suspended = none)
    (concludes : s.Concludes) : s.made.scene.slot.suspended = none := by
  obtain ⟨mode, o, ended, own, unhit, unpaused⟩ := concludes
  by_cases interrupted : o = .interrupted
  · subst interrupted
    refine made.forgets (.interrupted ?_ ended)
    rintro i rfl
    rcases own with same | same <;> cases same
  · obtain ⟨l, stage⟩ := (made.ends ended).1.runs interrupted
    have mode_eq := (made.ends ended).2
    have nothing : s.slot.suspended = none := bare (by
      rw [stage] at mode_eq ⊢
      cases mode_eq
      rcases own with same | same <;> exact congrArg Mode.acceptsPause same)
    by_cases forgets : s.Forgets
    · exact made.forgets forgets
    · refine (made.calm bare ⟨forgets, fun mode x suspends => ?_⟩).trans nothing
      obtain ⟨l, -, -, -, -, ended'⟩ := suspends.run
      have same := congrArg Prod.snd (Option.some.inj (ended.symm.trans ended'))
      dsimp only at same
      split at same
      · exact unpaused same
      · exact unhit same

/-- A run ends at a breakpoint or paused exactly if it is stored. -/
theorem suspends_iff (made : s.Made) {o : Outcome} (ended : s.ended? = some (mode, o)) :
    (o = .breakpointHit ∨ o = .paused) ↔ ∃ x, s.Suspends mode x := by
  constructor
  · intro resumable
    cases (made.ends ended).1 with
    | @suspended l snapshot location same own answered =>
      exact ⟨⟨snapshot, l.context, l.prependLines, location⟩, own, l, same, rfl, rfl, answered, ended⟩
    | interrupted | value | faults | unkept => rcases resumable with same | same <;> cases same
  · rintro ⟨x, suspends⟩
    obtain ⟨l, -, -, -, -, ended'⟩ := suspends.run
    cases ended.symm.trans ended'
    cases l.paused <;> simp

end Stride.Made

/-! ## Courses of moves -/

namespace Hub

variable {hub : Hub E} {w : WorkspaceId}

/-- The run that is stored for a workspace. -/
def suspended? (hub : Hub E) (w : WorkspaceId) : Option (Suspension E.Snapshot) :=
  (hub.site? w).bind (·.slot.suspended)

/-- The step that a job takes at a workspace in a move, if one does. -/
def strideAt? (hub : Hub E) (w : WorkspaceId) : Move → Option (Stride E)
  | .step id now => hub.stride? w id (.step id now)
  | _ => none

/-- The steps that the jobs of a workspace take in a course of moves. -/
def history (hub : Hub E) (w : WorkspaceId) : List Move → List (Stride E)
  | [] => []
  | m :: moves => (hub.strideAt? w m).toList ++ (hub.move m).history w moves

theorem history_append (hub : Hub E) (w : WorkspaceId) (first second : List Move) :
    hub.history w (first ++ second) = hub.history w first ++ (hub.after first).history w second := by
  induction first generalizing hub with
  | nil => rfl
  | cons m moves ih => simp [history, ih]

/-- What the jobs of a workspace find when they step, and what is left. -/
theorem Reachable.strideAt (reached : hub.Reachable) {m : Move} {step : Stride E}
    (took : hub.strideAt? w m = some step) :
    step.Made ∧ step.job.Orderly ∧ (step.job.stage.isBare = true → step.slot.suspended = none) ∧
      hub.suspended? w = step.slot.suspended ∧ (hub.move m).suspended? w = step.made.scene.slot.suspended := by
  cases m with
  | step id now =>
    obtain ⟨s, here, slot, known, made⟩ := stride?_eq_some (show hub.stride? w id (.step id now) = some step from took)
    refine ⟨made, (reached.attentive here).orderly known, ?_, ?_, ?_⟩
    · rw [← slot]
      exact reached.bare here id step.job known
    · rw [suspended?, here, ← slot]
      rfl
    · rw [suspended?, Hub.move, (step_own reached.sound here known now).1]
      simp only [strideAt?, stride?, here, known, ↓reduceIte, Option.bind_eq_bind, Option.bind_some, Option.pure_def,
        Option.some.injEq] at took
      exact congrArg (·.made.scene.slot.suspended) took
  | _ => cases took

/-- A move in which no job of the workspace steps leaves the stored run as it is. -/
theorem Sound.suspended?_move (sound : hub.Sound) {m : Move} (still : hub.strideAt? w m = none) :
    (hub.move m).suspended? w = hub.suspended? w := by
  unfold suspended?
  cases here : hub.site? w with
  | none =>
    rcases (move_closed sound m here).1 with closed | ⟨jobs, opened⟩
    · rw [closed]
    · rw [opened]
      rfl
  | some s =>
    obtain ⟨next, there, rfl | ⟨c, cause, step⟩⟩ := move_site sound m here
    · rw [there]
    · rw [there]
      cases step with
      | step h _ asked id job known =>
        cases cause
        simp [strideAt?, stride?, here, known] at still
      | _ => rfl

/-- What a move does to the run that is stored for a workspace. -/
structure Turns (hub : Hub E) (w : WorkspaceId) (m : Move) : Prop where
  /-- a run that is suspended is stored -/
  stored : ∀ step mode x, hub.strideAt? w m = some step → step.Suspends mode x → (hub.move m).suspended? w = some x
  /-- which is what it means that a run ends at a breakpoint or paused -/
  ended : ∀ step mode o, hub.strideAt? w m = some step → step.ended? = some (mode, o) →
    ((o = .breakpointHit ∨ o = .paused) ↔ ∃ x, step.Suspends mode x)
  forgotten : ∀ step, hub.strideAt? w m = some step → step.Forgets → (hub.move m).suspended? w = none
  /-- an editor's run, or a resumed one, that has ended for good leaves nothing stored -/
  concluded : ∀ step, hub.strideAt? w m = some step → step.Concludes → (hub.move m).suspended? w = none
  /-- nothing else changes what is stored -/
  kept : (∀ step, hub.strideAt? w m = some step → step.Calm) → (hub.move m).suspended? w = hub.suspended? w
  spared : ∀ step, hub.strideAt? w m = some step → step.Spares → (hub.move m).suspended? w = hub.suspended? w

theorem Reachable.turns (reached : hub.Reachable) (w : WorkspaceId) (m : Move) : hub.Turns w m where
  stored := by
    intro step mode x took suspends
    obtain ⟨made, -, -, -, after⟩ := reached.strideAt took
    exact after.trans (made.suspends suspends)
  ended := by
    intro step mode o took ended
    exact (reached.strideAt took).1.suspends_iff ended
  forgotten := by
    intro step took forgets
    obtain ⟨made, -, -, -, after⟩ := reached.strideAt took
    exact after.trans (made.forgets forgets)
  concluded := by
    intro step took concludes
    obtain ⟨made, -, bare, -, after⟩ := reached.strideAt took
    exact after.trans (made.concludes bare concludes)
  kept := by
    intro calm
    cases took : hub.strideAt? w m with
    | none => exact reached.sound.suspended?_move took
    | some step =>
      obtain ⟨made, -, bare, before, after⟩ := reached.strideAt took
      exact after.trans ((made.calm bare (calm step took)).trans before.symm)
  spared := by
    intro step took spares
    obtain ⟨made, orderly, bare, before, after⟩ := reached.strideAt took
    exact after.trans ((made.calm bare (spares.calm made orderly)).trans before.symm)

/-- Steps after which what was stored before is stored still, and no run of the editor's program or one that was
taken up again has ended for good. -/
def Rests (steps : List (Stride E)) : Prop := ∀ step ∈ steps, step.Calm ∧ ¬ step.Concludes

/-- Where a stored run comes from: it was stored at the beginning, or in a step, and has rested since. -/
def Stems (hub : Hub E) (w : WorkspaceId) (steps : List (Stride E)) (x : Suspension E.Snapshot) : Prop :=
  hub.suspended? w = some x ∧ Rests steps ∨
    ∃ before origin between mode, steps = before ++ origin :: between ∧ origin.Suspends mode x ∧ Rests between

theorem Stems.cons {m : Move} {steps : List (Stride E)} {x : Suspension E.Snapshot} (reached : hub.Reachable)
    (stems : (hub.move m).Stems w steps x) : hub.Stems w ((hub.strideAt? w m).toList ++ steps) x := by
  have turns := reached.turns w m
  rcases stems with ⟨stored, rests⟩ | ⟨before, origin, between, mode, rfl, suspends, rests⟩
  · cases took : hub.strideAt? w m with
    | none => exact .inl ⟨(reached.sound.suspended?_move took).symm.trans stored, rests⟩
    | some step =>
      by_cases suspends : ∃ mode y, step.Suspends mode y
      · obtain ⟨mode, y, suspends⟩ := suspends
        cases (turns.stored step mode y took suspends).symm.trans stored
        exact .inr ⟨[], step, steps, mode, rfl, suspends, rests⟩
      · -- what is stored afterwards was stored before, for the step has not forgotten it
        have calm : step.Calm := by
          refine ⟨fun forgets => ?_, fun mode y stores => suspends ⟨mode, y, stores⟩⟩
          cases (turns.forgotten step took forgets).symm.trans stored
        have going : ¬ step.Concludes := by
          intro concludes
          cases (turns.concluded step took concludes).symm.trans stored
        have same := turns.kept fun other took' => (Option.some.inj (took.symm.trans took')) ▸ calm
        refine .inl ⟨same.symm.trans stored, fun other here => ?_⟩
        rcases List.mem_cons.1 here with rfl | here
        · exact ⟨calm, going⟩
        · exact rests other here
  · exact .inr ⟨(hub.strideAt? w m).toList ++ before, origin, between, mode, by simp, suspends, rests⟩

/-- Whatever is stored in the end comes from somewhere. -/
theorem Reachable.stems (reached : hub.Reachable) (moves : List Move) {x : Suspension E.Snapshot}
    (stored : (hub.after moves).suspended? w = some x) : hub.Stems w (hub.history w moves) x := by
  induction moves generalizing hub with
  | nil => exact .inl ⟨stored, fun _ here => absurd here List.not_mem_nil⟩
  | cons m moves ih => exact (ih (reached.move m) stored).cons reached

/-- The steps of a history are taken one after the other. -/
theorem history_eq_append {moves : List Move} {earlier later : List (Stride E)} {step : Stride E}
    (split : hub.history w moves = earlier ++ step :: later) :
    ∃ past m rest, moves = past ++ m :: rest ∧ hub.history w past = earlier ∧
      (hub.after past).strideAt? w m = some step := by
  induction moves generalizing hub earlier with
  | nil => simp [history] at split
  | cons m moves ih =>
    rw [history] at split
    cases took : hub.strideAt? w m with
    | none =>
      rw [took] at split
      obtain ⟨past, m', rest, rfl, rfl, there⟩ := ih split
      exact ⟨m :: past, m', rest, rfl, by simp [history, took], there⟩
    | some first =>
      rw [took] at split
      cases earlier with
      | nil =>
        cases split
        exact ⟨[], m, moves, rfl, rfl, took⟩
      | cons own earlier =>
        obtain ⟨same, others⟩ := List.cons.inj split
        obtain ⟨past, m', rest, rfl, rfl, there⟩ := ih others
        exact ⟨m :: past, m', rest, rfl, by simp [history, took, same], there⟩

/-- In every workspace the stored run is stored, taken up and forgotten as it should be and by nothing else. So a
run that is taken up again was stored before, and has rested since: none is taken up twice, and none that is older
than a run of the editor's program, or one that was taken up again, that has ended for good. -/
theorem Reachable.life_cycle (reached : hub.Reachable) (w : WorkspaceId) :
    (∀ m, hub.Turns w m) ∧
      (∀ moves earlier step later x, hub.history w moves = earlier ++ step :: later → step.Resumes x →
        hub.Stems w earlier x) ∧
      ∀ moves earlier first between last later x,
        hub.history w moves = earlier ++ first :: between ++ last :: later →
          first.Forgets ∨ first.Concludes → last.Resumes x →
            ∃ origin ∈ between, ∃ mode, origin.Suspends mode x := by
  have stems : ∀ moves earlier step later x, hub.history w moves = earlier ++ step :: later → step.Resumes x →
      hub.Stems w earlier x := by
    intro moves earlier step later x split resumes
    obtain ⟨past, m, rest, -, rfl, took⟩ := history_eq_append split
    have stored := ((reached.after past).strideAt took).2.2.2.1.trans resumes.found
    exact reached.stems past stored
  refine ⟨reached.turns w, stems, ?_⟩
  intro moves earlier first between last later x split gone resumes
  have unrest : ∀ steps, Rests steps → first ∉ steps := by
    intro steps rests here
    obtain ⟨calm, going⟩ := rests first here
    exact gone.elim calm.kept going
  rcases stems moves _ last later x split resumes with ⟨-, rests⟩ | ⟨before, origin, after, mode, same, suspends, rests⟩
  · exact absurd (by simp) (unrest _ rests)
  · obtain ⟨past, m, rest, -, -, took⟩ := history_eq_append (split.trans (List.append_assoc ..))
    obtain ⟨made, -, bare, -, -⟩ := (reached.after past).strideAt took
    have other : origin ≠ first := by
      rintro rfl
      have stored := made.suspends suspends
      rcases gone with forgets | concludes
      · cases (made.forgets forgets).symm.trans stored
      · cases (made.concludes bare concludes).symm.trans stored
    rcases List.append_eq_append_iff.1 same with ⟨some, -, tail⟩ | ⟨some, -, tail⟩
    · cases some with
      | nil =>
        cases tail
        exact absurd rfl other
      | cons _ some =>
        cases tail
        exact ⟨origin, by simp, mode, suspends⟩
    · cases some with
      | nil =>
        cases tail
        exact absurd rfl other
      | cons _ some =>
        cases tail
        exact absurd (by simp) (unrest _ rests)

end Hub

/-! ### A run that is resumed twice -/

namespace Stride

/-- Whether a step finds a run to take up again. -/
def takesUp (s : Stride E) : Bool :=
  match s.job.stage with
  | .preparing .debugResume => s.slot.suspended.isSome
  | _ => false

theorem Made.resumes {s : Stride E} (made : s.Made) (takes : s.takesUp = true) : ∃ x, s.Resumes x := by
  unfold takesUp at takes
  split at takes
  · next stage =>
    obtain ⟨x, found⟩ := Option.isSome_iff_exists.1 takes
    obtain ⟨h, id, asked, -, step⟩ := made
    refine ⟨x, stage, found, ?_⟩
    rw [step, Job.step, stage]
    simp only [Job.prepare, found]
    rfl
  · cases takes

end Stride

/-- A program with two places to stop at. -/
def halting : Hub Directive.engine :=
  (Hub.create {} .bundled).1.move (.edit .playground (.editorValue "break 1\nbreak 2\nfinish 3"))

/-- It is run, and resumed once; then it stands at the second place. -/
def haltingFirst : List Move :=
  .submit 0 .playground (.evaluate .editorRun) :: List.replicate 12 (.step 0 0) ++
    .submit 1 .playground (.evaluate .debugResume) :: List.replicate 11 (.step 1 0)

/-- It is resumed once more. -/
def haltingSecond : List Move := .submit 2 .playground (.evaluate .debugResume) :: List.replicate 11 (.step 2 0)

/-- What is resumed the second time was stored since the first. -/
theorem life_cycle_of_halting :
    ∃ earlier first between last later x, halting.Reachable ∧
      halting.history .playground (haltingFirst ++ haltingSecond) = earlier ++ first :: between ++ last :: later ∧
      first.Forgets ∧ last.Resumes x ∧ ∃ origin ∈ between, ∃ mode, origin.Suspends mode x := by
  have reached : halting.Reachable := (Hub.Reachable.create {} .bundled).move _
  have once : (halting.history .playground haltingFirst).any (·.takesUp) = true := by decide +kernel
  have twice : ((halting.after haltingFirst).history .playground haltingSecond).any (·.takesUp) = true := by
    decide +kernel
  obtain ⟨first, here, once⟩ := List.any_eq_true.1 once
  obtain ⟨last, there, twice⟩ := List.any_eq_true.1 twice
  obtain ⟨a, b, one⟩ := List.append_of_mem here
  obtain ⟨c, d, two⟩ := List.append_of_mem there
  have split : halting.history .playground (haltingFirst ++ haltingSecond) = a ++ first :: (b ++ c) ++ last :: d := by
    rw [Hub.history_append, one, two]
    simp
  obtain ⟨past, m, -, -, -, took⟩ := Hub.history_eq_append one
  obtain ⟨_, resumed⟩ := ((reached.after past).strideAt took).1.resumes once
  obtain ⟨past, m, -, -, -, took⟩ := Hub.history_eq_append two
  obtain ⟨x, resumes⟩ := (((reached.after haltingFirst).after past).strideAt took).1.resumes twice
  have stored :=
    (reached.life_cycle .playground).2.2 _ a first (b ++ c) last d x split (.inl (.resumed resumed)) resumes
  exact ⟨a, first, b ++ c, last, d, x, reached, split, .resumed resumed, resumes, stored⟩

end Workbench
