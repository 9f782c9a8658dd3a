/-
The highlighted lines and the suspended run.

They are stored apart and change at different steps. An editor's run forgets the
suspended run when it begins, and its highlight only when it ends, so what is
highlighted is where the suspended run stopped except while such a run is under way
(`Site.Pointed`); when nobody holds the permit, it is always
(`Hub.Reachable.highlight_points`).

A job that runs testcases touches neither (`Job.Tests.keeps`). A run beside the
editor's that comes to a value or fails keeps the suspended run, which can still be
resumed, but nothing is highlighted after it (`Job.Tries`).
-/
import Workbench.Proofs.Run.LifeCycle
import Workbench.Proofs.Run.Provision

namespace Workbench

variable {E : Engine}

/-! ## The highlight points at the suspended run -/

/-- What is highlighted is where the suspended run stopped, in the user's lines. -/
def Slot.Pointed (slot : Slot E) : Prop :=
  ∀ r, slot.state.highlighted = some r →
    ∃ x l, slot.suspended = some x ∧ x.location = some l ∧ r = LineRange.ofLocation l x.prependLines

namespace Slot.Pointed

variable {slot later : Slot E}

theorem of_none (dark : slot.state.highlighted = none) : slot.Pointed := by
  intro r shown
  cases dark.symm.trans shown

theorem congr (pointed : slot.Pointed) (suspended : later.suspended = slot.suspended)
    (highlighted : later.state.highlighted = slot.state.highlighted) : later.Pointed := by
  unfold Slot.Pointed
  rw [suspended, highlighted]
  exact pointed

end Slot.Pointed

namespace Job

variable {h : House} {id : JobId} {sc : Scene E} {job : Job E} {a : Advance E}

/-- A run that is interrupted leaves nothing highlighted, except that a testcase's leaves all as it was. -/
theorem finishInterrupted_pointed {mode : Mode} (before : sc.slot.Pointed ∨ ∀ i, mode ≠ .testcaseRun i) :
    (sc.finishInterrupted h mode).1.slot.Pointed := by
  cases mode with
  | testcaseRun i =>
    have pointed := before.resolve_right fun own => own i rfl
    exact pointed.congr rfl rfl
  | _ => exact .of_none rfl

theorem settleMode_pointed {mode : Mode} {verdict : Verdict} {occurrence : Nat → Occurrence}
    (before : sc.slot.Pointed ∨ ∀ i, mode ≠ .testcaseRun i) :
    (sc.settleMode mode verdict occurrence).slot.Pointed := by
  cases mode with
  | testcaseRun i =>
    have pointed := before.resolve_right fun own => own i rfl
    exact pointed.congr rfl rfl
  | _ => exact .of_none rfl

theorem finishSuspended_pointed (x : Suspension E.Snapshot) (paused : Bool) :
    (sc.finishSuspended h x paused).1.slot.Pointed := by
  rw [Scene.finishSuspended_slot]
  intro r shown
  have shown : x.location.map (LineRange.ofLocation · x.prependLines) = some r := by cases paused <;> exact shown
  obtain ⟨l, there, same⟩ := Option.map_eq_some_iff.1 shown
  exact ⟨x, l, rfl, there, same.symm⟩

/-- However a run ends, what is highlighted then is where the suspended run stopped. -/
theorem finish_pointed {l : Live E} {result : RunResult E.Snapshot}
    (before : sc.slot.Pointed ∨ ∀ i, l.mode ≠ .testcaseRun i) : (finish h sc l result).1.slot.Pointed := by
  cases result with
  | finished value => exact settleMode_pointed (before.imp_left fun pointed => pointed.congr rfl rfl)
  | failed faults => exact settleMode_pointed (before.imp_left fun pointed => pointed.congr rfl rfl)
  | suspended snapshot location =>
    simp only [finish]
    split
    · next i testcase =>
      exact settleMode_pointed (before.imp (fun pointed => pointed.congr rfl rfl) fun own => absurd testcase (own i))
    · exact finishSuspended_pointed _ _

/-- A mode that accepts pauses is no testcase's. -/
theorem not_testcaseRun_of_acceptsPause {mode : Mode} (accepts : mode.acceptsPause = true) (i : Nat) :
    mode ≠ .testcaseRun i := by
  rintro rfl
  cases accepts

/-- A step keeps it so, but for the runs that begin with forgetting what was stored. -/
theorem Rule.pointed (rule : Rule h id sc job a) (before : sc.slot.Pointed ∨ job.stage.isBare = true) :
    a.scene.slot.Pointed ∨ a.job.stage.isBare = true := by
  -- at other stages than those of such a run the highlight points at the suspended run
  have sure (unbare : job.stage.isBare = false) : sc.slot.Pointed := by
    refine before.resolve_right fun bare => ?_
    cases unbare.symm.trans bare
  have ending {mode : Mode} (same : job.stage.isBare = mode.acceptsPause) :
      sc.slot.Pointed ∨ ∀ i, mode ≠ .testcaseRun i :=
    before.imp_right fun bare => not_testcaseRun_of_acceptsPause (same ▸ bare)
  cases rule with
  | waiting | settled => exact before
  | editor | resumed => exact .inr rfl
  | reset => exact .inl (.of_none rfl)
  | chapter stage | library stage =>
    have pointed := sure (by rw [stage]; rfl)
    left
    rw [Scene.forgetShown_slot]
    split
    · exact .of_none rfl
    · exact pointed.congr rfl rfl
  | @loading purpose _ _ _ stage =>
    rw [stage] at before
    cases purpose with
    | editorRun => exact .inr rfl
    | testcaseRun | selection => exact before
  | @loaded purpose wait next stage waited =>
    cases purpose with
    | editorRun => exact .inr rfl
    | testcaseRun | selection =>
      have pointed := sure (by rw [stage]; rfl)
      exact .inl ((waited.slot ▸ pointed).congr rfl rfl)
  | @launched mode p stage =>
    rw [stage] at before
    rw [launch_slot, launch_job]
    exact before.imp_left fun pointed => pointed.congr rfl rfl
  | stoppedEarly stage | stopped stage =>
    left
    rw [conclude_slot]
    refine finishInterrupted_pointed ((ending (by rw [stage]; rfl)).imp_left fun pointed => ?_)
    exact pointed.congr rfl rfl
  | ended stage =>
    left
    rw [conclude_slot]
    refine finish_pointed ((ending (by rw [stage]; rfl)).imp_left fun pointed => ?_)
    exact pointed.congr rfl rfl
  | pausedEarly stage | started stage | paused stage | unheard stage | running stage =>
    rw [stage] at before
    exact before.imp_left fun pointed => pointed.congr rfl rfl
  | enqueued stage =>
    have pointed := sure (by rw [stage]; rfl)
    rw [enqueue_slot]
    exact .inl (pointed.congr rfl rfl)
  | left stage =>
    have pointed := sure (by rw [stage]; rfl)
    rw [leave_slot]
    exact .inl (pointed.congr rfl rfl)
  | cutShort stage | aborted stage | completed stage =>
    have pointed := sure (by rw [stage]; rfl)
    exact .inl (by rw [endBatch_slot]; exact pointed)
  | gradedEmpty stage | gradedBegun stage =>
    have pointed := sure (by rw [stage]; rfl)
    refine .inl (pointed.congr ?_ ?_) <;> simp [refusePause_slot]
  | refused stage | admitted stage | armed stage | allEmpty stage | allBegun stage | unchanged stage | deprived stage
  | repl stage | testcase stage | next stage | answered stage =>
    have pointed := sure (by rw [stage]; rfl)
    exact .inl (pointed.congr rfl rfl)

end Job

namespace Site

variable {s next : Site E} {c : Cause} {settings : Settings}

/-- The highlight points at the suspended run, or a run is under way that has forgotten what was stored. -/
def Pointed (s : Site E) : Prop :=
  s.slot.Pointed ∨ ∃ id job, s.job? id = some job ∧ job.stage.isBare = true

theorem Fresh.pointed {w : WorkspaceId} (fresh : s.Fresh settings w) : s.Pointed := by
  left
  rw [fresh.slot]
  exact .of_none rfl

/-- Whatever happens at a site keeps it so. -/
theorem Pointed.step (pointed : s.Pointed) (owned : s.Owned) (step : s.Step settings c next) : next.Pointed := by
  rcases pointed with pointed | ⟨j, other, theirs, bare⟩
  · cases step with
    | edit e => exact .inl (pointed.congr rfl (by cases e <;> rfl))
    | clearOutput | signal | submit => exact .inl (pointed.congr rfl rfl)
    | step h _ asked id job known =>
      have rule := Job.step_rule h id { slot := s.slot, asked := asked } job
      exact (rule.pointed (.inl pointed)).imp_right fun bare => ⟨id, _, s.take_own .., bare⟩
  · rcases owned.undisturbed theirs step with ⟨h, asked, rfl⟩ | ⟨same, -⟩
    · have rule := Job.step_rule h j { slot := s.slot, asked := asked } other
      exact (rule.pointed (.inr bare)).imp_right fun bare => ⟨j, _, s.take_own .., bare⟩
    · exact .inr ⟨j, other, same, bare⟩

end Site

namespace Hub

variable {hub : Hub E} {w : WorkspaceId} {s : Site E}

theorem Reachable.pointed (reached : hub.Reachable) (here : hub.site? w = some s) : s.Pointed :=
  (reached.site (P := fun s => s.Owned ∧ s.Pointed) (fun _ _ fresh => ⟨fresh.owned, fresh.pointed⟩)
    (fun _ _ _ both step => ⟨both.1.step step, both.2.step both.1 step⟩) here).2

/-- When nobody holds the permit, what is highlighted is where the suspended run of the workspace stopped, in the
lines of the user at the time. -/
theorem Reachable.highlight_points (reached : hub.Reachable) (here : hub.site? w = some s)
    (free : s.slot.permit.holder = none) {r : LineRange} (shown : s.slot.state.highlighted = some r) :
    ∃ x l, hub.suspended? w = some x ∧ x.location = some l ∧ r = LineRange.ofLocation l x.prependLines := by
  rw [suspended?, here, Option.bind_some]
  rcases reached.pointed here with pointed | ⟨id, job, known, bare⟩
  · exact pointed r shown
  · have held := (reached.owned here).owner known (Stage.place_of_isBare bare)
    cases free.symm.trans held

end Hub

/-! ### A program that stops in its second line -/

namespace Script

/-- The editor's program is to stop in its second line, which a line stands in front of. -/
def halfway : Hub engine :=
  (Hub.create { execution := { chapter := 3 } } .bundled).1.after
    [.edit .playground (.editorPrepend "display \"p\""),
      .edit .playground (.editorValue "display \"a\"\ndisplay \"b\""),
      .edit .playground (.breakpoints (.ofList [2]))]

/-- It is run, and then the line in front is taken away. -/
def halfwayMoves : List Move :=
  .submit 0 .playground (.evaluate .editorRun) :: List.replicate 12 (.step 0 0) ++
    [.edit .playground (.editorPrepend "")]

theorem halfway_reachable : halfway.Reachable := by
  unfold halfway
  exact (Hub.Reachable.create { execution := { chapter := 3 } } .bundled).after _

/-- What is highlighted is the line in which it stopped as the user numbered it when the run began. -/
theorem highlight_points_of_halfway :
    ∃ s x l, (halfway.after halfwayMoves).site? .playground = some s ∧ s.slot.permit.holder = none ∧
      s.slot.state.highlighted = some ⟨2, 2⟩ ∧ (halfway.after halfwayMoves).suspended? .playground = some x ∧
      x.location = some l ∧ (⟨2, 2⟩ : LineRange) = LineRange.ofLocation l x.prependLines := by
  have stands : ((halfway.after halfwayMoves).site? .playground).any (fun s =>
      decide (s.slot.permit.holder = none) && decide (s.slot.state.highlighted = some ⟨2, 2⟩)) = true := by
    decide +kernel
  obtain ⟨s, here, stands⟩ := (Option.any_eq_true _ _).1 stands
  simp only [Bool.and_eq_true, decide_eq_true_eq] at stands
  obtain ⟨free, highlighted⟩ := stands
  have reached := halfway_reachable.after halfwayMoves
  obtain ⟨x, l, stored, there, same⟩ := reached.highlight_points here free highlighted
  exact ⟨s, x, l, here, free, highlighted, stored, there, same⟩

end Script

/-! ## What the other runs leave -/

/-- The suspended run, and what is highlighted. -/
def Slot.halt (slot : Slot E) : Option (Suspension E.Snapshot) × Option LineRange :=
  (slot.suspended, slot.state.highlighted)

namespace Job

variable {h : House} {id : JobId} {sc : Scene E} {job : Job E} {a : Advance E}

/-- A job that runs testcases: one of them, all, or all after an editor's run. -/
inductive Tests (job : Job E) : Prop
  | one {i : Nat} (operation : job.operation = .evaluate (.testcaseRun i))
  | all (operation : job.operation = .runAll)
  | batch {b : Batch} (under : job.batch = some b)

/-- A run of such a job is a testcase's. -/
theorem Tests.run (tests : job.Tests) (orderly : job.Orderly) {mode : Mode} (run : job.stage.mode? = some mode) :
    ∃ i, mode = .testcaseRun i := by
  cases under : job.batch with
  | none =>
    have operation := orderly.alone under mode run
    cases tests with
    | one asked => cases asked.symm.trans operation; exact ⟨_, rfl⟩
    | all asked => cases asked.symm.trans operation
    | batch other => cases under.symm.trans other
  | some b =>
    rcases (orderly.batch b under).1 with testcase | ⟨reply, past | past⟩
    · exact ⟨b.index, Option.some.inj (run.symm.trans testcase)⟩
    · simp [past, Stage.mode?] at run
    · simp [past, Stage.mode?] at run

/-- Such a job neither resets nor selects. -/
theorem Tests.admitted (tests : job.Tests) (orderly : job.Orderly) (stage : job.stage = .admitted) :
    (∃ i, job.operation = .evaluate (.testcaseRun i)) ∨ job.operation = .runAll := by
  cases tests with
  | one asked => exact .inl ⟨_, asked⟩
  | all asked => exact .inr asked
  | batch under =>
    have going : ¬ job.Over := by
      rintro ⟨reply, past | past⟩ <;> cases stage.symm.trans past
    cases under.symm.trans (orderly.outside (by rw [stage]; rfl) going).1

theorem Rule.tests (rule : Rule h id sc job a) (tests : job.Tests) : a.job.Tests := by
  cases tests with
  | one asked => exact .one (rule.operation_eq.trans asked)
  | all asked => exact .all (rule.operation_eq.trans asked)
  | batch under =>
    cases rule with
    | allBegun | gradedBegun | next => exact .batch rfl
    | @loaded purpose => cases purpose <;> exact .batch under
    | _ => exact .batch under

/-- The end of a testcase's run leaves suspended run and highlight as they are. -/
theorem finish_testcase_halt {l : Live E} {i : Nat} (mode : l.mode = .testcaseRun i) (result : RunResult E.Snapshot) :
    (finish h sc l result).1.slot.halt = sc.slot.halt := by
  cases result <;> simp only [finish, mode] <;> rfl

/-- A step of a job that runs testcases leaves suspended run and highlight as they are. -/
theorem Tests.keeps (tests : job.Tests) (orderly : job.Orderly) (rule : Rule h id sc job a) :
    a.scene.slot.halt = sc.slot.halt := by
  have run (mode : Mode) (stage : job.stage.mode? = some mode) : ∃ i, mode = .testcaseRun i := tests.run orderly stage
  have begun (operation : Operation) (stage : job.stage = .admitted) (asked : job.operation = operation) :
      (∃ i, operation = .evaluate (.testcaseRun i)) ∨ operation = .runAll :=
    asked ▸ tests.admitted orderly stage
  cases rule with
  | waiting | settled | refused | admitted | armed | allEmpty | allBegun | unchanged | deprived | testcase | loading
  | pausedEarly | started | paused | unheard | running | next | answered => rfl
  | enqueued => rw [enqueue_slot]; rfl
  | left => rw [leave_slot]; rfl
  | cutShort | aborted | completed => rw [endBatch_slot]
  | launched => rw [launch_slot]; rfl
  | gradedEmpty | gradedBegun => simp only [Scene.occur_slot, Scene.sayBriefly_slot, refusePause_slot]; rfl
  | reset stage operation | chapter stage operation | library stage operation =>
    rcases begun _ stage operation with ⟨_, same⟩ | same <;> cases same
  | editor stage | repl stage | resumed stage =>
    obtain ⟨i, same⟩ := run _ (congrArg Stage.mode? stage)
    cases same
  | @loaded purpose wait next stage waited =>
    rw [← waited.slot]
    cases purpose <;> rfl
  | @stoppedEarly l _ _ stage =>
    obtain ⟨i, mode⟩ := run l.mode (by rw [stage]; rfl)
    rw [conclude_slot, mode]
    rfl
  | @stopped l _ _ _ _ _ stage =>
    obtain ⟨i, mode⟩ := run l.mode (by rw [stage]; rfl)
    rw [conclude_slot, mode]
    rfl
  | @ended l lines result stage =>
    obtain ⟨i, mode⟩ := run l.mode (by rw [stage]; rfl)
    rw [conclude_slot]
    exact finish_testcase_halt mode result

/-- A run beside the editor's, from when its job is given the permit. Until it ends suspended run and highlight are as
they were; when it has come to a value or failed, the suspended run still is, and nothing is highlighted. -/
inductive Tries (halt : Option (Suspension E.Snapshot) × Option LineRange) (slot : Slot E) (job : Job E) : Prop
  | begins (stage : job.stage = .queued ∨ job.stage = .admitted) (kept : slot.halt = halt)
  | goes (stage : job.stage.mode? = some .replRun) (going : ∀ mode o, job.stage ≠ .concluded mode o)
    (kept : slot.halt = halt)
  | ended {o : Outcome}
    (stage : job.stage = .concluded .replRun o ∨ job.stage = .leaving (.outcome o) ∨
      job.stage = .settled (.outcome o))
    (kept : (∃ value, o = .finished value) ∨ (∃ faults, o = .errored faults) → slot.halt = (halt.1, none))

variable {halt : Option (Suspension E.Snapshot) × Option LineRange}

/-- The end of such a run. -/
theorem finish_repl_halt {l : Live E} (mode : l.mode = .replRun) (result : RunResult E.Snapshot)
    (ran : (∃ value, (finish h sc l result).2 = .finished value) ∨
      ∃ faults, (finish h sc l result).2 = .errored faults) :
    (finish h sc l result).1.slot.halt = (sc.slot.suspended, none) := by
  cases result with
  | finished value => simp only [finish, mode]; rfl
  | failed faults => simp only [finish, mode]; rfl
  | suspended snapshot location =>
    simp only [finish, mode, Scene.finishSuspended_outcome] at ran
    rcases ran with ⟨_, same⟩ | ⟨_, same⟩ <;> split at same <;> cases same

/-- A run beside the editor's is in no batch. -/
theorem Orderly.repl_alone (orderly : job.Orderly) (stage : job.stage.mode? = some .replRun) : job.batch = none := by
  cases under : job.batch with
  | none => rfl
  | some b =>
    rcases (orderly.batch b under).1 with testcase | ⟨reply, past | past⟩
    · cases stage.symm.trans testcase
    · simp [past, Stage.mode?] at stage
    · simp [past, Stage.mode?] at stage

/-- It goes on so. -/
theorem Tries.step (tries : job.Tries halt sc.slot) (orderly : job.Orderly)
    (operation : job.operation = .evaluate .replRun) (rule : Rule h id sc job a) : a.job.Tries halt a.scene.slot := by
  cases tries with
  | begins stage kept =>
    cases rule with
    | waiting => exact .begins stage kept
    | admitted => exact .begins (.inr rfl) kept
    | armed _ asked =>
      cases operation.symm.trans asked
      exact .goes rfl nofun kept
    | _ => simp_all
  | goes stage going kept =>
    cases rule with
    | repl => exact .goes rfl nofun kept
    | launched here =>
      rw [here] at stage
      rw [launch_slot, launch_job]
      exact .goes stage nofun kept
    | pausedEarly here | started here | paused here | unheard here | running here =>
      rw [here] at stage
      exact .goes stage nofun kept
    | stoppedEarly here | stopped here =>
      rw [here] at stage
      refine .ended (.inl (congrArg (Stage.concluded · _) (Option.some.inj stage))) fun ran => ?_
      rcases ran with ⟨_, ran⟩ | ⟨_, ran⟩ <;> cases ran
    | ended here =>
      rw [here] at stage
      refine .ended (.inl (congrArg (Stage.concluded · _) (Option.some.inj stage))) fun ran => ?_
      rw [conclude_slot, finish_repl_halt (Option.some.inj stage) _ ran, ← kept]
      rfl
    | aborted here | next here | completed here | gradedEmpty here | gradedBegun here | answered here =>
      exact absurd here (going _ _)
    | deprived here because | cutShort here because =>
      rw [here] at stage
      cases stage
      cases because
    | @loading purpose _ _ _ here | @loaded purpose _ _ here =>
      rw [here] at stage
      cases purpose <;> cases stage
    | _ => simp_all [Stage.mode?]
  | ended stage kept =>
    rcases stage with stage | stage | stage
    · have alone := orderly.repl_alone (by rw [stage]; rfl)
      cases rule with
      | answered here =>
        cases stage.symm.trans here
        exact .ended (.inr (.inl rfl)) kept
      | aborted _ under | next _ under | completed _ under => cases alone.symm.trans under
      | _ => simp_all
    · cases rule with
      | left here =>
        cases stage.symm.trans here
        refine .ended (.inr (.inr rfl)) fun ran => ?_
        rw [leave_slot]
        exact kept ran
      | _ => simp_all
    · cases rule with
      | settled => exact .ended (.inr (.inr stage)) kept
      | _ => simp_all

theorem Tries.aside {slot later : Slot E} (same : later.halt = slot.halt) (tries : job.Tries halt slot) :
    job.Tries halt later := by
  cases tries with
  | begins stage kept => exact .begins stage (same.trans kept)
  | goes stage going kept => exact .goes stage going (same.trans kept)
  | ended stage kept => exact .ended stage fun ran => same.trans (kept ran)

/-- While a job does not settle it keeps the permit. -/
theorem Rule.holder (rule : Rule h id sc job a) (held : sc.slot.permit.holder = some id) :
    a.scene.slot.permit.holder = some id ∨ ∃ reply, a.job.stage = .settled reply := by
  cases rule with
  | left => exact .inr ⟨_, rfl⟩
  | enqueued =>
    rw [enqueue_slot]
    exact .inl (Permit.holder_request held)
  | loaded _ waited => exact .inl (by simpa [waited.slot] using held)
  | gradedEmpty | gradedBegun => exact .inl (by simpa [refusePause_slot] using held)
  | _ => exact .inl (by simpa [arm] using held)

end Job

namespace Site

variable {s next : Site E} {c : Cause} {settings : Settings} {id : JobId} {job : Job E}

/-- While a job holds the permit, nobody else touches the suspended run or the highlight. -/
theorem Owned.beside (owned : s.Owned) (known : s.job? id = some job) (held : s.slot.permit.holder = some id)
    (step : s.Step settings c next) :
    (∃ h asked, next = s.take id (Job.step h id { slot := s.slot, asked := asked } job)) ∨
      next.job? id = some job ∧ next.slot.permit.holder = some id ∧ next.slot.halt = s.slot.halt := by
  cases step with
  | edit e => exact .inr ⟨known, held, by cases e <;> rfl⟩
  | clearOutput | signal => exact .inr ⟨known, held, rfl⟩
  | submit j operation free =>
    refine .inr ⟨(if_neg ?_).trans known, held, rfl⟩
    rintro rfl
    cases free.symm.trans known
  | step h _ asked j other theirs =>
    by_cases own : id = j
    · subst own
      cases known.symm.trans theirs
      exact .inl ⟨h, asked, rfl⟩
    · have rule := Job.step_rule h j { slot := s.slot, asked := asked } other
      obtain ⟨unadmitted, outside⟩ := owned.bystander held (Ne.symm own) theirs
      obtain ⟨state, suspended⟩ := rule.bystander unadmitted outside
      refine .inr ⟨(s.take_other _ own).trans known, ?_, ?_⟩
      · cases rule.trade with
        | stays _ _ permit | admitted _ _ _ _ permit | works _ _ _ permit | arms _ _ _ permit => exact permit ▸ held
        | asks _ _ _ permit => exact permit ▸ Permit.holder_request held
        | leaves place => exact absurd place outside
      · rw [Site.take_slot, Slot.halt, state, suspended]
        rfl

end Site

namespace Hub

variable {hub : Hub E} {w : WorkspaceId} {s : Site E} {id : JobId} {job : Job E}

/-- Who has answered has answered for good. -/
theorem Reachable.answered_stays (reached : hub.Reachable) (here : hub.site? w = some s)
    (known : s.job? id = some job) {reply : Reply} (settled : job.stage = .settled reply) (moves : List Move) :
    (hub.after moves).reply? id = some reply := by
  induction moves generalizing hub s job with
  | nil => exact (reply?_eq_some here known).2 settled
  | cons m moves ih =>
    rcases reached.stride here known m with ⟨now, -, there⟩ | ⟨-, next, there, same, -⟩
    · refine ih (reached.move m) there (s.take_own ..) ?_
      rw [Job.step, settled]
      exact settled
    · exact ih (reached.move m) there same settled

/-- What each step of a job keeps that holds the permit, and depends on nothing but the job, the suspended run and the
highlight, holds until it has answered. -/
theorem Reachable.until_answered {P : Slot E → Job E → Prop}
    (own : ∀ {h sc job a}, job.Orderly → Job.Rule h id sc job a → P sc.slot job → P a.scene.slot a.job)
    (aside : ∀ {slot later job}, later.halt = slot.halt → P slot job → P later job)
    (reached : hub.Reachable) (here : hub.site? w = some s) (known : s.job? id = some job)
    (held : s.slot.permit.holder = some id) (holds : P s.slot job) (moves : List Move) (m : Move)
    (going : (hub.after moves).reply? id = none) :
    ∃ last job', (hub.after (moves ++ [m])).site? w = some last ∧ last.job? id = some job' ∧ P last.slot job' := by
  have goes {hub : Hub E} {s : Site E} {job : Job E} (reached : hub.Reachable) (here : hub.site? w = some s)
      (known : s.job? id = some job) (held : s.slot.permit.holder = some id) (holds : P s.slot job) (m : Move) :
      ∃ next later, (hub.move m).site? w = some next ∧ next.job? id = some later ∧ P next.slot later ∧
        (next.slot.permit.holder = some id ∨ ∃ reply, later.stage = .settled reply) := by
    obtain ⟨next, there, rfl | ⟨c, -, step⟩⟩ := move_site reached.sound m here
    · exact ⟨_, job, there, known, holds, .inl held⟩
    · rcases (reached.owned here).beside known held step with ⟨h, asked, rfl⟩ | ⟨same, still, kept⟩
      · have rule := Job.step_rule h id { slot := s.slot, asked := asked } job
        have orderly := (reached.attentive here).orderly known
        exact ⟨_, _, there, s.take_own .., own orderly rule holds, rule.holder held⟩
      · exact ⟨next, job, there, same, aside kept holds, .inl still⟩
  induction moves generalizing hub s job with
  | nil =>
    obtain ⟨next, later, there, known, holds, -⟩ := goes reached here known held holds m
    exact ⟨next, later, there, known, holds⟩
  | cons m' moves ih =>
    obtain ⟨next, later, there, known, holds, held | ⟨reply, settled⟩⟩ := goes reached here known held holds m'
    · exact ih (reached.move m') there known held holds going
    · cases going.symm.trans ((reached.move m').answered_stays there known settled moves)

/-- From when it is given the permit until it has answered, a job that runs testcases leaves suspended run and
highlight exactly as they are, whatever comes of the testcases. A run beside the editor's that comes to a value or
fails leaves the suspended run as it was, and nothing highlighted. -/
theorem Reachable.left_by_runs (reached : hub.Reachable) (here : hub.site? w = some s)
    (known : s.job? id = some job) (held : s.slot.permit.holder = some id) (moves : List Move) (m : Move)
    (going : (hub.after moves).reply? id = none) :
    ∃ last, (hub.after (moves ++ [m])).site? w = some last ∧
      (job.Tests → last.slot.suspended = s.slot.suspended ∧
        last.slot.state.highlighted = s.slot.state.highlighted) ∧
      (job.operation = .evaluate .replRun → job.stage = .queued ∨ job.stage = .admitted →
        ∀ o, (hub.after (moves ++ [m])).reply? id = some (.outcome o) →
          (∃ value, o = .finished value) ∨ (∃ faults, o = .errored faults) →
            last.slot.suspended = s.slot.suspended ∧ last.slot.state.highlighted = none) := by
  -- what is shown of the job and its slot is shown of the workspace as the moves leave it
  have ends {P : Slot E → Job E → Prop}
      (own : ∀ {h sc job a}, job.Orderly → Job.Rule h id sc job a → P sc.slot job → P a.scene.slot a.job)
      (aside : ∀ {slot later job}, later.halt = slot.halt → P slot job → P later job) (holds : P s.slot job) :=
    reached.until_answered own aside here known held holds moves m going
  obtain ⟨last, later, there, found, -⟩ :=
    ends (P := fun _ _ => True) (fun _ _ _ => trivial) (fun _ _ => trivial) trivial
  refine ⟨last, there, fun tests => ?_, fun operation stage o answered ran => ?_⟩
  · obtain ⟨_, job', there', -, -, kept⟩ := ends (P := fun slot job => job.Tests ∧ slot.halt = s.slot.halt)
      (fun orderly rule ⟨tests, kept⟩ => ⟨rule.tests tests, (tests.keeps orderly rule).trans kept⟩)
      (fun same ⟨tests, kept⟩ => ⟨tests, same.trans kept⟩) ⟨tests, rfl⟩
    cases there.symm.trans there'
    exact Prod.mk.inj kept
  · obtain ⟨_, job', there', found', -, tries⟩ := ends
      (P := fun slot job => job.operation = .evaluate .replRun ∧ job.Tries s.slot.halt slot)
      (fun orderly rule ⟨operation, tries⟩ => ⟨rule.operation_eq.trans operation, tries.step orderly operation rule⟩)
      (fun same ⟨operation, tries⟩ => ⟨operation, tries.aside same⟩) ⟨operation, .begins stage rfl⟩
    cases there.symm.trans there'
    cases found.symm.trans found'
    have settled := (reply?_eq_some there found).1 answered
    cases tries with
    | begins stage => rcases stage with stage | stage <;> cases settled.symm.trans stage
    | goes stage =>
      rw [settled] at stage
      cases stage
    | ended stage kept =>
      rcases stage with stage | stage | stage <;> cases settled.symm.trans stage
      exact Prod.mk.inj (kept ran)

end Hub

/-! ### An input after a program has stopped -/

namespace Script

/-- The program has stopped; a job has been given the permit, and has not begun. -/
def halfwayAsked (operation : Operation) : Hub engine :=
  (halfway.after halfwayMoves).after
    [.edit .playground (.replValue "display \"c\""), .edit .playground (.testcases [{ program := "true" }]),
      .submit 1 .playground operation, .step 1 0]

/-- The job does what it has to do, and answers with its next step. -/
def halfwaySteps (operation : Operation) : List Move :=
  List.replicate (if operation = .runAll then 11 else 8) (.step 1 0)

/-- Whether a run came to a value. -/
def isFinished : Reply → Bool
  | .outcome (.finished _) => true
  | _ => false

theorem eq_of_isFinished {reply : Reply} (finished : isFinished reply = true) :
    ∃ value, reply = .outcome (.finished value) := by
  unfold isFinished at finished
  split at finished
  · exact ⟨_, rfl⟩
  · cases finished

theorem halfwayAsked_reachable (operation : Operation) : (halfwayAsked operation).Reachable := by
  unfold halfwayAsked
  exact (halfway_reachable.after halfwayMoves).after _

theorem halfwayAsked_job {operation : Operation} (asked : operation = .evaluate .replRun ∨ operation = .runAll) :
    ∃ s job, (halfwayAsked operation).site? .playground = some s ∧ s.job? 1 = some job ∧
      s.slot.permit.holder = some 1 ∧ job.operation = operation ∧ job.stage = .queued ∧
      s.slot.suspended.isSome = true ∧ s.slot.state.highlighted = some ⟨2, 2⟩ := by
  have found : ((halfwayAsked operation).site? .playground).any (fun s =>
      (s.job? 1).any (fun job => decide (job.operation = operation) &&
        match job.stage with
        | .queued => true
        | _ => false) &&
      (decide (s.slot.permit.holder = some 1) && (s.slot.suspended.isSome &&
        decide (s.slot.state.highlighted = some ⟨2, 2⟩)))) = true := by
    rcases asked with rfl | rfl <;> decide +kernel
  obtain ⟨s, here, found⟩ := (Option.any_eq_true _ _).1 found
  simp only [Bool.and_eq_true, decide_eq_true_eq] at found
  obtain ⟨own, held, stored, highlighted⟩ := found
  obtain ⟨job, known, own⟩ := (Option.any_eq_true _ _).1 own
  simp only [Bool.and_eq_true, decide_eq_true_eq] at own
  obtain ⟨same, stage⟩ := own
  split at stage
  · next queued => exact ⟨s, job, here, known, held, same, queued, stored, highlighted⟩
  · cases stage

theorem halfwaySteps_going {operation : Operation} (asked : operation = .evaluate .replRun ∨ operation = .runAll) :
    ((halfwayAsked operation).after (halfwaySteps operation)).reply? 1 = none := by
  refine Option.isNone_iff_eq_none.1 ?_
  rcases asked with rfl | rfl <;> decide +kernel

theorem halfwaySteps_finish :
    ∃ value, ((halfwayAsked (.evaluate .replRun)).after (halfwaySteps (.evaluate .replRun) ++ [.step 1 0])).reply? 1 =
      some (.outcome (.finished value)) := by
  have finished : (((halfwayAsked (.evaluate .replRun)).after
      (halfwaySteps (.evaluate .replRun) ++ [.step 1 0])).reply? 1).any isFinished = true := by
    decide +kernel
  obtain ⟨reply, answered, finished⟩ := (Option.any_eq_true _ _).1 finished
  obtain ⟨value, rfl⟩ := eq_of_isFinished finished
  exact ⟨value, answered⟩

/-- After an input the program that stopped can still be resumed, but where it stopped is no longer highlighted; after
a batch it still is. -/
theorem left_by_runs_of_halfway :
    (∃ s last, (halfwayAsked (.evaluate .replRun)).site? .playground = some s ∧ s.slot.suspended.isSome = true ∧
      s.slot.state.highlighted = some ⟨2, 2⟩ ∧
      ((halfwayAsked (.evaluate .replRun)).after (halfwaySteps (.evaluate .replRun) ++ [.step 1 0])).site? .playground =
        some last ∧
      last.slot.suspended = s.slot.suspended ∧ last.slot.state.highlighted = none) ∧
    ∃ s last, (halfwayAsked .runAll).site? .playground = some s ∧ s.slot.suspended.isSome = true ∧
      ((halfwayAsked .runAll).after (halfwaySteps .runAll ++ [.step 1 0])).site? .playground = some last ∧
      last.slot.suspended = s.slot.suspended ∧ last.slot.state.highlighted = some ⟨2, 2⟩ := by
  constructor
  · obtain ⟨s, job, here, known, held, operation, queued, stored, highlighted⟩ := halfwayAsked_job (.inl rfl)
    obtain ⟨value, answered⟩ := halfwaySteps_finish
    obtain ⟨last, there, -, repl⟩ :=
      (halfwayAsked_reachable _).left_by_runs here known held _ (.step 1 0) (halfwaySteps_going (.inl rfl))
    obtain ⟨kept, dark⟩ := repl operation (.inl queued) _ answered (.inl ⟨value, rfl⟩)
    exact ⟨s, last, here, stored, highlighted, there, kept, dark⟩
  · obtain ⟨s, job, here, known, held, operation, -, stored, highlighted⟩ := halfwayAsked_job (.inr rfl)
    obtain ⟨last, there, tests, -⟩ :=
      (halfwayAsked_reachable _).left_by_runs here known held _ (.step 1 0) (halfwaySteps_going (.inr rfl))
    obtain ⟨kept, same⟩ := tests (.all operation)
    exact ⟨s, last, here, stored, there, kept, same.trans highlighted⟩

/-- A run that leaves the suspended run in place does not always leave its highlight in place. -/
theorem highlight_lost :
    ∃ (hub : Hub engine) (s last : Site engine) (job : Job engine) (moves : List Move) (value : Json),
      hub.Reachable ∧ hub.site? .playground = some s ∧ s.slot.suspended.isSome = true ∧
      s.slot.permit.holder = some 1 ∧ s.job? 1 = some job ∧ job.operation = .evaluate .replRun ∧
      job.stage = .queued ∧ (hub.after moves).reply? 1 = some (.outcome (.finished value)) ∧
      (hub.after moves).site? .playground = some last ∧
      last.slot.state.highlighted ≠ s.slot.state.highlighted := by
  obtain ⟨s, job, here, known, held, operation, queued, stored, highlighted⟩ := halfwayAsked_job (.inl rfl)
  obtain ⟨value, answered⟩ := halfwaySteps_finish
  have dark : (((halfwayAsked (.evaluate .replRun)).after
      (halfwaySteps (.evaluate .replRun) ++ [.step 1 0])).site? .playground).any
        (fun s => s.slot.state.highlighted.isNone) = true := by
    decide +kernel
  obtain ⟨last, there, dark⟩ := (Option.any_eq_true _ _).1 dark
  refine ⟨_, s, last, job, _, value, halfwayAsked_reachable _, here, stored, held, known, operation, queued, answered,
    there, ?_⟩
  rw [Option.isNone_iff_eq_none.1 dark, highlighted]
  nofun

end Script

end Workbench
