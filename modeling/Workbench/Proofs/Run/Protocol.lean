/-
In which order things are told of a workspace.

What is told comes in passages, one after the other and none within another: that
of a run, that of a batch of testcases, or a single word about a selection or the
debugger (`Hub.Passage`). Whatever is asked for and in whatever order the jobs take
their steps, a course of moves after which no job is at work has told whole
passages (`Hub.Reachable.protocol`). Only the output may be cleared at any time, so
that is left out of account.

A job at work has told the beginning of a passage. One step leads from one such
beginning to the next (`Job.Rule.recites`, `Job.Rule.reciting`); jobs that do not
hold the permit tell nothing.
-/
import Workbench.Proofs.Run.Independence
import Workbench.Proofs.Run.Provision
import Workbench.Proofs.Run.Happening

namespace Workbench

variable {E : Engine}

/-! ## Runs and series of runs -/

/-- What is told while a run is prepared. -/
inductive Mode.Prelude : Mode → List Occurrence → Prop
  | editorRun (chapter : UInt8) : Mode.Prelude .editorRun [.contextReset chapter]
  | replRun : Mode.Prelude .replRun []
  | debugResume : Mode.Prelude .debugResume []
  | testcaseRun (i : Nat) (chapter : UInt8) :
    Mode.Prelude (.testcaseRun i) [.testcaseReset i, .contextReset chapter]

/-- What is told of a run that comes to an outcome, from its preparation to its end. -/
inductive Mode.Recital (mode : Mode) (o : Outcome) : List Occurrence → Prop
  | whole {before : List Occurrence} (prelude : mode.Prelude before) :
    mode.Recital o (before ++ .runStarted mode :: mode.ending o.kind)

/-- What is told of the runs of testcases one after the other, from the first one on, and how they end. -/
inductive Series : List (Mode × Outcome) → List Occurrence → Prop
  | nil : Series [] []
  | next {ends : List (Mode × Outcome)} {told run : List Occurrence} {o : Outcome} (series : Series ends told)
    (recital : (Mode.testcaseRun ends.length).Recital o run) :
    Series (ends ++ [(.testcaseRun ends.length, o)]) (told ++ run)

/-! ## What a step tells -/

namespace Scene

/-- What has been told, but for the clearing of the output. -/
def marks (sc : Scene E) : List Occurrence := (sc.told.map Event.occurrence).filter (· ≠ .outputCleared)

theorem marks_of_told {sc next : Scene E} (occs : List Occurrence)
    (told : next.told = sc.told ++ occs.map (Event.mk sc.slot.id)) :
    next.marks = sc.marks ++ occs.filter (· ≠ .outputCleared) := by
  have same : (occs.map (Event.mk sc.slot.id)).map Event.occurrence = occs := by simp [Function.comp_def]
  rw [marks, told, List.map_append, List.filter_append, same]
  rfl

theorem marks_of_silent {sc next : Scene E} (same : next.told = sc.told) : next.marks = sc.marks := by
  rw [marks, same, marks]

end Scene

theorem Mode.ending_marks (mode : Mode) (kind : OutcomeKind) :
    (mode.ending kind).filter (· ≠ .outputCleared) = mode.ending kind := by
  cases mode with
  | testcaseRun i => cases kind <;> rfl
  | _ => rfl

/-- What has been told of the run that a job at a stage is at. -/
inductive Stage.Recited : Stage E → List Occurrence → Prop
  | preparing (mode : Mode) : Stage.Recited (.preparing mode) []
  | editor (wait : Wait) : Stage.Recited (.loading .editorRun wait) []
  | testcase (i : Nat) (program : String) (wait : Wait) :
    Stage.Recited (.loading (.testcaseRun i program) wait) [.testcaseReset i]
  | launching {mode : Mode} {before : List Occurrence} (p : Prepared E) (prelude : mode.Prelude before) :
    Stage.Recited (.launching mode p) before
  | starting {before : List Occurrence} (l : Launch E) (prelude : l.mode.Prelude before) :
    Stage.Recited (.starting l) (before ++ [.runStarted l.mode])
  | running {before : List Occurrence} (l : Live E) (prelude : l.mode.Prelude before) :
    Stage.Recited (.running l) (before ++ [.runStarted l.mode])

theorem Stage.Recited.unended {stage : Stage E} {told : List Occurrence} (recited : stage.Recited told) :
    stage.ended? = none := by
  cases recited <;> rfl

theorem Stage.Recited.owning {stage : Stage E} {told : List Occurrence} (recited : stage.Recited told) :
    stage.place = .owning := by
  cases recited <;> rfl

namespace Job

variable {h : House} {id : JobId} {sc : Scene E} {job : Job E} {a : Advance E} {told : List Occurrence}

theorem endBatch_marks (batch : Batch) (aborted : Bool) :
    (endBatch h sc job batch aborted).scene.marks =
      sc.marks ++ [.batchFinished (.ofTestcases sc.slot.state.testcases aborted)] :=
  Scene.marks_of_told [.batchFinished _] (endBatch_told ..)

/-- What a step of a job that is at a run tells. -/
inductive Recites (h : House) (sc : Scene E) (job : Job E) (a : Advance E) (told : List Occurrence) : Prop
  | goesOn (more : List Occurrence) (marks : a.scene.marks = sc.marks ++ more) (batch : a.job.batch = job.batch)
    (recited : a.job.stage.Recited (told ++ more))
  | ends {mode : Mode} {o : Outcome} (more : List Occurrence) (marks : a.scene.marks = sc.marks ++ more)
    (batch : a.job.batch = job.batch) (run : job.stage.mode? = some mode) (ended : a.job.stage = .concluded mode o)
    (recital : mode.Recital o (told ++ more))
  /-- what it is about is not there, and it tells nothing at all -/
  | givesUp {reply : Reply} (alone : job.batch = none) (silent : told = []) (marks : a.scene.marks = sc.marks)
    (ended : a.job.stage = .leaving reply)
  | cutShort {mode : Mode} {r : Refusal} {batch : Batch} (silent : told = []) (stage : job.stage = .preparing mode)
    (because : refusal? sc.slot mode = some r) (under : job.batch = some batch)
    (ended : a = endBatch h sc job batch false)

theorem conclude_recites {mode : Mode} {end_ : Scene E × Outcome} (run : job.stage.mode? = some mode)
    (begun : ∃ before, mode.Prelude before ∧ told = before ++ [.runStarted mode])
    (name : end_.1.slot.id = sc.slot.id)
    (said : end_.1.told = sc.told ++ (mode.comesOut end_.2.kind).map (Event.mk sc.slot.id)) :
    Recites h sc job (conclude job mode end_) told := by
  obtain ⟨before, prelude, rfl⟩ := begun
  refine .ends (mode.ending end_.2.kind) ?_ rfl run rfl ?_
  · rw [Scene.marks_of_told _ (conclude_told name said), Mode.ending_marks]
  · rw [List.append_assoc]
    exact .whole prelude

/-- A job that is at a run goes on telling of it, and of nothing else, to its end. -/
theorem Rule.recites (rule : Rule h id sc job a) (recited : job.stage.Recited told) : Recites h sc job a told := by
  -- nothing is told that counts
  have silent : a.scene.told = sc.told → a.scene.marks = sc.marks ++ [] := fun same =>
    (Scene.marks_of_silent same).trans (List.append_nil _).symm
  cases rule with
  | deprived stage because alone =>
    rw [stage] at recited
    cases recited
    exact .givesUp alone rfl rfl rfl
  | cutShort stage because under =>
    rw [stage] at recited
    cases recited
    exact .cutShort rfl stage because under rfl
  | editor stage =>
    rw [stage] at recited
    cases recited
    exact .goesOn [] (silent rfl) rfl (.editor _)
  | repl stage =>
    rw [stage] at recited
    cases recited
    exact .goesOn [] (silent rfl) rfl (.launching _ .replRun)
  | resumed stage =>
    rw [stage] at recited
    cases recited
    refine .goesOn [] ?_ rfl (.launching _ .debugResume)
    exact Scene.marks_of_told [.outputCleared] (by simp [Scene.told])
  | testcase stage =>
    rw [stage] at recited
    cases recited
    exact .goesOn _ (Scene.marks_of_told [.testcaseReset _] (by simp [Scene.told])) rfl (.testcase _ _ _)
  | @loading purpose wait later wake stage =>
    rw [stage] at recited
    refine .goesOn [] (silent (by simp [Scene.told])) rfl ?_
    rw [List.append_nil]
    cases recited with
    | editor => exact .editor _
    | testcase => exact .testcase _ _ _
  | @loaded purpose wait next stage waited =>
    rw [stage] at recited
    cases recited with
    | editor =>
      refine .goesOn [.contextReset (E.makeContext sc.slot.state.selection).chapter] ?_ rfl
        (.launching _ (.editorRun _))
      exact Scene.marks_of_told [.contextReset _, .outputCleared]
        (by simp [Scene.told, proceed, waited.silent, waited.slot])
    | testcase i program =>
      refine .goesOn [.contextReset (E.makeContext sc.slot.state.selection).chapter] ?_ rfl
        (.launching _ (.testcaseRun i _))
      exact Scene.marks_of_told [.contextReset _] (by simp [Scene.told, proceed, waited.silent, waited.slot])
  | @launched mode p stage =>
    rw [stage] at recited
    cases recited with
    | launching _ prelude =>
      refine .goesOn [.runStarted mode] ?_ (by rw [launch_job]; rfl) (by rw [launch_job]; exact .starting _ prelude)
      exact Scene.marks_of_told [.runStarted mode] (launch_told ..)
  | stoppedEarly stage =>
    rw [stage] at recited
    cases recited with
    | starting l prelude =>
      refine conclude_recites (by rw [stage]; rfl) ⟨_, prelude, rfl⟩ (by simp) ?_
      rw [Scene.finishInterrupted_told]
      rfl
  | pausedEarly stage =>
    rw [stage] at recited
    cases recited with
    | starting l prelude => exact .goesOn [] (silent rfl) rfl (by rw [List.append_nil]; exact .starting _ prelude)
  | started stage =>
    rw [stage] at recited
    cases recited with
    | starting l prelude =>
      exact .goesOn [] (silent (by simp [Scene.told])) rfl (by rw [List.append_nil]; exact .running _ prelude)
  | ended stage =>
    rw [stage] at recited
    cases recited with
    | running l prelude =>
      refine conclude_recites (by rw [stage]; rfl) ⟨_, prelude, rfl⟩ (by simp) ?_
      rw [finish_told]
      simp [Scene.told]
  | stopped stage =>
    rw [stage] at recited
    cases recited with
    | running l prelude =>
      refine conclude_recites (by rw [stage]; rfl) ⟨_, prelude, rfl⟩ (by simp) ?_
      rw [Scene.finishInterrupted_told]
      simp [Scene.told]
      rfl
  | paused stage | unheard stage | running stage =>
    rw [stage] at recited
    cases recited with
    | running l prelude =>
      exact .goesOn [] (silent (by simp [Scene.told])) rfl (by rw [List.append_nil]; exact .running _ prelude)
  | refused stage | enqueued stage | waiting stage | admitted stage | armed stage | allEmpty stage | allBegun stage
  | reset stage | unchanged stage | chapter stage | library stage | aborted stage | next stage | completed stage
  | gradedEmpty stage | gradedBegun stage | answered stage | left stage | settled stage =>
    rw [stage] at recited
    cases recited

/-! ### Between two passages -/

/-- A job that is neither at a run nor in a batch, and does not select anything. -/
def AtRest (job : Job E) : Prop :=
  match job.stage with
  | .preparing _ | .loading .. | .launching .. | .starting _ | .running _ => False
  | .concluded .. => job.batch = none
  | _ => True

theorem AtRest.of_outside (outside : job.stage.place ≠ .owning) : job.AtRest := by
  unfold AtRest
  split <;> simp_all [Stage.place]

/-- What a step of a job that is at rest tells. -/
inductive SetsOut (sc : Scene E) (a : Advance E) : Prop
  | rests (marks : a.scene.marks = sc.marks) (rest : a.job.AtRest)
  | resets (marks : a.scene.marks = sc.marks ++ [.debuggerReset]) (rest : a.job.AtRest)
  | selects {message : String} {wait : Wait} (marks : a.scene.marks = sc.marks)
    (stage : a.job.stage = .loading (.selection message) wait)
  | begins {mode : Mode} (marks : a.scene.marks = sc.marks) (alone : a.job.batch = none)
    (stage : a.job.stage = .preparing mode)
  | beginsBatch {batch : Batch} (marks : a.scene.marks = sc.marks ++ [.batchStarted batch.total])
    (under : a.job.batch = some batch) (index : batch.index = 0) (total : batch.total = sc.slot.state.testcases.length)
    (stage : a.job.stage = .preparing (.testcaseRun 0))

/-- A job at rest stays there, or sets out on a passage. -/
theorem Rule.sets_out (rule : Rule h id sc job a) (orderly : job.Orderly) (rest : job.AtRest) :
    SetsOut sc a ∧ a.job.stage.ended? = none := by
  have silent : a.scene.told = sc.told → a.scene.marks = sc.marks := Scene.marks_of_silent
  cases rule with
  | refused | admitted | enqueued | unchanged | left | gradedEmpty | answered =>
    exact ⟨.rests (silent (by simp [Scene.told])) trivial, rfl⟩
  | allEmpty => exact ⟨.rests (silent rfl) trivial, rfl⟩
  | waiting stage | settled stage => exact ⟨.rests rfl rest, by rw [stage]; rfl⟩
  | armed stage =>
    obtain ⟨alone, -⟩ := orderly.outside (by rw [stage]; rfl) (by
      rintro ⟨_, past | past⟩ <;> cases stage.symm.trans past)
    exact ⟨.begins rfl alone rfl, rfl⟩
  | allBegun =>
    refine ⟨.beginsBatch ?_ rfl rfl rfl rfl, rfl⟩
    exact Scene.marks_of_told [.batchStarted _] (by simp [Scene.told, arm])
  | gradedBegun =>
    refine ⟨.beginsBatch ?_ rfl rfl rfl rfl, rfl⟩
    exact Scene.marks_of_told [.batchStarted _] (by simp [Scene.told, refusePause_slot])
  | reset => exact ⟨.resets (Scene.marks_of_told [.outputCleared, .debuggerReset] (by simp [Scene.told])) trivial, rfl⟩
  | chapter | library => exact ⟨.selects (silent (by simp [Scene.told])) rfl, rfl⟩
  | next stage under | completed stage under | aborted stage under =>
    rw [AtRest, stage] at rest
    cases rest.symm.trans under
  | deprived stage | cutShort stage | editor stage | repl stage | resumed stage | testcase stage | loading stage
  | loaded stage | launched stage | stoppedEarly stage | pausedEarly stage | started stage | ended stage
  | stopped stage | paused stage | unheard stage | running stage =>
    simp [AtRest, stage] at rest

/-- A selection is told of when its context has been made. -/
theorem Rule.selects {message : String} {wait : Wait} (rule : Rule h id sc job a)
    (stage : job.stage = .loading (.selection message) wait) :
    (a.scene.marks = sc.marks ∧ (∃ later, a.job.stage = .loading (.selection message) later) ∨
      (∃ chapter, a.scene.marks = sc.marks ++ [.contextReset chapter]) ∧ a.job.AtRest) ∧
      a.job.stage.ended? = none := by
  cases rule with
  | loading here =>
    cases stage.symm.trans here
    exact ⟨.inl ⟨Scene.marks_of_silent (by simp [Scene.told]), _, rfl⟩, rfl⟩
  | @loaded _ _ next here waited =>
    cases stage.symm.trans here
    refine ⟨.inr ⟨⟨(E.makeContext sc.slot.state.selection).chapter, ?_⟩, trivial⟩, rfl⟩
    exact Scene.marks_of_told [.contextReset _, .outputCleared]
      (by simp [Scene.told, proceed, waited.silent, waited.slot])
  | _ => simp_all

/-! ### A batch -/

/-- What a job has told of its batch since that began, and how the runs in it have ended. -/
inductive Reciting (job : Job E) (batch : Batch) : List (Mode × Outcome) → List Occurrence → Prop
  | under {ends : List (Mode × Outcome)} {told part : List Occurrence} (index : batch.index = ends.length)
    (series : Series ends told) (recited : job.stage.Recited part) : job.Reciting batch ends (told ++ part)
  | between {ends : List (Mode × Outcome)} {told : List Occurrence} {mode : Mode} {o : Outcome}
    (index : batch.index = ends.length) (series : Series (ends ++ [(mode, o)]) told)
    (stage : job.stage = .concluded mode o) : job.Reciting batch (ends ++ [(mode, o)]) told

/-- What a step of a job in a batch tells. -/
inductive Continues (sc : Scene E) (job : Job E) (a : Advance E) (batch : Batch) (ends : List (Mode × Outcome))
    (told : List Occurrence) : Prop
  | goesOn (more : List Occurrence) {later : Batch} (marks : a.scene.marks = sc.marks ++ more)
    (under : a.job.batch = some later) (total : later.total = batch.total)
    (reciting : a.job.Reciting later (ends ++ a.job.stage.ended?.toList) (told ++ more))
  | finishes {summary : BatchSummary} (marks : a.scene.marks = sc.marks ++ [.batchFinished summary])
    (rest : a.job.AtRest) (unended : a.job.stage.ended? = none) (series : Series ends told)
    (within : ends.length ≤ batch.total)
    (short : ends.length < batch.total →
      (∃ mode, ends.getLast? = some (mode, .interrupted)) ∨ sc.slot.state.testcases.length ≤ ends.length)

/-- A batch goes on from one testcase to the next; it ends behind the last, behind one that is interrupted, or
where there is none. -/
theorem Rule.continues {batch : Batch} {ends : List (Mode × Outcome)} (rule : Rule h id sc job a)
    (orderly : job.Orderly) (under : job.batch = some batch) (reciting : job.Reciting batch ends told) :
    Continues sc job a batch ends told := by
  obtain ⟨place, inside, -⟩ := orderly.batch batch under
  cases reciting with
  | @under _ told part index series recited =>
    have run : job.stage.mode? = some (.testcaseRun ends.length) := by
      rcases place with run | ⟨reply, past | past⟩
      · rw [run, index]
      · rw [past] at recited
        cases recited
      · rw [past] at recited
        cases recited
    cases rule.recites recited with
    | goesOn more marks same later =>
      refine .goesOn more marks (same.trans under) rfl ?_
      rw [later.unended, Option.toList_none, List.append_nil, List.append_assoc]
      exact .under index series later
    | ends more marks same run' ended recital =>
      cases run.symm.trans run'
      refine .goesOn more marks (same.trans under) rfl ?_
      rw [ended, List.append_assoc]
      exact .between index (series.next recital) ended
    | givesUp alone => cases alone.symm.trans under
    | cutShort silent stage because same ended =>
      cases under.symm.trans same
      subst silent ended
      rw [List.append_nil]
      refine .finishes (endBatch_marks ..) trivial rfl series (by omega) fun _ => .inr ?_
      rw [stage] at run
      cases run
      by_contra more
      simp [refusal?, Nat.lt_of_not_le more] at because
  | @between before told mode o index series stage =>
    have length : (before ++ [(mode, o)]).length = batch.index + 1 := by simp [index]
    cases rule with
    | aborted here same =>
      cases under.symm.trans same
      cases stage.symm.trans here
      exact .finishes (endBatch_marks ..) trivial rfl series (by omega) fun _ => .inl ⟨_, List.getLast?_concat⟩
    | completed here same _ last =>
      cases under.symm.trans same
      exact .finishes (endBatch_marks ..) trivial rfl series (by omega) fun short => by omega
    | next here same ran more =>
      cases under.symm.trans same
      refine .goesOn [] (List.append_nil _).symm rfl rfl ?_
      change Reciting _ _ (before ++ [(mode, o)] ++ []) (told ++ [])
      rw [List.append_nil (before ++ _)]
      exact .under length.symm series (.preparing _)
    | _ => simp_all

end Job

namespace Job

variable {h : House} {id : JobId} {sc : Scene E} {job : Job E} {a : Advance E}

/-- A job that has not been given the permit tells nothing. -/
theorem Rule.outsider (rule : Rule h id sc job a) (unadmitted : job.stage.place ≠ .admitted)
    (place : job.stage.place ≠ .owning) : a.scene.marks = sc.marks ∧ a.job.stage.ended? = none := by
  cases rule with
  | refused | admitted => exact ⟨rfl, rfl⟩
  | waiting stage | settled stage => exact ⟨rfl, by rw [stage]; rfl⟩
  | enqueued => exact ⟨Scene.marks_of_silent (by simp [Scene.told]), rfl⟩
  | armed stage | allEmpty stage | allBegun stage | reset stage | unchanged stage | chapter stage
  | library stage => exact absurd (by rw [stage]; rfl) unadmitted
  | _ => exact absurd (by simp_all [Stage.place]) place

theorem Reciting.owning {batch : Batch} {ends : List (Mode × Outcome)} {told : List Occurrence}
    (reciting : job.Reciting batch ends told) : job.stage.place = .owning := by
  cases reciting with
  | under _ _ recited => exact recited.owning
  | between _ _ stage => rw [stage]; rfl

end Job

/-! ## Courses of moves -/

namespace Hub

/-- What is told of a workspace in a course of moves, but for the clearing of its output. -/
def told (hub : Hub E) (w : WorkspaceId) (moves : List Move) : List Occurrence :=
  (((hub.events moves).filter (·.workspace = w)).map Event.occurrence).filter (· ≠ .outputCleared)

/-- How the runs that come to their end in a course of moves do so. -/
def ends (hub : Hub E) (w : WorkspaceId) (moves : List Move) : List (Mode × Outcome) :=
  (hub.history w moves).filterMap Stride.ended?

/-- A course of moves in which one thing is told of a workspace, and nothing else. -/
inductive Passage (hub : Hub E) (w : WorkspaceId) : List Move → Prop
  | run {moves : List Move} {mode : Mode} {o : Outcome} (recital : mode.Recital o (hub.told w moves))
    (ends : hub.ends w moves = [(mode, o)]) : hub.Passage w moves
  /-- from the move that tells that a batch begins to the one that tells that it ends; it is cut short only by a run
  that is interrupted, or if meanwhile there are no more testcases than have been run -/
  | batch {first last : Move} {middle : List Move} {total : Nat} {summary : BatchSummary}
    (begins : hub.told w [first] = [.batchStarted total])
    (series : Series ((hub.move first).ends w middle) ((hub.move first).told w middle))
    (within : ((hub.move first).ends w middle).length ≤ total)
    (short : ((hub.move first).ends w middle).length < total →
      (∃ mode, ((hub.move first).ends w middle).getLast? = some (mode, .interrupted)) ∨
        ∃ ts, .edit w (.testcases ts) ∈ middle ∧ ts.length ≤ ((hub.move first).ends w middle).length)
    (finishes : ((hub.move first).after middle).told w [last] = [.batchFinished summary]) :
    hub.Passage w (first :: (middle ++ [last]))
  | selection {moves : List Move} {chapter : UInt8} (told : hub.told w moves = [.contextReset chapter])
    (ends : hub.ends w moves = []) : hub.Passage w moves
  | reset {m : Move} (told : hub.told w [m] = [.debuggerReset]) : hub.Passage w [m]

/-- A course of moves in which whole passages are told, one after the other. -/
inductive Composed (hub : Hub E) (w : WorkspaceId) : List Move → Prop
  | nil : hub.Composed w []
  | silent {past : List Move} {m : Move} (composed : hub.Composed w past) (told : (hub.after past).told w [m] = []) :
    hub.Composed w (past ++ [m])
  | passage {past moves : List Move} (composed : hub.Composed w past) (passage : (hub.after past).Passage w moves) :
    hub.Composed w (past ++ moves)

variable {hub : Hub E} {w : WorkspaceId} {s next : Site E} {id : JobId} {job : Job E} {m : Move}

theorem events_append (hub : Hub E) (first second : List Move) :
    hub.events (first ++ second) = hub.events first ++ (hub.after first).events second := by
  induction first generalizing hub with
  | nil => rfl
  | cons m moves ih => simp [events, ih]

theorem told_append (hub : Hub E) (w : WorkspaceId) (first second : List Move) :
    hub.told w (first ++ second) = hub.told w first ++ (hub.after first).told w second := by
  simp [told, events_append]

theorem ends_append (hub : Hub E) (w : WorkspaceId) (first second : List Move) :
    hub.ends w (first ++ second) = hub.ends w first ++ (hub.after first).ends w second := by
  simp [ends, history_append]

/-- Where no job of a workspace steps nothing is told of it. -/
theorem still_told (sound : hub.Sound) (still : hub.strideAt? w m = none) : hub.told w [m] = [] := by
  cases about : hub.about? m with
  | none => simp [told, events, (about?_none about).2]
  | some v =>
    by_cases own : v = w
    · subst own
      cases m with
      | openWorkspace u =>
        have silent : (hub.openWorkspace u).2.filterMap Effect.event? = [] := by
          unfold openWorkspace
          split <;> rfl
        simp [told, events, respond, silent]
      | edit u e =>
        simp only [told, events, respond]
        split <;> rfl
      | clearOutput u =>
        simp only [told, events, respond, clearOutput]
        cases hub.slot u <;> simp [bind, Except.bind, pure, Except.pure, Scene.clearOutput, Scene.occur, Scene.add,
          Scene.onState, Effect.event?]
      | signal | submit => rfl
      | step id now =>
        obtain ⟨task, known, rfl⟩ := Option.map_eq_some_iff.1 about
        cases here : hub.site? task.workspace with
        | none =>
          have missing := slot_eq_error.2 ⟨site?_eq_none.1 here, rfl⟩
          simp [told, events, respond, step, known, missing]
        | some s =>
          have theirs : s.job? id = some task.job := (site?_eq_some.1 here).2 ▸ jobOn?_eq_some.2 known
          simp [strideAt?, stride?, here, theirs] at still
    · simp [told, events, filter_names (respond_names sound about) own]

theorem still_ends (still : hub.strideAt? w m = none) : hub.ends w [m] = [] := by
  simp [ends, history, still]

/-- A step tells what is told in its scene. -/
theorem step_told (sound : hub.Sound) (here : hub.site? w = some s) (known : s.job? id = some job) (now : Nat) :
    let a := Job.step (hub.house now) id { slot := s.slot, asked := hub.asked } job
    hub.told w [.step id now] = a.scene.marks ∧ hub.ends w [.step id now] = a.job.stage.ended?.toList := by
  intro a
  constructor
  · obtain ⟨occs, told, -⟩ := (Job.step_rule (hub.house now) id { slot := s.slot, asked := hub.asked } job).speaks
    have name : s.slot.id = w := sound.keyed (site?_eq_some.1 here).1
    have all : (hub.respond (.step id now)).2.filterMap Effect.event? = occs.map (Event.mk w) := by
      rw [← name]
      exact (congrArg (List.filterMap Effect.event?) (step_own sound here known now).2).trans told
    have own : (occs.map (Event.mk w)).filter (·.workspace = w) = occs.map (Event.mk w) := by
      simp [List.filter_eq_self]
    have same : (occs.map (Event.mk w)).map Event.occurrence = occs := by simp [Function.comp_def]
    rw [Hub.told, events, events, List.append_nil, all, own, same]
    exact (Scene.marks_of_told occs told).symm
  · cases ended : a.job.stage.ended? <;> simp [ends, history, strideAt?, stride?, here, known, Stride.ended?, a, ended]

/-! ### The step -/

/-- How a workspace stands after moves in which the beginning of a passage has been told. -/
inductive Stands (hub : Hub E) (w : WorkspaceId) (s : Site E) : List Move → Prop
  /-- nothing is under way -/
  | rest (rest : ∀ id job, s.job? id = some job → job.AtRest) : hub.Stands w s []
  | selects {moves : List Move} {id : JobId} {job : Job E} {message : String} {wait : Wait}
    (known : s.job? id = some job) (stage : job.stage = .loading (.selection message) wait)
    (told : hub.told w moves = []) (ends : hub.ends w moves = []) : hub.Stands w s moves
  | run {moves : List Move} {id : JobId} {job : Job E} (known : s.job? id = some job) (alone : job.batch = none)
    (recited : job.stage.Recited (hub.told w moves)) (ends : hub.ends w moves = []) : hub.Stands w s moves
  | batch {first : Move} {middle : List Move} {id : JobId} {job : Job E} {batch : Batch} (known : s.job? id = some job)
    (under : job.batch = some batch) (begins : hub.told w [first] = [.batchStarted batch.total])
    (reciting : job.Reciting batch ((hub.move first).ends w middle) ((hub.move first).told w middle))
    (count : s.slot.state.testcases.length = batch.total ∨
      ∃ ts, .edit w (.testcases ts) ∈ middle ∧ s.slot.state.testcases.length = ts.length) :
    hub.Stands w s (first :: middle)

/-- A move that is not a step of the job that works in the workspace leaves that job as it is and tells nothing. -/
theorem Happens.aside (reached : hub.Reachable) (here : hub.site? w = some s) (known : s.job? id = some job)
    (place : job.stage.place = .owning) (happens : hub.Happens w s m next) :
    (∃ now, m = .step id now ∧
      next = s.take id (Job.step (hub.house now) id { slot := s.slot, asked := hub.asked } job)) ∨
    hub.told w [m] = [] ∧ hub.ends w [m] = [] ∧ next.job? id = some job ∧
      (next.slot.state.testcases.length = s.slot.state.testcases.length ∨
        ∃ ts, m = .edit w (.testcases ts) ∧ next.slot.state.testcases.length = ts.length) := by
  have owned := reached.owned here
  have still : ∀ {m}, hub.strideAt? w m = none → hub.told w [m] = [] ∧ hub.ends w [m] = [] :=
    fun still => ⟨still_told reached.sound still, still_ends still⟩
  cases happens with
  | still none => exact .inr ⟨(still none).1, (still none).2, known, .inl rfl⟩
  | clearOutput | signal => exact .inr ⟨(still rfl).1, (still rfl).2, known, .inl rfl⟩
  | edit e =>
    refine .inr ⟨(still rfl).1, (still rfl).2, known, ?_⟩
    cases e with
    | testcases ts => exact .inr ⟨ts, rfl, rfl⟩
    | _ => exact .inl rfl
  | submit j operation free =>
    refine .inr ⟨(still rfl).1, (still rfl).2, (if_neg ?_).trans known, .inl rfl⟩
    rintro rfl
    cases free.symm.trans known
  | @step j other a now theirs made took =>
    by_cases same : j = id
    · subst same
      cases known.symm.trans theirs
      exact .inl ⟨now, rfl, made ▸ rfl⟩
    · obtain ⟨unadmitted, outside⟩ := owned.bystander (owned.owner known place) same theirs
      have rule := made ▸ Job.step_rule (hub.house now) j { slot := s.slot, asked := hub.asked } other
      obtain ⟨marks, unended⟩ := rule.outsider unadmitted outside
      obtain ⟨told, ends⟩ := step_told reached.sound here theirs now
      rw [← made] at told ends
      refine .inr ⟨told.trans marks, by rw [ends, unended]; rfl, (s.take_other a (Ne.symm same)).trans known, .inl ?_⟩
      exact rule.testcases_length

/-- What a job at work leaves behind when it comes to rest: all are at rest then. -/
theorem rest_of_take {a : Advance E} (owned : s.Owned) (known : s.job? id = some job)
    (place : job.stage.place = .owning) (own : a.job.AtRest) :
    ∀ j other, (s.take id a).job? j = some other → other.AtRest := by
  intro j other there
  by_cases same : j = id
  · subst same
    cases (s.take_own ..).symm.trans there
    exact own
  · rw [s.take_other a same] at there
    exact .of_outside (owned.bystander (owned.owner known place) same there).2

/-- Where some moves have led to: a passage is under way, or all is at rest and a whole one, or none, has been
told. -/
inductive Onward (hub : Hub E) (w : WorkspaceId) (s : Site E) (moves : List Move) : Prop
  | stands (stands : hub.Stands w s moves)
  | silent (rest : ∀ id job, s.job? id = some job → job.AtRest) (told : hub.told w moves = [])
  | whole (rest : ∀ id job, s.job? id = some job → job.AtRest) (passage : hub.Passage w moves)

/-- From rest a job may set out on a passage. -/
theorem Happens.sets_out (reached : hub.Reachable) (here : hub.site? w = some s)
    (rest : ∀ id job, s.job? id = some job → job.AtRest) (happens : hub.Happens w s m next) :
    hub.Onward w next [m] := by
  have still : ∀ {m}, hub.strideAt? w m = none → hub.told w [m] = [] := still_told reached.sound
  cases happens with
  | still none => exact .silent rest (still none)
  | edit | clearOutput | signal => exact .silent rest (still rfl)
  | submit id operation =>
    refine .silent (fun j job known => ?_) (still rfl)
    dsimp only at known
    split at known
    · cases known
      trivial
    · exact rest j job known
  | @step id job a now known made took =>
    have rule := made ▸ Job.step_rule (hub.house now) id { slot := s.slot, asked := hub.asked } job
    obtain ⟨told, ends⟩ := step_told reached.sound here known now
    rw [← made] at told ends
    have others : a.job.AtRest → ∀ j other, (s.take id a).job? j = some other → other.AtRest := by
      intro own j other there
      by_cases same : j = id
      · subst same
        cases (s.take_own ..).symm.trans there
        exact own
      · exact rest j other ((s.take_other a same).symm.trans there)
    obtain ⟨sets, unended⟩ := rule.sets_out ((reached.attentive here).orderly known) (rest id job known)
    rw [unended] at ends
    cases sets with
    | rests marks own => exact .silent (others own) (told.trans marks)
    | resets marks own => exact .whole (others own) (.reset (told.trans marks))
    | selects marks stage => exact .stands (.selects (s.take_own id a) stage (told.trans marks) ends)
    | begins marks alone stage =>
      refine .stands (.run (s.take_own id a) alone ?_ ends)
      rw [told.trans marks, stage]
      exact .preparing _
    | beginsBatch marks under index total stage =>
      refine .stands (.batch (s.take_own id a) under (told.trans marks) ?_ (.inl ?_))
      · exact .under index .nil (stage ▸ .preparing _)
      · rw [Site.take_slot, rule.testcases_length, total]

/-- A selection goes on. -/
theorem Stands.step_selecting {start : Hub E} {current : List Move} (reached : (start.after current).Reachable)
    (here : (start.after current).site? w = some s) {message : String} {wait : Wait} (known : s.job? id = some job)
    (stage : job.stage = .loading (.selection message) wait) (told : start.told w current = [])
    (ends : start.ends w current = []) (happens : (start.after current).Happens w s m next) :
    start.Onward w next (current ++ [m]) := by
  have place : job.stage.place = .owning := by rw [stage]; rfl
  rcases happens.aside reached here known place with ⟨now, rfl, rfl⟩ | ⟨silent, none, same, -⟩
  · obtain ⟨now_told, now_ends⟩ := step_told reached.sound here known now
    obtain ⟨selects, unended⟩ := (Job.step_rule ((start.after current).house now) id
      { slot := s.slot, asked := (start.after current).asked } job).selects stage
    rw [unended] at now_ends
    have ends' : start.ends w (current ++ [.step id now]) = [] := by rw [ends_append, ends, now_ends]; rfl
    rcases selects with ⟨marks, later, same⟩ | ⟨⟨chapter, marks⟩, rest⟩
    · refine .stands (.selects (s.take_own ..) same ?_ ends')
      rw [told_append, told, now_told.trans marks]
      rfl
    · have said : start.told w (current ++ [.step id now]) = [.contextReset chapter] := by
        rw [told_append, told, now_told.trans marks]
        rfl
      exact .whole (rest_of_take (reached.owned here) known place rest) (.selection said ends')
  · refine .stands (.selects same stage ?_ ?_)
    · rw [told_append, told, silent]
      rfl
    · rw [ends_append, ends, none]
      rfl

/-- A run goes on. -/
theorem Stands.step_running {start : Hub E} {current : List Move} (reached : (start.after current).Reachable)
    (here : (start.after current).site? w = some s) (known : s.job? id = some job) (alone : job.batch = none)
    (recited : job.stage.Recited (start.told w current)) (ends : start.ends w current = [])
    (happens : (start.after current).Happens w s m next) : start.Onward w next (current ++ [m]) := by
  rcases happens.aside reached here known recited.owning with ⟨now, rfl, rfl⟩ | ⟨silent, none, same, -⟩
  · obtain ⟨now_told, now_ends⟩ := step_told reached.sound here known now
    have rule := Job.step_rule ((start.after current).house now) id
      { slot := s.slot, asked := (start.after current).asked } job
    have told := told_append start w current [.step id now]
    have rest := rest_of_take (reached.owned here) known recited.owning (a := Job.step ((start.after current).house now)
      id { slot := s.slot, asked := (start.after current).asked } job)
    cases rule.recites recited with
    | goesOn more marks batch later =>
      rw [now_told.trans marks] at told
      refine .stands (.run (s.take_own ..) (batch.trans alone) (told ▸ later) ?_)
      rw [ends_append, ends, now_ends, later.unended]
      rfl
    | ends more marks batch run ended recital =>
      rw [now_told.trans marks] at told
      refine .whole (rest ?_) (.run (told ▸ recital) ?_)
      · rw [Job.AtRest, ended]
        exact batch.trans alone
      · rw [ends_append, ends, now_ends, ended]
        rfl
    | givesUp _ silent marks ended =>
      refine .silent (rest ?_) ?_
      · rw [Job.AtRest, ended]
        trivial
      · rw [told, silent, now_told.trans marks]
        rfl
    | cutShort _ _ _ under => cases alone.symm.trans under
  · refine .stands (.run same alone ?_ ?_)
    · rwa [told_append, silent, List.append_nil]
    · rw [ends_append, ends, none]
      rfl

/-- A batch goes on. -/
theorem Stands.step_batch {start : Hub E} {first : Move} {middle : List Move} {batch : Batch}
    (reached : (start.after (first :: middle)).Reachable) (here : (start.after (first :: middle)).site? w = some s)
    (known : s.job? id = some job) (under : job.batch = some batch)
    (begins : start.told w [first] = [.batchStarted batch.total])
    (reciting : job.Reciting batch ((start.move first).ends w middle) ((start.move first).told w middle))
    (count : s.slot.state.testcases.length = batch.total ∨
      ∃ ts, .edit w (.testcases ts) ∈ middle ∧ s.slot.state.testcases.length = ts.length)
    (happens : (start.after (first :: middle)).Happens w s m next) :
    start.Onward w next (first :: (middle ++ [m])) := by
  have told := told_append (start.move first) w middle [m]
  have ends := ends_append (start.move first) w middle [m]
  rcases happens.aside reached here known reciting.owning with ⟨now, rfl, rfl⟩ | ⟨silent, none, same, length⟩
  · obtain ⟨now_told, now_ends⟩ := step_told reached.sound here known now
    have rule := Job.step_rule ((start.after (first :: middle)).house now) id
      { slot := s.slot, asked := (start.after (first :: middle)).asked } job
    cases rule.continues ((reached.attentive here).orderly known) under reciting with
    | goesOn more marks under' total later =>
      rw [show ((start.move first).after middle).told w [.step id now] = _ from now_told.trans marks] at told
      rw [show ((start.move first).after middle).ends w [.step id now] = _ from now_ends] at ends
      refine .stands (.batch (s.take_own ..) under' (by rw [begins, total]) ?_ ?_)
      · rw [told, ends]
        exact later
      · rw [total, Site.take_slot, rule.testcases_length]
        exact count.imp_right fun ⟨ts, edit, same⟩ => ⟨ts, List.mem_append_left _ edit, same⟩
    | finishes marks rest unended series within short =>
      refine .whole (rest_of_take (reached.owned here) known reciting.owning rest)
        (.batch begins series within (fun fewer => (short fewer).imp_right fun few => ?_) (now_told.trans marks))
      rcases count with whole | ⟨ts, edit, same⟩
      · exact absurd (whole ▸ few) (Nat.not_le_of_lt fewer)
      · exact ⟨ts, edit, same ▸ few⟩
  · rw [show ((start.move first).after middle).told w [m] = _ from silent, List.append_nil] at told
    rw [show ((start.move first).after middle).ends w [m] = _ from none, List.append_nil] at ends
    refine .stands (.batch same under begins (by rwa [told, ends]) ?_)
    rcases length with length | ⟨ts, rfl, length⟩
    · rw [length]
      exact count.imp_right fun ⟨ts, edit, same⟩ => ⟨ts, List.mem_append_left _ edit, same⟩
    · exact .inr ⟨ts, List.mem_append_right _ (.head _), length⟩

/-- Whatever the move, a passage is begun, goes on, or comes to its end. -/
theorem Stands.step {start : Hub E} {current : List Move} (reached : (start.after current).Reachable)
    (here : (start.after current).site? w = some s) (stands : start.Stands w s current) (m : Move) :
    ∃ next, ((start.after current).move m).site? w = some next ∧ start.Onward w next (current ++ [m]) := by
  obtain ⟨next, there, happens⟩ := reached.happens here m
  refine ⟨next, there, ?_⟩
  cases stands with
  | rest rest => exact happens.sets_out reached here rest
  | selects known stage told ends => exact step_selecting reached here known stage told ends happens
  | run known alone recited ends => exact step_running reached here known alone recited ends happens
  | batch known under begins reciting count =>
    exact step_batch reached here known under begins reciting count happens

/-! ### The course -/

/-- Moves in which nothing is told may follow. -/
theorem Composed.silents {past : List Move} (composed : hub.Composed w past) {moves : List Move}
    (told : (hub.after past).told w moves = []) : hub.Composed w (past ++ moves) := by
  induction moves generalizing past with
  | nil => rwa [List.append_nil]
  | cons m moves ih =>
    rw [show m :: moves = [m] ++ moves from rfl, told_append, List.append_eq_nil_iff] at told
    have rest := ih (composed.silent told.1) (by rw [after_append]; exact told.2)
    rwa [List.append_assoc] at rest

/-- How far a workspace has come in a course of moves. -/
inductive Progress (hub : Hub E) (w : WorkspaceId) (moves : List Move) : Prop
  /-- it has not been opened -/
  | closed (closed : (hub.after moves).site? w = none) (composed : hub.Composed w moves)
  /-- whole passages have been told, and the beginning of another -/
  | opened {past current : List Move} {s : Site E} (split : moves = past ++ current) (composed : hub.Composed w past)
    (here : (hub.after moves).site? w = some s) (stands : (hub.after past).Stands w s current)

/-- A workspace that is opened is at rest. -/
theorem Progress.opens {moves : List Move} (reached : hub.Reachable) (closed : (hub.after moves).site? w = none)
    (composed : hub.Composed w moves) (m : Move) : hub.Progress w (moves ++ [m]) := by
  have sound := (reached.after moves).sound
  have still : (hub.after moves).strideAt? w m = none := by
    cases m with
    | step => simp [strideAt?, stride?, closed]
    | _ => rfl
  have composed := composed.silent (still_told sound still)
  have later := hub.after_concat moves m
  obtain ⟨opens, untouched⟩ := move_closed sound m closed
  rw [← later] at opens untouched
  rcases opens with closed | ⟨jobs, opened⟩
  · exact .closed closed composed
  · refine .opened (List.append_nil _).symm composed opened (.rest fun id job known => .of_outside ?_)
    obtain ⟨-, -, stage | ⟨_, stage⟩⟩ := untouched id job ((site?_eq_some.1 opened).2 ▸ known) <;>
      simp [stage, Stage.place]

theorem Progress.move {moves : List Move} (reached : hub.Reachable) (progress : hub.Progress w moves) (m : Move) :
    hub.Progress w (moves ++ [m]) := by
  cases progress with
  | closed closed composed => exact .opens reached closed composed m
  | @opened past current s split composed here stands =>
    subst split
    have later : (hub.after (past ++ current)).Reachable := reached.after _
    rw [after_append] at here later
    obtain ⟨next, there, onward⟩ := stands.step later here m
    have there : (hub.after (past ++ current ++ [m])).site? w = some next := by
      rw [after_append, after_append]
      exact there
    rw [List.append_assoc] at there ⊢
    cases onward with
    | stands stands => exact .opened rfl composed there stands
    | silent rest told => exact .opened (List.append_nil _).symm (composed.silents told) there (.rest rest)
    | whole rest passage => exact .opened (List.append_nil _).symm (composed.passage passage) there (.rest rest)

theorem Progress.after {past moves : List Move} (reached : hub.Reachable) (progress : hub.Progress w past) :
    hub.Progress w (past ++ moves) := by
  induction moves generalizing past with
  | nil => rwa [List.append_nil]
  | cons m moves ih =>
    have rest := ih (progress.move reached m)
    rwa [List.append_assoc] at rest

/-- No job works in a workspace. -/
def Idle (hub : Hub E) (w : WorkspaceId) : Prop :=
  ∀ id job, hub.jobOn? w id = some job → job.stage.place ≠ .owning

theorem Idle.progress (idle : hub.Idle w) : hub.Progress w [] := by
  cases here : hub.site? w with
  | none => exact .closed here .nil
  | some s =>
    refine .opened rfl .nil here (.rest fun id job known => .of_outside (idle id job ?_))
    exact (site?_eq_some.1 here).2 ▸ known

/-- What is told of a workspace is told in whole passages, when no job works there any more. -/
theorem Reachable.protocol (reached : hub.Reachable) {moves : List Move} (before : hub.Idle w)
    (after : (hub.after moves).Idle w) : hub.Composed w moves := by
  cases before.progress.after reached with
  | closed _ composed => exact composed
  | @opened past current s split composed here stands =>
    rw [List.nil_append] at split here
    subst split
    have outside : ∀ {id : JobId} {job : Job E}, s.job? id = some job → job.stage.place ≠ .owning :=
      fun known => after _ _ ((site?_eq_some.1 here).2 ▸ known)
    cases stands with
    | rest => rwa [List.append_nil]
    | selects known stage => exact absurd (by rw [stage]; rfl) (outside known)
    | run known _ recited => exact absurd recited.owning (outside known)
    | batch known _ _ reciting => exact absurd reciting.owning (outside known)

end Hub

/-! ### A batch whose last testcase is taken away -/

/-- Three testcases, the second of which takes its time. -/
def dwindling : Hub Directive.engine :=
  let programs := ["finish 1", "sleep 10\nfail 1 no", "finish 3"]
  (Hub.create {} .bundled).1.move (.edit .assessment (.testcases (programs.map fun p => { program := p })))

/-- While the second runs the third is taken away, and the output is cleared; behind the batch a run waits. -/
def dwindlingMoves : List Move :=
  [.submit 0 .assessment .runAll, .submit 1 .assessment (.evaluate (.testcaseRun 0))] ++ List.replicate 3 (.step 0 0) ++
    [.step 1 0] ++ List.replicate 12 (.step 0 0) ++
    [.edit .assessment (.testcases [{ program := "finish 1" }, { program := "finish 4" }]), .clearOutput .assessment] ++
    List.replicate 4 (.step 0 10) ++ List.replicate 10 (.step 1 10)

theorem dwindling_reachable : dwindling.Reachable := by
  unfold dwindling
  exact (Hub.Reachable.create {} .bundled).move _

/-- The batch is cut short behind its second testcase, and then the run that waited is told of. -/
theorem protocol_of_dwindling :
    dwindling.Reachable ∧ dwindling.Idle .assessment ∧ (dwindling.after dwindlingMoves).Idle .assessment ∧
      dwindling.Composed .assessment dwindlingMoves ∧
      dwindling.told .assessment dwindlingMoves =
        [.batchStarted 3,
          .testcaseReset 0, .contextReset 1, .runStarted (.testcaseRun 0), .testcaseSucceeded 0,
          .runCompleted (.testcaseRun 0) .finished,
          .testcaseReset 1, .contextReset 1, .runStarted (.testcaseRun 1), .testcaseFailed 1,
          .runCompleted (.testcaseRun 1) .errored,
          .batchFinished { total := 2, failed := 1, pending := 1 },
          .testcaseReset 0, .contextReset 1, .runStarted (.testcaseRun 0), .testcaseSucceeded 0,
          .runCompleted (.testcaseRun 0) .finished] := by
  have idle : ∀ {hub : Hub Directive.engine},
      hub.tasks.entries.all (fun e => decide (e.2.job.stage.place ≠ .owning)) = true → hub.Idle .assessment :=
    fun all id job known => of_decide_eq_true
      (Hub.jobs_of_all (fun job => decide (job.stage.place ≠ .owning)) all known)
  have before : dwindling.Idle .assessment := idle (by decide +kernel)
  have after : (dwindling.after dwindlingMoves).Idle .assessment := idle (by decide +kernel)
  exact ⟨dwindling_reachable, before, after, dwindling_reachable.protocol before after, by decide +kernel⟩

end Workbench
