/-
Whose lines are whose in the output of a workspace.

Where a run begins, the output is marked. What stands before the mark is left
alone; what the run writes collects in one entry behind it (`OutputLog.During`),
and the entry that closes the run takes it over. So at its end a run has added
what it comes to and its own lines, and nothing else (`Outcome.closing`), also if
a run that was paused or interrupted has left its lines at the end of the output.

A step is looked at through what it does to the output (`Job.Prints`). While one
job has a run under way no other job comes near the output, and edits never do.
-/
import Workbench.Proofs.Run.Pause
import Workbench.Proofs.Run.Happening

namespace Workbench

/-! ## The output of one run -/

namespace OutputLog

/-- The output while a run is under way: the entries that were there when it began, and what it has written. -/
structure During (start : List OutputEntry) (ls : List String) (o : OutputLog) : Prop where
  boundary : o.boundary = start.length
  entries : o.entries = start ++ collected ls

variable {o : OutputLog} {start : List OutputEntry} {ls : List String}

theorem During.takeLines (during : o.During start ls) : o.takeLines = (start, ls) := by
  unfold OutputLog.takeLines
  rw [during.boundary, during.entries]
  cases ls with
  | nil => simp [collected]
  | cons l ls => simp [collected]

/-- A run begins behind everything that is there. -/
theorem beginRun_during (o : OutputLog) : o.beginRun.During o.entries [] := ⟨rfl, (List.append_nil _).symm⟩

theorem During.appendLine (during : o.During start ls) (line : String) :
    (o.appendLine line).During start (ls ++ [line]) := by
  refine ⟨during.boundary, ?_⟩
  simp only [OutputLog.appendLine, during.takeLines]
  cases ls <;> rfl

theorem During.appendLines (during : o.During start ls) (more : List String) :
    (o.appendLines more).During start (ls ++ more) := by
  induction more generalizing o ls with
  | nil => rwa [List.append_nil]
  | cons line more ih =>
    have rest := ih (during.appendLine line)
    rwa [List.append_assoc] at rest

end OutputLog

namespace Outcome

/-- What a run that has written some lines has added to the output in the end. -/
def closing (lines : List String) : Outcome → List OutputEntry
  | .finished value => [.result value lines]
  | .errored faults => [.faults faults lines]
  | .breakpointHit => [.result (.str Scene.breakpointSentinel) lines]
  | .paused => OutputLog.collected lines
  | .interrupted => OutputLog.collected lines

/-- The output with the entry that closes a run, if one does. -/
def close (o : OutputLog) : Outcome → OutputLog
  | .finished value => o.appendResult value
  | .errored faults => o.appendFaults faults
  | .breakpointHit => o.appendResult (.str Scene.breakpointSentinel)
  | .paused => o
  | .interrupted => o

/-- The end of a run leaves behind what there was and what the run has added. -/
theorem close_entries {log : OutputLog} {start : List OutputEntry} {ls : List String} (during : log.During start ls)
    (o : Outcome) : (o.close log).entries = start ++ o.closing ls := by
  cases o with
  | finished | errored | breakpointHit =>
    simp [close, closing, OutputLog.appendResult, OutputLog.appendFaults, during.takeLines]
  | paused | interrupted => exact during.entries

@[simp] theorem close_lines (log : OutputLog) (o : Outcome) : (o.close log).lines = log.lines := by
  cases o <;> simp [close]

end Outcome

variable {E : Engine}

/-! ## What a step does to the output -/

namespace Job

variable {h : House} {id : JobId} {sc : Scene E} {job : Job E} {a : Advance E}

theorem finish_output (l : Live E) (result : RunResult E.Snapshot) :
    (finish h sc l result).1.slot.state.output = (finish h sc l result).2.close sc.slot.state.output := by
  have suspended : ∀ (s : Suspension E.Snapshot) paused, (sc.finishSuspended h s paused).1.slot.state.output =
      (sc.finishSuspended h s paused).2.close sc.slot.state.output := by
    intro s paused
    cases paused <;> rfl
  unfold finish
  cases result with
  | finished value => cases l.mode <;> rfl
  | failed faults => cases l.mode <;> rfl
  | suspended snapshot location =>
    cases l.mode with
    | testcaseRun => rfl
    | _ => exact suspended ..

theorem finishInterrupted_output (mode : Mode) :
    (sc.finishInterrupted h mode).1.slot.state.output = sc.slot.state.output := by
  cases mode <;> rfl

/-- What a step does to the output, and what it hears from the engine. -/
inductive Prints (sc : Scene E) (job : Job E) (a : Advance E) : Prop
  /-- nothing, but that the text of a run may be added -/
  | aside (aside : job.stage.isAtEngine = false) (later : a.job.stage.isAtEngine = false)
    (calls : a.scene.traffic = sc.traffic) {more : List OutputEntry} (silent : more.flatMap OutputEntry.lines = [])
    (entries : a.scene.slot.state.output.entries = sc.slot.state.output.entries ++ more)
  /-- the output is cleared, and that is told -/
  | clears (aside : job.stage.isAtEngine = false)
    (told : .event ⟨sc.slot.id, .outputCleared⟩ ∈ a.scene.effects)
  /-- a run begins -/
  | begins {mode : Mode} {p : Prepared E} {l : Launch E} (ready : job.stage = .launching mode p)
    (stage : a.job.stage = .starting l) (own : l.mode = mode) (calls : a.scene.traffic = sc.traffic)
    (output : a.scene.slot.state.output = sc.slot.state.output.beginRun)
  /-- a run is under way, and may write something -/
  | goesOn (calls : List (Effect E)) (atEngine : job.stage.isAtEngine = true) (later : a.job.stage.isAtEngine = true)
    (same : a.job.stage.mode? = job.stage.mode?) (heard : a.scene.traffic = sc.traffic ++ calls)
    (output : a.scene.slot.state.output = sc.slot.state.output.appendLines (calls.flatMap Effect.written))
  /-- a run comes to its end, and may write something before -/
  | ends {mode : Mode} {o : Outcome} (calls : List (Effect E)) (atEngine : job.stage.isAtEngine = true)
    (run : job.stage.mode? = some mode) (ended : a.job.stage = .concluded mode o)
    (heard : a.scene.traffic = sc.traffic ++ calls)
    (output : a.scene.slot.state.output =
      o.close (sc.slot.state.output.appendLines (calls.flatMap Effect.written)))

/-- Away from the engine no run is started or polled. -/
theorem Rule.quiet (rule : Rule h id sc job a) (aside : job.stage.isAtEngine = false) :
    a.scene.traffic = sc.traffic := by
  cases rule.engine with
  | idle _ calls => exact calls
  | starts stage | polls stage =>
    rw [stage] at aside
    cases aside

/-- Every step is of one of these kinds. -/
theorem Rule.prints (rule : Rule h id sc job a) : Prints sc job a := by
  have quiet := rule.quiet
  -- nothing happens to the output
  have still : ∀ {stage : Stage E}, job.stage = stage → stage.isAtEngine = false →
      a.job.stage.isAtEngine = false → a.scene.slot.state.output = sc.slot.state.output → Prints sc job a :=
    fun stage before after output =>
      .aside (stage ▸ before) after (quiet (stage ▸ before)) rfl (by rw [output, List.append_nil])
  cases rule with
  | refused stage | waiting stage | admitted stage | unchanged stage | deprived stage | answered stage | next stage
  | settled stage | editor stage | armed stage | allEmpty stage =>
    exact still stage rfl (by first | rfl | rw [stage]; rfl) rfl
  | allBegun stage | testcase stage | loading stage => exact still stage rfl rfl rfl
  | cutShort stage | aborted stage | completed stage => exact still stage rfl rfl (by rw [endBatch_slot])
  | enqueued stage => exact still stage rfl rfl (by rw [enqueue_slot])
  | left stage => exact still stage rfl rfl (by rw [leave_slot])
  | gradedEmpty stage | gradedBegun stage => exact still stage rfl rfl (by simp [refusePause_slot])
  | chapter stage | library stage =>
    refine still stage rfl rfl ?_
    rw [Scene.forgetShown_slot]
    split <;> rfl
  | repl stage => exact .aside (by rw [stage]; rfl) rfl rfl rfl rfl
  | reset stage | resumed stage => exact .clears (by rw [stage]; rfl) (by simp)
  | @loaded purpose wait next stage waited =>
    have state : next.slot.state.output = sc.slot.state.output := congrArg (·.state.output) waited.slot
    cases purpose with
    | testcaseRun => exact still stage rfl rfl state
    | editorRun | selection => exact .clears (by rw [stage]; rfl) (by simp [proceed, waited.slot])
  | launched stage =>
    exact .begins stage (by rw [launch_job]; rfl) rfl (quiet (by rw [stage]; rfl)) (by rw [launch_slot]; rfl)
  | stoppedEarly stage =>
    refine .ends [] (by rw [stage]; rfl) (by rw [stage]; rfl) rfl (by simp [Scene.traffic]) ?_
    exact finishInterrupted_output _
  | pausedEarly stage =>
    exact .goesOn [] (by rw [stage]; rfl) rfl (by rw [stage]; rfl) (by simp [Scene.traffic]) rfl
  | @started l stage =>
    refine .goesOn [.engine (call l)] (by rw [stage]; rfl) rfl (by rw [stage]; rfl) ?_ ?_
    · unfold call
      split <;> simp [Scene.traffic]
    · unfold call
      split <;> rfl
  | @ended l lines result stage polled =>
    refine .ends [.engine (.poll lines)] (by rw [stage]; rfl) (by rw [stage]; rfl) rfl (by simp [Scene.traffic]) ?_
    rw [List.flatMap_singleton]
    exact finish_output ..
  | @stopped l lines run wake number rest stage =>
    refine .ends [.engine (.poll lines)] (by rw [stage]; rfl) (by rw [stage]; rfl) rfl (by simp [Scene.traffic]) ?_
    rw [List.flatMap_singleton]
    exact finishInterrupted_output _
  | @paused l lines _ _ _ _ stage | @unheard l lines _ _ stage | @running l lines _ _ stage =>
    refine .goesOn [.engine (.poll lines)] (by rw [stage]; rfl) rfl (by rw [stage]; rfl) (by simp [Scene.traffic]) ?_
    rw [List.flatMap_singleton]
    rfl

end Job

/-! ## A run under way -/

theorem Stage.owning_of_atEngine {stage : Stage E} (atEngine : stage.isAtEngine = true) : stage.place = .owning := by
  cases stage <;> first | rfl | cases atEngine

theorem Stage.not_atEngine {stage : Stage E} (outside : stage.place ≠ .owning) : stage.isAtEngine = false := by
  cases stage <;> first | rfl | exact absurd rfl outside

theorem Stage.unended_of_atEngine {stage : Stage E} (atEngine : stage.isAtEngine = true) : stage.ended? = none := by
  cases stage <;> first | rfl | cases atEngine

theorem Edit.apply_output (e : Edit) (state : WorkspaceState) : (e.apply state).output = state.output := by
  cases e <;> rfl

/-- What is heard of the engine in a step that begins with nothing heard. -/
theorem Stride.written_of {s : Stride E} {calls : List (Effect E)} (heard : s.made.scene.traffic = calls) :
    s.written = calls.flatMap Effect.written := by
  rw [Stride.written, ← Stride.written_traffic]
  exact congrArg (List.flatMap Effect.written) heard

/-- What a step that has been made does to the output. -/
theorem Stride.Made.prints {s : Stride E} (made : s.Made) :
    ∃ asked, Job.Prints { slot := s.slot, asked := asked } s.job s.made := by
  obtain ⟨h, id, asked, -, step⟩ := made
  exact ⟨asked, step ▸ (Job.step_rule h id { slot := s.slot, asked := asked } s.job).prints⟩

/-- A run of a job's is under way: the entries that were there when it began, and what it has written. -/
structure Site.Logs (s : Site E) (id : JobId) (mode : Mode) (start : List OutputEntry) (ls : List String) : Prop where
  run : ∃ job, s.job? id = some job ∧ job.stage.isAtEngine = true ∧ job.stage.mode? = some mode
  during : s.slot.state.output.During start ls

/-- No run is under way. -/
def Site.Between (s : Site E) : Prop := ∀ id job, s.job? id = some job → job.stage.isAtEngine = false

/-- A run begins behind what is there. -/
theorem Site.take_logs (s : Site E) (id : JobId) {a : Advance E} {l : Launch E} {mode : Mode}
    (stage : a.job.stage = .starting l) (own : l.mode = mode)
    (output : a.scene.slot.state.output = s.slot.state.output.beginRun) :
    (s.take id a).Logs id mode s.slot.state.output.entries [] where
  run := ⟨a.job, s.take_own .., by rw [stage]; rfl, by rw [stage, ← own]; rfl⟩
  during := by
    rw [take_slot, output]
    exact OutputLog.beginRun_during _

/-- A job that has no run under way after its step, when no other has one, leaves none under way. -/
theorem Site.take_between {s : Site E} {id : JobId} {a : Advance E} (own : a.job.stage.isAtEngine = false)
    (others : ∀ j job, j ≠ id → s.job? j = some job → job.stage.isAtEngine = false) : (s.take id a).Between := by
  intro j other there
  by_cases same : j = id
  · subst same
    cases (s.take_own ..).symm.trans there
    exact own
  · exact others j other same ((s.take_other a same).symm.trans there)

namespace Hub

variable {hub : Hub E} {w : WorkspaceId} {s next : Site E} {id : JobId} {mode : Mode} {start : List OutputEntry}
  {ls : List String}

/-- What becomes of a run in a move: it writes on, or comes to its end, in a step of its own job; otherwise it is
left as it is. -/
theorem Happens.logs {m : Move} (happens : hub.Happens w s m next) (owned : s.Owned) (kept : m ≠ .clearOutput w)
    (logs : s.Logs id mode start ls) :
    (hub.stride? w id m = none ∧ next.Logs id mode start ls) ∨
    ∃ step, hub.stride? w id m = some step ∧
      (step.ended? = none ∧ next.Logs id mode start (ls ++ step.written) ∨
        ∃ o, step.ended? = some (mode, o) ∧ next.Between ∧
          next.slot.state.output.entries = start ++ o.closing (ls ++ step.written)) := by
  obtain ⟨job, own, atEngine, run⟩ := logs.run
  have held := owned.owner own (Stage.owning_of_atEngine atEngine)
  cases happens with
  | still still => exact .inl ⟨stride?_of_strideAt? still, logs⟩
  | edit e => exact .inl ⟨rfl, logs.run, (e.apply_output _).symm ▸ logs.during⟩
  | clearOutput => exact absurd rfl kept
  | signal sig => exact .inl ⟨rfl, logs.run, logs.during⟩
  | submit j operation free =>
    refine .inl ⟨rfl, ⟨job, (if_neg ?_).trans own, atEngine, run⟩, logs.during⟩
    rintro rfl
    cases free.symm.trans own
  | @step j other a now known made took =>
    have rule := made ▸ Job.step_rule (hub.house now) j { slot := s.slot, asked := hub.asked } other
    by_cases same : j = id
    · subst same
      cases own.symm.trans known
      refine .inr ⟨_, took, ?_⟩
      cases rule.prints with
      | aside aside | clears aside => cases aside.symm.trans atEngine
      | begins ready => simp [ready, Stage.isAtEngine] at atEngine
      | goesOn calls _ later still heard output =>
        rw [Stride.written_of heard]
        refine .inl ⟨Stage.unended_of_atEngine later, ⟨a.job, s.take_own .., later, still.trans run⟩, ?_⟩
        rw [Site.take_slot, output]
        exact logs.during.appendLines _
      | @ends mode' o calls _ run' ended heard output =>
        cases run.symm.trans run'
        rw [Stride.written_of heard]
        refine .inr ⟨o, congrArg Stage.ended? ended, Site.take_between (by rw [ended]; rfl) ?_, ?_⟩
        · exact fun _ _ other there => Stage.not_atEngine (owned.bystander held other there).2
        · rw [Site.take_slot, output]
          exact o.close_entries (logs.during.appendLines _)
    · obtain ⟨unadmitted, outside⟩ := owned.bystander held same known
      refine .inl ⟨by simp [stride?, same], ⟨job, (s.take_other a (Ne.symm same)).trans own, atEngine, run⟩, ?_⟩
      rw [Site.take_slot, (rule.bystander unadmitted outside).1]
      exact logs.during

end Hub

/-! ## What stays -/

/-- It is told in a step that the output is cleared. -/
def Stride.Clears (s : Stride E) : Prop := .event ⟨s.slot.id, .outputCleared⟩ ∈ s.made.scene.effects

/-- What was there stands at the beginning of the output, before anything that a run under way has written. -/
inductive Site.Keeps (base : List OutputEntry) (s : Site E) : Prop
  | between (between : s.Between) (kept : base <+: s.slot.state.output.entries)
  | under {id : JobId} {mode : Mode} {start : List OutputEntry} {ls : List String} (logs : s.Logs id mode start ls)
    (kept : base <+: start)

theorem Site.Keeps.kept {base : List OutputEntry} {s : Site E} (keeps : s.Keeps base) :
    base <+: s.slot.state.output.entries := by
  cases keeps with
  | between _ kept => exact kept
  | under logs kept =>
    rw [logs.during.entries]
    exact kept.trans (List.prefix_append ..)

namespace Hub

variable {hub : Hub E} {w : WorkspaceId} {s next : Site E} {base : List OutputEntry} {id : JobId} {mode : Mode}
  {start : List OutputEntry} {ls : List String}

/-- Unless it clears the output, a move adds to it. -/
theorem Happens.keeps {m : Move} (happens : hub.Happens w s m next) (owned : s.Owned) (kept : m ≠ .clearOutput w)
    (uncleared : ∀ step, hub.strideAt? w m = some step → ¬ step.Clears) (keeps : s.Keeps base) : next.Keeps base := by
  cases keeps with
  | @under id mode start ls logs below =>
    rcases happens.logs owned kept logs with ⟨-, later⟩ | ⟨step, -, ⟨-, later⟩ | ⟨o, -, between, entries⟩⟩
    · exact .under later below
    · exact .under later below
    · exact .between between (entries ▸ below.trans (List.prefix_append ..))
  | between between below =>
    cases happens with
    | still | signal => exact .between between below
    | edit e => exact .between between ((e.apply_output _).symm ▸ below)
    | clearOutput => exact absurd rfl kept
    | submit id operation =>
      refine .between (fun j job known => ?_) below
      dsimp only at known
      split at known
      · cases known
        rfl
      · exact between j job known
    | @step id job a now known made took =>
      have rule := made ▸ Job.step_rule (hub.house now) id { slot := s.slot, asked := hub.asked } job
      cases rule.prints with
      | aside _ later _ _ entries =>
        exact .between (Site.take_between later fun j other _ => between j other) (below.trans ⟨_, entries.symm⟩)
      | clears _ told => exact absurd told (uncleared _ took)
      | begins _ stage own _ output => exact .under (s.take_logs id stage own output) below
      | goesOn _ atEngine | ends _ atEngine => cases (between id job known).symm.trans atEngine

/-- Unless it clears the output, a move brings to the console what is written in it, and nothing else. -/
theorem Happens.console {m : Move} (happens : hub.Happens w s m next) (kept : m ≠ .clearOutput w)
    (uncleared : ∀ step, hub.strideAt? w m = some step → ¬ step.Clears) :
    next.slot.state.output.lines =
      s.slot.state.output.lines ++ (hub.strideAt? w m).toList.flatMap Stride.written := by
  cases happens with
  | still still => simp [still]
  | edit e => simp [strideAt?, e.apply_output]
  | clearOutput => exact absurd rfl kept
  | signal | submit => simp [strideAt?]
  | @step id job a now known made took =>
    have rule := made ▸ Job.step_rule (hub.house now) id { slot := s.slot, asked := hub.asked } job
    rw [took, Option.toList_some, List.flatMap_singleton, Site.take_slot]
    cases rule.prints with
    | aside _ _ calls silent entries =>
      rw [Stride.written_of calls, OutputLog.lines, entries, List.flatMap_append, silent]
      rfl
    | clears _ told => exact absurd told (uncleared _ took)
    | begins _ _ _ calls output =>
      rw [Stride.written_of calls, output]
      exact (List.append_nil _).symm
    | goesOn calls _ _ _ heard output => rw [Stride.written_of heard, output, OutputLog.appendLines_lines]; rfl
    | ends calls _ _ _ heard output =>
      rw [Stride.written_of heard, output, Outcome.close_lines, OutputLog.appendLines_lines]
      rfl

/-! ## Courses of moves -/

/-- Until it comes to its end a run goes on collecting what it writes. -/
theorem Reachable.logs (reached : hub.Reachable) (here : hub.site? w = some s) (logs : s.Logs id mode start ls)
    {moves : List Move} (kept : .clearOutput w ∉ moves)
    (unended : ∀ step ∈ hub.strides w id moves, step.ended? = none) :
    ∃ last, (hub.after moves).site? w = some last ∧
      last.Logs id mode start (ls ++ (hub.strides w id moves).flatMap Stride.written) := by
  induction moves generalizing hub s ls with
  | nil => exact ⟨s, here, by simpa [strides] using logs⟩
  | cons m moves ih =>
    obtain ⟨next, there, happens⟩ := reached.happens here m
    have kept' : .clearOutput w ∉ moves := fun later => kept (.tail _ later)
    have unended' : ∀ step ∈ (hub.move m).strides w id moves, step.ended? = none :=
      fun step later => unended step (List.mem_append_right _ later)
    rcases happens.logs (reached.owned here) (fun same => kept (same ▸ .head _)) logs with
      ⟨still, later⟩ | ⟨step, took, ⟨-, later⟩ | ⟨o, ended, -⟩⟩
    · simpa [strides, still] using ih (reached.move m) there later kept' unended'
    · simpa [strides, took] using ih (reached.move m) there later kept' unended'
    · cases (unended step (by simp [strides, took])).symm.trans ended

/-- As long as the output is not cleared it only grows, by what is written. -/
theorem Reachable.keeps (reached : hub.Reachable) (here : hub.site? w = some s) (keeps : s.Keeps base)
    {moves : List Move} (kept : .clearOutput w ∉ moves) (uncleared : ∀ step ∈ hub.history w moves, ¬ step.Clears) :
    ∃ last, (hub.after moves).site? w = some last ∧ last.Keeps base := by
  induction moves generalizing hub s with
  | nil => exact ⟨s, here, keeps⟩
  | cons m moves ih =>
    obtain ⟨next, there, happens⟩ := reached.happens here m
    have later := happens.keeps (reached.owned here) (fun same => kept (same ▸ .head _))
      (fun step took => uncleared step (List.mem_append_left _ (Option.mem_toList.2 took))) keeps
    exact ih (reached.move m) there later (fun later => kept (.tail _ later))
      fun step later => uncleared step (List.mem_append_right _ later)

/-- As long as the output is not cleared, what is written comes to the console, once and in its order. -/
theorem Reachable.console (reached : hub.Reachable) (here : hub.site? w = some s) {moves : List Move}
    (kept : .clearOutput w ∉ moves) (uncleared : ∀ step ∈ hub.history w moves, ¬ step.Clears) :
    ∃ last, (hub.after moves).site? w = some last ∧
      last.slot.state.output.lines = s.slot.state.output.lines ++ (hub.history w moves).flatMap Stride.written := by
  induction moves generalizing hub s with
  | nil => exact ⟨s, here, (List.append_nil _).symm⟩
  | cons m moves ih =>
    obtain ⟨next, there, happens⟩ := reached.happens here m
    have console := happens.console (fun same => kept (same ▸ .head _))
      fun step took => uncleared step (List.mem_append_left _ (Option.mem_toList.2 took))
    obtain ⟨last, end_, rest⟩ := ih (reached.move m) there (fun later => kept (.tail _ later))
      fun step later => uncleared step (List.mem_append_right _ later)
    exact ⟨last, end_, by rw [rest, console, history, List.flatMap_append, List.append_assoc]⟩

/-- What a step tells of a workspace it tells for a reason. -/
theorem Reachable.speaks (reached : hub.Reachable) {now : Nat} {occ : Occurrence}
    (told : .event ⟨w, occ⟩ ∈ (hub.step now id).2) :
    ∃ s job, hub.site? w = some s ∧ s.job? id = some job ∧
      let sc : Scene E := { slot := s.slot, asked := hub.asked }
      let a := Job.step (hub.house now) id sc job
      (hub.move (.step id now)).site? w = some (s.take id a) ∧ .event ⟨w, occ⟩ ∈ a.scene.effects ∧
        Job.Speaks (hub.house now) sc job a occ := by
  obtain ⟨v, s, job, here, known⟩ := step_tells told
  obtain ⟨there, seen⟩ := step_own reached.sound here known now
  rw [seen] at told
  have rule := Job.step_rule (hub.house now) id { slot := s.slot, asked := hub.asked } job
  obtain ⟨name, speaks⟩ := rule.speaks_of_told rfl told
  obtain rfl : w = v := name.trans (reached.sound.keyed (site?_eq_some.1 here).1)
  exact ⟨s, job, here, known, there, told, speaks⟩

/-! ## The theorem -/

/-- A run of a mode, begun by a job at a time, goes on through some moves: it does not come to its end, and the
output is not cleared from outside. -/
structure GoesThrough (hub : Hub E) (w : WorkspaceId) (id : JobId) (mode : Mode) (time : Nat) (moves : List Move) :
    Prop where
  started : .event ⟨w, .runStarted mode⟩ ∈ (hub.step time id).2
  unended : ∀ step ∈ (hub.move (.step id time)).strides w id moves, step.ended? = none
  kept : .clearOutput w ∉ moves

/-- A step that tells so begins a run. -/
theorem Reachable.starts (reached : hub.Reachable) {time : Nat}
    (started : .event ⟨w, .runStarted mode⟩ ∈ (hub.step time id).2) :
    ∃ before s, hub.state w = .ok before ∧ (hub.move (.step id time)).site? w = some s ∧
      s.Logs id mode before.output.entries [] := by
  obtain ⟨s, job, here, -, there, -, speaks⟩ := reached.speaks started
  cases speaks with
  | runStarted stage launched =>
    have starting := (congrArg Advance.job launched).trans (Job.launch_job ..)
    refine ⟨s.slot.state, _, site?_state here, there, s.take_logs id (congrArg Job.stage starting) rfl ?_⟩
    rw [launched, Job.launch_slot]
    rfl

/-- A step that tells so brings a run to its end. -/
theorem Reachable.completes (reached : hub.Reachable) (here : hub.site? w = some s) (logs : s.Logs id mode start ls)
    {now : Nat} {told : Mode} {kind : OutcomeKind}
    (completed : .event ⟨w, .runCompleted told kind⟩ ∈ (hub.step now id).2) :
    ∃ last o after, hub.stride? w id (.step id now) = some last ∧ last.Ends mode o ∧ told = mode ∧ kind = o.kind ∧
      (hub.move (.step id now)).state w = .ok after ∧
      after.output.entries = start ++ o.closing (ls ++ last.written) := by
  obtain ⟨job, known, -⟩ := logs.run
  obtain ⟨-, seen⟩ := step_own reached.sound here known now
  rw [seen] at completed
  have rule := Job.step_rule (hub.house now) id { slot := s.slot, asked := hub.asked } job
  obtain ⟨-, speaks⟩ := rule.speaks_of_told rfl completed
  have took : hub.stride? w id (.step id now) = some ⟨now, s.slot, job,
      Job.step (hub.house now) id { slot := s.slot, asked := hub.asked } job⟩ := by
    simp [stride?, here, known]
  obtain ⟨next, there, happens⟩ := reached.happens here (.step id now)
  obtain ⟨-, -, -, -, made⟩ := stride?_eq_some took
  have distinct : Move.step id now ≠ .clearOutput w := by
    intro same
    cases same
  cases speaks with
  | @runCompleted _ o concluded =>
    have ended := congrArg Stage.ended? concluded
    rcases happens.logs (reached.owned here) distinct logs with ⟨still, -⟩ | ⟨step, same, later⟩
    · cases still.symm.trans took
    · cases took.symm.trans same
      rcases later with ⟨unended, -⟩ | ⟨o', own, -, entries⟩
      · cases unended.symm.trans ended
      · cases own.symm.trans ended
        exact ⟨_, o, next.slot.state, took, (made.ends ended).1, rfl, rfl, site?_state there, entries⟩

/-- Whatever the output held before, a run adds to it what it has written and what it comes to, and nothing else.
As long as the output is not cleared, what is written in a workspace comes to the console once and in its order,
and what stands there while no run is under way stays as it is. -/
theorem Reachable.attribution (reached : hub.Reachable) (w : WorkspaceId) :
    (∀ id mode time moves, hub.GoesThrough w id mode time moves →
      let begun := hub.move (.step id time)
      let lines := (begun.strides w id moves).flatMap Stride.written
      ∃ before during, hub.state w = .ok before ∧ (begun.after moves).state w = .ok during ∧
        during.output.entries = before.output.entries ++ OutputLog.collected lines ∧
        ∀ now told kind, .event ⟨w, .runCompleted told kind⟩ ∈ ((begun.after moves).step now id).2 →
          ∃ last o after, (begun.after moves).stride? w id (.step id now) = some last ∧ last.Ends mode o ∧
            told = mode ∧ kind = o.kind ∧ ((begun.after moves).move (.step id now)).state w = .ok after ∧
            after.output.entries = before.output.entries ++ o.closing (lines ++ last.written)) ∧
    ∀ moves before after, hub.state w = .ok before → (hub.after moves).state w = .ok after →
      .clearOutput w ∉ moves → (∀ step ∈ hub.history w moves, ¬ step.Clears) →
        after.output.lines = before.output.lines ++ (hub.history w moves).flatMap Stride.written ∧
        ((∀ id job, hub.jobOn? w id = some job → job.stage.isAtEngine = false) →
          before.output.entries <+: after.output.entries) := by
  constructor
  · intro id mode time moves goes begun lines
    obtain ⟨before, s, opened, there, logs⟩ := reached.starts goes.started
    have later := reached.move (.step id time)
    obtain ⟨last, here, during⟩ := later.logs there logs goes.kept goes.unended
    rw [List.nil_append] at during
    refine ⟨before, last.slot.state, opened, site?_state here, during.during.entries, fun now told kind completed => ?_⟩
    exact (later.after moves).completes here during completed
  · intro moves before after opened closed kept uncleared
    obtain ⟨s, here, rfl⟩ := site?_of_state opened
    obtain ⟨last, there, console⟩ := reached.console here kept uncleared
    cases (site?_state there).symm.trans closed
    refine ⟨console, fun between => ?_⟩
    have idle : s.Between := fun id job known => between id job ((site?_eq_some.1 here).2 ▸ known)
    obtain ⟨own, there', keeps⟩ := reached.keeps here (.between idle (List.prefix_refl _)) kept uncleared
    cases there.symm.trans there'
    exact keeps.kept

end Hub

/-! ### A run after one that was interrupted -/

/-- A run that was interrupted has left its lines at the end of the output, and the text handed in beside it is
about to be run. -/
def trailing : Hub Directive.engine :=
  (Hub.create {} .bundled).1.after
    ([.edit .playground (.editorValue "log a\nhang"), .edit .playground (.replValue "log b\nsleep 5\nlog c\nfinish 2"),
        .submit 0 .playground (.evaluate .editorRun)] ++ List.replicate 8 (.step 0 0) ++
      [.signal .playground .interrupt] ++ List.replicate 3 (.step 0 0) ++
      [.submit 1 .playground (.evaluate .replRun)] ++ List.replicate 4 (.step 1 0))

/-- The run is started and writes something; meanwhile another is asked for. -/
def trailingRun : List Move := [.step 1 0, .submit 2 .playground .runAll, .step 1 0, .step 2 0]

theorem trailing_reachable : trailing.Reachable := by
  unfold trailing
  exact (Hub.Reachable.create {} .bundled).after _

theorem trailing_starts : .event ⟨.playground, .runStarted .replRun⟩ ∈ (trailing.step 0 1).2 :=
  mem_of_event (by decide +kernel)

theorem trailing_completes : .event ⟨.playground, .runCompleted .replRun .finished⟩ ∈
    (((trailing.move (.step 1 0)).after trailingRun).step 5 1).2 :=
  mem_of_event (by decide +kernel)

theorem trailing_goes : trailing.GoesThrough .playground 1 .replRun 0 trailingRun where
  started := trailing_starts
  unended := by
    have none : ((trailing.move (.step 1 0)).strides .playground 1 trailingRun).all (·.ended?.isNone) = true := by
      decide +kernel
    exact fun step here => Option.isNone_iff_eq_none.1 (List.all_eq_true.1 none step here)
  kept := by simp [trailingRun]

theorem trailing_uncleared :
    ∀ step ∈ trailing.history .playground (.step 1 0 :: trailingRun ++ [.step 1 5]), ¬ step.Clears := by
  have silent : (trailing.history .playground (.step 1 0 :: trailingRun ++ [.step 1 5])).all
      (fun step => !step.made.scene.told.contains ⟨step.slot.id, .outputCleared⟩) = true := by
    decide +kernel
  intro step here clears
  have told : (⟨step.slot.id, .outputCleared⟩ : Event) ∈ step.made.scene.told :=
    List.mem_filterMap.2 ⟨_, clears, rfl⟩
  have untold := List.all_eq_true.1 silent step here
  simp [told] at untold

/-- The lines of the interrupted run stay where they are, and the run has its own. -/
theorem attribution_of_trailing :
    trailing.Reachable ∧ trailing.GoesThrough .playground 1 .replRun 0 trailingRun ∧
      ∃ (before after : WorkspaceState) (o : Outcome), trailing.state .playground = .ok before ∧
        before.output.lines = ["a"] ∧ o.kind = .finished ∧
        (((trailing.move (.step 1 0)).after trailingRun).move (.step 1 5)).state .playground = .ok after ∧
        after.output.entries = before.output.entries ++ o.closing ["b", "c"] ∧
        before.output.entries <+: after.output.entries := by
  obtain ⟨runs, stays⟩ := trailing_reachable.attribution .playground
  obtain ⟨before, during, opened, -, -, completes⟩ := runs 1 .replRun 0 trailingRun trailing_goes
  obtain ⟨last, o, after, took, -, -, kind, closed, entries⟩ := completes 5 _ _ trailing_completes
  have first : ((trailing.move (.step 1 0)).strides .playground 1 trailingRun).flatMap Stride.written = ["b"] := by
    decide +kernel
  have second : (((trailing.move (.step 1 0)).after trailingRun).stride? .playground 1 (.step 1 5)).any
      (·.written = ["c"]) = true := by
    decide +kernel
  have left : (trailing.site? .playground).any (·.slot.state.output.lines = ["a"]) = true := by decide +kernel
  have idle : trailing.tasks.entries.all (fun e => !e.2.job.stage.isAtEngine) = true := by decide +kernel
  rw [took] at second
  obtain ⟨s, here, lines⟩ := (Option.any_eq_true _ _).1 left
  cases (Hub.site?_state here).symm.trans opened
  rw [first, of_decide_eq_true second] at entries
  obtain ⟨-, kept⟩ := stays (.step 1 0 :: trailingRun ++ [.step 1 5]) _ after opened
    (by rw [← closed]; rfl) (by simp [trailingRun]) trailing_uncleared
  have between : ∀ id job, trailing.jobOn? .playground id = some job → job.stage.isAtEngine = false := by
    intro id job known
    simpa using Hub.jobs_of_all (fun job => !job.stage.isAtEngine) idle known
  exact ⟨trailing_reachable, trailing_goes, _, after, o, opened, of_decide_eq_true lines, kind.symm, closed, entries,
    kept between⟩

end Workbench
