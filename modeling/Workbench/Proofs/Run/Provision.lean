/-
Testcases that a job is about, and that stay.

Only an edit exchanges the testcases of a workspace, and no step adds one or
takes one away. So as long as nobody exchanges them a job finds the testcases
that it was handed in for, or began its batch with (`Hub.Furnished`).
-/
import Workbench.Proofs.Run.Abort
import Workbench.Proofs.Run.Stride

namespace Workbench

variable {E : Engine}

theorem modify_programs (ts : List Testcase) (i : Nat) (v : Verdict) :
    (ts.modify i ({ · with result := v })).map (·.program) = ts.map (·.program) := by
  apply List.ext_getElem?
  intro k
  rw [List.getElem?_map, List.getElem?_map, List.getElem?_modify]
  cases ts[k]? with
  | none => rfl
  | some t => by_cases own : i = k <;> simp [own]

/-! ## One job -/

namespace Job

variable {h : House} {id : JobId} {sc : Scene E} {job : Job E} {a : Advance E}

/-- Only the run of a testcase is recorded. -/
theorem finish_unrecorded {l : Live E} (other : ∀ i, l.mode ≠ .testcaseRun i) (result : RunResult E.Snapshot) :
    (finish h sc l result).1.slot.state.testcases = sc.slot.state.testcases := by
  cases mode : l.mode with
  | testcaseRun i => exact absurd mode (other i)
  | editorRun | replRun | debugResume =>
    cases result with
    | finished | failed =>
      simp only [finish, mode]
      rfl
    | suspended =>
      simp only [finish, mode, Scene.finishSuspended_slot]
      split <;> rfl

theorem finishInterrupted_unrecorded {mode : Mode} (other : ∀ i, mode ≠ .testcaseRun i) :
    (sc.finishInterrupted h mode).1.slot.state.testcases = sc.slot.state.testcases := by
  cases mode with
  | testcaseRun i => exact absurd rfl (other i)
  | _ => rfl

/-- A step that resets a testcase: its program is read. -/
structure Resets (h : House) (sc : Scene E) (job : Job E) (a : Advance E) (i : Nat) (own : Testcase) : Prop where
  stage : job.stage = .preparing (.testcaseRun i)
  known : sc.slot.state.testcases[i]? = some own
  made : a =
    { scene := (sc.onState (·.resetTestcase i)).occur (.testcaseReset i)
      job := job.load h (.testcaseRun i own.program) }

/-- A step leaves the testcases as they are, or resets one, or brings its run to its end and records the result. -/
theorem Rule.testcases (rule : Rule h id sc job a) :
    a.scene.slot.state.testcases = sc.slot.state.testcases ∨ (∃ i own, Resets h sc job a i own) ∨
      ∃ i o, job.stage.Handles i ∧ a.job.stage.ended? = some (.testcaseRun i, o) ∧
        a.scene.slot.state.testcases = sc.slot.state.testcases.modify i ({ · with result := o.verdict }) := by
  cases rule with
  | @ended l lines result stage =>
    by_cases testcase : ∃ i, l.mode = .testcaseRun i
    · obtain ⟨i, mode⟩ := testcase
      refine .inr (.inr ⟨i, _, by rw [stage]; exact mode, ?_, (finish_testcase mode result).1⟩)
      rw [← mode]
      rfl
    · exact .inl (finish_unrecorded (fun i mode => testcase ⟨i, mode⟩) result)
  | @stopped l _ _ _ _ _ stage | @stoppedEarly l _ _ stage =>
    by_cases testcase : ∃ i, l.mode = .testcaseRun i
    · obtain ⟨i, mode⟩ := testcase
      refine .inr (.inr ⟨i, .interrupted, by rw [stage]; exact mode, ?_, (finishInterrupted_testcase mode).1⟩)
      rw [← mode]
      rfl
    · exact .inl (finishInterrupted_unrecorded fun i mode => testcase ⟨i, mode⟩)
  | testcase stage known => exact .inr (.inl ⟨_, _, stage, known, rfl⟩)
  | enqueued => exact .inl (by rw [enqueue_slot])
  | left => exact .inl (by rw [leave_slot])
  | cutShort | aborted | completed => exact .inl (by rw [endBatch_slot])
  | launched => exact .inl (by rw [launch_slot]; rfl)
  | chapter | library =>
    rw [Scene.forgetShown_slot]
    split <;> exact .inl rfl
  | gradedEmpty | gradedBegun =>
    exact .inl (by simp only [Scene.occur_slot, Scene.sayBriefly_slot, refusePause_slot])
  | @loaded purpose wait next stage waited =>
    rw [← waited.slot]
    cases purpose <;> exact .inl rfl
  | _ => exact .inl rfl

/-- No step changes the programs. -/
theorem Rule.programs (rule : Rule h id sc job a) :
    a.scene.slot.state.testcases.map (·.program) = sc.slot.state.testcases.map (·.program) := by
  rcases rule.testcases with same | ⟨i, own, resets⟩ | ⟨i, o, -, -, recorded⟩
  · rw [same]
  · rw [resets.made]
    exact modify_programs ..
  · rw [recorded]
    exact modify_programs ..

/-- No step adds a testcase or takes one away. -/
theorem Rule.testcases_length (rule : Rule h id sc job a) :
    a.scene.slot.state.testcases.length = sc.slot.state.testcases.length := by
  simpa using congrArg List.length rule.programs

/-- What is asked of a job does not change. -/
theorem Rule.operation_eq (rule : Rule h id sc job a) : a.job.operation = job.operation := by
  cases rule with
  | @loaded purpose => cases purpose <;> rfl
  | _ => rfl

/-- The testcases that a job is about are among so many. -/
structure Furnished (count : Nat) (job : Job E) : Prop where
  single : ∀ i, job.operation = .evaluate (.testcaseRun i) → job.stage = .submitted ∨ job.Over ∨ i < count
  batch : ∀ b, job.batch = some b → b.total ≤ count

theorem Furnished.of_untouched {count : Nat} (untouched : Site.Untouched job) : job.Furnished count where
  single := fun i _ => untouched.2.2.imp_right fun refused => by
    obtain ⟨_, stage⟩ := refused
    exact .inl ⟨_, .inr stage⟩
  batch := fun b under => by cases untouched.2.1.symm.trans under

theorem Rule.furnished (rule : Rule h id sc job a) (furnished : job.Furnished sc.slot.state.testcases.length) :
    a.job.Furnished a.scene.slot.state.testcases.length := by
  rw [rule.testcases_length]
  constructor
  · intro i operation
    rw [rule.operation_eq] at operation
    rcases furnished.single i operation with stage | past | known
    · cases rule with
      | refused => exact .inr (.inl ⟨_, .inr rfl⟩)
      | enqueued _ allowed =>
        have within := allowed _ operation
        simp only [refusal?] at within
        split at within
        · next known => exact .inr (.inr known)
        · cases within
      | _ => simp_all
    · exact .inr (.inl (rule.over_kept past))
    · exact .inr (.inr known)
  · cases rule with
    | allBegun | gradedBegun =>
      rintro _ ⟨⟩
      exact Nat.le_refl _
    | @next _ _ batch _ under =>
      rintro _ ⟨⟩
      exact furnished.batch batch under
    | @loaded purpose => cases purpose <;> exact furnished.batch
    | _ => exact furnished.batch

/-- What the job prepares is there, except that there may be no run to resume. -/
def Provided (slot : Slot E) (job : Job E) : Prop :=
  ∀ mode r, job.stage = .preparing mode → refusal? slot mode = some r → mode = .debugResume

/-- The testcase that a run is about is there. -/
theorem Orderly.within (orderly : job.Orderly) {count : Nat} (furnished : job.Furnished count) {i : Nat}
    (run : job.stage.mode? = some (.testcaseRun i)) : i < count := by
  cases under : job.batch with
  | some batch =>
    obtain ⟨place | ⟨reply, past | past⟩, inside, -⟩ := orderly.batch batch under
    · cases place.symm.trans run
      exact Nat.lt_of_lt_of_le inside (furnished.batch batch under)
    · simp [past, Stage.mode?] at run
    · simp [past, Stage.mode?] at run
  | none =>
    rcases furnished.single i (orderly.alone under _ run) with stage | ⟨reply, past | past⟩ | inside
    · simp [stage, Stage.mode?] at run
    · simp [past, Stage.mode?] at run
    · simp [past, Stage.mode?] at run
    · exact inside

theorem Orderly.provided (orderly : job.Orderly) {slot : Slot E}
    (furnished : job.Furnished slot.state.testcases.length) : job.Provided slot := by
  intro mode r stage because
  cases mode with
  | debugResume => rfl
  | testcaseRun i =>
    have inside := orderly.within furnished (i := i) (by rw [stage]; rfl)
    simp [refusal?, inside] at because
  | editorRun | replRun => cases because

end Job

/-! ## Courses of moves -/

theorem Site.Step.testcases_length {settings : Settings} {s next : Site E} {c : Cause} (step : s.Step settings c next)
    (kept : ∀ ts, c ≠ .edit (.testcases ts)) : next.slot.state.testcases.length = s.slot.state.testcases.length := by
  cases step with
  | edit e => rw [Edit.apply_testcases fun ts same => kept ts (congrArg Cause.edit same)]
  | step h _ asked id job => exact (Job.step_rule h id { slot := s.slot, asked := asked } job).testcases_length
  | _ => rfl

namespace Hub

variable {hub : Hub E} {w : WorkspaceId} {s next : Site E} {id : JobId} {job : Job E}

theorem Reachable.testcases_length (reached : hub.Reachable) (here : hub.site? w = some s) {m : Move}
    (there : (hub.move m).site? w = some next) (kept : ∀ ts, m ≠ .edit w (.testcases ts)) :
    next.slot.state.testcases.length = s.slot.state.testcases.length := by
  obtain ⟨own, moved, rfl | ⟨c, cause, step⟩⟩ := move_site reached.sound m here
  · cases moved.symm.trans there
    rfl
  · cases moved.symm.trans there
    refine step.testcases_length ?_
    rintro ts rfl
    cases cause
    exact kept ts rfl

/-- The testcases that a job is about are there, once it is handed in. -/
def Furnished (hub : Hub E) (w : WorkspaceId) (id : JobId) : Prop :=
  ∀ s job, hub.site? w = some s → s.job? id = some job → job.Furnished s.slot.state.testcases.length

theorem Furnished.of_free (free : hub.tasks.contains id = false) : hub.Furnished w id := by
  intro s job here known
  rw [(site?_eq_some.1 here).2, jobOn?_eq_some] at known
  simp [Table.contains, known] at free

theorem Furnished.move (reached : hub.Reachable) (furnished : hub.Furnished w id) {m : Move}
    (kept : ∀ ts, m ≠ .edit w (.testcases ts)) : (hub.move m).Furnished w id := by
  intro next job there known
  cases here : hub.site? w with
  | none => exact .of_untouched ((move_closed reached.sound m here).2 id job ((site?_eq_some.1 there).2 ▸ known))
  | some s =>
    have same := reached.testcases_length here there kept
    obtain ⟨_, moved, rfl | ⟨c, cause, step⟩⟩ := move_site reached.sound m here
    · cases moved.symm.trans there
      exact furnished _ job here known
    · cases moved.symm.trans there
      cases step with
      | edit | clearOutput | signal =>
        rw [same]
        exact furnished s job here known
      | submit j operation free =>
        dsimp only at known
        split at known
        · cases known
          exact .of_untouched ⟨rfl, rfl, .inl rfl⟩
        · exact furnished s job here known
      | step h _ asked j other theirs =>
        by_cases own : id = j
        · subst own
          cases (s.take_own ..).symm.trans known
          exact (Job.step_rule ..).furnished (furnished s other here theirs)
        · rw [s.take_other _ own] at known
          rw [same]
          exact furnished s job here known

theorem Furnished.after {moves : List Move} (reached : hub.Reachable) (furnished : hub.Furnished w id)
    (kept : ∀ ts, .edit w (.testcases ts) ∉ moves) : (hub.after moves).Furnished w id := by
  induction moves generalizing hub with
  | nil => exact furnished
  | cons m moves ih =>
    have first := furnished.move reached (m := m) fun ts same => kept ts (same ▸ .head _)
    exact ih (reached.move m) first fun ts later => kept ts (.tail _ later)

/-- At each of its steps a job is at the run that it should be at, and the testcases that it is about are there. -/
theorem Furnished.strides {moves : List Move} (reached : hub.Reachable) (furnished : hub.Furnished w id)
    (kept : ∀ ts, .edit w (.testcases ts) ∉ moves) :
    ∀ s ∈ hub.strides w id moves, s.Made ∧ s.job.Orderly ∧ s.job.Furnished s.slot.state.testcases.length := by
  induction moves generalizing hub with
  | nil => exact fun _ here => absurd here List.not_mem_nil
  | cons m moves ih =>
    intro step here
    have first := furnished.move reached (m := m) fun ts same => kept ts (same ▸ .head _)
    rcases List.mem_append.1 here with now | later
    · obtain ⟨s, open_, slot, known, made⟩ := stride?_eq_some (Option.mem_toList.1 now)
      rw [← slot]
      exact ⟨made, (reached.attentive open_).orderly known, furnished s step.job open_ known⟩
    · exact ih (reached.move m) first (fun ts later => kept ts (.tail _ later)) step later

end Hub

end Workbench
