/-
How a batch comes along.

A batch goes through the testcases in order, and each one is reset only when its
turn comes. So at every moment the testcases are those of the beginning with the
verdicts of the runs so far in front (`Job.Batching`), whatever was recorded in
them before. Each step of the job keeps this, or brings one more verdict, or
ends the batch (`Job.Rule.batching`); nobody else has a hand in it.
-/
import Workbench.Proofs.Run.Telling

namespace Workbench

/-! ## Verdicts in order -/

/-- The testcases with the verdicts of the first of them replaced. -/
def withVerdicts (verdicts : List Verdict) (ts : List Testcase) : List Testcase :=
  ts.mapIdx fun i t => match verdicts[i]? with
    | some v => { t with result := v }
    | none => t

section

variable (verdicts : List Verdict) (ts : List Testcase)

@[simp] theorem withVerdicts_length : (withVerdicts verdicts ts).length = ts.length := by simp [withVerdicts]

theorem withVerdicts_getElem? (i : Nat) :
    (withVerdicts verdicts ts)[i]? =
      ts[i]?.map fun t => match verdicts[i]? with
        | some v => { t with result := v }
        | none => t := by
  simp [withVerdicts]

theorem withVerdicts_getElem?_lt {i : Nat} {v : Verdict} (ran : verdicts[i]? = some v) :
    (withVerdicts verdicts ts)[i]? = ts[i]?.map ({ · with result := v }) := by
  simp [withVerdicts_getElem?, ran]

theorem withVerdicts_getElem?_ge {i : Nat} (beyond : verdicts.length ≤ i) :
    (withVerdicts verdicts ts)[i]? = ts[i]? := by
  simp [withVerdicts_getElem?, List.getElem?_eq_none beyond]

@[simp] theorem withVerdicts_nil : withVerdicts [] ts = ts :=
  List.ext_getElem? fun _ => withVerdicts_getElem?_ge [] ts (Nat.zero_le _)

theorem withVerdicts_drop : (withVerdicts verdicts ts).drop verdicts.length = ts.drop verdicts.length := by
  apply List.ext_getElem?
  intro i
  rw [List.getElem?_drop, List.getElem?_drop, withVerdicts_getElem?_ge _ _ (Nat.le_add_right _ i)]

/-- A testcase has come out if its verdict came in, or if it had come out before. -/
theorem withVerdicts_decided (decided : ∀ v ∈ verdicts, v.isPending = false) (within : verdicts.length ≤ ts.length) :
    (withVerdicts verdicts ts).countP (!·.result.isPending) =
      verdicts.length + (ts.drop verdicts.length).countP (!·.result.isPending) := by
  have first : ((withVerdicts verdicts ts).take verdicts.length).countP (!·.result.isPending) =
      verdicts.length := by
    refine (List.countP_eq_length.2 fun t here => ?_).trans (by simp [within])
    obtain ⟨i, found⟩ := List.mem_iff_getElem?.1 here
    rw [List.getElem?_take] at found
    split at found
    · next ran =>
      rw [withVerdicts_getElem?_lt _ _ (List.getElem?_eq_getElem ran)] at found
      obtain ⟨_, -, rfl⟩ := Option.map_eq_some_iff.1 found
      simp [decided _ (List.getElem_mem ran)]
    · cases found
  calc (withVerdicts verdicts ts).countP (!·.result.isPending)
    _ = ((withVerdicts verdicts ts).take verdicts.length).countP (!·.result.isPending) +
        ((withVerdicts verdicts ts).drop verdicts.length).countP (!·.result.isPending) := by
      rw [← List.countP_append, List.take_append_drop]
    _ = _ := by rw [first, withVerdicts_drop]

/-- The verdict of the next testcase comes in. -/
theorem withVerdicts_next (v : Verdict) :
    (withVerdicts verdicts ts).modify verdicts.length ({ · with result := v }) =
      withVerdicts (verdicts ++ [v]) ts := by
  apply List.ext_getElem?
  intro i
  rw [List.getElem?_modify]
  rcases Nat.lt_trichotomy i verdicts.length with before | rfl | beyond
  · have same : (verdicts ++ [v])[i]? = verdicts[i]? := List.getElem?_append_left before
    simp [withVerdicts_getElem?, Nat.ne_of_gt before, same]
  · rw [withVerdicts_getElem?_ge _ _ (Nat.le_refl _), withVerdicts_getElem?_lt _ _ List.getElem?_concat_length]
    simp
  · rw [withVerdicts_getElem?_ge _ _ (Nat.le_of_lt beyond), withVerdicts_getElem?_ge _ _ (by simp; omega)]
    simp [Nat.ne_of_lt beyond]

/-- The last verdict is replaced by another. -/
theorem withVerdicts_last (u v : Verdict) :
    (withVerdicts (verdicts ++ [u]) ts).modify verdicts.length ({ · with result := v }) =
      withVerdicts (verdicts ++ [v]) ts := by
  rw [← withVerdicts_next, List.modify_modify_eq]
  exact withVerdicts_next verdicts ts v

end

/-! ## Summaries -/

namespace BatchSummary

theorem foldl_count (ts : List Testcase) (s : BatchSummary) :
    (ts.foldl count s).passed + (ts.foldl count s).failed =
        s.passed + s.failed + ts.countP (!·.result.isPending) ∧
      (ts.foldl count s).aborted = s.aborted := by
  induction ts generalizing s with
  | nil => simp
  | cons t ts ih =>
    obtain ⟨decided, aborted⟩ := ih (s.count t)
    rw [List.foldl_cons, decided, aborted, List.countP_cons]
    unfold count
    cases result : t.result with
    | pending => simp [Testcase.passed, result, Verdict.isPending]
    | success value => split <;> simp [Verdict.isPending] <;> omega
    | failure faults => simp [Testcase.passed, result, Verdict.isPending]; omega

/-- Passed or failed has whatever is not pending. -/
theorem ofTestcases_decided (ts : List Testcase) (aborted : Bool) :
    (ofTestcases ts aborted).passed + (ofTestcases ts aborted).failed =
      ts.countP (!·.result.isPending) := by
  have counted := (foldl_count ts { total := ts.length, aborted := aborted }).1
  simpa [ofTestcases] using counted

theorem foldl_rest (ts : List Testcase) (s : BatchSummary) :
    (ts.foldl count s).total = s.total ∧
      (ts.foldl count s).pending = s.pending + ts.countP (·.result.isPending) := by
  induction ts generalizing s with
  | nil => simp
  | cons t ts ih =>
    obtain ⟨total, pending⟩ := ih (s.count t)
    rw [List.foldl_cons, total, pending, List.countP_cons]
    unfold count
    cases result : t.result with
    | pending => simp [Testcase.passed, result, Verdict.isPending]; omega
    | success value => split <;> simp [Verdict.isPending]
    | failure faults => simp [Testcase.passed, result, Verdict.isPending]

@[simp] theorem ofTestcases_total (ts : List Testcase) (aborted : Bool) : (ofTestcases ts aborted).total = ts.length :=
  (foldl_rest ts { total := ts.length, aborted := aborted }).1

theorem ofTestcases_pending (ts : List Testcase) (aborted : Bool) :
    (ofTestcases ts aborted).pending = ts.countP (·.result.isPending) := by
  have counted := (foldl_rest ts { total := ts.length, aborted := aborted }).2
  simpa [ofTestcases] using counted

@[simp] theorem ofTestcases_aborted (ts : List Testcase) (aborted : Bool) :
    (ofTestcases ts aborted).aborted = aborted :=
  (foldl_count ts { total := ts.length, aborted := aborted }).2

end BatchSummary

/-! ## The invariant of a batch -/

/-- What an outcome records for a testcase. A run that stops to be resumed records nothing. -/
def Outcome.verdict : Outcome → Verdict
  | .finished value => .success value
  | .errored faults => .failure faults
  | .interrupted => .failure [Scene.stopped]
  | .breakpointHit | .paused => .pending

variable {E : Engine}

/-- A stage at which a testcase is being run. -/
def Stage.Handles (i : Nat) : Stage E → Prop
  | .loading purpose _ => ∃ program, purpose = .testcaseRun i program
  | .launching mode _ => mode = .testcaseRun i
  | .starting l => l.mode = .testcaseRun i
  | .running l => l.mode = .testcaseRun i
  | _ => False

namespace Job

/-- A job that has come to its answer. -/
def Over (job : Job E) : Prop := ∃ reply, job.stage = .leaving reply ∨ job.stage = .settled reply

/-- A batch under way: how many verdicts it has come to, and the testcases then. -/
inductive Batching (ts : List Testcase) (verdicts : List Verdict) (job : Job E) (tests : List Testcase) : Prop
  | next {batch : Batch} (under : job.batch = some batch) (index : batch.index = verdicts.length)
    (stage : job.stage = .preparing (.testcaseRun verdicts.length)) (now : tests = withVerdicts verdicts ts)
  | runs {batch : Batch} (under : job.batch = some batch) (index : batch.index = verdicts.length)
    (stage : job.stage.Handles verdicts.length) (known : verdicts.length < ts.length)
    (now : tests = withVerdicts (verdicts ++ [.pending]) ts)
  | concluded {batch : Batch} {o : Outcome} (under : job.batch = some batch)
    (index : batch.index = verdicts.length) (stage : job.stage = .concluded (.testcaseRun verdicts.length) o)
    (known : verdicts.length < ts.length) (decided : o.verdict.isPending = false)
    (now : tests = withVerdicts (verdicts ++ [o.verdict]) ts)

variable {h : House} {id : JobId} {sc : Scene E} {job : Job E} {a : Advance E}

/-- A testcase's run records its verdict. -/
theorem finish_testcase {l : Live E} {i : Nat} (mode : l.mode = .testcaseRun i) (result : RunResult E.Snapshot) :
    (finish h sc l result).1.slot.state.testcases =
        sc.slot.state.testcases.modify i ({ · with result := (finish h sc l result).2.verdict }) ∧
      (finish h sc l result).2.verdict.isPending = false := by
  cases result <;> simp only [finish, mode] <;> exact ⟨rfl, rfl⟩

theorem finishInterrupted_testcase {mode : Mode} {i : Nat} (asked : mode = .testcaseRun i) :
    (sc.finishInterrupted h mode).1.slot.state.testcases =
        sc.slot.state.testcases.modify i ({ · with result := (sc.finishInterrupted h mode).2.verdict }) ∧
      (sc.finishInterrupted h mode).2.verdict.isPending = false := by
  subst asked
  exact ⟨rfl, rfl⟩

/-- The run of a batch's testcase is over. -/
theorem Batching.conclude {ts tests : List Testcase} {verdicts : List Verdict} {batch : Batch}
    (under : job.batch = some batch) (index : batch.index = verdicts.length) (known : verdicts.length < ts.length)
    (now : tests = withVerdicts (verdicts ++ [.pending]) ts) {mode : Mode}
    (asked : mode = .testcaseRun verdicts.length) {end_ : Scene E × Outcome}
    (came : end_.1.slot.state.testcases = tests.modify verdicts.length ({ · with result := end_.2.verdict }) ∧
      end_.2.verdict.isPending = false) :
    (conclude job mode end_).job.Batching ts verdicts (conclude job mode end_).scene.slot.state.testcases := by
  refine .concluded under index ?_ known came.2 ?_
  · rw [← asked]
    rfl
  · rw [conclude_slot, came.1, now, withVerdicts_last]

/-- A step of a job whose batch is under way goes on with the testcase, or brings its verdict to the others, or
ends the batch. -/
theorem Rule.batching {ts : List Testcase} {verdicts : List Verdict} (rule : Rule h id sc job a)
    (batching : job.Batching ts verdicts sc.slot.state.testcases) :
    a.job.Over ∨ a.job.Batching ts verdicts a.scene.slot.state.testcases ∨
      ∃ o, job.stage = .concluded (.testcaseRun verdicts.length) o ∧ o ≠ .interrupted ∧
        o.verdict.isPending = false ∧ a.job.Batching ts (verdicts ++ [o.verdict]) a.scene.slot.state.testcases := by
  cases batching with
  | next under index stage now =>
    cases rule with
    | cutShort => exact .inl ⟨_, .inl rfl⟩
    | @testcase i t at_ known =>
      cases stage.symm.trans at_
      have within : verdicts.length < ts.length := by
        have := (List.getElem?_eq_some_iff.1 known).1
        rwa [now, withVerdicts_length] at this
      refine .inr (.inl (.runs under index ⟨_, rfl⟩ within ?_))
      rw [← withVerdicts_next, ← now]
      rfl
    | _ => simp_all
  | runs under index stage known now =>
    cases rule with
    | loading at_ =>
      rw [at_] at stage
      exact .inr (.inl (.runs under index stage known now))
    | @loaded purpose wait next at_ waited =>
      rw [at_] at stage
      obtain ⟨program, rfl⟩ := stage
      exact .inr (.inl (.runs under index rfl known (by rw [← now, ← waited.slot]; rfl)))
    | launched at_ =>
      rw [at_] at stage
      exact .inr (.inl (.runs under index stage known (by rw [launch_slot]; exact now)))
    | pausedEarly at_ | started at_ =>
      rw [at_] at stage
      exact .inr (.inl (.runs under index stage known now))
    | paused at_ | unheard at_ | running at_ =>
      rw [at_] at stage
      exact .inr (.inl (.runs under index stage known now))
    | stoppedEarly at_ =>
      rw [at_] at stage
      exact .inr (.inl (.conclude under index known now stage (finishInterrupted_testcase stage)))
    | ended at_ =>
      rw [at_] at stage
      exact .inr (.inl (.conclude under index known now stage (finish_testcase stage _)))
    | stopped at_ =>
      rw [at_] at stage
      exact .inr (.inl (.conclude under index known now stage (finishInterrupted_testcase stage)))
    | _ => simp_all [Stage.Handles]
  | concluded under index stage known decided now =>
    cases rule with
    | aborted | completed => exact .inl ⟨_, .inl rfl⟩
    | @next mode outcome batch at_ under' ran more =>
      cases stage.symm.trans at_
      cases under.symm.trans under'
      refine .inr (.inr ⟨_, stage, ran, decided, .next rfl ?_ ?_ now⟩)
      · simp [index]
      · simp [index]
    | _ => simp_all

end Job

/-! ## What is told of a batch -/

/-- Whether something tells that a batch begins or ends. -/
def Effect.isOfBatch : Effect E → Bool
  | .event ⟨_, .batchStarted _⟩ => true
  | .event ⟨_, .batchFinished _⟩ => true
  | _ => false

namespace Scene

/-- What has been told of batches. -/
def news (sc : Scene E) : List (Effect E) := sc.effects.filter Effect.isOfBatch

theorem mem_news {sc : Scene E} {w : WorkspaceId} {summary : BatchSummary} :
    .event ⟨w, .batchFinished summary⟩ ∈ sc.news ↔ .event ⟨w, .batchFinished summary⟩ ∈ sc.effects :=
  List.mem_filter.trans (and_iff_left rfl)

end Scene

namespace Job

variable {h : House} {id : JobId} {sc : Scene E} {job : Job E} {a : Advance E}

/-- In a step that tells so, a batch begins. -/
theorem Rule.begins (rule : Rule h id sc job a) (fresh : sc.effects = []) {w : WorkspaceId} {total : Nat}
    (told : .event ⟨w, .batchStarted total⟩ ∈ a.scene.effects) :
    w = sc.slot.id ∧ a.scene.slot.state = sc.slot.state ∧
      a.job.Batching sc.slot.state.testcases [] a.scene.slot.state.testcases := by
  obtain ⟨name, speaks⟩ := rule.speaks_of_told fresh told
  cases speaks with
  | batchStarted under first _ stage state =>
    exact ⟨name, state, .next under first stage (by rw [state, withVerdicts_nil])⟩

/-- In a step that tells so, a batch ends as aborted, because the run of a testcase was interrupted. -/
theorem Rule.aborts (rule : Rule h id sc job a) (fresh : sc.effects = []) {w : WorkspaceId} {summary : BatchSummary}
    (told : .event ⟨w, .batchFinished summary⟩ ∈ a.scene.effects) (aborted : summary.aborted = true) :
    (∃ mode, job.stage = .concluded mode .interrupted) ∧ a.scene.slot = sc.slot ∧
      summary = .ofTestcases sc.slot.state.testcases true := by
  obtain ⟨-, speaks⟩ := rule.speaks_of_told fresh told
  cases speaks with
  | batchFinished ended because =>
    rw [BatchSummary.ofTestcases_aborted] at aborted
    subst ended
    exact ⟨because aborted, endBatch_slot .., by rw [aborted]⟩

end Job

end Workbench
