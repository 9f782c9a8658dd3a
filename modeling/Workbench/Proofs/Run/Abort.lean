/-
What an aborted batch leaves behind.

From the step that tells of a batch's beginning to the step that tells that it
was aborted, anything may happen except that the testcases are exchanged. Then
the interrupted testcase has failed, each one before it has the verdict of its
own run in this batch, and each one after it is what it was when the batch began
(`Hub.Reachable.aborted_batch`). It is not so that those are pending, for a
testcase is reset only when its turn comes: they are pending exactly if they
were pending at the beginning, and only then does the summary count no verdict
of an earlier run.
-/
import Workbench.Directive.Engine
import Workbench.Proofs.Run.Batch
import Workbench.Proofs.Run.Ownership

namespace Workbench

variable {E : Engine}

/-! ## A batch in the course of moves -/

theorem Stage.Handles.owning {i : Nat} {stage : Stage E} (handles : stage.Handles i) : stage.place = .owning := by
  cases stage <;> first | rfl | cases handles

theorem Job.Batching.owning {ts tests : List Testcase} {verdicts : List Verdict} {job : Job E}
    (batching : job.Batching ts verdicts tests) : job.stage.place = .owning := by
  cases batching with
  | next _ _ stage => rw [stage]; rfl
  | runs _ _ stage => exact stage.owning
  | concluded _ _ stage => rw [stage]; rfl

/-- A job that has come to its answer stays there. -/
theorem Job.Rule.over_kept {h : House} {id : JobId} {sc : Scene E} {job : Job E} {a : Advance E}
    (rule : Rule h id sc job a) (ended : job.Over) : a.job.Over := by
  obtain ⟨reply, ended⟩ := ended
  cases rule with
  | left => exact ⟨_, .inr rfl⟩
  | settled => exact ⟨reply, ended⟩
  | _ => simp_all

/-- Only one edit exchanges testcases. -/
theorem Edit.apply_testcases {e : Edit} (other : ∀ ts, e ≠ .testcases ts) (state : WorkspaceState) :
    (e.apply state).testcases = state.testcases := by
  cases e with
  | testcases ts => exact absurd rfl (other ts)
  | _ => rfl

namespace Hub

section

variable {hub : Hub E} {moves : List Move} {w : WorkspaceId} {id : JobId} {verdicts : List Verdict} {o : Outcome}

/-- In the course of the moves a job's run of a testcase came to an outcome. -/
def Ran (hub : Hub E) (moves : List Move) (w : WorkspaceId) (id : JobId) (i : Nat) (o : Outcome) : Prop :=
  ∃ past job, past <+: moves ∧ (hub.after past).jobOn? w id = some job ∧
    job.stage = .concluded (.testcaseRun i) o

theorem Ran.further {i : Nat} (ran : hub.Ran moves w id i o) (m : Move) : hub.Ran (moves ++ [m]) w id i o := by
  obtain ⟨past, job, early, known, stage⟩ := ran
  exact ⟨past, job, early.trans (List.prefix_append moves [m]), known, stage⟩

/-- Each verdict is that of a run, in the course of the moves, which was not interrupted. -/
def Vouched (hub : Hub E) (moves : List Move) (w : WorkspaceId) (id : JobId) (verdicts : List Verdict) : Prop :=
  ∀ i v, verdicts[i]? = some v →
    ∃ o, v = o.verdict ∧ o ≠ .interrupted ∧ v.isPending = false ∧ hub.Ran moves w id i o

theorem Vouched.further (vouched : hub.Vouched moves w id verdicts) (m : Move) :
    hub.Vouched (moves ++ [m]) w id verdicts := by
  intro i v out
  obtain ⟨o, verdict, whole, decided, ran⟩ := vouched i v out
  exact ⟨o, verdict, whole, decided, ran.further m⟩

/-- One more run is over. -/
theorem Vouched.next (vouched : hub.Vouched moves w id verdicts) (whole : o ≠ .interrupted)
    (decided : o.verdict.isPending = false) (ran : hub.Ran moves w id verdicts.length o) :
    hub.Vouched moves w id (verdicts ++ [o.verdict]) := by
  intro i v out
  rcases Nat.lt_trichotomy i verdicts.length with early | rfl | beyond
  · rw [List.getElem?_append_left early] at out
    exact vouched i v out
  · rw [List.getElem?_concat_length] at out
    cases out
    exact ⟨o, rfl, whole, decided, ran⟩
  · rw [List.getElem?_eq_none (by simp; omega)] at out
    cases out

theorem Vouched.decided (vouched : hub.Vouched moves w id verdicts) : ∀ v ∈ verdicts, v.isPending = false := by
  intro v here
  obtain ⟨i, out⟩ := List.mem_iff_getElem?.1 here
  obtain ⟨o, -, -, decided, -⟩ := vouched i v out
  exact decided

/-- After the moves the batch is over, or under way with the verdicts of the runs that it has made. -/
def Underway (hub : Hub E) (moves : List Move) (w : WorkspaceId) (id : JobId) (ts : List Testcase) : Prop :=
  ∃ s job, (hub.after moves).site? w = some s ∧ s.job? id = some job ∧
    (job.Over ∨ ∃ verdicts, job.Batching ts verdicts s.slot.state.testcases ∧ hub.Vouched moves w id verdicts)

/-- Whatever is done, a batch goes on from its own runs only. -/
theorem Underway.step {ts : List Testcase} (reached : (hub.after moves).Reachable) {m : Move}
    (kept : ∀ ts, m ≠ .edit w (.testcases ts)) (underway : hub.Underway moves w id ts) :
    hub.Underway (moves ++ [m]) w id ts := by
  obtain ⟨s, job, here, known, progress⟩ := underway
  have later := hub.after_concat moves m
  obtain ⟨next, there, moved⟩ := move_site reached.sound m here
  rw [← later] at there
  -- the job is left as it is, and so are the testcases as long as it owns the workspace
  have idle : next.job? id = some job →
      (job.stage.place = .owning → next.slot.state.testcases = s.slot.state.testcases) →
      hub.Underway (moves ++ [m]) w id ts := by
    intro same tests
    refine ⟨next, job, there, same, progress.imp_right ?_⟩
    rintro ⟨verdicts, batching, vouched⟩
    exact ⟨verdicts, tests batching.owning ▸ batching, vouched.further m⟩
  rcases moved with rfl | ⟨c, cause, step⟩
  · exact idle known fun _ => rfl
  rcases (reached.owned here).undisturbed known step with ⟨h, asked, rfl⟩ | ⟨same, others⟩
  · have rule := Job.step_rule h id { slot := s.slot, asked := asked } job
    refine ⟨_, _, there, s.take_own id _, ?_⟩
    rcases progress with ended | ⟨verdicts, batching, vouched⟩
    · exact .inl (rule.over_kept ended)
    rcases rule.batching batching with ended | same | ⟨o, stage, whole, decided, more⟩
    · exact .inl ended
    · exact .inr ⟨verdicts, same, vouched.further m⟩
    · have ran : hub.Ran moves w id verdicts.length o :=
        ⟨moves, job, List.prefix_refl moves, (site?_eq_some.1 here).2 ▸ known, stage⟩
      exact .inr ⟨_, more, (vouched.further m).next whole decided (ran.further m)⟩
  · refine idle same fun place => ?_
    rcases (others place).2 with state | ⟨e, rfl, state⟩ | state
    · rw [state]
    · cases cause
      rw [state, Edit.apply_testcases]
      rintro ts rfl
      exact kept ts rfl
    · rw [state]
      rfl

theorem Underway.after {past : List Move} {ts : List Testcase} (reached : hub.Reachable)
    (underway : hub.Underway past w id ts) (kept : ∀ ts, .edit w (.testcases ts) ∉ moves) :
    hub.Underway (past ++ moves) w id ts := by
  induction moves generalizing past with
  | nil => rwa [List.append_nil]
  | cons m moves ih =>
    have first := underway.step (reached.after past) (m := m) fun ts same => kept ts (same ▸ .head _)
    have rest := ih first fun ts later => kept ts (.tail _ later)
    rwa [List.append_assoc] at rest

end

/-! ## The theorem -/

/-- A step that has something to tell is that of a job in an open workspace. -/
theorem step_tells {hub : Hub E} {now : Nat} {id : JobId} {e : Effect E} (told : e ∈ (hub.step now id).2) :
    ∃ w s job, hub.site? w = some s ∧ s.job? id = some job := by
  unfold step at told
  cases known : hub.tasks.get? id with
  | none => simp [known] at told
  | some task =>
    obtain ⟨w, job⟩ := task
    simp only [known] at told
    cases slot : hub.slot w with
    | error r => simp [slot] at told
    | ok own =>
      exact ⟨w, ⟨own, hub.jobOn? w⟩, job, site?_eq_some.2 ⟨slot, rfl⟩, jobOn?_eq_some.2 known⟩

theorem site?_state {hub : Hub E} {w : WorkspaceId} {s : Site E} (here : hub.site? w = some s) :
    hub.state w = .ok s.slot.state := by
  rw [state, (site?_eq_some.1 here).1]
  rfl

theorem site?_of_state {hub : Hub E} {w : WorkspaceId} {state : WorkspaceState} (opened : hub.state w = .ok state) :
    ∃ s, hub.site? w = some s ∧ s.slot.state = state := by
  cases here : hub.site? w with
  | none =>
    rw [Hub.state, slot_eq_error.2 ⟨site?_eq_none.1 here, rfl⟩] at opened
    cases opened
  | some s => exact ⟨s, rfl, Except.ok.inj ((site?_state here).symm.trans opened)⟩

/-- A step tells that a batch begins: it is under way then. -/
theorem Reachable.begins {hub : Hub E} (reached : hub.Reachable) {w : WorkspaceId} {id : JobId} {now total : Nat}
    (told : .event ⟨w, .batchStarted total⟩ ∈ (hub.step now id).2) :
    ∃ before, hub.state w = .ok before ∧ (hub.move (.step id now)).Underway [] w id before.testcases := by
  obtain ⟨v, s, job, here, known⟩ := step_tells told
  obtain ⟨there, seen⟩ := step_own reached.sound here known now
  rw [seen] at told
  obtain ⟨name, -, batching⟩ := (Job.step_rule _ id { slot := s.slot, asked := hub.asked } job).begins rfl told
  obtain rfl : w = v := name.trans (reached.sound.keyed (site?_eq_some.1 here).1)
  exact ⟨s.slot.state, site?_state here, _, _, there, s.take_own id _, .inr ⟨[], batching, nofun⟩⟩

/-- What an aborted batch has left behind, given the testcases before and after it and its moves. -/
structure Aborted (hub : Hub E) (moves : List Move) (w : WorkspaceId) (id : JobId) (before after : List Testcase)
    (summary : BatchSummary) (k : Nat) : Prop where
  known : k < before.length
  length : after.length = before.length
  /-- the run of this testcase was interrupted, and that is its failure -/
  interrupted : hub.Ran moves w id k .interrupted ∧
    after[k]? = before[k]?.map ({ · with result := .failure [.interrupted {}] })
  /-- each one before it has the verdict of its own run in this batch -/
  earlier : ∀ i < k, ∃ o, hub.Ran moves w id i o ∧ o ≠ .interrupted ∧ o.verdict.isPending = false ∧
    after[i]? = before[i]?.map ({ · with result := o.verdict })
  /-- each one after it is what it was -/
  later : ∀ i, k < i → after[i]? = before[i]?
  told : summary = .ofTestcases after true
  counted : summary.passed + summary.failed = k + 1 + (before.drop (k + 1)).countP (!·.result.isPending)
  /-- that those after it are pending and only runs of this batch are counted is so exactly if they were
  pending before -/
  pending : ((∀ t ∈ after.drop (k + 1), t.result.isPending = true) ∧ summary.passed + summary.failed = k + 1) ↔
    ∀ t ∈ before.drop (k + 1), t.result.isPending = true

/-- A batch that has come to an interrupted run is aborted. -/
theorem Vouched.aborted {hub : Hub E} {moves : List Move} {w : WorkspaceId} {id : JobId} {verdicts : List Verdict}
    {before : List Testcase} (vouched : hub.Vouched moves w id verdicts) (known : verdicts.length < before.length)
    (ran : hub.Ran moves w id verdicts.length .interrupted) :
    let after := withVerdicts (verdicts ++ [.failure [Scene.stopped]]) before
    hub.Aborted moves w id before after (.ofTestcases after true) verdicts.length := by
  intro after
  have long : (verdicts ++ [Verdict.failure [Scene.stopped]]).length = verdicts.length + 1 := by simp
  have rest : after.drop (verdicts.length + 1) = before.drop (verdicts.length + 1) := by
    rw [← long]
    exact withVerdicts_drop ..
  have counted : (BatchSummary.ofTestcases after true).passed + (BatchSummary.ofTestcases after true).failed =
      verdicts.length + 1 + (before.drop (verdicts.length + 1)).countP (!·.result.isPending) := by
    rw [BatchSummary.ofTestcases_decided, ← long]
    refine withVerdicts_decided _ _ (fun v here => ?_) (by omega)
    rcases List.mem_append.1 here with early | last
    · exact vouched.decided v early
    · rw [List.mem_singleton.1 last]
      rfl
  refine ⟨known, withVerdicts_length .., ⟨ran, ?_⟩, fun i early => ?_, fun i later => ?_, rfl, counted, ?_⟩
  · exact withVerdicts_getElem?_lt _ _ List.getElem?_concat_length
  · obtain ⟨o, verdict, whole, decided, run⟩ := vouched i verdicts[i] (List.getElem?_eq_getElem early)
    refine ⟨o, run, whole, verdict ▸ decided, ?_⟩
    rw [← verdict]
    refine withVerdicts_getElem?_lt _ _ ?_
    rw [List.getElem?_append_left early, List.getElem?_eq_getElem early]
  · exact withVerdicts_getElem?_ge _ _ (by omega)
  · rw [rest, counted]
    constructor
    · exact fun both => both.1
    · refine fun pending => ⟨pending, ?_⟩
      rw [List.countP_eq_zero.2, Nat.add_zero]
      intro t here
      simp [pending t here]

/-- A batch that is aborted leaves the later testcases as they were when it began. -/
theorem Reachable.aborted_batch {hub : Hub E} (reached : hub.Reachable) {w : WorkspaceId} {id : JobId}
    {start total : Nat} (started : .event ⟨w, .batchStarted total⟩ ∈ (hub.step start id).2) {moves : List Move}
    (kept : ∀ ts, .edit w (.testcases ts) ∉ moves) {now : Nat} {summary : BatchSummary}
    (ended : .event ⟨w, .batchFinished summary⟩ ∈ (((hub.move (.step id start)).after moves).step now id).2)
    (aborted : summary.aborted = true) :
    ∃ before after k, hub.state w = .ok before ∧
      (((hub.move (.step id start)).after moves).move (.step id now)).state w = .ok after ∧
      (hub.move (.step id start)).Aborted moves w id before.testcases after.testcases summary k := by
  obtain ⟨before, opened, begun⟩ := reached.begins started
  have later := reached.move (.step id start)
  obtain ⟨s, job, here, known, progress⟩ := begun.after later kept
  rw [List.nil_append] at here progress
  have reached := later.after moves
  obtain ⟨there, seen⟩ := step_own reached.sound here known now
  rw [seen] at ended
  have rule := Job.step_rule (((hub.move (.step id start)).after moves).house now) id
    { slot := s.slot, asked := ((hub.move (.step id start)).after moves).asked } job
  obtain ⟨⟨mode, stage⟩, slot, told⟩ := rule.aborts rfl ended aborted
  rcases progress with ⟨reply, answer | answer⟩ | ⟨verdicts, batching, vouched⟩
  · cases stage.symm.trans answer
  · cases stage.symm.trans answer
  · cases batching with
    | next _ _ preparing => cases stage.symm.trans preparing
    | runs _ _ handles =>
      rw [stage] at handles
      cases handles
    | concluded under index concluded within decided tests =>
      cases stage.symm.trans concluded
      refine ⟨before, s.slot.state, verdicts.length, opened, ?_, ?_⟩
      · rw [Hub.move, site?_state there, Site.take_slot, slot]
      · rw [told, tests]
        exact vouched.aborted within
          ⟨moves, job, List.prefix_refl moves, (site?_eq_some.1 here).2 ▸ known, stage⟩

end Hub

/-! ### A second batch that is interrupted -/

/-- Which run has just been interrupted, if one has. -/
def Stage.interrupted? : Stage E → Option Mode
  | .concluded mode .interrupted => some mode
  | _ => none

theorem Stage.interrupted?_eq_some {stage : Stage E} {mode : Mode} :
    stage.interrupted? = some mode ↔ stage = .concluded mode .interrupted := by
  cases stage with
  | concluded m o => cases o <;> simp [interrupted?]
  | _ => simp [interrupted?]

/-- Three testcases, the second of which takes its time. A batch has run them all, and another is about to. -/
def rerun : Hub Directive.engine :=
  let programs := ["finish 1", "sleep 100\nfinish 2", "finish 3"]
  (Hub.create {} .bundled).1.after
    ([.edit .assessment (.testcases (programs.map fun p => { program := p })), .submit 0 .assessment .runAll] ++
      List.replicate 14 (.step 0 0) ++ List.replicate 9 (.step 0 100) ++
      [.submit 1 .assessment .runAll, .step 1 100, .step 1 100])

/-- The second batch is interrupted when it has come to the second testcase. -/
def interruptedRerun : List Move :=
  List.replicate 10 (.step 1 100) ++ [.signal .assessment .interrupt, .step 1 150]

theorem rerun_reachable : rerun.Reachable := by
  unfold rerun
  exact (Hub.Reachable.create {} .bundled).after _

theorem rerun_begins : .event ⟨.assessment, .batchStarted 3⟩ ∈ (rerun.step 100 1).2 :=
  mem_of_event (by decide +kernel)

theorem rerun_ends :
    .event ⟨.assessment, .batchFinished { total := 3, passed := 2, failed := 1, aborted := true }⟩ ∈
      (((rerun.move (.step 1 100)).after interruptedRerun).step 150 1).2 :=
  mem_of_event (by decide +kernel)

theorem rerun_kept : ∀ ts, .edit .assessment (.testcases ts) ∉ interruptedRerun := by simp [interruptedRerun]

/-- What the second batch leaves behind. -/
theorem aborted_batch_of_rerun :
    rerun.Reachable ∧ .event ⟨.assessment, .batchStarted 3⟩ ∈ (rerun.step 100 1).2 ∧
      (∀ ts, .edit .assessment (.testcases ts) ∉ interruptedRerun) ∧
      ∃ before after k, rerun.state .assessment = .ok before ∧
        (((rerun.move (.step 1 100)).after interruptedRerun).move (.step 1 150)).state .assessment = .ok after ∧
        (rerun.move (.step 1 100)).Aborted interruptedRerun .assessment 1 before.testcases after.testcases
          { total := 3, passed := 2, failed := 1, aborted := true } k :=
  ⟨rerun_reachable, rerun_begins, rerun_kept, rerun_reachable.aborted_batch rerun_begins rerun_kept rerun_ends rfl⟩

/-- It never comes to the third testcase, which is left as passed all the same, and counted so. -/
theorem rerun_not_pending :
    ¬ ∀ (hub : Hub Directive.engine) (w : WorkspaceId) (id start total now k : Nat) (moves : List Move)
        (summary : BatchSummary) (after : WorkspaceState),
      hub.Reachable → .event ⟨w, .batchStarted total⟩ ∈ (hub.step start id).2 →
      (∀ ts, .edit w (.testcases ts) ∉ moves) →
      .event ⟨w, .batchFinished summary⟩ ∈ (((hub.move (.step id start)).after moves).step now id).2 →
      summary.aborted = true → (hub.move (.step id start)).Ran moves w id k .interrupted →
      (((hub.move (.step id start)).after moves).move (.step id now)).state w = .ok after →
      ∀ i t, k < i → after.testcases[i]? = some t → t.result.isPending = true := by
  intro claim
  have stopped : (((rerun.move (.step 1 100)).after interruptedRerun).jobOn? .assessment 1).any
      (fun job => job.stage.interrupted? = some (.testcaseRun 1)) = true := by
    decide +kernel
  have left : ((((rerun.move (.step 1 100)).after interruptedRerun).move (.step 1 150)).site? .assessment).any
      (fun s => s.slot.state.testcases[2]?.any fun t => !t.result.isPending) = true := by
    decide +kernel
  obtain ⟨job, known, stage⟩ := (Option.any_eq_true _ _).1 stopped
  obtain ⟨s, there, third⟩ := (Option.any_eq_true _ _).1 left
  obtain ⟨t, third, decided⟩ := (Option.any_eq_true _ _).1 third
  have ran : (rerun.move (.step 1 100)).Ran interruptedRerun .assessment 1 1 .interrupted :=
    ⟨interruptedRerun, job, List.prefix_refl _, known, Stage.interrupted?_eq_some.1 (of_decide_eq_true stage)⟩
  have pending := claim rerun .assessment 1 100 3 150 1 interruptedRerun _ s.slot.state rerun_reachable rerun_begins
    rerun_kept rerun_ends rfl ran (Hub.site?_state there) 2 t (by decide) third
  simp [pending] at decided

end Workbench
