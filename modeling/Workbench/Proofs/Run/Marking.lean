/-
A run of the editor's program that is followed by the testcases, with nobody else about.

The testcases are run one after the other, and each comes out as it does on its
own (`Script.marked`): the batch goes through them with those that have been run in
front (`Script.Path.marks`). So after the answer all of them have come out, and none
has been left out or run in the place of another (`Hub.Holds.evaluates_graded`).
-/
import Workbench.Proofs.Run.Passage
import Workbench.Proofs.Run.Trial

namespace Workbench

variable {settings : Settings} {loader : Loader} {id : JobId}

/-! ## What is reckoned with -/

/-- How many turns a testcase takes at most. It depends on nothing but the brief. -/
def Brief.trialEffort (settings : Settings) (b : Brief) (program : String) : Nat :=
  let p := b.basis.prepared program
  let options : RunOptions := { budgetMs := b.execTimeMs, breakpoints := b.breakpoints.shifted p.prependLines }
  Hub.waitEffort settings + (Script.engine.patience (Job.runOf p options) + 1)

/-- The end of a testcase's run. -/
theorem Job.closed_testcase {E : Engine} (settings : Settings) (loader : Loader) (slot : Slot E) (i : Nat)
    (p : Prepared E) (options : RunOptions) (result : RunResult E.Snapshot) :
    let ended := closed settings loader (launched (.testcaseRun i) p options) slot result
    ended.2 = result.graded p.prependLines ∧
      ended.1.state.testcases = slot.state.testcases.modify i ({ · with result := ended.2.verdict }) :=
  ⟨finish_graded (l := launched (.testcaseRun i) p options) rfl result,
    (finish_testcase (l := launched (.testcaseRun i) p options) rfl result).1⟩

namespace Script

/-- A testcase as it comes out on its basis, by itself. -/
def marked (b : Basis) (t : Testcase) : Testcase := { t with result := (grade b t.program).verdict }

variable {slot : Slot engine} {job : Job engine} {now : Nat}

/-- What a testcase's run leaves behind that has come to its end. -/
structure CameOut (before : Slot engine) (i : Nat) (t : Testcase) (after : Slot engine) : Prop where
  id_eq : after.id = before.id
  permit : after.permit = before.permit
  mailbox : after.mailbox = before.mailbox
  brief : after.state.brief = before.state.brief
  testcases : after.state.testcases = before.state.testcases.modify i fun _ => marked before.state.basis t

/-- A testcase is run to its end. -/
theorem Path.marks_one (prompt : loader.Prompt) {i : Nat} {t : Testcase} (engaged : job.Engaged id slot)
    (stage : job.stage = .preparing (.testcaseRun i)) (known : slot.state.testcases[i]? = some t) :
    ∃ waits time after o, Path settings loader id ⟨now, slot, job⟩ waits
        ⟨time, after, job.at_ (.concluded (.testcaseRun i) o)⟩ ∧
      waits < slot.state.brief.trialEffort settings t.program ∧ o ≠ .interrupted ∧ CameOut slot i t after := by
  let h : House := { settings := settings, loader := loader, now := now }
  let reset : Slot engine := { slot with state := slot.state.resetTestcase i }
  let loading := job.load h (.testcaseRun i t.program)
  have prepares : Point.Takes settings loader id ⟨now, slot, job⟩ none ⟨now, reset, loading⟩ := by
    intro asked
    simp only [Job.step, stage, Job.prepare, known]
    exact ⟨rfl, rfl, trivial, rfl⟩
  let renewed : Slot engine :=
    { reset with state := { reset.state with context := engine.makeContext reset.state.selection } }
  let p := Job.composed renewed (some t.program)
  let ready := loading.at_ (.launching (.testcaseRun i) p)
  have waits : loading.stage = .loading (.testcaseRun i t.program) (.start now _ _) := rfl
  have loaded : Point.Takes settings loader id ⟨now, reset, loading⟩ none ⟨now, renewed, ready⟩ := .loaded prompt waits
  have engaged : ready.Engaged id renewed := engaged.of_same rfl rfl rfl
  obtain ⟨lines, slept, result, time, turns, ride, few, path⟩ := Path.runs settings loader now engaged rfl
  let options := Job.optionsFor settings renewed.state (.testcaseRun i) p
  let written : Slot engine := { renewed with state := renewed.state.onOutput (·.beginRun.appendLines lines) }
  let ended := Job.closed settings loader (Job.launched (.testcaseRun i) p options) written result
  obtain ⟨outcome, testcases⟩ := Job.closed_testcase settings loader written i p options result
  have verdict : (grade slot.state.basis t.program).verdict = ended.2.verdict := by
    have final := ride.begin_final (.inl rfl)
    have told : sourceEnding slot.state.basis.execTimeMs p.context (slot.state.basis.composition t.program).text = _ :=
      ride.begin_ending rfl
    rw [resultEnding_final final] at told
    have whole : grade slot.state.basis t.program =
        (Ending.after (.at_ result) lines slept).account.grade p.prependLines :=
      congrArg (fun e => e.account.grade p.prependLines) told
    rw [whole]
    exact congrArg Outcome.verdict outcome.symm
  obtain ⟨name, permit, mailbox⟩ : ended.1.id = slot.id ∧ ended.1.permit = slot.permit ∧
      ended.1.mailbox = slot.mailbox := Job.closed_door ..
  have brief : ended.1.state.brief = slot.state.brief :=
    (Job.closed_brief ..).trans (WorkspaceState.setResult_brief slot.state i .pending)
  refine ⟨turns, time, ended.1, ended.2, .goes prepares (.goes loaded ?_), ?_, ?_, name, permit, mailbox, brief, ?_⟩
  · exact path
  · exact Nat.lt_of_lt_of_le few (Nat.le_add_left _ _)
  · rw [outcome]
    cases result <;> simp [RunResult.graded]
  · have reset : written.state.testcases = slot.state.testcases.modify i ({ · with result := .pending }) := rfl
    rw [testcases, reset, List.modify_modify_eq]
    refine List.ext_getElem? fun j => ?_
    simp only [List.getElem?_modify]
    split
    · next same =>
      rw [← same, known]
      simp [marked, verdict, ended]
    · rfl

/-! ## One after the other -/

/-- The next testcase of a batch. -/
theorem takes_next {mode : Mode} {o : Outcome} {batch : Batch} (stage : job.stage = .concluded mode o)
    (ran : o ≠ .interrupted) (under : job.batch = some batch) (more : batch.index + 1 < batch.total) :
    Point.Takes settings loader id ⟨now, slot, job⟩ none
      ⟨now, slot, { job with
        batch := some { batch with index := batch.index + 1 }
        stage := .preparing (.testcaseRun (batch.index + 1)) }⟩ := by
  intro asked
  simp only [Job.step, stage, Job.follow, under, more, ↓reduceIte]
  cases o with
  | interrupted => exact absurd rfl ran
  | _ => exact ⟨trivial, trivial, trivial, rfl⟩

/-- The end of a batch that an editor's run brought about. -/
theorem takes_last {mode : Mode} {o first : Outcome} {batch : Batch} (stage : job.stage = .concluded mode o)
    (ran : o ≠ .interrupted) (under : job.batch = some batch) (last : batch.total ≤ batch.index + 1)
    (after : batch.after = some first) :
    Point.Takes settings loader id ⟨now, slot, job⟩ none ⟨now, slot, job.at_ (.leaving (.outcome first))⟩ := by
  intro asked
  have none_left : ¬ batch.index + 1 < batch.total := Nat.not_lt.2 last
  simp only [Job.step, stage, Job.follow, under, none_left, ↓reduceIte]
  cases o with
  | interrupted => exact absurd rfl ran
  | _ =>
    refine ⟨Job.endBatch_slot .., ?_, rfl, rfl⟩
    simp only [Job.endBatch, after]

/-- How many turns testcases take at most. -/
def trialEfforts (settings : Settings) (b : Brief) (ts : List Testcase) : Nat :=
  ts.foldr (fun t turns => b.trialEffort settings t.program + turns) 0

theorem trialEfforts_cons (b : Brief) (t : Testcase) (ts : List Testcase) :
    trialEfforts settings b (t :: ts) = b.trialEffort settings t.program + trialEfforts settings b ts := rfl

/-- The testcase that was run comes behind those that have been run before. -/
theorem CameOut.append {before after : Slot engine} {done todo : List Testcase} {t : Testcase}
    (came : CameOut before done.length t after) (testcases : before.state.testcases = done ++ t :: todo) :
    after.state.testcases = done ++ [marked before.state.basis t] ++ todo := by
  rw [came.testcases, testcases]
  simp [List.modify_eq_take_drop]

/-- A batch goes through the testcases that are left, and leaves those that have been run as they are. -/
theorem Path.marks (prompt : loader.Prompt) (first : Outcome) (todo done : List Testcase) (now : Nat) {t : Testcase}
    {batch : Batch} {slot : Slot engine} {job : Job engine} (engaged : job.Engaged id slot)
    (under : job.batch = some batch) (total : batch.total = done.length + (todo.length + 1))
    (index : batch.index = done.length) (after : batch.after = some first)
    (stage : job.stage = .preparing (.testcaseRun done.length)) (testcases : slot.state.testcases = done ++ t :: todo) :
    ∃ waits last, Path settings loader id ⟨now, slot, job⟩ waits last ∧
      waits ≤ trialEfforts settings slot.state.brief (t :: todo) ∧ last.job.stage = .leaving (.outcome first) ∧
      last.slot.permit = slot.permit ∧ last.slot.state.brief = slot.state.brief ∧
      last.slot.state.testcases = done ++ (t :: todo).map (marked slot.state.basis) := by
  induction todo generalizing done t batch slot job now with
  | nil =>
    have known : slot.state.testcases[done.length]? = some t := by simp [testcases]
    obtain ⟨waits, time, next, o, path, few, ran, came⟩ := Path.marks_one prompt engaged stage known
    let concluded : Job engine := job.at_ (.concluded (.testcaseRun done.length) o)
    have stage : concluded.stage = .concluded (.testcaseRun done.length) o := rfl
    have ends : Point.Takes settings loader id ⟨time, next, concluded⟩ none
        ⟨time, next, concluded.at_ (.leaving (.outcome first))⟩ :=
      takes_last stage ran under (by rw [total, index]; exact Nat.le_refl _) after
    refine ⟨waits, _, path.then ends, ?_, rfl, came.permit, came.brief, ?_⟩
    · rw [trialEfforts_cons]
      exact Nat.le_trans (Nat.le_of_lt few) (Nat.le_add_right _ _)
    · exact (came.append testcases).trans (List.append_nil _)
  | cons u todo ih =>
    have known : slot.state.testcases[done.length]? = some t := by simp [testcases]
    obtain ⟨waits, time, next, o, path, few, ran, came⟩ := Path.marks_one prompt engaged stage known
    let later : Job engine := { job with
      batch := some { batch with index := batch.index + 1 }
      stage := .preparing (.testcaseRun (batch.index + 1)) }
    have length : (done ++ [marked slot.state.basis t]).length = batch.index + 1 := by simp [index]
    let concluded : Job engine := job.at_ (.concluded (.testcaseRun done.length) o)
    have stage : concluded.stage = .concluded (.testcaseRun done.length) o := rfl
    have goes : Point.Takes settings loader id ⟨time, next, concluded⟩ none ⟨time, next, later⟩ :=
      takes_next stage ran under (by rw [total, index]; simp)
    have basis : next.state.basis = slot.state.basis := WorkspaceState.basis_of_brief came.brief
    have engaged : later.Engaged id next := engaged.of_same came.permit came.mailbox rfl
    obtain ⟨more, last, rest, fewer, left, permit, brief, all⟩ := ih _ time engaged rfl
      (by rw [length, total, index]; simp; omega) (by rw [length]) after (by rw [length]) (came.append testcases)
    refine ⟨waits + more, last, (path.then goes).trans rest, ?_, left, permit.trans came.permit,
      brief.trans came.brief, ?_⟩
    · rw [came.brief] at fewer
      rw [trialEfforts_cons]
      exact Nat.add_le_add (Nat.le_of_lt few) fewer
    · rw [all, basis, List.append_assoc]
      rfl

/-! ## Behind an editor's run -/

/-- After an editor's run that is graded nothing more is asked of the job, and it goes on with the first testcase. -/
theorem takes_first {value : Json} {t : Testcase} {ts : List Testcase} (engaged : job.Engaged id slot)
    (stage : job.stage = .concluded .editorRun (.finished value)) (alone : job.batch = none)
    (graded : Job.graded slot = true) (testcases : slot.state.testcases = t :: ts) :
    ∃ mailbox,
      let batch : Batch := { total := ts.length + 1, after := some (.finished value) }
      let first : Job engine := { job with batch := some batch, stage := .preparing (.testcaseRun 0) }
      first.Engaged id { slot with mailbox := mailbox } ∧
        Point.Takes settings loader id ⟨now, slot, job⟩ none ⟨now, { slot with mailbox := mailbox }, first⟩ := by
  obtain ⟨number, receiver, empty, listens⟩ := engaged.armed
  refine ⟨slot.mailbox.acceptPause number false, ⟨engaged.permit, number, receiver, empty, ?_⟩, fun asked => ?_⟩
  · unfold Mailbox.listens at listens ⊢
    cases listener : slot.mailbox.listener with
    | none => simp [listener] at listens
    | some l =>
      have own : l.number = number := by simpa [listener] using listens
      simp [Mailbox.acceptPause, listener, own]
  · simp only [Job.step, stage, Job.follow, alone, graded, ↓reduceIte, Job.beginBatch, Job.refusePause, receiver,
      Scene.withMailbox_slot, testcases, List.length_cons, Nat.add_eq_zero_iff, Nat.one_ne_zero, and_false]
    exact ⟨rfl, trivial, trivial, rfl⟩

/-- Where there are no testcases nothing is run. -/
theorem takes_none {value : Json} (engaged : job.Engaged id slot)
    (stage : job.stage = .concluded .editorRun (.finished value)) (alone : job.batch = none)
    (graded : Job.graded slot = true) (testcases : slot.state.testcases = []) :
    ∃ mailbox, Point.Takes settings loader id ⟨now, slot, job⟩ none
      ⟨now, { slot with mailbox := mailbox }, job.at_ (.leaving (.outcome (.finished value)))⟩ := by
  obtain ⟨number, receiver, -, -⟩ := engaged.armed
  refine ⟨slot.mailbox.acceptPause number false, fun asked => ?_⟩
  simp only [Job.step, stage, Job.follow, alone, graded, ↓reduceIte, Job.beginBatch, Job.refusePause, receiver,
    Scene.withMailbox_slot, testcases, List.length_nil]
  exact ⟨trivial, trivial, trivial, rfl⟩

/-- An editor's run that has come to a value is followed by all testcases. -/
theorem Path.marks_all (prompt : loader.Prompt) {value : Json} (engaged : job.Engaged id slot)
    (stage : job.stage = .concluded .editorRun (.finished value)) (alone : job.batch = none)
    (graded : Job.graded slot = true) :
    ∃ waits last, Path settings loader id ⟨now, slot, job⟩ waits last ∧
      waits ≤ trialEfforts settings slot.state.brief slot.state.testcases ∧
      last.job.reply? = some (.outcome (.finished value)) ∧ last.slot.permit = {} ∧
      last.slot.state.brief = slot.state.brief ∧
      last.slot.state.testcases = slot.state.testcases.map (marked slot.state.basis) := by
  cases testcases : slot.state.testcases with
  | nil =>
    let idle : Job engine := job.at_ (.leaving (.outcome (.finished value)))
    obtain ⟨mailbox, ends⟩ : ∃ mailbox, Point.Takes settings loader id ⟨now, slot, job⟩ none
        ⟨now, { slot with mailbox := mailbox }, idle⟩ := takes_none engaged stage alone graded testcases
    obtain ⟨after, left⟩ : ∃ after, Path settings loader id ⟨now, { slot with mailbox := mailbox }, idle⟩ 0 _ :=
      Path.leaves rfl engaged.permit
    exact ⟨0, _, .goes ends left, Nat.zero_le _, rfl, rfl, rfl, testcases⟩
  | cons t ts =>
    obtain ⟨mailbox, first, begins⟩ : ∃ mailbox, _ ∧ Point.Takes settings loader id ⟨now, slot, job⟩ none
        ⟨now, { slot with mailbox := mailbox }, _⟩ := takes_first engaged stage alone graded testcases
    obtain ⟨waits, last, path, few, there, permit, brief, all⟩ := Path.marks prompt (.finished value) ts [] now
      first rfl (by simp) rfl rfl rfl testcases
    obtain ⟨after, left⟩ : ∃ after, Path settings loader id last 0 _ :=
      Path.leaves there (permit.trans engaged.permit)
    exact ⟨waits, _, .goes begins (path.trans left), few, rfl, rfl, brief, all⟩

end Script

theorem Hub.effort_editor (slot : Slot Script.engine) :
    effort settings slot (.evaluate .editorRun) =
      waitEffort settings + runEffort settings slot.state .editorRun (Script.editorProgram slot.state) +
        Script.trialEfforts settings slot.state.brief slot.state.testcases + 1 := rfl

namespace Hub.Holds

open Script

/-- An editor's run that is followed by the testcases if it comes to a value. Each of them comes out then as it does
by itself. -/
theorem evaluates_graded {hub : Hub engine} {w : WorkspaceId} {slot : Slot engine} {now : Nat}
    (holds : hub.Holds settings loader w slot) (prompt : loader.Prompt) (free : slot.permit = {})
    (graded : Job.graded slot = true) :
    let p := editorProgram slot.state
    ∃ lines slept result time last after,
      Ride false (begin p.context (Job.optionsFor settings slot.state .editorRun p) p.origin) now lines slept result ∧
      hub.perform now w (.evaluate .editorRun) = (last, time, some (.outcome (result.own p.prependLines))) ∧
      last.Holds settings loader w after ∧ after.permit = {} ∧
      ∀ value, result = .finished value →
        after.state.testcases = slot.state.testcases.map (marked slot.state.basis) := by
  intro p
  obtain ⟨mailbox, number, engaged, begun⟩ : ∃ mailbox number, _ ∧
      Path settings loader 0 ⟨now, slot, { operation := .evaluate .editorRun }⟩ 0 _ :=
    Workbench.Path.composes prompt free
  obtain ⟨lines, slept, result, time, waits, ride, few, path⟩ := Path.runs settings loader now engaged rfl
  have few : waits < runEffort settings slot.state .editorRun (editorProgram slot.state) := few
  let ready : Slot engine :=
    { slot with
      permit := { holder := some 0 }, mailbox := mailbox, suspended := none
      state := slot.state.renewed engine.makeContext }
  let ended := Job.closed settings loader (Job.launched .editorRun p (Job.optionsFor settings slot.state .editorRun p))
    { ready with state := ready.state.onOutput (·.beginRun.appendLines lines) } result
  let concluded : Job engine :=
    { operation := .evaluate .editorRun, receiver := some number, stage := .concluded .editorRun ended.2 }
  have leaves : p.Leaves ready lines result ended.1 := Job.closed_leaves (by simp) rfl
  have outcome : ended.2 = result.own p.prependLines := Job.closed_own settings loader (by simp)
  obtain ⟨-, permit, own⟩ : ended.1.id = ready.id ∧ ended.1.permit = ready.permit ∧
      ended.1.mailbox = ready.mailbox := Job.closed_door ..
  have path : Path settings loader 0 ⟨now, ready, _⟩ waits ⟨time, ended.1, concluded⟩ := path
  by_cases finished : ∃ value, result = .finished value
  · obtain ⟨value, rfl⟩ := finished
    have engaged : concluded.Engaged 0 ended.1 := engaged.of_same permit own rfl
    have brief : ended.1.state.brief = slot.state.brief := leaves.brief
    have testcases : ended.1.state.testcases = slot.state.testcases := rfl
    obtain ⟨more, last, rest, fewer, answered, rests, -, all⟩ : ∃ more last,
        Path settings loader 0 ⟨time, ended.1, concluded⟩ more last ∧ _ :=
      Path.marks_all prompt engaged rfl rfl (leaves.graded.trans graded)
    rw [brief, testcases] at fewer
    rw [testcases, WorkspaceState.basis_of_brief brief] at all
    have enough : 0 + (waits + more) < effort settings slot (.evaluate .editorRun) := by
      rw [effort_editor]
      omega
    obtain ⟨hub', performed, there⟩ := holds.perform (begun.trans (path.trans rest)) answered enough
    exact ⟨lines, slept, _, _, hub', _, ride, performed, there, rests, fun _ _ => all⟩
  · obtain ⟨after, rest⟩ : ∃ after, Path settings loader 0 ⟨time, ended.1, concluded⟩ 0 _ :=
      Workbench.Path.answers rfl rfl permit fun _ ⟨value, same⟩ =>
        absurd ⟨value, RunResult.own_finished.1 (outcome.symm.trans same)⟩ finished
    have enough : 0 + (waits + 0) < effort settings slot (.evaluate .editorRun) := by
      rw [effort_editor]
      omega
    obtain ⟨hub', performed, there⟩ := holds.perform (begun.trans (path.trans rest)) (by rw [outcome]; rfl) enough
    exact ⟨lines, slept, result, _, hub', _, ride, performed, there, rfl,
      fun value same => absurd ⟨value, same⟩ finished⟩

end Hub.Holds

end Workbench
