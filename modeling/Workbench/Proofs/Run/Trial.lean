/-
A testcase that is run.

Its run goes by what it is based on, which is the texts of the editor, what is selected
and how long runs may take (`Basis`), and by its own program. From these alone follow
what it comes to and the lines that it writes (`Script.grade`): its context is new, its
output begins behind what is there, and its result takes the place of the one before
(`Trial.Underway.step`). A run that is not looked after in time may be out of time instead.
-/
import Workbench.Proofs.Run.Attribution
import Workbench.Proofs.Run.Brief
import Workbench.Proofs.Run.Debugging
import Workbench.Proofs.Script.Account

namespace Workbench

/-! ## What a testcase is based on -/

/-- What a testcase's run goes by, apart from its program. -/
structure Basis where
  editorPrepend : String
  editorValue : String
  editorPostpend : String
  chapter : UInt8
  library : LibraryName
  globals : List (String × Json)
  execTimeMs : Nat

/-- What there is of a basis in a brief. -/
def Brief.basis (b : Brief) : Basis where
  editorPrepend := b.editorPrepend
  editorValue := b.editorValue
  editorPostpend := b.editorPostpend
  chapter := b.chapter
  library := b.library
  globals := b.globals
  execTimeMs := b.execTimeMs

/-- What the testcases of a workspace are based on. -/
def WorkspaceState.basis (s : WorkspaceState) : Basis := s.brief.basis

theorem WorkspaceState.basis_of_brief {a b : WorkspaceState} (same : a.brief = b.brief) : a.basis = b.basis :=
  congrArg Brief.basis same

namespace Basis

/-- What the context of a testcase is built from. -/
def selection (b : Basis) : Selection where
  chapter := b.chapter
  library := .named b.library
  globals := b.globals

/-- The program of a testcase, behind the texts of the editor. -/
def composition (b : Basis) (program : String) : Composition :=
  .ofFragments b.editorPrepend b.editorValue b.editorPostpend (some program)

/-- The run of a testcase, ready to be launched. -/
def prepared (b : Basis) (program : String) : Prepared Script.engine where
  origin := .source (b.composition program).text
  context := Script.engine.makeContext b.selection
  prependLines := (b.composition program).prependLines

end Basis

/-! ## What a run comes to -/

/-- How a testcase's run comes out, and the lines that it writes. -/
structure Grade where
  outcome : Outcome
  lines : List String

namespace Grade

/-- The result of the testcase. -/
def verdict (g : Grade) : Verdict := g.outcome.verdict

/-- What is added to the output. -/
def entries (g : Grade) : List OutputEntry := g.outcome.closing g.lines

end Grade

/-- What a result means for a testcase. To be suspended is to fail. -/
def RunResult.graded {Snapshot : Type} (prependLines : Int32) : RunResult Snapshot → Outcome
  | .finished value => .finished value
  | .failed faults => .errored (faults.map (·.remapped prependLines))
  | .suspended _ _ => .errored []

theorem Job.finish_graded {E : Engine} {h : House} {sc : Scene E} {l : Live E} {i : Nat}
    (mode : l.mode = .testcaseRun i) (result : RunResult E.Snapshot) :
    (Job.finish h sc l result).2 = result.graded l.prependLines := by
  cases result <;> simp only [Job.finish, mode] <;> rfl

namespace Script

/-- How a run that tells so much comes out. -/
def Account.grade (told : Account) (prependLines : Int32) : Grade := ⟨told.result.graded prependLines, told.lines⟩

/-- How a testcase comes out on its basis, by itself. -/
def grade (b : Basis) (program : String) : Grade :=
  (sourceEnding b.execTimeMs (b.prepared program).context (b.composition program).text).account.grade
    (b.composition program).prependLines

theorem OutOfTime.timedOut {result : RunResult Machine} (late : OutOfTime result) (prependLines : Int32) :
    TimedOut (result.graded prependLines) := by
  obtain ⟨message, line, rfl⟩ := late
  exact ⟨message, _, rfl⟩

/-! ## Trials -/

/-- A testcase that is run: the state in which it is reset, its place and its program, and the batch it belongs to
if it does to one. -/
structure Trial where
  start : WorkspaceState
  index : Nat
  program : String
  batch : Option Batch := none

namespace Trial

/-- The run, ready to be launched. -/
def prepared (t : Trial) : Prepared engine := t.start.basis.prepared t.program

/-- How the testcase comes out by itself. -/
def grade (t : Trial) : Grade := Script.grade t.start.basis t.program

/-- How far the run has come, with the moments at which its next step is in time if it was so in the past. -/
inductive Stands (t : Trial) (past : Prop) (due : Nat → Prop) (output : OutputLog) (stage : Stage engine) : Prop
  | loading {wait : Wait} (here : stage = .loading (.testcaseRun t.index t.program) wait)
    (entries : output.entries = t.start.output.entries)
  | launching (here : stage = .launching (.testcaseRun t.index) t.prepared)
    (entries : output.entries = t.start.output.entries)
  | starting {options : RunOptions}
    (here : stage = .starting { mode := .testcaseRun t.index, prepared := t.prepared, options := options })
    (budget : options.budgetMs = t.start.basis.execTimeMs) (unbroken : options.Unbroken)
    (during : output.During t.start.output.entries [])
  | running {l : Live engine} {rest : Account} {lines : List String} (here : stage = .running l)
    (mode : l.mode = .testcaseRun t.index) (prependLines : l.prependLines = t.prepared.prependLines)
    (unpaused : l.paused = false) (tells : (l.run : Run).Tells rest)
    (prompt : past → ∀ now, due now → (l.run : Run).Prompt now)
    (during : output.During t.start.output.entries lines)
    (whole : (rest.after lines).grade t.prepared.prependLines = t.grade)

/-- The run is under way: nothing has changed but what is the run's own. -/
structure Underway (t : Trial) (past : Prop) (due : Nat → Prop) (state : WorkspaceState) (job : Job engine) : Prop where
  brief : state.brief = t.start.brief
  reset : state.testcases = (t.start.resetTestcase t.index).testcases
  batch : job.batch = t.batch
  stands : t.Stands past due state.output job.stage

/-- The run has come to its end, and so has what it leaves behind: its result and one entry of the output. Unless it
was out of time because it was not looked after, it came out as it does by itself. -/
structure Decided (t : Trial) (past : Prop) (state : WorkspaceState) (g : Grade) : Prop where
  brief : state.brief = t.start.brief
  testcases : state.testcases = (t.start.setResult t.index g.verdict).testcases
  entries : state.output.entries = t.start.output.entries ++ g.entries
  decided : g.verdict.isPending = false
  whole : g.outcome ≠ .interrupted
  fair : past ∨ ¬ TimedOut g.outcome → g = t.grade

theorem Decided.imp {t : Trial} {past earlier : Prop} {state : WorkspaceState} {g : Grade}
    (decided : t.Decided past state g) (imp : earlier → past) : t.Decided earlier state g :=
  { decided with fair := fun inTime => decided.fair (inTime.imp_left imp) }

/-- What one step comes to: the run goes on, or has come to its end. -/
def Goes (t : Trial) (past : Prop) (due : Nat → Prop) (a : Advance engine) : Prop :=
  t.Underway past due a.scene.slot.state a.job ∨
    ∃ g, a.job.stage = .concluded (.testcaseRun t.index) g.outcome ∧ a.job.batch = t.batch ∧
      t.Decided past a.scene.slot.state g

variable {t : Trial} {past : Prop} {due : Nat → Prop} {h : House} {id : JobId} {sc : Scene engine} {job : Job engine}
  {state : WorkspaceState}

theorem Underway.owning (way : t.Underway past due state job) : job.stage.place = .owning := by
  cases way.stands with
  | loading here | launching here | starting here | running here => rw [here]; rfl

theorem Underway.unended (way : t.Underway past due state job) : job.stage.ended? = none := by
  cases way.stands with
  | loading here | launching here | starting here | running here => rw [here]; rfl

/-- A testcase that is reset is about to be run. -/
theorem begins {i : Nat} {own : Testcase} (stage : job.stage = .preparing (.testcaseRun i))
    (known : sc.slot.state.testcases[i]? = some own) :
    let a := Job.step h id sc job
    Trial.Underway ⟨sc.slot.state, i, own.program, job.batch⟩ past due a.scene.slot.state a.job := by
  simp only [Job.step, stage, Job.prepare, known]
  exact ⟨WorkspaceState.setResult_brief .., rfl, rfl, .loading rfl rfl⟩

/-! ### One step -/

/-- What is composed for a testcase, with a new context, is what its basis has. -/
theorem composed_eq {slot : Slot engine} (brief : slot.state.brief = t.start.brief) :
    Job.composed
      { slot with state := { slot.state with context := engine.makeContext slot.state.selection } } (some t.program) =
      t.prepared := by
  rw [prepared, ← WorkspaceState.basis_of_brief brief]
  rfl

theorem loading_goes {wait : Wait} (way : t.Underway past due sc.slot.state job)
    (here : job.stage = .loading (.testcaseRun t.index t.program) wait)
    (entries : sc.slot.state.output.entries = t.start.output.entries) (later : Prop) (next : Nat → Prop) :
    t.Goes later next (Job.step h id sc job) := by
  have launches : ∀ sc' : Scene engine, sc'.slot = sc.slot →
      t.Goes later next (Job.proceed h sc' job (.testcaseRun t.index t.program)) := by
    intro sc' same
    have ready : Job.composed sc'.renewContext.slot (some t.program) = t.prepared := by
      rw [Scene.renewContext_slot, same]
      exact composed_eq way.brief
    refine .inl ⟨?_, ?_, way.batch, .launching ?_ ?_⟩
    · exact (congrArg (·.state.brief) same).trans way.brief
    · exact (congrArg (·.state.testcases) same).trans way.reset
    · exact congrArg (Stage.launching _) ready
    · exact (congrArg (·.state.output.entries) same).trans entries
  simp only [Job.step, here]
  unfold Job.await
  rcases polled : wait.poll h.loader h.now sc.asked with ⟨count, status⟩
  cases status with
  | pending => exact .inl ⟨way.brief, way.reset, way.batch, .loading rfl entries⟩
  | ready => exact launches _ rfl
  | timedOut => exact launches _ rfl

theorem launching_goes (way : t.Underway past due sc.slot.state job)
    (here : job.stage = .launching (.testcaseRun t.index) t.prepared)
    (entries : sc.slot.state.output.entries = t.start.output.entries) (later : Prop) (next : Nat → Prop) :
    t.Goes later next (Job.step h id sc job) := by
  simp only [Job.step, here]
  refine .inl ⟨?_, ?_, ?_, ?_⟩
  · rw [Job.launch_slot]
    exact way.brief
  · rw [Job.launch_slot]
    exact way.reset
  · rw [Job.launch_job]
    exact way.batch
  · rw [Job.launch_slot, Job.launch_job]
    refine .starting rfl ?_ (.inl rfl) (entries ▸ OutputLog.beginRun_during _)
    exact congrArg Basis.execTimeMs (WorkspaceState.basis_of_brief way.brief)

theorem starting_goes {options : RunOptions} (way : t.Underway past due sc.slot.state job) (quiet : Job.Quiet sc job)
    (here : job.stage = .starting { mode := .testcaseRun t.index, prepared := t.prepared, options := options })
    (budget : options.budgetMs = t.start.basis.execTimeMs) (unbroken : options.Unbroken)
    (during : sc.slot.state.output.During t.start.output.entries []) (later : Prop) (next : Nat → Prop) :
    t.Goes later next (Job.step h id sc job) := by
  simp only [Job.step, here, Job.start_quiet quiet]
  refine .inl ⟨way.brief, way.reset, way.batch, .running rfl rfl rfl rfl ⟨rfl, unbroken⟩ ?_ during ?_⟩
  · exact fun _ _ _ => trivial
  · rw [budget]
    rfl

/-- A run with a result has come to its end, and what it has told is all that it tells. -/
theorem ended_goes {l : Live engine} {told : Account} {lines more : List String} {result : RunResult Machine}
    (way : t.Underway past due sc.slot.state job) (mode : l.mode = .testcaseRun t.index)
    (prependLines : l.prependLines = t.prepared.prependLines)
    (during : sc.slot.state.output.During t.start.output.entries lines)
    (whole : (told.after lines).grade t.prepared.prependLines = t.grade) {timely : Prop}
    (fair : timely ∨ ¬ OutOfTime result → told = ⟨more, result⟩) (next : Nat → Prop) :
    t.Goes timely next
      (Job.conclude job l.mode (Job.finish h ((sc.heard more).add (.engine .release)) l result)) := by
  let ends := Job.finish h ((sc.heard more).add (.engine .release)) l result
  have outcome : ends.2 = result.graded l.prependLines := Job.finish_graded mode result
  obtain ⟨testcases, decided⟩ : _ ∧ ends.2.verdict.isPending = false := Job.finish_testcase mode result
  have output : ends.1.slot.state.output = _ := Job.finish_output l result
  have ran : ends.2 ≠ .interrupted := Job.finish_ran l result
  rw [outcome] at testcases decided output ran
  refine .inr ⟨⟨result.graded l.prependLines, lines ++ more⟩, ?_, way.batch, ?_⟩
  · rw [← outcome, ← mode]
    rfl
  · refine ⟨(Job.finish_brief ..).trans way.brief, ?_, ?_, decided, ran, fun inTime => ?_⟩
    · refine testcases.trans ((congrArg (List.modify · _ _) way.reset).trans ?_)
      exact List.modify_modify_eq ..
    · rw [Job.conclude_slot, output]
      exact Outcome.close_entries (during.appendLines more) _
    · have told := fair (inTime.imp_right fun on late => on (late.timedOut _))
      rw [← whole, told, prependLines]
      rfl

theorem running_goes {l : Live engine} {rest : Account} {lines : List String}
    (way : t.Underway past due sc.slot.state job) (quiet : Job.Quiet sc job) (here : job.stage = .running l)
    (mode : l.mode = .testcaseRun t.index) (prependLines : l.prependLines = t.prepared.prependLines)
    (unpaused : l.paused = false) (tells : (l.run : Run).Tells rest)
    (prompt : past → ∀ now, due now → (l.run : Run).Prompt now)
    (during : sc.slot.state.output.During t.start.output.entries lines)
    (whole : (rest.after lines).grade t.prepared.prependLines = t.grade) :
    let a := Job.step h id sc job
    t.Goes (past ∧ due h.now) (Stride.due ⟨h.now, sc.slot, job, a⟩) a := by
  intro a
  have made : a = Job.race h sc job l := by simp only [a, Job.step, here]
  have accounts := Run.poll_accounts tells fun timely : past ∧ due h.now => prompt timely.1 h.now timely.2
  have tokens : ({ paused := l.paused } : Tokens) = {} := by rw [unpaused]
  rcases polled : Run.poll l.run h.now {} with ⟨more, result | ⟨run, wake⟩⟩ <;> rw [polled] at accounts
  · cases accounts with
    | ended final fair =>
      have polled' : engine.poll l.run h.now { paused := l.paused } = (more, .ended result) := tokens ▸ polled
      rw [made, Job.race_ended polled']
      exact ended_goes way mode prependLines during whole fair _
  · cases accounts with
    | @pending _ later next wake tells begun prompt asks =>
      have polled' : engine.poll l.run h.now { paused := l.paused } = (more, .pending (.flying next) wake) :=
        tokens ▸ polled
      obtain ⟨slot, listening, job'⟩ := Job.race_quiet (h := h) quiet polled'
      have stage : a.job.stage = .running { l with run := .flying next, listening := listening } := by
        rw [made, job']
        rfl
      have prompt : past ∧ due h.now → ∀ now, Stride.due ⟨h.now, sc.slot, job, a⟩ now → next.Prompt now :=
        fun timely now due => (prompt timely).later asks (due l more (.flying next) _ here polled')
      have whole : (later.after (lines ++ more)).grade t.prepared.prependLines = t.grade := by
        rw [← whole, begun, Account.after_after]
      refine .inl ⟨?_, ?_, ?_, .running stage mode prependLines unpaused tells prompt ?_ whole⟩
      · rw [made, slot]
        exact way.brief
      · rw [made, slot]
        exact way.reset
      · rw [made, job']
        exact way.batch
      · rw [made, slot]
        exact during.appendLines more

/-- A run that nobody signals goes on, or comes to its end. -/
theorem Underway.step (way : t.Underway past due sc.slot.state job) (quiet : Job.Quiet sc job) :
    let a := Job.step h id sc job
    t.Goes (past ∧ due h.now) (Stride.due ⟨h.now, sc.slot, job, a⟩) a := by
  cases way.stands with
  | loading here entries => exact loading_goes way here entries ..
  | launching here entries => exact launching_goes way here entries ..
  | starting here budget unbroken during => exact starting_goes way quiet here budget unbroken during ..
  | running here mode prependLines unpaused tells prompt during whole =>
    exact running_goes way quiet here mode prependLines unpaused tells prompt during whole

end Trial

end Script

end Workbench
