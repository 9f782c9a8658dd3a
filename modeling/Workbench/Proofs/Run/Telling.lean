/-
What a step tells, and why.

Each transition that is told has its place in the life of the job that tells it:
`Job.Speaks` has, for each kind, where the job stands and what it finds then.
-/
import Workbench.Proofs.Run.Rule

namespace Workbench

variable {E : Engine}

/-! ## What has been told -/

/-- The transitions among what is seen. -/
@[simp] def Effect.event? : Effect E → Option Event
  | .event e => some e
  | _ => none

@[simp] theorem filterMap_event? (e : Effect E) (rest : List (Effect E)) :
    (e :: rest).filterMap Effect.event? = e.event?.toList ++ rest.filterMap Effect.event? := by
  rw [List.filterMap_cons]
  cases e.event? <;> rfl

theorem mem_of_event {effects : List (Effect E)} {e : Event} (told : e ∈ effects.filterMap Effect.event?) :
    .event e ∈ effects := by
  obtain ⟨effect, here, same⟩ := List.mem_filterMap.1 told
  cases effect <;> cases same
  exact here

/-- How it is told that a testcase has come out, after a run that was one's. -/
def Mode.comesOut (mode : Mode) (kind : OutcomeKind) : List Occurrence :=
  match mode with
  | .testcaseRun i => [if kind = .finished then .testcaseSucceeded i else .testcaseFailed i]
  | _ => []

/-- What is told at the end of a run. -/
def Mode.ending (mode : Mode) (kind : OutcomeKind) : List Occurrence :=
  mode.comesOut kind ++ [.runCompleted mode kind]

namespace Scene

variable (h : House) (sc : Scene E)

/-- The transitions that have been told. -/
def told (sc : Scene E) : List Event := sc.effects.filterMap Effect.event?

theorem mem_told {sc : Scene E} {e : Event} : e ∈ sc.told ↔ .event e ∈ sc.effects :=
  ⟨mem_of_event, fun seen => List.mem_filterMap.2 ⟨_, seen, rfl⟩⟩

/-- How a testcase came out is told at the end of its run. -/
theorem told_ended (mode : Mode) (kind : OutcomeKind) :
    (sc.ended mode (if kind = .finished then .testcaseSucceeded else .testcaseFailed)).filterMap Effect.event? =
      (mode.comesOut kind).map (Event.mk sc.slot.id) := by
  cases mode with
  | testcaseRun i => cases kind <;> rfl
  | _ => rfl

theorem finishInterrupted_told (mode : Mode) :
    (sc.finishInterrupted h mode).1.told = sc.told ++ (mode.comesOut .interrupted).map (Event.mk sc.slot.id) := by
  simp only [told, finishInterrupted_effects, List.filterMap_append, filterMap_event?]
  exact (List.append_nil _).trans (congrArg (_ ++ ·) (sc.told_ended mode .interrupted))

end Scene

namespace Job

variable {h : House} {id : JobId} {sc : Scene E} {job : Job E} {a : Advance E}

/-- A testcase's run that is over has come out, and that is told; of another run nothing of the kind is. -/
theorem finish_told (l : Live E) (result : RunResult E.Snapshot) :
    (finish h sc l result).1.told =
      sc.told ++ (l.mode.comesOut (finish h sc l result).2.kind).map (Event.mk sc.slot.id) := by
  unfold finish
  split
  · rw [Scene.told, Scene.finishValue_effects, List.filterMap_append]
    exact congrArg (_ ++ ·) (sc.told_ended l.mode .finished)
  · rw [Scene.told, Scene.finishFaults_effects, List.filterMap_append]
    exact congrArg (_ ++ ·) (sc.told_ended l.mode .errored)
  · split
    · rw [Scene.told, Scene.finishFaults_effects, List.filterMap_append]
      exact congrArg (_ ++ ·) (sc.told_ended l.mode .errored)
    · next other =>
      have none : ∀ kind, l.mode.comesOut kind = [] := by
        intro kind
        unfold Mode.comesOut
        split
        · next i testcase => exact absurd testcase (other i)
        · rfl
      rw [none]
      simp [Scene.told, apply_ite (List.filterMap Effect.event?)]

/-- The end of a run tells how it came out, and that it is over. -/
theorem conclude_told {mode : Mode} {end_ : Scene E × Outcome} (name : end_.1.slot.id = sc.slot.id)
    (told : end_.1.told = sc.told ++ (mode.comesOut end_.2.kind).map (Event.mk sc.slot.id)) :
    (conclude job mode end_).scene.told =
      sc.told ++ (mode.ending end_.2.kind).map (Event.mk sc.slot.id) := by
  unfold Scene.told at *
  simp [told, name, Mode.ending]

/-- While the libraries are waited for nothing is told. -/
theorem Waited.silent {wait : Wait} {next : Scene E} (waited : Waited h sc wait next) :
    next.effects.filterMap Effect.event? = sc.effects.filterMap Effect.event? := by
  rcases waited with rfl | rfl <;> simp

theorem launch_told (mode : Mode) (p : Prepared E) :
    (launch h sc job mode p).scene.told = sc.told ++ [⟨sc.slot.id, .runStarted mode⟩] := by
  simp [Scene.told, apply_ite (List.filterMap Effect.event?)]

theorem endBatch_told (batch : Batch) (aborted : Bool) :
    (endBatch h sc job batch aborted).scene.told =
      sc.told ++ [⟨sc.slot.id, .batchFinished (.ofTestcases sc.slot.state.testcases aborted)⟩] := by
  simp [Scene.told]

/-! ## The reasons -/

/-- What a transition that is told in a step tells of the job. -/
inductive Speaks (h : House) (sc : Scene E) (job : Job E) (a : Advance E) : Occurrence → Prop
  | outputCleared (empty : a.scene.slot.state.output = .cleared) : Speaks h sc job a .outputCleared
  | contextReset {purpose : Purpose} {wait : Wait} (stage : job.stage = .loading purpose wait) :
    Speaks h sc job a (.contextReset (E.makeContext sc.slot.state.selection).chapter)
  | runStarted {mode : Mode} {p : Prepared E} (stage : job.stage = .launching mode p)
    (launched : a = launch h sc job mode p) : Speaks h sc job a (.runStarted mode)
  | runCompleted {mode : Mode} {o : Outcome} (ended : a.job.stage = .concluded mode o) :
    Speaks h sc job a (.runCompleted mode o.kind)
  | testcaseReset {i : Nat} {t : Testcase} (stage : job.stage = .preparing (.testcaseRun i))
    (known : sc.slot.state.testcases[i]? = some t) : Speaks h sc job a (.testcaseReset i)
  | testcaseSucceeded {i : Nat} {o : Outcome} (ended : a.job.stage = .concluded (.testcaseRun i) o)
    (finished : o.kind = .finished) : Speaks h sc job a (.testcaseSucceeded i)
  | testcaseFailed {i : Nat} {o : Outcome} (ended : a.job.stage = .concluded (.testcaseRun i) o)
    (unfinished : o.kind ≠ .finished) : Speaks h sc job a (.testcaseFailed i)
  | batchStarted {batch : Batch} (under : a.job.batch = some batch) (first : batch.index = 0)
    (total : batch.total = sc.slot.state.testcases.length) (stage : a.job.stage = .preparing (.testcaseRun 0))
    (state : a.scene.slot.state = sc.slot.state) : Speaks h sc job a (.batchStarted batch.total)
  | batchFinished {batch : Batch} {aborted : Bool} (ended : a = endBatch h sc job batch aborted)
    (because : aborted = true → ∃ mode, job.stage = .concluded mode .interrupted) :
    Speaks h sc job a (.batchFinished (.ofTestcases sc.slot.state.testcases aborted))
  | debuggerReset (stage : job.stage = .admitted) (operation : job.operation = .reset) :
    Speaks h sc job a .debuggerReset

/-- What is told at the end of a run is so. -/
theorem speaks_end {mode : Mode} {o : Outcome} (ended : a.job.stage = .concluded mode o) :
    ∀ occ ∈ mode.ending o.kind, Speaks h sc job a occ := by
  intro occ here
  rcases List.mem_append.1 here with verdict | last
  · cases mode with
    | testcaseRun i =>
      rw [Mode.comesOut, List.mem_singleton] at verdict
      subst verdict
      split
      · next finished => exact .testcaseSucceeded ended finished
      · next unfinished => exact .testcaseFailed ended unfinished
    | _ => cases verdict
  · rw [List.mem_singleton.1 last]
    exact .runCompleted ended

/-- Whatever a step tells, it tells for its reason. -/
theorem Rule.speaks (rule : Rule h id sc job a) :
    ∃ occs : List Occurrence, a.scene.told = sc.told ++ occs.map (Event.mk sc.slot.id) ∧
      ∀ occ ∈ occs, Speaks h sc job a occ := by
  have silent : a.scene.told = sc.told → ∃ occs : List Occurrence,
      a.scene.told = sc.told ++ occs.map (Event.mk sc.slot.id) ∧ ∀ occ ∈ occs, Speaks h sc job a occ :=
    fun same => ⟨[], same.trans (List.append_nil _).symm, nofun⟩
  have single : ∀ {occ}, a.scene.told = sc.told ++ [⟨sc.slot.id, occ⟩] → Speaks h sc job a occ →
      ∃ occs : List Occurrence, a.scene.told = sc.told ++ occs.map (Event.mk sc.slot.id) ∧
        ∀ occ ∈ occs, Speaks h sc job a occ :=
    fun one speaks => ⟨[_], one, fun _ here => List.mem_singleton.1 here ▸ speaks⟩
  cases rule with
  | allBegun | gradedBegun =>
    exact single (by simp [Scene.told, arm, refusePause_slot])
      (.batchStarted rfl rfl rfl rfl (by simp [arm, refusePause_slot]))
  | cutShort | completed => exact single (endBatch_told ..) (.batchFinished rfl Bool.noConfusion)
  | aborted stage => exact single (endBatch_told ..) (.batchFinished rfl fun _ => ⟨_, stage⟩)
  | testcase stage known => exact single (by simp [Scene.told]) (.testcaseReset stage known)
  | launched stage => exact single (launch_told ..) (.runStarted stage rfl)
  | reset stage operation =>
    refine ⟨[.outputCleared, .debuggerReset], by simp [Scene.told], ?_⟩
    simp only [List.mem_cons, List.not_mem_nil, or_false, forall_eq_or_imp, forall_eq]
    exact ⟨.outputCleared rfl, .debuggerReset stage operation⟩
  | resumed => exact single (by simp [Scene.told]) (.outputCleared rfl)
  | @loaded purpose wait next stage waited =>
    cases purpose with
    | testcaseRun i program =>
      refine single ?_ (.contextReset stage)
      simp [Scene.told, proceed, waited.silent, waited.slot]
    | editorRun | selection =>
      refine ⟨[.contextReset (E.makeContext sc.slot.state.selection).chapter, .outputCleared], ?_, ?_⟩
      · simp [Scene.told, proceed, waited.silent, waited.slot]
      · simp only [List.mem_cons, List.not_mem_nil, or_false, forall_eq_or_imp, forall_eq]
        exact ⟨.contextReset stage, .outputCleared rfl⟩
  | stoppedEarly | stopped =>
    refine ⟨_, conclude_told (by simp) ?_, speaks_end rfl⟩
    rw [Scene.finishInterrupted_told]
    simp [Scene.told]
    rfl
  | ended =>
    refine ⟨_, conclude_told (by simp) ?_, speaks_end rfl⟩
    rw [finish_told]
    simp [Scene.told]
  | _ => exact silent (by simp [Scene.told, arm])

/-- What a step that begins with nothing told tells, it tells of its own workspace and for its reason. -/
theorem Rule.speaks_of_told (rule : Rule h id sc job a) (fresh : sc.effects = []) {w : WorkspaceId} {occ : Occurrence}
    (told : .event ⟨w, occ⟩ ∈ a.scene.effects) : w = sc.slot.id ∧ Speaks h sc job a occ := by
  obtain ⟨occs, all, speaks⟩ := rule.speaks
  have here := Scene.mem_told.2 told
  rw [all, Scene.told, fresh, List.filterMap_nil, List.nil_append] at here
  obtain ⟨_, there, same⟩ := List.mem_map.1 here
  cases same
  exact ⟨rfl, speaks _ there⟩

end Job

end Workbench
