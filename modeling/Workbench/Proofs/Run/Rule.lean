/-
The rules by which a job steps: all that one step can do, under which condition
and with which result.

A step is looked at through `step_rule` only. Each rule has the stage at which
it applies, what it finds in the slot, and the scene and the job that it leaves;
a fact about every step is then shown rule by rule.
-/
import Workbench.Proofs.Run.Scene

namespace Workbench

variable {E : Engine}

/-! ## Scenes between two rules -/

namespace Scene

/-- The loader has been asked as often as a wait has it asked now. -/
def waited (h : House) (sc : Scene E) (wait : Wait) : Scene E :=
  let asked := (wait.poll h.loader h.now sc.asked).1
  { sc with asked := asked, effects := sc.effects ++ List.replicate (asked - sc.asked) .asked }

/-- A run was polled: its lines are in the output. -/
def heard (sc : Scene E) (lines : List String) : Scene E :=
  (sc.onState (·.onOutput (·.appendLines lines))).add (.engine (.poll lines))

/-- The first signal of a number has been taken out of its queue. -/
def took (sc : Scene E) (number : Nat) (rest : List Signal) : Scene E :=
  sc.withMailbox { sc.slot.mailbox with queues := sc.slot.mailbox.queues.set number rest }

variable (h : House) (sc : Scene E)

@[simp] theorem waited_slot (wait : Wait) : (sc.waited h wait).slot = sc.slot := rfl

@[simp] theorem heard_slot (lines : List String) :
    (sc.heard lines).slot = { sc.slot with state := sc.slot.state.onOutput (·.appendLines lines) } := rfl

@[simp] theorem took_slot (number : Nat) (rest : List Signal) :
    (sc.took number rest).slot =
      { sc.slot with
        mailbox := { sc.slot.mailbox with queues := sc.slot.mailbox.queues.set number rest } } := rfl

@[simp] theorem waited_effects (wait : Wait) :
    (sc.waited h wait).effects =
      sc.effects ++ List.replicate ((wait.poll h.loader h.now sc.asked).1 - sc.asked) .asked := rfl

@[simp] theorem heard_effects (lines : List String) :
    (sc.heard lines).effects = sc.effects ++ [.engine (.poll lines)] := rfl

@[simp] theorem took_effects (number : Nat) (rest : List Signal) : (sc.took number rest).effects = sc.effects := rfl

end Scene

namespace Job

/-- A job finds a signal, or none yet, or learns that there will be none. -/
theorem receive_cases (sc : Scene E) (job : Job E) :
    (∃ number s rest, job.receiver = some number ∧ sc.slot.mailbox.queue number = s :: rest ∧
      receive sc job = (sc.took number rest, .signal s)) ∨
    (∃ number, job.receiver = some number ∧ sc.slot.mailbox.queue number = [] ∧
      sc.slot.mailbox.listens number = true ∧ receive sc job = (sc, .pending)) ∨
    ((∀ number, job.receiver = some number →
      sc.slot.mailbox.queue number = [] ∧ sc.slot.mailbox.listens number = false) ∧
      receive sc job = (sc, .disarmed)) := by
  unfold receive Mailbox.receive Mailbox.tryReceive
  cases hr : job.receiver with
  | none => exact .inr (.inr ⟨by simp, rfl⟩)
  | some number =>
    cases hq : sc.slot.mailbox.queue number with
    | cons s rest => exact .inl ⟨number, s, rest, rfl, hq, by simp only [hq]; rfl⟩
    | nil =>
      cases hl : sc.slot.mailbox.listens number with
      | true => exact .inr (.inl ⟨number, rfl, hq, hl, by simp only [hq, hl, ↓reduceIte]; rfl⟩)
      | false =>
        refine .inr (.inr ⟨?_, by simp only [hq, hl, Bool.false_eq_true, ↓reduceIte]; rfl⟩)
        rintro _ ⟨⟩
        exact ⟨hq, hl⟩

/-- Behind an engine that has left something of the turn a job finds what there is. -/
theorem hear_unspent {sc : Scene E} {job : Job E} {wake : Wake} (left : wake ≠ .spent) :
    hear sc job wake = receive sc job := if_neg left

/-- Nothing was delivered to a job that it has not looked at. -/
def Quiet (sc : Scene E) (job : Job E) : Prop :=
  ∀ number, job.receiver = some number → sc.slot.mailbox.queue number = []

/-- A wait for the libraries is over, and the scene then. -/
def Waited (h : House) (sc : Scene E) (wait : Wait) (next : Scene E) : Prop :=
  next = sc.waited h wait ∨ next = (sc.waited h wait).warn h "Error loading libraries"

theorem Waited.slot {h : House} {sc next : Scene E} {wait : Wait} (waited : Waited h sc wait next) :
    next.slot = sc.slot := by
  rcases waited with rfl | rfl <;> rfl

/-! ## The rules -/

/-- What a step of a job can do. -/
inductive Rule (h : House) (id : JobId) (sc : Scene E) (job : Job E) : Advance E → Prop
  | refused {mode : Mode} {r : Refusal} (stage : job.stage = .submitted)
    (operation : job.operation = .evaluate mode) (because : refusal? sc.slot mode = some r) :
    Rule h id sc job { scene := sc, job := job.at_ (.settled (.refused r)) }
  | enqueued (stage : job.stage = .submitted)
    (allowed : ∀ mode, job.operation = .evaluate mode → refusal? sc.slot mode = none) :
    Rule h id sc job (enqueue id sc job)
  | waiting (stage : job.stage = .queued) (held : sc.slot.permit.isHeldBy id = false) :
    Rule h id sc job { scene := sc, job := job, wake := some .never }
  | admitted (stage : job.stage = .queued) (held : sc.slot.permit.isHeldBy id = true) :
    Rule h id sc job { scene := sc, job := job.at_ .admitted }
  | armed {mode : Mode} (stage : job.stage = .admitted) (operation : job.operation = .evaluate mode) :
    Rule h id sc job
      { scene := (arm sc job mode.acceptsPause).1
        job := (arm sc job mode.acceptsPause).2.at_ (.preparing mode) }
  | allEmpty (stage : job.stage = .admitted) (operation : job.operation = .runAll)
    (empty : sc.slot.state.testcases.length = 0) :
    Rule h id sc job
      { scene := (arm sc job false).1, job := (arm sc job false).2.at_ (.leaving (.summary {})) }
  | allBegun (stage : job.stage = .admitted) (operation : job.operation = .runAll)
    (nonempty : sc.slot.state.testcases.length ≠ 0) :
    Rule h id sc job
      { scene := ((arm sc job false).1.sayBriefly h "Running all testcases!" .success).occur
          (.batchStarted sc.slot.state.testcases.length)
        job := { (arm sc job false).2 with
          batch := some { total := sc.slot.state.testcases.length }
          stage := .preparing (.testcaseRun 0) } }
  | reset (stage : job.stage = .admitted) (operation : job.operation = .reset) :
    Rule h id sc job
      { scene := ((sc.forget.clearHighlight.draw (.inspect none)).clearOutput).occur .debuggerReset
        job := job.at_ (.leaving .done) }
  | unchanged (stage : job.stage = .admitted)
    (operation : job.operation = .selectChapter sc.slot.state.chapter ∨
      job.operation = .selectLibrary sc.slot.state.library) :
    Rule h id sc job { scene := sc, job := job.at_ (.leaving (.switched false)) }
  | chapter {chapter : UInt8} (stage : job.stage = .admitted)
    (operation : job.operation = .selectChapter chapter) (other : sc.slot.state.chapter ≠ chapter) :
    Rule h id sc job
      { scene := (sc.onState ({ · with chapter := chapter })).forgetShown
        job := job.load h (.selection ("Switched to Source §" ++ toString chapter.toNat)) }
  | library {library : LibraryName} (stage : job.stage = .admitted)
    (operation : job.operation = .selectLibrary library) (other : sc.slot.state.library ≠ library) :
    Rule h id sc job
      { scene := (sc.onState ({ · with library := library })).forgetShown
        job := job.load h (.selection ("Switched to " ++ library.text ++ " library")) }
  | deprived {mode : Mode} {r : Refusal} (stage : job.stage = .preparing mode)
    (because : refusal? sc.slot mode = some r) (alone : job.batch = none) :
    Rule h id sc job { scene := sc, job := job.at_ (.leaving (.refused r)) }
  | cutShort {mode : Mode} {r : Refusal} {batch : Batch} (stage : job.stage = .preparing mode)
    (because : refusal? sc.slot mode = some r) (under : job.batch = some batch) :
    Rule h id sc job (endBatch h sc job batch false)
  | editor (stage : job.stage = .preparing .editorRun) :
    Rule h id sc job { scene := sc.forget, job := job.load h .editorRun }
  | repl (stage : job.stage = .preparing .replRun) : Rule h id sc job (prepare h sc job .replRun)
  | resumed {s : Suspension E.Snapshot} (stage : job.stage = .preparing .debugResume)
    (suspended : sc.slot.suspended = some s) :
    Rule h id sc job
      { scene := sc.forget.clearOutput.clearHighlight
        job := job.at_ (.launching .debugResume
          { origin := .snapshot s.snapshot, context := s.context, prependLines := s.prependLines }) }
  | testcase {index : Nat} {t : Testcase} (stage : job.stage = .preparing (.testcaseRun index))
    (known : sc.slot.state.testcases[index]? = some t) :
    Rule h id sc job
      { scene := (sc.onState (·.resetTestcase index)).occur (.testcaseReset index)
        job := job.load h (.testcaseRun index t.program) }
  | loading {purpose : Purpose} {wait later : Wait} {wake : Wake} (stage : job.stage = .loading purpose wait) :
    Rule h id sc job
      { scene := sc.waited h wait, job := job.at_ (.loading purpose later), wake := some wake }
  | loaded {purpose : Purpose} {wait : Wait} {next : Scene E} (stage : job.stage = .loading purpose wait)
    (waited : Waited h sc wait next) :
    Rule h id sc job (proceed h next job purpose)
  | launched {mode : Mode} {p : Prepared E} (stage : job.stage = .launching mode p) :
    Rule h id sc job (launch h sc job mode p)
  | stoppedEarly {l : Launch E} {number : Nat} {rest : List Signal} (stage : job.stage = .starting l)
    (receiver : job.receiver = some number) (signal : sc.slot.mailbox.queue number = .interrupt :: rest) :
    Rule h id sc job (conclude job l.mode ((sc.took number rest).finishInterrupted h l.mode))
  | pausedEarly {l : Launch E} {number : Nat} {rest : List Signal} (stage : job.stage = .starting l)
    (receiver : job.receiver = some number) (signal : sc.slot.mailbox.queue number = .pause :: rest) :
    Rule h id sc job { scene := sc.took number rest, job := job.at_ (.starting { l with paused := true }) }
  | started {l : Launch E} (stage : job.stage = .starting l) (quiet : Quiet sc job) :
    Rule h id sc job
      { scene := sc.add (.engine (call l))
        job := job.at_ (.running
          { mode := l.mode
            run := runOf l.prepared l.options
            context := l.prepared.context
            prependLines := l.prepared.prependLines
            paused := l.paused }) }
  | ended {l : Live E} {lines : List String} {result : RunResult E.Snapshot} (stage : job.stage = .running l)
    (polled : E.poll l.run h.now { paused := l.paused } = (lines, .ended result)) :
    Rule h id sc job (conclude job l.mode (finish h ((sc.heard lines).add (.engine .release)) l result))
  | stopped {l : Live E} {lines : List String} {run : E.Run} {wake : Wake} {number : Nat} {rest : List Signal}
    (stage : job.stage = .running l)
    (polled : E.poll l.run h.now { paused := l.paused } = (lines, .pending run wake))
    (listening : l.listening = true) (receiver : job.receiver = some number)
    (signal : sc.slot.mailbox.queue number = .interrupt :: rest) :
    Rule h id sc job
      (conclude job l.mode
        (((((sc.heard lines).took number rest).add (.engine (.interrupt l.context))).add
          (.engine .release)).finishInterrupted h l.mode))
  | paused {l : Live E} {lines : List String} {run : E.Run} {wake : Wake} {number : Nat} {rest : List Signal}
    (stage : job.stage = .running l)
    (polled : E.poll l.run h.now { paused := l.paused } = (lines, .pending run wake))
    (listening : l.listening = true) (receiver : job.receiver = some number)
    (signal : sc.slot.mailbox.queue number = .pause :: rest) :
    Rule h id sc job
      { scene := (sc.heard lines).took number rest
        job := job.at_ (.running { l with run := run, paused := true }) }
  | unheard {l : Live E} {lines : List String} {run : E.Run} {wake : Wake} (stage : job.stage = .running l)
    (polled : E.poll l.run h.now { paused := l.paused } = (lines, .pending run wake))
    (listening : l.listening = true) (quiet : Quiet sc job)
    (disarmed : ∀ number, job.receiver = some number → sc.slot.mailbox.listens number = false) :
    Rule h id sc job
      { scene := sc.heard lines, job := job.at_ (.running { l with run := run, listening := false }) }
  | running {l : Live E} {lines : List String} {run : E.Run} {wake : Wake} (stage : job.stage = .running l)
    (polled : E.poll l.run h.now { paused := l.paused } = (lines, .pending run wake))
    (quiet : wake ≠ .spent → l.listening = true → Quiet sc job) :
    Rule h id sc job
      { scene := sc.heard lines, job := job.at_ (.running { l with run := run }), wake := some wake }
  | aborted {mode : Mode} {batch : Batch} (stage : job.stage = .concluded mode .interrupted)
    (under : job.batch = some batch) :
    Rule h id sc job (endBatch h sc job batch true)
  | next {mode : Mode} {outcome : Outcome} {batch : Batch} (stage : job.stage = .concluded mode outcome)
    (under : job.batch = some batch) (ran : outcome ≠ .interrupted) (more : batch.index + 1 < batch.total) :
    Rule h id sc job
      { scene := sc
        job := { job with
          batch := some { batch with index := batch.index + 1 }
          stage := .preparing (.testcaseRun (batch.index + 1)) } }
  | completed {mode : Mode} {outcome : Outcome} {batch : Batch} (stage : job.stage = .concluded mode outcome)
    (under : job.batch = some batch) (ran : outcome ≠ .interrupted) (last : batch.total ≤ batch.index + 1) :
    Rule h id sc job (endBatch h sc job batch false)
  | gradedEmpty {value : Json} (stage : job.stage = .concluded .editorRun (.finished value))
    (alone : job.batch = none) (graded : graded sc.slot = true)
    (empty : sc.slot.state.testcases.length = 0) :
    Rule h id sc job
      { scene := refusePause sc job, job := job.at_ (.leaving (.outcome (.finished value))) }
  | gradedBegun {value : Json} (stage : job.stage = .concluded .editorRun (.finished value))
    (alone : job.batch = none) (graded : graded sc.slot = true)
    (nonempty : sc.slot.state.testcases.length ≠ 0) :
    Rule h id sc job
      { scene := ((refusePause sc job).sayBriefly h "Running all testcases!" .success).occur
          (.batchStarted sc.slot.state.testcases.length)
        job := { job with
          batch := some { total := sc.slot.state.testcases.length, after := some (.finished value) }
          stage := .preparing (.testcaseRun 0) } }
  | answered {mode : Mode} {outcome : Outcome} (stage : job.stage = .concluded mode outcome)
    (alone : job.batch = none)
    (ungraded : mode = .editorRun → (∃ value, outcome = .finished value) → graded sc.slot = false) :
    Rule h id sc job { scene := sc, job := job.at_ (.leaving (.outcome outcome)) }
  | left {reply : Reply} (stage : job.stage = .leaving reply) : Rule h id sc job (leave id sc job reply)
  | settled {reply : Reply} (stage : job.stage = .settled reply) :
    Rule h id sc job { scene := sc, job := job, wake := some .never }

/-! ## A step follows a rule -/

section

variable (h : House) (id : JobId) (sc : Scene E) (job : Job E)

theorem submit_rule (stage : job.stage = .submitted) : Rule h id sc job (submit id sc job) := by
  unfold submit
  split
  · next mode operation =>
    split
    · next because => exact .refused stage operation because
    · next allowed =>
      refine .enqueued stage fun m asked => ?_
      rw [operation] at asked
      cases asked
      exact allowed
  · next other => exact .enqueued stage fun m asked => absurd asked (other m)

theorem begin_rule (stage : job.stage = .admitted) : Rule h id sc job (begin h sc job) := by
  unfold begin
  split
  · next operation => exact .armed stage operation
  · next operation =>
    unfold beginBatch
    by_cases empty : sc.slot.state.testcases.length = 0
    · simpa [arm, empty] using (.allEmpty stage operation empty : Rule h id sc job _)
    · simpa [arm, empty] using (.allBegun stage operation empty : Rule h id sc job _)
  · next operation => exact .reset stage operation
  · next chapter operation =>
    by_cases same : sc.slot.state.chapter = chapter
    · simp only [same, ↓reduceIte]
      exact .unchanged stage (.inl (by rw [operation, same]))
    · simp only [same, ↓reduceIte]
      exact .chapter stage operation same
  · next library operation =>
    by_cases same : sc.slot.state.library = library
    · simp only [same, ↓reduceIte]
      exact .unchanged stage (.inr (by rw [operation, same]))
    · simp only [same, ↓reduceIte]
      exact .library stage operation same

theorem giveUp_rule {mode : Mode} {r : Refusal} (stage : job.stage = .preparing mode)
    (because : refusal? sc.slot mode = some r) : Rule h id sc job (giveUp h sc job r) := by
  unfold giveUp
  cases under : job.batch with
  | none => exact .deprived stage because under
  | some batch => exact .cutShort stage because under

theorem prepare_rule {mode : Mode} (stage : job.stage = .preparing mode) :
    Rule h id sc job (prepare h sc job mode) := by
  cases mode with
  | editorRun => exact .editor stage
  | replRun => exact .repl stage
  | debugResume =>
    simp only [prepare]
    cases suspended : sc.slot.suspended with
    | none => exact giveUp_rule h id sc job stage (by simp [refusal?, suspended])
    | some s => exact .resumed stage suspended
  | testcaseRun index =>
    simp only [prepare]
    cases known : sc.slot.state.testcases[index]? with
    | none =>
      have beyond : ¬ index < sc.slot.state.testcases.length := Nat.not_lt.2 (List.getElem?_eq_none_iff.1 known)
      exact giveUp_rule h id sc job stage (if_neg beyond)
    | some t => exact .testcase stage known

theorem await_rule {purpose : Purpose} {wait : Wait} (stage : job.stage = .loading purpose wait) :
    Rule h id sc job (await h sc job purpose wait) := by
  have asking : ∀ asked, (wait.poll h.loader h.now sc.asked).1 = asked →
      { sc with asked := asked, effects := sc.effects ++ List.replicate (asked - sc.asked) .asked } =
        sc.waited h wait := by
    rintro _ rfl
    rfl
  unfold await
  rcases polled : wait.poll h.loader h.now sc.asked with ⟨asked, status⟩
  simp only [asking asked (by rw [polled])]
  cases status with
  | ready => exact .loaded stage (.inl rfl)
  | timedOut => exact .loaded stage (.inr rfl)
  | pending later wake => exact .loading stage

theorem start_rule {l : Launch E} (stage : job.stage = .starting l) :
    Rule h id sc job (start h sc job l) := by
  unfold start
  rcases receive_cases sc job with ⟨number, s, rest, receiver, signal, found⟩ | ⟨number, receiver, empty, -, found⟩ |
    ⟨empty, found⟩
  · rw [found]
    cases s with
    | interrupt => exact .stoppedEarly stage receiver signal
    | pause => exact .pausedEarly stage receiver signal
  · rw [found]
    refine .started stage fun n hn => ?_
    rw [receiver] at hn
    cases hn
    exact empty
  · rw [found]
    exact .started stage fun n hn => (empty n hn).1

theorem race_rule {l : Live E} (stage : job.stage = .running l) : Rule h id sc job (race h sc job l) := by
  unfold race
  rcases polled : E.poll l.run h.now { paused := l.paused } with ⟨lines, ended | ⟨run, wake⟩⟩
  · exact .ended stage polled
  · dsimp only
    split
    · next listening =>
      by_cases spent : wake = .spent
      · rw [spent] at polled ⊢
        exact .running stage polled fun left => absurd rfl left
      rw [hear_unspent spent]
      rcases receive_cases (sc.heard lines) job with ⟨number, s, rest, receiver, signal, found⟩ |
        ⟨number, receiver, empty, -, found⟩ | ⟨empty, found⟩ <;> unfold Scene.heard at found
      · rw [found]
        cases s with
        | interrupt => exact .stopped stage polled listening receiver signal
        | pause => exact .paused stage polled listening receiver signal
      · rw [found]
        refine .running stage polled fun _ _ n hn => ?_
        rw [receiver] at hn
        cases hn
        exact empty
      · rw [found]
        exact .unheard stage polled listening (fun n hn => (empty n hn).1) fun n hn => (empty n hn).2
    · next deaf => exact .running stage polled fun _ on => absurd on deaf

theorem follow_rule {mode : Mode} {outcome : Outcome} (stage : job.stage = .concluded mode outcome) :
    Rule h id sc job (follow h sc job mode outcome) := by
  unfold follow
  split
  · next batch under =>
    split
    · exact .aborted stage under
    · next ran =>
      by_cases more : batch.index + 1 < batch.total
      · simp only [more, ↓reduceIte]
        exact .next stage under ran more
      · simp only [more, ↓reduceIte]
        exact .completed stage under ran (Nat.not_lt.1 more)
  · next alone =>
    split
    · next value =>
      by_cases wanted : graded sc.slot
      · have same : (refusePause sc job).slot.state = sc.slot.state := by unfold refusePause; split <;> rfl
        simp only [wanted, ↓reduceIte, beginBatch, same]
        by_cases empty : sc.slot.state.testcases.length = 0
        · simp only [empty, ↓reduceIte]
          exact .gradedEmpty stage alone wanted empty
        · simp only [empty, ↓reduceIte]
          exact .gradedBegun stage alone wanted empty
      · simp only [wanted, Bool.false_eq_true, ↓reduceIte]
        exact .answered stage alone fun _ _ => by simpa using wanted
    · next other =>
      refine .answered stage alone ?_
      rintro rfl ⟨value, rfl⟩
      exact absurd rfl (other value rfl)

end

/-- Every step follows one of the rules. -/
theorem step_rule (h : House) (id : JobId) (sc : Scene E) (job : Job E) :
    Rule h id sc job (step h id sc job) := by
  unfold step
  split
  · next stage => exact submit_rule h id sc job stage
  · next stage =>
    by_cases held : sc.slot.permit.isHeldBy id
    · simp only [held, ↓reduceIte]
      exact .admitted stage held
    · simp only [held, Bool.false_eq_true, ↓reduceIte]
      exact .waiting stage (by simpa using held)
  · next stage => exact begin_rule h id sc job stage
  · next stage => exact prepare_rule h id sc job stage
  · next stage => exact await_rule h id sc job stage
  · next stage => exact .launched stage
  · next stage => exact start_rule h id sc job stage
  · next stage => exact race_rule h id sc job stage
  · next stage => exact follow_rule h id sc job stage
  · next stage => exact .left stage
  · next stage => exact .settled stage

end Job

/-! ## Who a workspace belongs to -/

section

variable (h : House) (sc : Scene E) (job : Job E)

@[simp] theorem Scene.forgetShown_door :
    sc.forgetShown.slot.id = sc.slot.id ∧ sc.forgetShown.slot.permit = sc.slot.permit ∧
      sc.forgetShown.slot.mailbox = sc.slot.mailbox := by
  rw [Scene.forgetShown_slot]
  split <;> exact ⟨rfl, rfl, rfl⟩

@[simp] theorem Scene.finishInterrupted_door (mode : Mode) :
    (sc.finishInterrupted h mode).1.slot.id = sc.slot.id ∧
      (sc.finishInterrupted h mode).1.slot.permit = sc.slot.permit ∧
      (sc.finishInterrupted h mode).1.slot.mailbox = sc.slot.mailbox := by
  cases mode <;> exact ⟨rfl, rfl, rfl⟩

@[simp] theorem Scene.settleMode_door (mode : Mode) (verdict : Verdict) (occurrence : Nat → Occurrence) :
    (sc.settleMode mode verdict occurrence).slot.id = sc.slot.id ∧
      (sc.settleMode mode verdict occurrence).slot.permit = sc.slot.permit ∧
      (sc.settleMode mode verdict occurrence).slot.mailbox = sc.slot.mailbox := by
  cases mode <;> exact ⟨rfl, rfl, rfl⟩

namespace Job

/-- The end of a run changes neither whose the workspace is nor what is delivered there. -/
@[simp] theorem finish_door (l : Live E) (result : RunResult E.Snapshot) :
    (finish h sc l result).1.slot.id = sc.slot.id ∧
      (finish h sc l result).1.slot.permit = sc.slot.permit ∧
      (finish h sc l result).1.slot.mailbox = sc.slot.mailbox := by
  cases result with
  | finished value => simp [finish, Scene.finishValue_slot]
  | failed faults => simp [finish, Scene.finishFaults_slot]
  | suspended snapshot location =>
    unfold finish
    cases l.mode <;> simp [Scene.finishFaults_slot, Scene.finishSuspended_slot]

@[simp] theorem endBatch_slot (batch : Batch) (aborted : Bool) :
    (endBatch h sc job batch aborted).scene.slot = sc.slot := by
  cases aborted <;> rfl

@[simp] theorem conclude_slot (mode : Mode) (end_ : Scene E × Outcome) :
    (conclude job mode end_).scene.slot = end_.1.slot := rfl

@[simp] theorem launch_slot (mode : Mode) (p : Prepared E) :
    (launch h sc job mode p).scene.slot = { sc.slot with state := sc.slot.state.onOutput (·.beginRun) } := by
  unfold launch
  split <;> rfl

theorem launch_job (mode : Mode) (p : Prepared E) :
    (launch h sc job mode p).job =
      job.at_ (.starting
        { mode := mode, prepared := p, options := optionsFor h.settings sc.slot.state mode p }) := by
  unfold launch
  split <;> rfl

@[simp] theorem proceed_door (purpose : Purpose) :
    (proceed h sc job purpose).scene.slot.id = sc.slot.id ∧
      (proceed h sc job purpose).scene.slot.permit = sc.slot.permit ∧
      (proceed h sc job purpose).scene.slot.mailbox = sc.slot.mailbox := by
  cases purpose <;> exact ⟨rfl, rfl, rfl⟩

@[simp] theorem prepare_repl_door :
    (prepare h sc job .replRun).scene.slot.id = sc.slot.id ∧
      (prepare h sc job .replRun).scene.slot.permit = sc.slot.permit ∧
      (prepare h sc job .replRun).scene.slot.mailbox = sc.slot.mailbox := ⟨rfl, rfl, rfl⟩

theorem enqueue_slot (id : JobId) :
    (enqueue id sc job).scene.slot =
      { sc.slot with
        permit := sc.slot.permit.request id
        mailbox := if interrupts job.operation then (sc.slot.mailbox.fire .interrupt).1 else sc.slot.mailbox } := by
  unfold enqueue
  split <;> rfl

theorem refusePause_slot :
    (refusePause sc job).slot =
      { sc.slot with
        mailbox := match job.receiver with
          | some number => sc.slot.mailbox.acceptPause number false
          | none => sc.slot.mailbox } := by
  unfold refusePause
  cases job.receiver <;> rfl

theorem leave_slot (id : JobId) (reply : Reply) :
    (leave id sc job reply).scene.slot =
      { sc.slot with
        permit := sc.slot.permit.release id
        mailbox := match job.receiver with
          | some number => sc.slot.mailbox.drop number
          | none => sc.slot.mailbox } := by
  unfold leave
  cases job.receiver <;> rfl

/-- When the engine's result is recorded, nothing more is done with the engine. -/
theorem finish_effects (l : Live E) (result : RunResult E.Snapshot) :
    ∃ more, (finish h sc l result).1.effects = sc.effects ++ more ∧ ∀ e ∈ more, e.isCall = false := by
  unfold finish
  split
  · exact ⟨_, Scene.finishValue_effects .., sc.isCall_ended _ _⟩
  · exact ⟨_, Scene.finishFaults_effects .., sc.isCall_ended _ _⟩
  · split
    · exact ⟨_, Scene.finishFaults_effects .., sc.isCall_ended _ _⟩
    · refine ⟨_, (Scene.finishSuspended_effects ..).trans (List.append_assoc ..), ?_⟩
      split <;> simp [Effect.isCall]

@[simp] theorem conclude_effects (mode : Mode) (end_ : Scene E × Outcome) :
    (conclude job mode end_).scene.effects =
      end_.1.effects ++ [.event ⟨end_.1.slot.id, .runCompleted mode end_.2.kind⟩] := rfl

@[simp] theorem endBatch_effects (batch : Batch) (aborted : Bool) :
    (endBatch h sc job batch aborted).scene.effects =
      let summary := BatchSummary.ofTestcases sc.slot.state.testcases aborted
      sc.effects ++ [.message
        { text := if aborted then "Batch aborted" else summary.text
          shownMs := h.settings.messages.shortMs
          kind := if aborted = false ∧ summary.failed = 0 then .success else .warning },
        .event ⟨sc.slot.id, .batchFinished summary⟩] := by
  cases aborted <;> simp [endBatch]

@[simp] theorem launch_effects (mode : Mode) (p : Prepared E) :
    (launch h sc job mode p).scene.effects =
      sc.effects ++ (if !mode.acceptsPause && debuggable h.settings p.context then [.drawing (.inspect none)] else []) ++
        [.event ⟨sc.slot.id, .runStarted mode⟩] := by
  unfold launch
  split <;> simp

@[simp] theorem prepare_repl_effects : (prepare h sc job .replRun).scene.effects = sc.effects := rfl

@[simp] theorem enqueue_effects (id : JobId) : (enqueue id sc job).scene.effects = sc.effects := by
  unfold enqueue
  split <;> rfl

@[simp] theorem refusePause_effects : (refusePause sc job).effects = sc.effects := by
  unfold refusePause
  split <;> rfl

@[simp] theorem leave_effects (id : JobId) (reply : Reply) : (leave id sc job reply).scene.effects = sc.effects := by
  unfold leave
  split <;> rfl

/-- A job stays in its workspace. -/
theorem Rule.id_eq {h : House} {id : JobId} {sc : Scene E} {job : Job E} {a : Advance E}
    (rule : Rule h id sc job a) : a.scene.slot.id = sc.slot.id := by
  cases rule with
  | enqueued => rw [enqueue_slot]
  | left => rw [leave_slot]
  | loaded _ waited => simp [waited.slot]
  | gradedEmpty | gradedBegun => simp [refusePause_slot]
  | _ => simp [arm]

end Job

end

end Workbench
