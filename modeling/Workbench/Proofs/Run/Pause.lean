/-
Which testcases are asked to pause.

None should be: a batch accepts no pause from its beginning on. But a pause that
was accepted before stays in the queue. If one waits when an editor's run has
finished and its batch begins, the batch's first testcase is told of it, and no
other testcase ever is (`asked_testcases`). A script without a debugger is
suspended only if it is told so, and is then recorded as failed with no fault at
all.

The proof carries through all steps of a job where a pause for it can be, given
whether one was there when the batch began (`Job.Spared`).
-/
import Workbench.Proofs.Run.Interruption
import Workbench.Proofs.Script.Ride

namespace Workbench

variable {E : Engine}

/-! ## What is refused -/

namespace Mailbox

/-- Whoever listens takes no pause. -/
def Refuses (m : Mailbox) : Prop := ∀ l, m.listener = some l → l.acceptsPause = false

variable {m : Mailbox} {n : Nat} {rest : List Signal}

theorem Refuses.fire (refuses : m.Refuses) (s : Signal) :
    (m.fire s).1.Refuses ∧ (.pause ∈ (m.fire s).1.queue n ↔ .pause ∈ m.queue n) := by
  cases s with
  | pause =>
    rw [fire_refused fun l armed => by simp [Listener.takes, refuses l armed]]
    exact ⟨refuses, .rfl⟩
  | interrupt =>
    cases armed : m.listener with
    | none =>
      rw [fire_refused (by simp [armed])]
      exact ⟨refuses, .rfl⟩
    | some l =>
      refine ⟨by simp [Refuses, Mailbox.fire, armed, Listener.takes], ?_⟩
      by_cases own : l.number = n
      · subst own
        rw [fire_interrupt_queue armed]
        simp
      · simp [Mailbox.fire, armed, Listener.takes, queue, own]

theorem Refuses.took (refuses : m.Refuses) : Refuses { m with queues := m.queues.set n rest } := refuses

/-- Pauses are refused to the number that listens. -/
theorem acceptPause_refuses (own : ∀ l, m.listener = some l → l.number = n) : (m.acceptPause n false).Refuses := by
  intro l armed
  obtain ⟨before, listens, rfl⟩ := Option.map_eq_some_iff.1 armed
  rw [if_pos (own before listens)]

end Mailbox

/-! ## Where a pause for a job can be -/

namespace Stage

/-- A run gets ready. -/
def isAhead : Stage E → Bool
  | .preparing _ => true
  | .loading .. => true
  | .launching .. => true
  | .starting _ => true
  | _ => false

/-- The run is asked to pause. -/
def isAsked : Stage E → Bool
  | .starting l => l.paused
  | .running l => l.paused
  | _ => false

/-- The engine has the run, or is about to be given it. -/
def isAtEngine : Stage E → Bool
  | .starting _ => true
  | .running _ => true
  | _ => false

end Stage

namespace Job

/-- An editor's run has finished, no testcase has been run, and a pause waits. -/
def Burdened (m : Mailbox) (job : Job E) : Prop :=
  job.batch = none ∧ (∃ value, job.stage = .concluded .editorRun (.finished value)) ∧
    ∃ number, job.receiver = some number ∧ .pause ∈ m.queue number

/-- A job and the pauses for it, given whether one was due when its batch began. -/
inductive Spared (due : Prop) (m : Mailbox) (job : Job E) : Prop
  | past (past : job.Over)
  | idle (stage : job.stage.mode? = none) (unarmed : job.receiver = none) (undue : ¬ due)
  | pausable {mode : Mode} {number : Nat} (receiver : job.receiver = some number) (alone : job.batch = none)
    (operation : job.operation = .evaluate mode) (accepts : mode.acceptsPause = true) (undue : ¬ due)
  /-- the first testcase after an editor's run gets ready -/
  | opening {number : Nat} {b : Batch} (receiver : job.receiver = some number) (refuses : m.Refuses)
    (under : job.batch = some b) (first : b.index = 0) (ahead : job.stage.isAhead = true)
    (asked : (job.stage.isAsked = true ∨ .pause ∈ m.queue number) ↔ due)
  /-- it is under way -/
  | opened {number : Nat} {b : Batch} {l : Live E} (receiver : job.receiver = some number) (refuses : m.Refuses)
    (under : job.batch = some b) (first : b.index = 0) (stage : job.stage = .running l)
    (spared : .pause ∉ m.queue number) (asked : l.paused = true ↔ due)
  | closed {number : Nat} (receiver : job.receiver = some number) (refuses : m.Refuses)
    (spared : .pause ∉ m.queue number) (unasked : job.stage.isAsked = false)
    (refused : job.batch = none → ∀ mode, job.operation = .evaluate mode → mode.acceptsPause = false)
    (later : due → ∃ b, job.batch = some b ∧ (0 < b.index ∨ ∃ mode o, job.stage = .concluded mode o))

variable {h : House} {id : JobId} {sc : Scene E} {job : Job E} {a : Advance E} {m : Mailbox} {due : Prop}

theorem Over.mode?_eq_none (past : job.Over) : job.stage.mode? = none := by
  obtain ⟨reply, stage | stage⟩ := past <;> rw [stage] <;> rfl

theorem Attends.number {number : Nat} (attends : job.Attends m number) (l : Listener) (armed : m.listener = some l) :
    l.number = number := by
  cases attends.line with
  | listening own listens same =>
    cases armed.symm.trans listens
    exact same
  | called unarmed | spent unarmed => cases armed.symm.trans unarmed

theorem Spared.congr {due' : Prop} (spared : job.Spared due m) (same : due ↔ due') : job.Spared due' m :=
  propext same ▸ spared

/-- Whatever others fire, the pauses for a job stay where they are, unless it accepts them. -/
theorem Spared.fire (spared : job.Spared due m) (s : Signal) : job.Spared due (m.fire s).1 := by
  cases spared with
  | past past => exact .past past
  | idle stage unarmed undue => exact .idle stage unarmed undue
  | pausable receiver alone operation accepts undue => exact .pausable receiver alone operation accepts undue
  | @opening number _ receiver refuses under first ahead asked =>
    obtain ⟨still, same⟩ := refuses.fire (n := number) s
    exact .opening receiver still under first ahead (by rw [same]; exact asked)
  | @opened number _ _ receiver refuses under first stage spared asked =>
    obtain ⟨still, same⟩ := refuses.fire (n := number) s
    exact .opened receiver still under first stage (by rw [same]; exact spared) asked
  | @closed number receiver refuses spared unasked refused later =>
    obtain ⟨still, same⟩ := refuses.fire (n := number) s
    exact .closed receiver still (by rw [same]; exact spared) unasked refused later

/-- Without a number a job is asked nothing, whatever is delivered. -/
theorem Spared.unarmed (spared : job.Spared due m) (unarmed : job.receiver = none) (m' : Mailbox) :
    job.Spared due m' := by
  cases spared with
  | past past => exact .past past
  | idle stage _ undue => exact .idle stage unarmed undue
  | pausable receiver | opening receiver | opened receiver | closed receiver => cases unarmed.symm.trans receiver

theorem Spared.of_untouched (untouched : Site.Untouched job) (undue : ¬ due) : job.Spared due m := by
  obtain ⟨unarmed, -, stage | ⟨r, stage⟩⟩ := untouched
  · exact .idle (by rw [stage]; rfl) unarmed undue
  · exact .past ⟨_, .inr stage⟩

/-- A run that gets ready gets on with it, and is not asked anything. -/
theorem Spared.readies (spared : job.Spared due m) (run : job.stage.mode?.isSome = true)
    (ahead : job.stage.isAhead = true) (unasked : job.stage.isAsked = false) {stage : Stage E}
    (still : stage.isAhead = true) (unasked' : stage.isAsked = false) : (job.at_ stage).Spared due m := by
  cases spared with
  | past past => simp [past.mode?_eq_none] at run
  | idle none => simp [none] at run
  | pausable receiver alone operation accepts undue => exact .pausable receiver alone operation accepts undue
  | opening receiver refuses under first _ asked =>
    rw [unasked] at asked
    exact .opening receiver refuses under first still (by simpa [at_, unasked'] using asked)
  | opened _ _ _ _ stage => simp [stage, Stage.isAhead] at ahead
  | closed receiver refuses spared _ refused later =>
    refine .closed receiver refuses spared unasked' refused fun due => ?_
    obtain ⟨b, under, further | ⟨mode, o, stage⟩⟩ := later due
    · exact ⟨b, under, .inl further⟩
    · simp [stage, Stage.isAhead] at ahead

/-- A run is over: whatever it was asked, the next one is not. -/
theorem Spared.concludes (spared : job.Spared due m) (run : job.stage.mode?.isSome = true) {m' : Mailbox}
    (refuses' : m.Refuses → m'.Refuses)
    (fewer : ∀ n, job.receiver = some n → .pause ∈ m'.queue n → job.stage.isAhead = false ∧ .pause ∈ m.queue n)
    (mode : Mode) (o : Outcome) : (job.at_ (.concluded mode o)).Spared due m' := by
  cases spared with
  | past past => simp [past.mode?_eq_none] at run
  | idle none => simp [none] at run
  | pausable receiver alone operation accepts undue => exact .pausable receiver alone operation accepts undue
  | @opening number b receiver refuses under first ahead asked =>
    refine .closed receiver (refuses' refuses) (fun waits => ?_) rfl (fun alone => ?_) fun _ =>
      ⟨b, under, .inr ⟨mode, o, rfl⟩⟩
    · exact absurd ahead (by simp [(fewer number receiver waits).1])
    · cases alone.symm.trans under
  | @opened number b _ receiver refuses under first stage spared asked =>
    refine .closed receiver (refuses' refuses) (fun waits => spared (fewer number receiver waits).2) rfl
      (fun alone => ?_) fun _ => ⟨b, under, .inr ⟨mode, o, rfl⟩⟩
    cases alone.symm.trans under
  | @closed number receiver refuses spared unasked refused later =>
    refine .closed receiver (refuses' refuses) (fun waits => spared (fewer number receiver waits).2) rfl refused
      fun due => ?_
    obtain ⟨b, under, -⟩ := later due
    exact ⟨b, under, .inr ⟨mode, o, rfl⟩⟩

/-- The engine goes on with a run. -/
theorem Spared.goes_on {l next : Live E} (spared : job.Spared due m) (stage : job.stage = .running l)
    (same : next.paused = l.paused) : (job.at_ (.running next)).Spared due m := by
  have run : job.stage.mode?.isSome = true := by rw [stage]; rfl
  cases spared with
  | past past => simp [past.mode?_eq_none] at run
  | idle none => simp [none] at run
  | pausable receiver alone operation accepts undue => exact .pausable receiver alone operation accepts undue
  | opening _ _ _ _ ahead => simp [stage, Stage.isAhead] at ahead
  | opened receiver refuses under first there spared asked =>
    cases stage.symm.trans there
    exact .opened receiver refuses under first rfl spared (by rw [same]; exact asked)
  | closed receiver refuses spared unasked refused later =>
    rw [stage] at unasked
    refine .closed receiver refuses spared (same.trans unasked) refused fun due => ?_
    obtain ⟨b, under, further | ⟨mode, o, there⟩⟩ := later due
    · exact ⟨b, under, .inl further⟩
    · cases stage.symm.trans there

/-- A job that begins, and accepts no pause, is asked nothing. -/
theorem Spared.arms (undue : ¬ due) {b : Option Batch} {stage : Stage E} (unasked : stage.isAsked = false)
    (refused : b = none → ∀ mode, job.operation = .evaluate mode → mode.acceptsPause = false) :
    Spared due (sc.slot.mailbox.arm false).1
      { job with receiver := some sc.slot.mailbox.next, batch := b, stage := stage } := by
  refine .closed rfl ?_ (by simp [Mailbox.arm, Mailbox.queue]) unasked refused fun now => absurd now undue
  rintro l ⟨⟩
  rfl

/-- Every step moves the pauses for a job as they should go, unless a batch begins with one. -/
theorem Rule.spared (rule : Rule h id sc job a) (orderly : job.Orderly)
    (attends : ∀ number, job.receiver = some number → job.Attends sc.slot.mailbox number)
    (spared : job.Spared due sc.slot.mailbox) (unburdened : ¬ job.Burdened sc.slot.mailbox) :
    a.job.Spared due a.scene.slot.mailbox := by
  -- a job that is at no run is not asked anything yet
  have idle : job.stage.mode? = none → ¬ job.Over → ¬ due ∧ job.receiver = none ∧ job.batch = none := by
    intro stage going
    obtain ⟨alone, unarmed⟩ := orderly.outside stage going
    cases spared with
    | past past => exact absurd past going
    | idle _ _ undue => exact ⟨undue, unarmed, alone⟩
    | pausable receiver | opening receiver | opened receiver | closed receiver => cases unarmed.symm.trans receiver
  -- an interrupt that is received was the last in its queue
  have taken : ∀ {number rest}, job.receiver = some number → sc.slot.mailbox.queue number = .interrupt :: rest →
      ∀ n, job.receiver = some n →
        .pause ∈ Mailbox.queue { sc.slot.mailbox with queues := sc.slot.mailbox.queues.set number rest } n →
        job.stage.isAhead = false ∧ .pause ∈ sc.slot.mailbox.queue n := by
    intro number rest own signal n receiver waits
    cases own.symm.trans receiver
    obtain ⟨-, rfl⟩ := (attends number own).line.interrupt signal
    simp at waits
  have outside : ∀ {stage}, job.stage = stage → stage.mode? = none → (∀ reply, stage ≠ .leaving reply) →
      (∀ reply, stage ≠ .settled reply) → ¬ due ∧ job.receiver = none ∧ job.batch = none := by
    rintro _ rfl stage leaving settled
    refine idle stage ?_
    rintro ⟨reply, past | past⟩
    · exact leaving reply past
    · exact settled reply past
  cases rule with
  | refused => exact .past ⟨_, .inr rfl⟩
  | allEmpty | reset | unchanged | deprived | cutShort | aborted | completed | gradedEmpty | answered =>
    exact .past ⟨_, .inl rfl⟩
  | left => exact .past ⟨_, .inr rfl⟩
  | waiting | settled => exact spared
  | enqueued stage | admitted stage | chapter stage | library stage =>
    obtain ⟨undue, unarmed, -⟩ := outside stage rfl (by simp) (by simp)
    exact .idle rfl unarmed undue
  | @armed mode stage operation =>
    obtain ⟨undue, -, alone⟩ := outside stage rfl (by simp) (by simp)
    cases accepts : mode.acceptsPause with
    | true => exact .pausable rfl alone operation accepts undue
    | false =>
      refine .arms undue rfl fun _ other same => ?_
      cases operation.symm.trans same
      exact accepts
  | allBegun stage operation =>
    obtain ⟨undue, -, -⟩ := outside stage rfl (by simp) (by simp)
    exact .arms undue rfl fun alone => by cases alone
  | editor stage | resumed stage | testcase stage =>
    exact spared.readies (by rw [stage]; rfl) (by rw [stage]; rfl) (by rw [stage]; rfl) rfl rfl
  | repl stage =>
    exact spared.readies (by rw [stage]; rfl) (by rw [stage]; rfl) (by rw [stage]; rfl) rfl rfl
  | launched stage =>
    rw [launch_slot]
    exact spared.readies (by rw [stage]; rfl) (by rw [stage]; rfl) (by rw [stage]; rfl) rfl rfl
  | @loading purpose wait later wake stage =>
    cases run : purpose.mode? with
    | none =>
      obtain ⟨undue, unarmed, -⟩ := outside stage run (by simp) (by simp)
      exact .idle run unarmed undue
    | some mode =>
      exact spared.readies (by rw [stage]; simp [Stage.mode?, run]) (by rw [stage]; rfl) (by rw [stage]; rfl) rfl rfl
  | @loaded purpose wait next stage waited =>
    rw [(proceed_door h next job purpose).2.2, waited.slot]
    cases purpose with
    | selection => exact .past ⟨_, .inl rfl⟩
    | _ => exact spared.readies (by rw [stage]; rfl) (by rw [stage]; rfl) (by rw [stage]; rfl) rfl rfl
  | @stoppedEarly l number rest stage own signal =>
    have mailbox := ((sc.took number rest).finishInterrupted_door h l.mode).2.2
    rw [conclude_slot, mailbox]
    refine spared.concludes (by rw [stage]; rfl) (fun refuses => refuses.took) ?_ l.mode _
    exact taken own signal
  | @pausedEarly l number rest stage own signal =>
    have run : job.stage.mode?.isSome = true := by rw [stage]; rfl
    have waits : .pause ∈ sc.slot.mailbox.queue number := signal ▸ .head _
    cases spared with
    | past past => simp [past.mode?_eq_none] at run
    | idle none => simp [none] at run
    | pausable receiver alone operation accepts undue => exact .pausable receiver alone operation accepts undue
    | opening receiver refuses under first _ asked =>
      cases own.symm.trans receiver
      exact .opening receiver refuses.took under first rfl (iff_of_true (.inl rfl) (asked.1 (.inr waits)))
    | opened _ _ _ _ there => cases stage.symm.trans there
    | closed receiver _ spared =>
      cases own.symm.trans receiver
      exact absurd waits spared
  | @started l stage quiet =>
    have run : job.stage.mode?.isSome = true := by rw [stage]; rfl
    cases spared with
    | past past => simp [past.mode?_eq_none] at run
    | idle none => simp [none] at run
    | pausable receiver alone operation accepts undue => exact .pausable receiver alone operation accepts undue
    | @opening number _ receiver refuses under first _ asked =>
      have spared : .pause ∉ sc.slot.mailbox.queue number := by simp [quiet number receiver]
      refine .opened receiver refuses under first rfl spared ?_
      simpa [stage, Stage.isAsked, spared] using asked
    | opened _ _ _ _ there => cases stage.symm.trans there
    | closed receiver refuses spared unasked refused later =>
      rw [stage] at unasked
      refine .closed receiver refuses spared unasked refused fun due => ?_
      obtain ⟨b, under, further | ⟨mode, o, there⟩⟩ := later due
      · exact ⟨b, under, .inl further⟩
      · cases stage.symm.trans there
  | @ended l lines result stage =>
    rw [conclude_slot, (finish_door ..).2.2]
    refine spared.concludes (by rw [stage]; rfl) (fun refuses => refuses)
      (fun n receiver waits => ⟨by rw [stage]; rfl, waits⟩) l.mode _
  | @stopped l lines run wake number rest stage polled listening own signal =>
    have mailbox := (((((sc.heard lines).took number rest).add (.engine (.interrupt l.context))).add
      (.engine .release)).finishInterrupted_door h l.mode).2.2
    rw [conclude_slot, mailbox]
    refine spared.concludes (by rw [stage]; rfl) (fun refuses => refuses.took) ?_ l.mode _
    exact taken own signal
  | @paused l lines next wake number rest stage polled listening own signal =>
    have run : job.stage.mode?.isSome = true := by rw [stage]; rfl
    have waits : .pause ∈ sc.slot.mailbox.queue number := signal ▸ .head _
    cases spared with
    | past past => simp [past.mode?_eq_none] at run
    | idle none => simp [none] at run
    | pausable receiver alone operation accepts undue => exact .pausable receiver alone operation accepts undue
    | opening _ _ _ _ ahead => simp [stage, Stage.isAhead] at ahead
    | opened receiver _ _ _ _ spared | closed receiver _ spared =>
      cases own.symm.trans receiver
      exact absurd waits spared
  | unheard stage => exact spared.goes_on stage rfl
  | running stage => exact spared.goes_on stage rfl
  | @next mode outcome batch stage under ran more =>
    have run : job.stage.mode?.isSome = true := by rw [stage]; rfl
    cases spared with
    | past past => simp [past.mode?_eq_none] at run
    | idle none => simp [none] at run
    | pausable _ alone => cases alone.symm.trans under
    | opening _ _ _ _ ahead => simp [stage, Stage.isAhead] at ahead
    | opened _ _ _ _ there => cases stage.symm.trans there
    | closed receiver refuses spared =>
      exact .closed receiver refuses spared rfl (fun asked => by cases asked) fun _ => ⟨_, rfl, .inl (Nat.succ_pos _)⟩
  | @gradedBegun value stage alone graded nonempty =>
    have run : job.stage.mode?.isSome = true := by rw [stage]; rfl
    have operation : job.operation = .evaluate .editorRun := orderly.alone alone _ (by rw [stage]; rfl)
    cases spared with
    | past past => simp [past.mode?_eq_none] at run
    | idle none => simp [none] at run
    | @pausable _ number receiver _ _ _ undue =>
      simp only [Scene.occur_slot, Scene.sayBriefly_slot, refusePause_slot, receiver]
      refine .opening rfl (Mailbox.acceptPause_refuses (attends number receiver).number) rfl rfl rfl ?_
      refine iff_of_false ?_ undue
      rintro (asked | waits)
      · cases asked
      · exact unburdened ⟨alone, ⟨value, stage⟩, number, receiver, waits⟩
    | opening _ _ under | opened _ _ under => cases alone.symm.trans under
    | closed _ _ _ _ refused => cases refused alone _ operation

/-- A batch that begins with a pause tells its first testcase. -/
theorem Rule.burdened (rule : Rule h id sc job a) (burdened : job.Burdened sc.slot.mailbox)
    (attends : ∀ number, job.receiver = some number → job.Attends sc.slot.mailbox number) :
    a.job.Spared True a.scene.slot.mailbox := by
  obtain ⟨alone, ⟨value, stage⟩, number, receiver, waits⟩ := burdened
  cases rule with
  | answered | gradedEmpty => exact .past ⟨_, .inl rfl⟩
  | gradedBegun =>
    simp only [Scene.occur_slot, Scene.sayBriefly_slot, refusePause_slot, receiver]
    exact .opening rfl (Mailbox.acceptPause_refuses (attends number receiver).number) rfl rfl rfl
      (iff_of_true (.inr waits) trivial)
  | aborted _ under | next _ under | completed _ under => cases alone.symm.trans under
  | _ => simp_all

/-- Which testcase is asked to pause: the first after an editor's run, if a pause was due. -/
theorem Spared.asked_iff {l : Live E} {i : Nat} (spared : job.Spared due m) (orderly : job.Orderly)
    (stage : job.stage = .running l) (testcase : l.mode = .testcaseRun i) : l.paused = true ↔ i = 0 ∧ due := by
  have run : job.stage.mode? = some (.testcaseRun i) := by rw [stage, ← testcase]; rfl
  have index : ∀ b, job.batch = some b → b.index = i := by
    intro b under
    rcases (orderly.batch b under).1 with place | past
    · cases place.symm.trans run
      rfl
    · cases past.mode?_eq_none.symm.trans run
  cases spared with
  | past past => cases past.mode?_eq_none.symm.trans run
  | idle none => cases none.symm.trans run
  | pausable _ alone operation accepts =>
    cases (orderly.alone alone _ run).symm.trans operation
    cases accepts
  | opening _ _ _ _ ahead => simp [stage, Stage.isAhead] at ahead
  | opened _ _ under first there _ asked =>
    cases stage.symm.trans there
    simp [asked, (index _ under).symm.trans first]
  | closed _ _ _ unasked _ later =>
    rw [stage] at unasked
    refine iff_of_false (by simpa [Stage.isAsked] using unasked) ?_
    rintro ⟨rfl, due⟩
    obtain ⟨b, under, further | ⟨mode, o, there⟩⟩ := later due
    · have first := index b under
      omega
    · cases stage.symm.trans there

end Job

/-! ## Courses of moves -/

/-- A step that an editor's run has come to its end before, and a pause waits. -/
def Stride.Burdened (s : Stride E) : Prop := s.job.Burdened s.slot.mailbox

namespace Hub

variable {hub : Hub E} {w : WorkspaceId} {s next : Site E} {id : JobId} {job : Job E} {due : Prop}

theorem strides_append (hub : Hub E) (w : WorkspaceId) (id : JobId) (first second : List Move) :
    hub.strides w id (first ++ second) = hub.strides w id first ++ (hub.after first).strides w id second := by
  induction first generalizing hub with
  | nil => rfl
  | cons m moves ih => simp [strides, ih]

/-- A job's steps are made one after the other. -/
theorem mem_strides {step : Stride E} {moves : List Move} (here : step ∈ hub.strides w id moves) :
    ∃ past m rest, moves = past ++ m :: rest ∧ (hub.after past).stride? w id m = some step := by
  induction moves generalizing hub with
  | nil => cases here
  | cons m moves ih =>
    rcases List.mem_append.1 here with now | later
    · exact ⟨[], m, moves, rfl, Option.mem_toList.1 now⟩
    · obtain ⟨past, m', rest, rfl, took⟩ := ih later
      exact ⟨m :: past, m', rest, rfl, took⟩

/-- How a job stands to its pauses, if it is there; if it is not, none is due. -/
inductive Spares (hub : Hub E) (w : WorkspaceId) (id : JobId) (due : Prop) : Prop
  | absent (absent : ∀ s, hub.site? w = some s → s.job? id = none) (undue : ¬ due)
  | known {s : Site E} {job : Job E} (here : hub.site? w = some s) (known : s.job? id = some job)
    (spared : job.Spared due s.slot.mailbox)

theorem Spares.of_free (free : hub.tasks.contains id = false) : hub.Spares w id False := by
  refine .absent (fun s here => ?_) fun due => due
  cases known : s.job? id with
  | none => rfl
  | some job =>
    rw [(site?_eq_some.1 here).2, jobOn?_eq_some] at known
    simp [Table.contains, known] at free

/-- A job that is not there makes no step. -/
theorem stride?_absent (absent : ∀ s, hub.site? w = some s → s.job? id = none) (m : Move) :
    hub.stride? w id m = none := by
  cases took : hub.stride? w id m with
  | none => rfl
  | some step =>
    obtain ⟨s, here, -, known, -⟩ := stride?_eq_some took
    cases (absent s here).symm.trans known

/-- A job that comes in with a move is untouched. -/
theorem Reachable.comes_in (reached : hub.Reachable) (absent : ∀ s, hub.site? w = some s → s.job? id = none)
    {m : Move} (there : (hub.move m).site? w = some next) (known : next.job? id = some job) :
    Site.Untouched job := by
  cases here : hub.site? w with
  | none => exact (move_closed reached.sound m here).2 id job ((site?_eq_some.1 there).2 ▸ known)
  | some s =>
    obtain ⟨own, moved, rfl | ⟨c, cause, step⟩⟩ := move_site reached.sound m here <;> cases moved.symm.trans there
    · cases (absent _ here).symm.trans known
    · cases step with
      | edit | clearOutput | signal => cases (absent _ here).symm.trans known
      | submit j operation free =>
        dsimp only at known
        split at known
        · cases known
          exact ⟨rfl, rfl, .inl rfl⟩
        · cases (absent _ here).symm.trans known
      | step h _ asked j other theirs =>
        have different : id ≠ j := by
          rintro rfl
          cases (absent _ here).symm.trans theirs
        rw [s.take_other _ different] at known
        cases (absent _ here).symm.trans known

theorem Spares.move (reached : hub.Reachable) (spares : hub.Spares w id due) (m : Move) :
    (hub.move m).Spares w id (due ∨ ∃ step, hub.stride? w id m = some step ∧ step.Burdened) := by
  cases spares with
  | absent absent undue =>
    have undue' : ¬ (due ∨ ∃ step, hub.stride? w id m = some step ∧ step.Burdened) := by
      simp [stride?_absent absent, undue]
    by_cases gone : ∀ s, (hub.move m).site? w = some s → s.job? id = none
    · exact .absent gone undue'
    · simp only [Classical.not_forall] at gone
      obtain ⟨next, there, known⟩ := gone
      obtain ⟨job, known⟩ := Option.ne_none_iff_exists'.1 known
      exact .known there known (.of_untouched (reached.comes_in absent there known) undue')
  | @known s job here known spared =>
    have attends : ∀ number, job.receiver = some number → job.Attends s.slot.mailbox number :=
      fun number => (reached.attentive here).attends known
    rcases reached.stride here known m with ⟨now, stride, there⟩ | ⟨none, next, there, known', mailbox⟩
    · have rule := Job.step_rule (hub.house now) id { slot := s.slot, asked := hub.asked } job
      refine .known there (s.take_own ..) ?_
      by_cases burdened : job.Burdened s.slot.mailbox
      · exact (rule.burdened burdened attends).congr (iff_of_true trivial (.inr ⟨_, stride, burdened⟩))
      · refine (rule.spared ((reached.attentive here).orderly known) attends spared burdened).congr ?_
        simp [stride, Stride.Burdened, burdened]
    · refine .known there known' ?_
      suffices same : job.Spared due next.slot.mailbox from same.congr (by simp [none])
      cases receiver : job.receiver with
      | none => exact spared.unarmed receiver _
      | some number =>
        rcases mailbox number receiver with mailbox | ⟨sig, mailbox⟩ <;> rw [mailbox]
        · exact spared
        · exact spared.fire sig

theorem Spares.after (reached : hub.Reachable) (spares : hub.Spares w id due) (moves : List Move) :
    (hub.after moves).Spares w id (due ∨ ∃ step ∈ hub.strides w id moves, step.Burdened) := by
  induction moves generalizing hub due with
  | nil => simpa [strides] using spares
  | cons m moves ih =>
    have same : ((due ∨ ∃ step, hub.stride? w id m = some step ∧ step.Burdened) ∨
        ∃ step ∈ (hub.move m).strides w id moves, step.Burdened) =
          (due ∨ ∃ step ∈ hub.strides w id (m :: moves), step.Burdened) := by
      simp [strides, or_and_right, exists_or, or_assoc]
    rw [← same]
    exact ih (reached.move m) (spares.move reached m)

/-- What holds of every job that is handed in, and is kept by each of its steps under the settings of the hub,
holds of every job. -/
theorem Reachable.kept_under {P : Job E → Prop} (reached : hub.Reachable)
    (untouched : ∀ {job}, Site.Untouched job → P job)
    (rule : ∀ {h id sc job a}, h.settings = hub.settings → Job.Rule h id sc job a → P job → P a.job)
    (here : hub.site? w = some s) (known : s.job? id = some job) : P job := by
  refine reached.site (P := fun s => ∀ id job, s.job? id = some job → P job) ?_ ?_ here id job known
  · exact fun _ _ fresh id job known => untouched (fresh.jobs id job known)
  · intro s next c all step id job known
    cases step with
    | edit | clearOutput | signal => exact all id job known
    | submit j operation free =>
      dsimp only at known
      split at known
      · cases known
        exact untouched ⟨rfl, rfl, .inl rfl⟩
      · exact all id job known
    | step h same asked j other theirs =>
      by_cases own : id = j
      · subst own
        cases (s.take_own ..).symm.trans known
        exact rule same (Job.step_rule ..) (all id other theirs)
      · rw [s.take_other _ own] at known
        exact all id job known

/-- What holds of every job that is handed in, and is kept by each of its steps, holds of every job. -/
theorem Reachable.kept_by_rules {P : Job E → Prop} (reached : hub.Reachable)
    (untouched : ∀ {job}, Site.Untouched job → P job)
    (rule : ∀ {h id sc job a}, Job.Rule h id sc job a → P job → P a.job) (here : hub.site? w = some s)
    (known : s.job? id = some job) : P job :=
  reached.kept_under untouched (fun _ => rule) here known

end Hub

/-! ## Engines that do as they are told -/

namespace Engine

/-- What a poll may answer if the debugger is off: it suspends only if it is asked to, and gives a reason for a
failure. -/
inductive Answer (E : Engine) (off : E.Run → Prop) (paused : Bool) : Polled E.Run E.Snapshot → Prop
  | pending {run : E.Run} {wake : Wake} (still : off run) : E.Answer off paused (.pending run wake)
  | finished {value : Json} : E.Answer off paused (.ended (.finished value))
  | failed {fault : Fault} {more : List Fault} : E.Answer off paused (.ended (.failed (fault :: more)))
  | suspended {snapshot : E.Snapshot} {location : Option Location} (asked : paused = true) :
    E.Answer off paused (.ended (.suspended snapshot location))

/-- An engine that answers so, whenever it was told that the debugger is off. -/
structure Obeys (E : Engine) (off : E.Run → Prop) : Prop where
  start : ∀ text context options, options.debuggerOn = false → off (E.start text context options)
  resume : ∀ snapshot context options, options.debuggerOn = false → off (E.resume snapshot context options)
  poll : ∀ run now paused, off run → E.Answer off paused (E.poll run now { paused := paused }).2

end Engine

namespace Script

theorem Flight.proceed_obeys {now spare : Nat} {tokens : Tokens} {f : Flight} (going : tokens.cancelled = false)
    (off : f.options.debuggerOn = false) :
    engine.Answer (·.options.debuggerOn = false) tokens.paused (f.proceed now tokens spare).2 := by
  fun_induction proceed now tokens spare f with
  | case1 _ _ stop => simp [going] at stop
  | case2 _ _ _ paused => exact .suspended paused
  | case3 => exact .finished
  | case4 | case9 => exact .failed
  | case5 spare f _ _ s _ _ stops => simp [stopsAt, off] at stops
  | case6 _ _ _ _ _ _ _ _ _ _ _ _ ih => exact ih off
  | case7 | case8 | case10 => exact .pending off
  | case11 _ _ _ _ _ _ _ _ _ _ _ _ _ rest _ _ _ ih =>
    rw [rest] at ih
    exact ih off

/-- Scripts do as they are told. -/
theorem obeys : engine.Obeys (·.options.debuggerOn = false) where
  start := fun _ _ _ off => off
  resume := fun _ _ _ off => off
  poll := by
    intro run now paused off
    have proceeds (f : Flight) (spare : Nat) (off : f.options.debuggerOn = false) :
        engine.Answer (·.options.debuggerOn = false) paused (f.proceed now { paused := paused } spare).2 :=
      @Flight.proceed_obeys now spare { paused := paused } f rfl off
    show engine.Answer _ paused (Run.poll run now { paused := paused }).2
    cases run with
    | ofSource source context options =>
      unfold Run.poll
      dsimp only
      cases parse source with
      | error e => exact .failed
      | ok program => exact proceeds _ _ off
    | ofMachine machine context options => exact proceeds _ _ off
    | flying f =>
      unfold Run.poll Flight.poll
      dsimp only
      split
      · exact proceeds f _ off
      · split
        · exact proceeds _ _ off
        · exact .pending off
      · split
        · exact proceeds _ _ off
        · exact .pending off

end Script

namespace Job

variable {h : House} {id : JobId} {sc : Scene E} {job : Job E} {a : Advance E} {off : E.Run → Prop}

/-- The debugger is off in the runs of some kind. -/
structure DebuggerOff (kind : Mode → Context → Prop) (off : E.Run → Prop) (job : Job E) : Prop where
  starting : ∀ l, job.stage = .starting l → kind l.mode l.prepared.context → l.options.debuggerOn = false
  running : ∀ l, job.stage = .running l → kind l.mode l.context → off l.run

section

variable {kind : Mode → Context → Prop}

theorem DebuggerOff.unconcerned (unconcerned : job.stage.isAtEngine = false) : job.DebuggerOff kind off := by
  constructor <;> intro l stage <;> rw [stage] at unconcerned <;> cases unconcerned

theorem DebuggerOff.of_untouched (untouched : Site.Untouched job) : job.DebuggerOff kind off := by
  obtain ⟨-, -, stage | ⟨r, stage⟩⟩ := untouched <;> exact .unconcerned (by rw [stage]; rfl)

/-- Runs that the debugger is refused when they are launched are never under it. -/
theorem Rule.debuggerOff (obeys : E.Obeys off)
    (refused : ∀ mode context, kind mode context → (mode.acceptsPause && debuggable h.settings context) = false)
    (rule : Rule h id sc job a) (before : job.DebuggerOff kind off) : a.job.DebuggerOff kind off := by
  have goes_on : ∀ {l next : Live E} {lines wake}, job.stage = .running l →
      E.poll l.run h.now { paused := l.paused } = (lines, .pending next.run wake) →
        next.mode = l.mode ∧ next.context = l.context → (job.at_ (.running next)).DebuggerOff kind off := by
    intro l next lines wake stage polled ⟨mode, context⟩
    refine ⟨fun _ starts => (by cases starts), ?_⟩
    rintro _ ⟨⟩ own
    have answer := obeys.poll l.run h.now l.paused (before.running l stage (mode ▸ context ▸ own))
    rw [polled] at answer
    cases answer with
    | pending still => exact still
  cases rule with
  | waiting | settled => exact before
  | @launched mode p stage =>
    refine ⟨?_, fun _ runs => (by cases runs)⟩
    rintro _ ⟨⟩ own
    exact refused mode p.context own
  | @pausedEarly l _ _ stage =>
    refine ⟨?_, fun _ runs => (by cases runs)⟩
    rintro _ ⟨⟩ own
    exact before.starting l stage own
  | @started l stage =>
    refine ⟨fun _ starts => (by cases starts), ?_⟩
    rintro _ ⟨⟩ own
    have told := before.starting l stage own
    show off (runOf l.prepared l.options)
    unfold runOf
    split
    · exact obeys.start _ _ _ told
    · exact obeys.resume _ _ _ told
  | paused stage polled | unheard stage polled | running stage polled => exact goes_on stage polled ⟨rfl, rfl⟩
  | @loaded purpose => cases purpose <;> exact .unconcerned rfl
  | _ => exact .unconcerned rfl

end

/-- The debugger is off in the runs that cannot be paused. -/
structure Undebugged (off : E.Run → Prop) (job : Job E) : Prop where
  starting : ∀ l, job.stage = .starting l → l.mode.acceptsPause = false → l.options.debuggerOn = false
  running : ∀ l, job.stage = .running l → l.mode.acceptsPause = false → off l.run

theorem undebugged_iff : job.Undebugged off ↔ job.DebuggerOff (fun mode _ => mode.acceptsPause = false) off :=
  ⟨fun undebugged => ⟨undebugged.starting, undebugged.running⟩, fun off => ⟨off.starting, off.running⟩⟩

theorem Undebugged.of_untouched (untouched : Site.Untouched job) : job.Undebugged off :=
  undebugged_iff.2 (.of_untouched untouched)

theorem Rule.undebugged (obeys : E.Obeys off) (rule : Rule h id sc job a) (undebugged : job.Undebugged off) :
    a.job.Undebugged off := by
  have refused : ∀ (mode : Mode) (context : Context), mode.acceptsPause = false →
      (mode.acceptsPause && debuggable h.settings context) = false := by
    intro mode context refused
    rw [refused, Bool.false_and]
  exact undebugged_iff.2 (rule.debuggerOff obeys refused (undebugged_iff.1 undebugged))

/-- The end of a testcase's run is recorded. -/
theorem Rule.records {i : Nat} {o : Outcome} (rule : Rule h id sc job a)
    (ended : a.job.stage.ended? = some (.testcaseRun i, o)) :
    a.scene.slot.state.testcases = sc.slot.state.testcases.modify i ({ · with result := o.verdict }) := by
  cases rule with
  | @ended l lines result =>
    simp only [conclude, at_, Stage.ended?, Option.some.injEq, Prod.mk.injEq] at ended
    obtain ⟨testcase, rfl⟩ := ended
    exact (finish_testcase testcase result).1
  | stoppedEarly | stopped =>
    simp only [conclude, at_, Stage.ended?, Option.some.injEq, Prod.mk.injEq] at ended
    obtain ⟨testcase, rfl⟩ := ended
    exact (finishInterrupted_testcase testcase).1
  | waiting stage | settled stage => simp [stage, Stage.ended?] at ended
  | @loaded purpose => cases purpose <;> cases ended
  | _ => cases ended

end Job

theorem Stride.Made.records {s : Stride E} (made : s.Made) {i : Nat} {o : Outcome}
    (ended : s.ended? = some (.testcaseRun i, o)) :
    s.made.scene.slot.state.testcases = s.slot.state.testcases.modify i ({ · with result := o.verdict }) := by
  obtain ⟨h, id, asked, now, step⟩ := made
  have rule := Job.step_rule h id { slot := s.slot, asked := asked } s.job
  rw [← step] at rule
  exact rule.records ended

/-! ## Testcases that are asked to pause -/

/-- If an engine does as it is told, a testcase's run fails with no fault exactly if it is suspended, and then it
has been asked to pause. -/
theorem Stride.Made.faultless {off : E.Run → Prop} (obeys : E.Obeys off) {s : Stride E} (made : s.Made)
    (undebugged : s.job.Undebugged off) {i : Nat} {o : Outcome} (ended : s.ended? = some (.testcaseRun i, o)) :
    (o = .errored [] ↔ ∃ l snapshot location, s.job.Answered s.now l (.suspended snapshot location)) ∧
      (o = .errored [] → ∃ l, s.job.stage = .running l ∧ l.mode = .testcaseRun i ∧ l.paused = true) := by
  have answers : ∀ {l result}, l.mode = .testcaseRun i → s.job.Answered s.now l result →
      E.Answer off l.paused (.ended result) := by
    rintro l result own ⟨stage, lines, polled⟩
    have answer := obeys.poll l.run s.now l.paused (undebugged.running l stage (by rw [own]; rfl))
    rwa [polled] at answer
  cases (made.ends ended).1 with
  | interrupted =>
    refine ⟨iff_of_false (fun same => by cases same) ?_, fun same => by cases same⟩
    rintro ⟨l, snapshot, location, answered⟩
    obtain ⟨o, same, ran⟩ := made.ended answered
    have interrupted := congrArg Prod.snd (Option.some.inj (ended.symm.trans same))
    exact absurd interrupted.symm ran
  | value own answered =>
    refine ⟨iff_of_false (fun same => by cases same) ?_, fun same => by cases same⟩
    rintro ⟨l, snapshot, location, again⟩
    cases answered.unique again
  | @faults l faults own answered =>
    have some_fault := answers own answered
    cases some_fault with
    | failed =>
      refine ⟨iff_of_false (by simp) ?_, by simp⟩
      rintro ⟨l, snapshot, location, again⟩
      cases answered.unique again
  | @unkept l snapshot location _ _ own answered =>
    have told := answers own answered
    cases told with
    | suspended asked => exact ⟨iff_of_true rfl ⟨_, _, _, answered⟩, fun _ => ⟨l, answered.1, own, asked⟩⟩
  | suspended _ other => exact absurd rfl (other i)

namespace Hub

variable {hub : Hub E} {w : WorkspaceId} {id : JobId}

/-- A testcase's run is asked to pause exactly if it is the first after an editor's run, and a pause waited when
the batch began. -/
theorem Reachable.asked_iff (reached : hub.Reachable) (free : hub.tasks.contains id = false) {moves : List Move}
    {s : Site E} (here : (hub.after moves).site? w = some s) {job : Job E} (known : s.job? id = some job) {l : Live E}
    (stage : job.stage = .running l) {i : Nat} (testcase : l.mode = .testcaseRun i) :
    l.paused = true ↔ i = 0 ∧ ∃ step ∈ hub.strides w id moves, step.Burdened := by
  cases (Spares.of_free free).after reached moves with
  | absent absent => cases (absent s here).symm.trans known
  | @known other own there same spared =>
    cases here.symm.trans there
    cases known.symm.trans same
    have orderly := ((reached.after moves).attentive here).orderly known
    simpa using spared.asked_iff orderly stage testcase

/-- The batch that a step with a pause begins was brought about by an editor's run. -/
theorem Reachable.burdened_operation (reached : hub.Reachable) {moves : List Move} {step : Stride E}
    (here : step ∈ hub.strides w id moves) (burdened : step.Burdened) : step.job.operation = .evaluate .editorRun := by
  obtain ⟨past, m, rest, rfl, took⟩ := mem_strides here
  obtain ⟨s, there, -, known, -⟩ := stride?_eq_some took
  obtain ⟨alone, ⟨value, stage⟩, -⟩ := burdened
  exact (((reached.after past).attentive there).orderly known).alone alone _ (by rw [stage]; rfl)

/-- If an engine does as it is told, a testcase's run is suspended, and recorded as failed with no fault, only if
it has been asked to pause so. -/
theorem Reachable.faultless_testcase {off : E.Run → Prop} (obeys : E.Obeys off) (reached : hub.Reachable)
    (free : hub.tasks.contains id = false) {moves : List Move} {step : Stride E} (here : step ∈ hub.strides w id moves)
    {i : Nat} {o : Outcome} (ended : step.ended? = some (.testcaseRun i, o)) :
    step.made.scene.slot.state.testcases =
        step.slot.state.testcases.modify i ({ · with result := o.verdict }) ∧
      (o = .errored [] ↔ ∃ l snapshot location, step.job.Answered step.now l (.suspended snapshot location)) ∧
      (o = .errored [] → i = 0 ∧ ∃ earlier ∈ hub.strides w id moves, earlier.Burdened) := by
  obtain ⟨past, m, rest, rfl, took⟩ := mem_strides here
  obtain ⟨s, there, slot, known, made⟩ := stride?_eq_some took
  have undebugged : step.job.Undebugged off :=
    (reached.after past).kept_by_rules .of_untouched (fun rule => rule.undebugged obeys) there known
  obtain ⟨suspended, asked⟩ := made.faultless obeys undebugged ended
  refine ⟨made.records ended, suspended, fun faultless => ?_⟩
  obtain ⟨l, stage, testcase, paused⟩ := asked faultless
  obtain ⟨first, earlier, before, burdened⟩ := (reached.asked_iff free there known stage testcase).1 paused
  exact ⟨first, earlier, strides_append .. ▸ List.mem_append_left _ before, burdened⟩

end Hub

/-- On any engine, a testcase's run is asked to pause exactly if it is the first that follows an editor's run and
a pause was accepted before that had finished, and still waited when the batch began; and no other run of a
testcase of a script is suspended, or recorded as failed with no fault. -/
theorem asked_testcases {w : WorkspaceId} {id : JobId} {moves : List Move} :
    (∀ {E : Engine} {hub : Hub E} {s : Site E} {job : Job E} {l : Live E} {i : Nat}, hub.Reachable →
      hub.tasks.contains id = false → (hub.after moves).site? w = some s → s.job? id = some job →
      job.stage = .running l → l.mode = .testcaseRun i →
        (l.paused = true ↔ i = 0 ∧ ∃ step ∈ hub.strides w id moves, step.Burdened) ∧
        ∀ step ∈ hub.strides w id moves, step.Burdened → step.job.operation = .evaluate .editorRun) ∧
    ∀ {hub : Hub Script.engine}, hub.Reachable → hub.tasks.contains id = false →
      ∀ step ∈ hub.strides w id moves, ∀ i o, step.ended? = some (.testcaseRun i, o) →
        step.made.scene.slot.state.testcases = step.slot.state.testcases.modify i ({ · with result := o.verdict }) ∧
          (o = .errored [] ↔ ∃ l snapshot location, step.job.Answered step.now l (.suspended snapshot location)) ∧
          (o = .errored [] → i = 0 ∧ ∃ earlier ∈ hub.strides w id moves, earlier.Burdened) :=
  ⟨fun reached free here known stage testcase =>
    ⟨reached.asked_iff free here known stage testcase, fun _ own burdened => reached.burdened_operation own burdened⟩,
    fun reached free _ here _ _ ended => reached.faultless_testcase Script.obeys free here ended⟩

/-! ### A pause that comes while an editor's run finishes -/

/-- An editor's script that sleeps, and a testcase to be run after it. -/
def tardy : Hub Script.engine :=
  (Hub.create {} .bundled).1.after
    [.edit .assessment (.testcases [{ program := "true" }]), .edit .assessment (.activeTab .autograder),
      .edit .assessment (.editorValue "sleep 5")]

/-- The pause is accepted while the script sleeps, and looked at by the testcase. -/
def tardyMoves : List Move :=
  .submit 0 .assessment (.evaluate .editorRun) :: List.replicate 8 (.step 0 0) ++
    .signal .assessment .pause :: List.replicate 7 (.step 0 5)

theorem tardy_reachable : tardy.Reachable := by
  unfold tardy
  exact (Hub.Reachable.create {} .bundled).after _

theorem tardy_free : tardy.tasks.contains 0 = false := by decide +kernel

theorem tardy_asks :
    ∃ s job l, (tardy.after tardyMoves).site? .assessment = some s ∧ s.job? 0 = some job ∧ job.stage = .running l ∧
      l.mode = .testcaseRun 0 ∧ l.paused = true := by
  have asks : ((tardy.after tardyMoves).site? .assessment).any (fun s => (s.job? 0).any fun job =>
      job.isRunning && (job.stage.mode? = some (.testcaseRun 0) && job.stage.isAsked)) = true := by
    decide +kernel
  obtain ⟨s, here, asks⟩ := (Option.any_eq_true _ _).1 asks
  obtain ⟨job, known, asks⟩ := (Option.any_eq_true _ _).1 asks
  simp only [Bool.and_eq_true, Job.isRunning_iff, decide_eq_true_eq] at asks
  obtain ⟨⟨l, stage⟩, mode, asked⟩ := asks
  rw [stage] at mode asked
  exact ⟨s, job, l, here, known, stage, Option.some.inj mode, asked⟩

/-- Whether a run has failed with no fault. -/
def Outcome.isFaultless : Outcome → Bool
  | .errored [] => true
  | _ => false

theorem Outcome.eq_of_isFaultless {o : Outcome} (faultless : o.isFaultless = true) : o = .errored [] := by
  unfold isFaultless at faultless
  split at faultless
  · rfl
  · cases faultless

/-- Whether a testcase is recorded as failed with no fault. -/
def Verdict.isFaultless : Verdict → Bool
  | .failure [] => true
  | _ => false

theorem Verdict.eq_of_isFaultless {v : Verdict} (faultless : v.isFaultless = true) : v = .failure [] := by
  unfold isFaultless at faultless
  split at faultless
  · rfl
  · cases faultless

theorem tardy_fails :
    ∃ step ∈ tardy.strides .assessment 0 (tardyMoves ++ [.step 0 5]),
      step.ended? = some (.testcaseRun 0, .errored []) := by
  have fails : (tardy.strides .assessment 0 (tardyMoves ++ [.step 0 5])).any (fun step =>
      step.ended?.any fun e => e.1 = .testcaseRun 0 && e.2.isFaultless) = true := by
    decide +kernel
  obtain ⟨step, here, fails⟩ := List.any_eq_true.1 fails
  obtain ⟨⟨mode, o⟩, ended, fails⟩ := (Option.any_eq_true _ _).1 fails
  simp only [Bool.and_eq_true, decide_eq_true_eq] at fails
  obtain ⟨rfl, faultless⟩ := fails
  rw [Outcome.eq_of_isFaultless faultless] at ended
  exact ⟨step, here, ended⟩

/-- The pause waited when the batch began, and the testcase fails for no other reason. -/
theorem asked_testcases_of_tardy :
    ∃ s job l step, tardy.Reachable ∧ tardy.tasks.contains 0 = false ∧
      (tardy.after tardyMoves).site? .assessment = some s ∧ s.job? 0 = some job ∧ job.stage = .running l ∧
      l.mode = .testcaseRun 0 ∧ (∃ earlier ∈ tardy.strides .assessment 0 tardyMoves, earlier.Burdened) ∧
      step ∈ tardy.strides .assessment 0 (tardyMoves ++ [.step 0 5]) ∧
      step.ended? = some (.testcaseRun 0, .errored []) ∧
      ∃ l snapshot location, step.job.Answered step.now l (.suspended snapshot location) := by
  obtain ⟨s, job, l, here, known, stage, testcase, paused⟩ := tardy_asks
  obtain ⟨step, own, ended⟩ := tardy_fails
  obtain ⟨asked, -⟩ := asked_testcases.1 tardy_reachable tardy_free here known stage testcase
  obtain ⟨-, suspended, -⟩ := asked_testcases.2 tardy_reachable tardy_free step own 0 (.errored []) ended
  exact ⟨s, job, l, step, tardy_reachable, tardy_free, here, known, stage, testcase, (asked.1 paused).2, own, ended,
    suspended.1 rfl⟩

/-- A pause reaches a testcase, which is recorded as failed with no fault. -/
theorem pause_reaches_testcase :
    ∃ s job l last t, tardy.Reachable ∧ (tardy.after tardyMoves).site? .assessment = some s ∧ s.job? 0 = some job ∧
      job.stage = .running l ∧ l.mode = .testcaseRun 0 ∧ l.paused = true ∧
      (tardy.after (tardyMoves ++ [.step 0 5])).site? .assessment = some last ∧
      last.slot.state.testcases[0]? = some t ∧ t.result = .failure [] := by
  obtain ⟨s, job, l, here, known, stage, testcase, paused⟩ := tardy_asks
  have fails : ((tardy.after (tardyMoves ++ [.step 0 5])).site? .assessment).any (fun s =>
      s.slot.state.testcases[0]?.any fun t => t.result.isFaultless) = true := by
    decide +kernel
  obtain ⟨last, there, fails⟩ := (Option.any_eq_true _ _).1 fails
  obtain ⟨t, first, fails⟩ := (Option.any_eq_true _ _).1 fails
  exact ⟨s, job, l, last, t, tardy_reachable, here, known, stage, testcase, paused, there, first,
    Verdict.eq_of_isFaultless fails⟩

end Workbench
