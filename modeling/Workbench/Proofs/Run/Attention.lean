/-
What a job that owns a workspace still has to look at.

A job has one receiver at most, and what is delivered to it is at most one pause
and behind it at most one interrupt, after which nothing can come any more
(`Mailbox.Line`). While its engine runs a job always listens: there is no moment
at which a signal is delivered and never looked at for want of attention
(`Job.Attends`). Which run a job is at goes with its operation and its batch
(`Job.Orderly`).
-/
import Workbench.Proofs.Run.Batch
import Workbench.Proofs.Run.Ownership
import Workbench.Proofs.Signal.Mailbox

namespace Workbench

/-! ## What waits in a queue -/

namespace Mailbox

variable {m : Mailbox} {n : Nat} {s : Signal} {rest : List Signal} {stopped : Prop}

/-- What is delivered to a number and not yet received. -/
inductive Line (m : Mailbox) (n : Nat) (stopped : Prop) : Prop
  /-- it listens, and at most a pause waits for it -/
  | listening (l : Listener) (armed : m.listener = some l) (number : l.number = n)
    (queue : m.queue n = [] ∨ m.queue n = [.pause] ∧ l.pauseDelivered = true)
  /-- an interrupt waits for it, and perhaps a pause in front, and nobody listens any more -/
  | called (unarmed : m.listener = none) (pauses : List Signal) (few : pauses = [] ∨ pauses = [.pause])
    (queue : m.queue n = pauses ++ [.interrupt])
  /-- it has received the interrupt and is stopped -/
  | spent (unarmed : m.listener = none) (queue : m.queue n = []) (after : stopped)

namespace Line

/-- A new number listens, and nothing waits for it. -/
theorem arm (m : Mailbox) (accepts : Bool) : (m.arm accepts).1.Line m.next stopped :=
  .listening { number := m.next, acceptsPause := accepts } rfl rfl (.inl (by simp [Mailbox.arm, Mailbox.queue]))

/-- Whatever is fired keeps the order of what waits. -/
theorem fire (line : m.Line n stopped) (s : Signal) : (m.fire s).1.Line n stopped := by
  cases line with
  | listening l armed number queue =>
    subst number
    cases s with
    | interrupt =>
      refine .called (by simp [Mailbox.fire, armed, Listener.takes]) (m.queue l.number) ?_
        (fire_interrupt_queue armed)
      exact queue.imp_right And.left
    | pause =>
      by_cases takes : l.takes .pause = true
      · -- a pause is taken only once
        have empty : m.queue l.number = [] := by
          rcases queue with empty | ⟨-, delivered⟩
          · exact empty
          · simp [Listener.takes, delivered] at takes
        refine .listening { l with pauseDelivered := true } (by simp [Mailbox.fire, armed, takes]) rfl (.inr ⟨?_, rfl⟩)
        simp [Mailbox.fire, armed, takes, Mailbox.queue] at empty ⊢
        simp [empty]
      · rw [fire_refused (by simpa [armed] using takes)]
        exact .listening l armed rfl queue
  | called unarmed pauses few queue =>
    rw [fire_refused (by simp [unarmed])]
    exact .called unarmed pauses few queue
  | spent unarmed queue after =>
    rw [fire_refused (by simp [unarmed])]
    exact .spent unarmed queue after

/-- The interrupt is received: nothing is left. -/
theorem interrupt (line : m.Line n stopped) (signal : m.queue n = .interrupt :: rest) :
    m.listener = none ∧ rest = [] := by
  cases line with
  | listening l armed number queue => rcases queue with queue | ⟨queue, -⟩ <;> cases signal.symm.trans queue
  | called unarmed pauses few queue =>
    rcases few with rfl | rfl <;> cases signal.symm.trans queue
    exact ⟨unarmed, rfl⟩
  | spent unarmed queue after => cases signal.symm.trans queue

/-- The pause is received: it was the first. -/
theorem pause (line : m.Line n stopped) (signal : m.queue n = .pause :: rest) {later : Prop} :
    Line { m with queues := m.queues.set n rest } n later := by
  cases line with
  | listening l armed number queue =>
    rcases queue with queue | ⟨queue, -⟩ <;> cases signal.symm.trans queue
    exact .listening l armed number (.inl (queue_set ..))
  | called unarmed pauses few queue =>
    rcases few with rfl | rfl <;> cases signal.symm.trans queue
    exact .called unarmed [] (.inl rfl) (queue_set ..)
  | spent unarmed queue after => cases signal.symm.trans queue

/-- Pauses no longer reach the number; what waits is as it was. -/
theorem acceptPause (line : m.Line n stopped) (number : Nat) (accepts : Bool) :
    (m.acceptPause number accepts).Line n stopped := by
  cases line with
  | listening l armed same queue =>
    by_cases own : l.number = number
    · exact .listening { l with acceptsPause := accepts } (by simp [Mailbox.acceptPause, armed, own]) same queue
    · exact .listening l (by simp [Mailbox.acceptPause, armed, own]) same queue
  | called unarmed pauses few queue => exact .called (by simp [Mailbox.acceptPause, unarmed]) pauses few queue
  | spent unarmed queue after => exact .spent (by simp [Mailbox.acceptPause, unarmed]) queue after

theorem imp {later : Prop} (line : m.Line n stopped) (imp : stopped → later) : m.Line n later := by
  cases line with
  | listening l armed number queue => exact .listening l armed number queue
  | called unarmed pauses few queue => exact .called unarmed pauses few queue
  | spent unarmed queue after => exact .spent unarmed queue (imp after)

end Line

end Mailbox

/-! ## Which run a job is at -/

variable {E : Engine}

/-- The run that a new context is needed for. -/
def Purpose.mode? : Purpose → Option Mode
  | .editorRun => some .editorRun
  | .testcaseRun index _ => some (.testcaseRun index)
  | .selection _ => none

/-- The run that a job is at, from its preparation until it is over. -/
def Stage.mode? : Stage E → Option Mode
  | .preparing mode => some mode
  | .loading purpose _ => purpose.mode?
  | .launching mode _ => some mode
  | .starting l => some l.mode
  | .running l => some l.mode
  | .concluded mode _ => some mode
  | _ => none

namespace Job

/-- What brought a job's batch about: the request to run all testcases, or an editor's run that finished. -/
def Begun (job : Job E) (batch : Batch) : Prop :=
  job.operation = .runAll ∧ batch.after = none ∨
    job.operation = .evaluate .editorRun ∧ ∃ value, batch.after = some (.finished value)

/-- The run that a job is at is the one that was asked for, or the next one of its batch. -/
structure Orderly (job : Job E) : Prop where
  alone : job.batch = none → ∀ mode, job.stage.mode? = some mode → job.operation = .evaluate mode
  batch : ∀ batch, job.batch = some batch →
    (job.stage.mode? = some (.testcaseRun batch.index) ∨ job.Over) ∧ batch.index < batch.total ∧ job.Begun batch
  unarmed : job.stage.mode? = none → job.receiver = none ∨ job.Over

variable {h : House} {id : JobId} {sc : Scene E} {job : Job E} {a : Advance E}

/-- A job that is at no run and in no batch. -/
theorem Orderly.idle (alone : job.batch = none) (stage : job.stage.mode? = none)
    (unarmed : job.receiver = none ∨ job.Over) : job.Orderly where
  alone := fun _ mode at_ => by cases stage.symm.trans at_
  batch := fun _ under => by cases alone.symm.trans under
  unarmed := fun _ => unarmed

/-- A job goes on with the run that it is at, or is over with it. -/
theorem Orderly.goes (orderly : job.Orderly) {stage : Stage E}
    (at_ : stage.mode? = job.stage.mode? ∨ ∃ reply, stage = .leaving reply) (run : job.stage.mode?.isSome = true) :
    (job.at_ stage).Orderly where
  alone := by
    intro alone mode there
    rcases at_ with same | ⟨reply, rfl⟩
    · exact orderly.alone alone mode (same.symm.trans there)
    · cases there
  batch := by
    intro batch under
    obtain ⟨place, rest⟩ := orderly.batch batch under
    refine ⟨?_, rest⟩
    rcases at_ with same | ⟨reply, rfl⟩
    · rcases place with place | ⟨reply, past | past⟩
      · exact .inl (same.trans place)
      · simp [past, Stage.mode?] at run
      · simp [past, Stage.mode?] at run
    · exact .inr ⟨reply, .inl rfl⟩
  unarmed := by
    intro idle
    rcases at_ with same | ⟨reply, rfl⟩
    · rw [← same, show stage.mode? = none from idle] at run
      cases run
    · exact .inr ⟨reply, .inl rfl⟩

theorem proceed_mode (h : House) (sc : Scene E) (job : Job E) (purpose : Purpose) :
    (∃ stage, (proceed h sc job purpose).job = job.at_ stage ∧ stage.mode? = purpose.mode?) := by
  cases purpose <;> exact ⟨_, rfl, rfl⟩

/-- A job that has been handed in, or waits, has neither batch nor receiver. -/
theorem Orderly.outside (orderly : job.Orderly) (stage : job.stage.mode? = none) (going : ¬ job.Over) :
    job.batch = none ∧ job.receiver = none := by
  refine ⟨?_, (orderly.unarmed stage).resolve_right going⟩
  cases under : job.batch with
  | none => rfl
  | some batch =>
    rcases (orderly.batch batch under).1 with at_ | past
    · cases stage.symm.trans at_
    · exact absurd past going

/-- Every step leads to the run that comes next. -/
theorem Rule.orderly (rule : Rule h id sc job a) (orderly : job.Orderly) : a.job.Orderly := by
  have outside : job.stage.mode? = none → (∀ reply, job.stage ≠ .leaving reply) →
      (∀ reply, job.stage ≠ .settled reply) → job.batch = none ∧ job.receiver = none := by
    intro stage leaving settled
    refine orderly.outside stage ?_
    rintro ⟨reply, past | past⟩
    · exact leaving reply past
    · exact settled reply past
  cases rule with
  | refused stage | reset stage | unchanged stage | admitted stage | enqueued stage | chapter stage | library stage =>
    obtain ⟨alone, unarmed⟩ := outside (by rw [stage]; rfl) (by simp [stage]) (by simp [stage])
    exact .idle alone rfl (.inl unarmed)
  | allEmpty stage =>
    exact .idle (outside (by rw [stage]; rfl) (by simp [stage]) (by simp [stage])).1 rfl (.inr ⟨_, .inl rfl⟩)
  | waiting | settled => exact orderly
  | armed stage operation =>
    obtain ⟨alone, -⟩ := outside (by rw [stage]; rfl) (by simp [stage]) (by simp [stage])
    refine ⟨?_, ?_, fun run => by cases run⟩
    · rintro - mode ⟨⟩
      exact operation
    · intro batch under
      cases alone.symm.trans under
  | allBegun stage operation nonempty =>
    refine ⟨fun alone => (by cases alone), ?_, fun run => by cases run⟩
    rintro batch ⟨⟩
    exact ⟨.inl rfl, Nat.pos_of_ne_zero nonempty, .inl ⟨operation, rfl⟩⟩
  | gradedBegun stage alone graded nonempty =>
    refine ⟨fun alone => (by cases alone), ?_, fun run => by cases run⟩
    rintro batch ⟨⟩
    exact ⟨.inl rfl, Nat.pos_of_ne_zero nonempty, .inr ⟨orderly.alone alone _ (by rw [stage]; rfl), _, rfl⟩⟩
  | @next mode outcome batch stage under ran more =>
    refine ⟨fun alone => (by cases alone), ?_, fun run => by cases run⟩
    rintro _ ⟨⟩
    exact ⟨.inl rfl, more, (orderly.batch batch under).2.2⟩
  | cutShort stage | aborted stage | completed stage =>
    exact orderly.goes (.inr ⟨_, rfl⟩) (by rw [stage]; rfl)
  | @loaded purpose wait next stage waited =>
    obtain ⟨later, job', mode⟩ := proceed_mode h next job purpose
    rw [job']
    cases run : job.stage.mode? with
    | none =>
      obtain ⟨alone, unarmed⟩ := outside run (by simp [stage]) (by simp [stage])
      rw [stage] at run
      exact .idle alone (mode.trans run) (.inl unarmed)
    | some m => exact orderly.goes (.inl (by rw [mode, stage]; rfl)) (by rw [run]; rfl)
  | @loading purpose wait later wake stage =>
    cases run : job.stage.mode? with
    | none =>
      obtain ⟨alone, unarmed⟩ := outside run (by simp [stage]) (by simp [stage])
      rw [stage] at run
      exact .idle alone run (.inl unarmed)
    | some m => exact orderly.goes (.inl (by rw [stage]; rfl)) (by rw [run]; rfl)
  | left stage =>
    refine ⟨?_, ?_, fun _ => .inl rfl⟩
    · intro alone mode at_
      cases at_
    · intro batch under
      exact ⟨.inr ⟨_, .inr rfl⟩, (orderly.batch batch under).2⟩
  | deprived stage | gradedEmpty stage | answered stage =>
    exact orderly.goes (.inr ⟨_, rfl⟩) (by rw [stage]; rfl)
  | editor stage | repl stage | resumed stage | testcase stage | launched stage | stoppedEarly stage
  | pausedEarly stage | started stage | ended stage | stopped stage | paused stage | unheard stage | running stage =>
    exact orderly.goes (.inl (by rw [stage]; rfl)) (by rw [stage]; rfl)

theorem Orderly.of_untouched (untouched : Site.Untouched job) : job.Orderly := by
  obtain ⟨unarmed, alone, stage | ⟨w, stage⟩⟩ := untouched <;> exact .idle alone (by rw [stage]; rfl) (.inl unarmed)

/-! ## A job looks at whatever is delivered to it -/

/-- A job that was stopped by an interrupt, or has come to its answer. -/
def HasStopped (job : Job E) : Prop :=
  (∃ mode, job.stage = .concluded mode .interrupted) ∨ ∃ reply, job.stage = .leaving reply

/-- A job and its number: nothing is delivered to it that it will not look at. -/
structure Attends (m : Mailbox) (job : Job E) (number : Nat) : Prop where
  given : number < m.next
  line : m.Line number job.HasStopped
  listening : ∀ live, job.stage = .running live → live.listening = true

theorem Attends.fire {m : Mailbox} {number : Nat} (attends : job.Attends m number) (s : Signal) :
    job.Attends (m.fire s).1 number where
  given := by rw [(Mailbox.fire_within m s).next]; exact attends.given
  line := attends.line.fire s
  listening := attends.listening

/-- A step in which the job looks at no signal. -/
theorem Attends.kept {m : Mailbox} {number : Nat} (attends : job.Attends m number) {next : Job E}
    (going : ¬ job.HasStopped ∨ next.HasStopped)
    (listening : ∀ live, next.stage = .running live → live.listening = true) :
    next.Attends m number where
  given := attends.given
  line := attends.line.imp fun stopped => going.resolve_left fun not => not stopped
  listening := listening

/-- While a job has not stopped, it listens, or an interrupt waits for it. -/
theorem Attends.not_disarmed {m : Mailbox} {number : Nat} (attends : job.Attends m number) (going : ¬ job.HasStopped)
    (empty : m.queue number = []) : m.listens number = true := by
  cases attends.line with
  | listening l armed same => exact Mailbox.listens_iff.2 ⟨l, armed, same⟩
  | called unarmed pauses few queue =>
    rw [empty] at queue
    rcases few with rfl | rfl <;> cases queue
  | spent unarmed queue after => exact absurd after going

theorem conclude_interrupted (mode : Mode) (sc : Scene E) :
    (conclude job mode (sc.finishInterrupted h mode)).job.HasStopped := .inl ⟨mode, rfl⟩

/-- A step of a job that has a number leaves it attentive. -/
theorem Rule.attends {number : Nat} (rule : Rule h id sc job a) (receiver : job.receiver = some number)
    (attends : job.Attends sc.slot.mailbox number) (later : a.job.receiver = some number) :
    a.job.Attends a.scene.slot.mailbox number := by
  have going : ∀ {stage}, job.stage = stage → (∀ mode, stage ≠ .concluded mode .interrupted) →
      (∀ reply, stage ≠ .leaving reply) → ¬ job.HasStopped := by
    rintro _ rfl concluded leaving (⟨mode, stage⟩ | ⟨reply, stage⟩)
    · exact concluded mode stage
    · exact leaving reply stage
  cases rule with
  | refused stage | waiting stage | admitted stage | reset stage | unchanged stage | deprived stage | editor stage
  | resumed stage | testcase stage | loading stage =>
    exact attends.kept (.inl (going stage (by simp) (by simp))) (by simp [at_, load, stage])
  | repl stage => exact attends.kept (.inl (going stage (by simp) (by simp))) (by simp [prepare, at_])
  | settled stage => exact attends.kept (.inl (going stage (by simp) (by simp))) (by simp [stage])
  | chapter stage | library stage =>
    have same : ∀ sc : Scene E, sc.forgetShown.slot.mailbox = sc.slot.mailbox := fun sc => (sc.forgetShown_door).2.2
    rw [same]
    exact attends.kept (.inl (going stage (by simp) (by simp))) (by simp [at_, load])
  | cutShort stage | aborted stage | completed stage =>
    rw [endBatch_slot]
    exact attends.kept (.inr (.inr ⟨_, rfl⟩)) (by simp [endBatch, at_])
  | answered stage => exact attends.kept (.inr (.inr ⟨_, rfl⟩)) (by simp [at_])
  | next stage under ran =>
    refine attends.kept (.inl (going stage ?_ (by simp))) (by simp)
    rintro mode ⟨⟩
    exact ran rfl
  | launched stage =>
    rw [launch_slot]
    refine attends.kept (.inl (going stage (by simp) (by simp))) ?_
    simp [launch, at_]
  | @loaded purpose wait next stage waited =>
    rw [(proceed_door h next job purpose).2.2, waited.slot]
    refine attends.kept (.inl (going stage (by simp) (by simp))) ?_
    cases purpose <;> simp [proceed, at_]
  | ended stage =>
    rw [conclude_slot, (finish_door ..).2.2]
    exact attends.kept (.inl (going stage (by simp) (by simp))) (by simp [conclude, at_])
  | @started l stage quiet => exact attends.kept (.inl (going stage (by simp) (by simp))) (by simp [at_])
  | unheard stage _ _ quiet disarmed =>
    have armed := attends.not_disarmed (going stage (by simp) (by simp)) (quiet number receiver)
    cases (disarmed number receiver).symm.trans armed
  | @running l lines run wake stage =>
    refine attends.kept (.inl (going stage (by simp) (by simp))) ?_
    rintro live ⟨⟩
    exact attends.listening l stage
  | @pausedEarly l n rest stage own signal =>
    cases receiver.symm.trans own
    exact ⟨attends.given, attends.line.pause signal, by simp [at_]⟩
  | @paused l lines run wake n rest stage polled listening own signal =>
    cases receiver.symm.trans own
    refine ⟨attends.given, attends.line.pause signal, ?_⟩
    rintro live ⟨⟩
    exact listening
  | stoppedEarly stage own signal | stopped stage _ _ own signal =>
    cases receiver.symm.trans own
    obtain ⟨unarmed, rfl⟩ := attends.line.interrupt signal
    have mailbox : ∀ (sc : Scene E) (mode : Mode),
        (conclude job mode (sc.finishInterrupted h mode)).scene.slot.mailbox = sc.slot.mailbox :=
      fun sc mode => (sc.finishInterrupted_door h mode).2.2
    rw [mailbox]
    exact ⟨attends.given, .spent unarmed (Mailbox.queue_set ..) (conclude_interrupted ..), by simp [conclude, at_]⟩
  | gradedEmpty stage =>
    simp only [refusePause_slot, receiver]
    exact ⟨attends.given, (attends.line.imp fun _ => .inr ⟨_, rfl⟩).acceptPause number false, by simp [at_]⟩
  | gradedBegun stage =>
    simp only [Scene.occur_slot, Scene.sayBriefly_slot, refusePause_slot, receiver]
    refine ⟨attends.given, (attends.line.imp fun stopped => ?_).acceptPause number false, by simp⟩
    exact absurd stopped (going stage (by simp) (by simp))
  | enqueued stage =>
    rw [enqueue_slot]
    have kept : (enqueue id sc job).job.Attends sc.slot.mailbox number :=
      attends.kept (.inl (going stage (by simp) (by simp))) (by simp [enqueue, at_])
    dsimp only
    split
    · exact kept.fire .interrupt
    · exact kept
  | armed | allEmpty | allBegun =>
    cases later
    exact absurd attends.given (Nat.lt_irrefl _)
  | left => simp [leave] at later

/-- A job that is given a number attends from then on. -/
theorem Rule.attends_first {number : Nat} (rule : Rule h id sc job a) (receiver : job.receiver = none)
    (later : a.job.receiver = some number) : a.job.Attends a.scene.slot.mailbox number := by
  cases rule with
  | armed | allEmpty | allBegun =>
    cases later
    exact ⟨Nat.lt_succ_self _, .arm .., by simp [at_]⟩
  | loaded =>
    rw [(proceed_place ..).2] at later
    cases receiver.symm.trans later
  | left => simp [leave] at later
  | _ => cases receiver.symm.trans later

/-- A job keeps its number until it gives it up. -/
theorem Rule.kept_receiver {number : Nat} (rule : Rule h id sc job a) (standing : job.Standing sc.slot.permit id)
    (receiver : job.receiver = some number) : a.job.receiver = some number ∨ a.job.receiver = none := by
  cases rule.trade with
  | stays _ same | asks _ _ same | admitted _ _ _ same | works _ _ same => exact .inl (same.trans receiver)
  | arms place =>
    rw [Standing, place] at standing
    cases standing.2.symm.trans receiver
  | leaves _ _ gone => exact .inr gone

/-- What a job that has not been given the permit does to the mailbox. -/
theorem Rule.bystander_mailbox (rule : Rule h id sc job a) (unadmitted : job.stage.place ≠ .admitted)
    (place : job.stage.place ≠ .owning) :
    a.scene.slot.mailbox = sc.slot.mailbox ∨ a.scene.slot.mailbox = (sc.slot.mailbox.fire .interrupt).1 := by
  cases rule with
  | refused | waiting | admitted | settled => exact .inl rfl
  | enqueued =>
    rw [enqueue_slot]
    dsimp only
    split
    · exact .inr rfl
    · exact .inl rfl
  | armed stage | allEmpty stage | allBegun stage | reset stage | unchanged stage | chapter stage
  | library stage => exact absurd (by rw [stage]; rfl) unadmitted
  | _ => exact absurd (by simp_all [Stage.place]) place

end Job

namespace Site

/-- A job takes its own steps. While it has a number, the others at most fire signals. -/
theorem Owned.attended {settings : Settings} {s next : Site E} {c : Cause} {id : JobId} {job : Job E}
    (owned : s.Owned) (known : s.job? id = some job) (step : s.Step settings c next) :
    (c = .step id ∧ ∃ h asked, next = s.take id (Job.step h id { slot := s.slot, asked := asked } job)) ∨
    c ≠ .step id ∧ next.job? id = some job ∧ ∀ number, job.receiver = some number →
      next.slot.mailbox = s.slot.mailbox ∨ ∃ sig, next.slot.mailbox = (s.slot.mailbox.fire sig).1 := by
  cases step with
  | edit | clearOutput => exact .inr ⟨(fun same => by cases same), known, fun _ _ => .inl rfl⟩
  | signal sig => exact .inr ⟨(fun same => by cases same), known, fun _ _ => .inr ⟨sig, rfl⟩⟩
  | submit j operation free =>
    have different : id ≠ j := by
      rintro rfl
      cases free.symm.trans known
    exact .inr ⟨(fun same => by cases same), by simp [different, known], fun _ _ => .inl rfl⟩
  | step h _ asked j other theirs =>
    by_cases own : id = j
    · subst own
      cases known.symm.trans theirs
      exact .inl ⟨rfl, h, asked, rfl⟩
    · refine .inr ⟨fun same => ?_, (s.take_other _ own).trans known, fun number receiver => ?_⟩
      · cases same
        exact own rfl
      · obtain ⟨unadmitted, outside⟩ := owned.bystander (owned.holder known receiver) (Ne.symm own) theirs
        have rule := Job.step_rule h j { slot := s.slot, asked := asked } other
        exact (rule.bystander_mailbox unadmitted outside).imp_right fun fired => ⟨.interrupt, fired⟩

/-- Every job is at the run that it should be at and looks at whatever is delivered to it. -/
structure Attentive (s : Site E) : Prop where
  orderly : ∀ {id job}, s.job? id = some job → job.Orderly
  attends : ∀ {id job number}, s.job? id = some job → job.receiver = some number →
    job.Attends s.slot.mailbox number

theorem Fresh.attentive {settings : Settings} {w : WorkspaceId} {s : Site E} (fresh : s.Fresh settings w) :
    s.Attentive where
  orderly := fun known => .of_untouched (fresh.jobs _ _ known)
  attends := by
    intro id job number known receiver
    cases (fresh.jobs _ _ known).1.symm.trans receiver

theorem Attentive.step {settings : Settings} {s next : Site E} {c : Cause} (attentive : s.Attentive) (owned : s.Owned)
    (step : s.Step settings c next) : next.Attentive where
  orderly := by
    cases step with
    | edit | clearOutput | signal => exact attentive.orderly
    | submit j operation free =>
      intro id job known
      dsimp only at known
      split at known
      · cases known
        exact .idle rfl rfl (.inl rfl)
      · exact attentive.orderly known
    | step h _ asked j other theirs =>
      intro id job known
      by_cases own : id = j
      · subst own
        cases (s.take_own ..).symm.trans known
        exact (Job.step_rule ..).orderly (attentive.orderly theirs)
      · rw [s.take_other _ own] at known
        exact attentive.orderly known
  attends := by
    intro id job number known receiver
    cases earlier : s.job? id with
    | none =>
      cases step with
      | submit j operation free =>
        dsimp only at known
        split at known
        · cases known
          cases receiver
        · cases earlier.symm.trans known
      | step h _ asked j other theirs =>
        have different : id ≠ j := by
          rintro rfl
          cases earlier.symm.trans theirs
        rw [s.take_other _ different] at known
        cases earlier.symm.trans known
      | _ => cases earlier.symm.trans known
    | some before =>
      rcases owned.attended earlier step with ⟨-, h, asked, rfl⟩ | ⟨-, same, mailbox⟩
      · cases (s.take_own ..).symm.trans known
        have rule := Job.step_rule h id { slot := s.slot, asked := asked } before
        cases had : before.receiver with
        | none => exact rule.attends_first had receiver
        | some n =>
          obtain rfl : n = number := by
            rcases rule.kept_receiver (owned.standing earlier) had with same | gone
            · exact Option.some.inj (same.symm.trans receiver)
            · cases gone.symm.trans receiver
          exact rule.attends had (attentive.attends earlier had) receiver
      · cases same.symm.trans known
        rcases mailbox number receiver with mailbox | ⟨sig, mailbox⟩ <;> rw [mailbox]
        · exact attentive.attends earlier receiver
        · exact (attentive.attends earlier receiver).fire sig

end Site

/-- In every course of events, each job is at the run that it should be at and looks at what is delivered to it. -/
theorem Hub.Reachable.attentive {hub : Hub E} (reached : hub.Reachable) {w : WorkspaceId} {s : Site E}
    (here : hub.site? w = some s) : s.Attentive :=
  (reached.site (P := fun s => s.Owned ∧ s.Attentive) (fun _ _ fresh => ⟨fresh.owned, fresh.attentive⟩)
    (fun _ _ _ both step => ⟨both.1.step step, both.2.step both.1 step⟩) here).2

end Workbench
