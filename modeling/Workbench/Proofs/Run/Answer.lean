/-
Jobs on scripts that come to their answer.

Whoever holds the permit of a workspace can be carried to the answer
(`Script.settles`). At each stage there is a moment at which the next step brings the
job nearer to it: the libraries are not waited for any longer, or the run wants to be
polled. What is left are testcases, then stages, then what keeps a job at its stage
(`Script.distance`).
-/
import Workbench.Proofs.Run.Call
import Workbench.Proofs.Run.Interruption

namespace Workbench

variable {E : Engine}

/-! ## The permit on the way -/

/-- Who has no claim to the permit has just been handed in, or is answered. -/
theorem Stage.of_outside {stage : Stage E} (outside : stage.place = .outside) :
    stage = .submitted ∨ ∃ reply, stage = .settled reply := by
  cases stage <;> simp_all [Stage.place]

namespace Job

variable {h : House} {id : JobId} {sc : Scene E} {job : Job E} {a : Advance E}

/-- No step leads back to the beginning. -/
theorem Rule.begun (rule : Rule h id sc job a) : a.job.stage ≠ .submitted := by
  cases rule with
  | @loaded purpose => cases purpose <;> simp [proceed, at_]
  | launched => simp [launch_job, at_]
  | waiting stage | settled stage => simp [stage]
  | _ => simp [at_, enqueue, load, endBatch, prepare, conclude, leave]

/-- A job has the permit, or finds it free when it asks for it, or is answered and needs it no more. -/
def Served (id : JobId) (slot : Slot E) (job : Job E) : Prop :=
  slot.permit.holder = some id ∨ job.stage = .submitted ∧ slot.permit.holder = none ∨
    ∃ reply, job.stage = .settled reply

theorem Rule.served (rule : Rule h id sc job a) (served : job.Served id sc.slot) : a.job.Served id a.scene.slot := by
  rcases served with held | ⟨stage, free⟩ | ⟨reply, stage⟩
  · by_cases outside : a.job.stage.place = .outside
    · exact .inr (.inr ((Stage.of_outside outside).resolve_left rule.begun))
    · refine .inl ?_
      cases rule.trade with
      | stays _ _ permit | admitted _ _ _ _ permit | works _ _ _ permit | arms _ _ _ permit => rw [permit, held]
      | asks _ _ _ permit => rw [permit, Permit.holder_request held]
      | leaves _ target => exact absurd target outside
  · cases rule with
    | refused => exact .inr (.inr ⟨_, rfl⟩)
    | enqueued =>
      refine .inl ?_
      rw [enqueue_slot]
      simp [Permit.request, free]
    | waiting other | settled other => cases stage.symm.trans other
    | _ => simp_all
  · cases rule with
    | settled => exact .inr (.inr ⟨reply, stage⟩)
    | _ => simp_all

end Job

/-! ## How far it is to the answer -/

/-- How many stages are ahead. -/
def Stage.ahead : Stage E → Nat
  | .submitted => 10
  | .queued => 9
  | .admitted => 8
  | .preparing _ => 7
  | .loading .. => 6
  | .launching .. => 5
  | .starting _ => 4
  | .running _ => 3
  | .concluded .. => 2
  | .leaving _ => 1
  | .settled _ => 0

/-- How many testcases are still to come. Before a batch begins it is as if there were one more. -/
def Job.testcasesLeft (count : Nat) (job : Job E) : Nat :=
  match job.batch with
  | none => count + 1
  | some batch => batch.total - batch.index

/-- No wake is for a time that is past. -/
theorem Wake.Admits.le {wake : Wake} {now later : Nat} (admits : wake.Admits now later) : now ≤ later := by
  cases wake with
  | soon | spent => exact Nat.le_of_eq admits
  | onTime => exact admits.1
  | never => exact admits.elim

namespace Script

/-- What keeps a job at its stage: signals that wait for it, or how often its run is still to be polled. -/
noncomputable def staying (now : Nat) (mailbox : Mailbox) (job : Job engine) : Nat :=
  match job.stage with
  | .starting _ => (job.receiver.elim [] mailbox.queue).length
  | .running l => (l.run : Run).pollsAt now
  | _ => 0

/-- How far a job is from its answer. -/
noncomputable def distance (now : Nat) (slot : Slot engine) (job : Job engine) : Nat × Nat × Nat :=
  (job.testcasesLeft slot.state.testcases.length, job.stage.ahead, staying now slot.mailbox job)

/-- A step that brings a job nearer to its answer, if the next one is taken at some later time. -/
def Nearer (now later : Nat) (slot : Slot engine) (job : Job engine) (a : Advance engine) : Prop :=
  Prod.Lex (· < ·) (Prod.Lex (· < ·) (· < ·)) (distance later a.scene.slot a.job) (distance now slot job)

/-- A moment at which the next step brings a job on. -/
def Ripe (now : Nat) (job : Job engine) : Prop :=
  match job.stage with
  | .loading _ wait => wait.deadline ≤ now
  | .running l => (l.run : Run).Timely now
  | _ => True

/-! ## A run that is polled when it wants to be -/

/-- A poll ends the run, or brings it nearer to its end, and then there is a moment at which the next one is in
time. -/
theorem Run.polled_on {r next : Run} {now : Nat} {paused : Bool} {lines : List String} {wake : Wake}
    (timely : r.Timely now) (polled : engine.poll r now { paused := paused } = (lines, .pending next wake)) :
    ∃ later, wake.Admits now later ∧ next.Timely later ∧ next.pollsAt later < r.pollsAt now := by
  have leads := Run.poll_leads (rfl : ({ paused := paused } : Tokens).cancelled = false) timely
  rw [show r.poll now { paused := paused } = _ from polled] at leads
  cases leads with
  | @pending _ f _ same still options context asks fewer =>
    obtain ⟨later, in_time, few, -⟩ := Flight.next_poll still asks
    exact ⟨later, in_time, (still.later (still.admits asks in_time)).1, Nat.lt_of_le_of_lt few fewer⟩

/-! ## Each step brings a job nearer -/

variable {h : House} {id : JobId} {sc : Scene engine} {job : Job engine} {a : Advance engine} {now later : Nat}

theorem nearer_of_ahead (batch : a.job.batch = job.batch)
    (length : a.scene.slot.state.testcases.length = sc.slot.state.testcases.length)
    (ahead : a.job.stage.ahead < job.stage.ahead) : Nearer now later sc.slot job a := by
  unfold Nearer distance Job.testcasesLeft
  rw [batch, length]
  exact .right _ (.left _ _ ahead)

theorem nearer_of_staying (batch : a.job.batch = job.batch)
    (length : a.scene.slot.state.testcases.length = sc.slot.state.testcases.length)
    (ahead : a.job.stage.ahead = job.stage.ahead)
    (less : staying later a.scene.slot.mailbox a.job < staying now sc.slot.mailbox job) :
    Nearer now later sc.slot job a := by
  unfold Nearer distance Job.testcasesLeft
  rw [batch, length, ahead]
  exact .right _ (.right _ less)

theorem nearer_of_testcases
    (less : a.job.testcasesLeft a.scene.slot.state.testcases.length <
      job.testcasesLeft sc.slot.state.testcases.length) : Nearer now later sc.slot job a :=
  .left _ _ less

/-- A run that has been polled and goes on is to be polled less often from some later time on. -/
def PolledOn (now later : Nat) (job next : Job engine) : Prop :=
  ∀ l l', job.stage = .running l → next.stage = .running l' →
    (l'.run : Run).pollsAt later < (l.run : Run).pollsAt now

/-- Unless there is a run before and after, there is nothing to poll less often. -/
theorem polledOn_of_still {next : Job engine} (still : job.isRunning = false ∨ next.isRunning = false) :
    PolledOn now later job next := by
  intro l l' before after
  simp [Job.isRunning, before, after] at still

/-- Whoever is served and ripe is brought nearer to the answer. -/
theorem step_nearer (h : House) (sc : Scene engine) (orderly : job.Orderly) (served : job.Served id sc.slot)
    (ripe : Ripe h.now job) (open_ : ∀ reply, job.stage ≠ .settled reply)
    (polled : PolledOn h.now later job (Job.step h id sc job).job) :
    Nearer h.now later sc.slot job (Job.step h id sc job) := by
  have rule := Job.step_rule h id sc job
  have length := rule.testcases_length
  have patient : ∀ purpose wait, job.stage = .loading purpose wait → (Job.step h id sc job).wake = none := by
    intro purpose wait stage
    simp only [Ripe, stage] at ripe
    simp only [Job.step, stage]
    cases wake : (Job.await h sc job purpose wait).wake with
    | none => rfl
    | some _ => exact absurd (Job.await_patient (by rw [wake]; rfl)) (Nat.not_lt.2 ripe)
  generalize Job.step h id sc job = a at *
  cases rule with
  | waiting stage held =>
    rcases served with holder | ⟨other, -⟩ | ⟨_, other⟩
    · rw [Permit.isHeldBy_iff.2 holder] at held
      cases held
    · cases stage.symm.trans other
    · cases stage.symm.trans other
  | settled stage => exact absurd stage (open_ _)
  | allBegun stage =>
    have alone := (orderly.outside (by rw [stage]; rfl) (by simp [Job.Over, stage])).1
    exact nearer_of_testcases (by simp [Job.testcasesLeft, alone])
  | loading stage => cases patient _ _ stage
  | @loaded purpose _ _ stage =>
    cases purpose <;> exact nearer_of_ahead rfl length (by rw [stage]; simp [Stage.ahead, Job.proceed, Job.at_])
  | pausedEarly stage receiver signal =>
    refine nearer_of_staying rfl length (by rw [stage]; rfl) ?_
    simp [staying, stage, receiver, signal, Job.at_, Scene.took]
  | paused stage | unheard stage | running stage =>
    refine nearer_of_staying rfl length (by rw [stage]; rfl) ?_
    simpa only [staying, stage, Job.at_] using polled _ _ stage rfl
  | next stage under ran more =>
    exact nearer_of_testcases (by simp only [Job.testcasesLeft, under]; omega)
  | gradedBegun stage alone =>
    exact nearer_of_testcases (by simp [Job.testcasesLeft, alone])
  | launched stage =>
    refine nearer_of_ahead ?_ length ?_ <;> rw [Job.launch_job]
    · rfl
    · rw [stage]
      simp [Stage.ahead, Job.at_]
  | refused stage | enqueued stage | admitted stage | armed stage | allEmpty stage | reset stage | unchanged stage
  | chapter stage | library stage | deprived stage | cutShort stage | editor stage | resumed stage | testcase stage
  | repl stage | stoppedEarly stage | started stage | ended stage | stopped stage | aborted stage | completed stage
  | gradedEmpty stage | answered stage | left stage =>
    refine nearer_of_ahead rfl length ?_
    rw [stage]
    simp [Stage.ahead, Job.at_, Job.enqueue, Job.load, Job.prepare, Job.endBatch, Job.conclude, Job.leave]

/-- A run that is begun can be polled at any time. -/
theorem runOf_ripe (p : Prepared engine) (options : RunOptions) (now : Nat) :
    (Job.runOf p options : Run).Timely now := by
  unfold Job.runOf
  split <;> exact trivial

/-- Unless the run has been polled and goes on, any job is ripe at some later moment. -/
theorem ripens_anew (rule : Job.Rule h id sc job a) (still : job.isRunning = false) (now : Nat) :
    ∃ later, now ≤ later ∧ Ripe later a.job := by
  unfold Ripe
  cases stage : a.job.stage with
  | loading purpose wait => exact ⟨max now wait.deadline, Nat.le_max_left .., Nat.le_max_right ..⟩
  | running l =>
    cases rule with
    | started =>
      cases stage
      exact ⟨now, Nat.le_refl _, runOf_ripe ..⟩
    | paused there | unheard there | running there => simp [Job.isRunning, there] at still
    | @loaded purpose => cases purpose <;> cases stage
    | launched => rw [Job.launch_job] at stage; cases stage
    | waiting there | settled there => cases there.symm.trans stage
    | _ => cases stage
  | _ => exact ⟨now, Nat.le_refl _, trivial⟩

/-- After a step that was ripe there is a moment at which the next one is, and in time. -/
theorem ripens (rule : Job.Rule h id sc job a) (ripe : Ripe h.now job) :
    ∃ later, h.now ≤ later ∧ Ripe later a.job ∧ PolledOn h.now later job a.job ∧
      Stride.due ⟨h.now, sc.slot, job, a⟩ later := by
  cases running : job.isRunning with
  | false =>
    obtain ⟨later, after, ripe⟩ := ripens_anew rule running h.now
    refine ⟨later, after, ripe, polledOn_of_still (.inl running), fun l _ _ _ stage => ?_⟩
    simp [Job.isRunning, show job.stage = _ from stage] at running
  | true =>
    obtain ⟨l, stage⟩ := Job.isRunning_iff.1 running
    simp only [Ripe, stage] at ripe
    -- the next moment is the one that the poll asked for
    have due {lines : List String} {run : Run} {wake : Wake} {later : Nat}
        (polled : engine.poll l.run h.now { paused := l.paused } = (lines, .pending run wake))
        (admits : wake.Admits h.now later) : Stride.due ⟨h.now, sc.slot, job, a⟩ later := by
      intro _ _ _ _ same again
      cases stage.symm.trans same
      cases polled.symm.trans again
      exact admits
    cases rule with
    | ended own polled =>
      cases stage.symm.trans own
      refine ⟨h.now, Nat.le_refl _, trivial, polledOn_of_still (.inr rfl), fun _ _ _ _ same again => ?_⟩
      cases stage.symm.trans same
      cases polled.symm.trans again
    | stopped own polled =>
      cases stage.symm.trans own
      obtain ⟨later, admits, -⟩ := Run.polled_on ripe polled
      exact ⟨later, admits.le, trivial, polledOn_of_still (.inr rfl), due polled admits⟩
    | paused own polled | unheard own polled | running own polled =>
      cases stage.symm.trans own
      obtain ⟨later, admits, timely, fewer⟩ := Run.polled_on ripe polled
      refine ⟨later, admits.le, timely, fun _ _ same next => ?_, due polled admits⟩
      cases stage.symm.trans same
      cases next
      exact fewer
    | _ => simp_all

/-! ## From the call to the answer -/

/-- Whoever is served can be carried to the answer, and in time. -/
theorem settles {hub : Hub engine} (reached : hub.Reachable) {w : WorkspaceId} {s : Site engine} {id : JobId}
    {job : Job engine} (here : hub.site? w = some s) (known : s.job? id = some job) (served : job.Served id s.slot)
    {due : Nat → Prop} {now : Nat} (ripe : Ripe now job) (in_time : due now) :
    ∃ (times : List Nat) (reply : Reply), (hub.after (times.map (.step id))).reply? id = some reply ∧
      InTime due (hub.strides w id (times.map (.step id))) ∧ ∀ time ∈ times, now ≤ time := by
  by_cases answered : ∃ reply, job.stage = .settled reply
  · obtain ⟨reply, stage⟩ := answered
    refine ⟨[], reply, ?_, trivial, by simp⟩
    rw [List.map_nil, Hub.after_nil, Hub.reply?, Hub.jobOn?_eq_some.1 ((Hub.site?_eq_some.1 here).2 ▸ known),
      Option.bind_some, Job.reply?, stage]
  · have rule := Job.step_rule (hub.house now) id { slot := s.slot, asked := hub.asked } job
    have there : (hub.move (.step id now)).site? w = _ := (Hub.step_own reached.sound here known now).1
    obtain ⟨later, after, ripe', polled, in_time'⟩ := ripens rule ripe
    have nearer := step_nearer (hub.house now) { slot := s.slot, asked := hub.asked }
      ((reached.attentive here).orderly known) served ripe (fun reply stage => answered ⟨reply, stage⟩) polled
    obtain ⟨times, reply, replied, all, ordered⟩ :=
      settles (reached.move _) there (s.take_own ..) (rule.served served) ripe' in_time'
    have took : hub.stride? w id (.step id now) = some ⟨now, s.slot, job,
        Job.step (hub.house now) id { slot := s.slot, asked := hub.asked } job⟩ := by
      simp [Hub.stride?, here, known]
    refine ⟨now :: times, reply, replied, ?_, fun time among => ?_⟩
    · rw [List.map_cons, Hub.strides, took]
      exact ⟨in_time, all⟩
    · rcases List.mem_cons.1 among with rfl | among
      · exact Nat.le_refl _
      · exact Nat.le_trans after (ordered time among)
termination_by distance now s.slot job
decreasing_by exact nearer

/-- Where nobody is at work an evaluation can be called at any moment, and is answered. -/
theorem calls_answered {hub : Hub engine} (reached : hub.Reachable) {w : WorkspaceId} {slot : Slot engine}
    (open_ : hub.slot w = .ok slot) (idle : slot.permit.holder = none) {id : JobId}
    (free : hub.tasks.contains id = false) (mode : Mode) (now : Nat) :
    ∃ (times : List Nat) (reply : Reply), hub.Calls w id mode (times.map (.step id)) reply ∧
      hub.Timely w id mode (times.map (.step id)) ∧ ∀ time ∈ times, now ≤ time := by
  have here : hub.site? w = some ⟨slot, hub.jobOn? w⟩ := Hub.site?_eq_some.2 ⟨open_, rfl⟩
  obtain ⟨times, reply, answered, in_time, ordered⟩ :=
    @settles _ (reached.move _) w _ id _ (Hub.handed_in here free (.evaluate mode)) (if_pos rfl)
      (.inr (.inl ⟨rfl, idle⟩)) (fun _ => True) now trivial trivial
  exact ⟨times, reply, ⟨free, Hub.only_of (by simp), answered⟩, in_time, ordered⟩

end Script

end Workbench
