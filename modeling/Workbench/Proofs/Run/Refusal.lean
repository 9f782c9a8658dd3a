/-
What a refused evaluation does: nothing to the state of any workspace and nothing
to the suspended run, in any of its steps (`Hub.Reachable.refused_evaluation`).

It is not so that it delivers nothing. Whether there is a run to resume is looked
at before the job is queued, and again when it has been given the permit; in
between it has stopped the owner of the workspace. So a request to resume that is
refused after all may have interrupted another run, and that run may have
forgotten the suspended one on that account.
-/
import Workbench.Directive.Engine
import Workbench.Proofs.Run.Ownership

namespace Workbench

variable {E : Engine}

/-! ## Jobs that are not refused any more -/

/-- Whether a run of this mode can be refused in an open workspace. -/
def Mode.isRefusable : Mode → Bool
  | .debugResume => true
  | .testcaseRun _ => true
  | _ => false

/-- Why a reply refuses, if it does. -/
def Reply.refusal? : Reply → Option Refusal
  | .refused r => some r
  | _ => none

theorem Reply.refusal?_eq_some {reply : Reply} {r : Refusal} : reply.refusal? = some r ↔ reply = .refused r := by
  cases reply <;> simp [refusal?]

namespace Job

theorem isRefusable_of_refusal {slot : Slot E} {mode : Mode} {r : Refusal} (because : refusal? slot mode = some r) :
    mode.isRefusable = true := by
  cases mode <;> first | rfl | cases because

/-- A job that is not refused any more. -/
def Accepted (job : Job E) : Prop :=
  match job.stage with
  | .submitted => False
  | .queued | .admitted => ∀ mode, job.operation = .evaluate mode → mode.isRefusable = false
  | .preparing mode => mode.isRefusable = true → job.batch ≠ none
  | .leaving reply | .settled reply => reply.refusal? = none
  | _ => True

variable {h : House} {id : JobId} {sc : Scene E} {job : Job E} {a : Advance E}

theorem endBatch_accepted (batch : Batch) (aborted : Bool) : (endBatch h sc job batch aborted).job.Accepted := by
  unfold Accepted endBatch
  dsimp only [at_]
  split <;> rfl

theorem proceed_accepted (purpose : Purpose) : (proceed h sc job purpose).job.Accepted := by
  cases purpose with
  | editorRun => trivial
  | testcaseRun => trivial
  | selection => exact (rfl : (Reply.switched true).refusal? = none)

/-- An accepted job stays accepted. -/
theorem Rule.accepted (rule : Rule h id sc job a) (accepted : job.Accepted) : a.job.Accepted := by
  cases rule with
  | refused stage | enqueued stage => simp [Accepted, stage] at accepted
  | waiting | settled => exact accepted
  | admitted stage | left stage =>
    rw [Accepted, stage] at accepted
    exact accepted
  | @armed mode stage operation =>
    rw [Accepted, stage] at accepted
    intro refusable
    simp [accepted mode operation] at refusable
  | @deprived mode r stage because alone =>
    rw [Accepted, stage] at accepted
    exact absurd alone (accepted (isRefusable_of_refusal because))
  | cutShort | aborted | completed => exact endBatch_accepted _ _
  | allBegun | next | gradedBegun => exact fun _ => Option.some_ne_none _
  | @loaded purpose => exact proceed_accepted purpose
  | allEmpty | reset | unchanged | gradedEmpty | answered => rfl
  | _ => trivial

/-- A step of an evaluation that is not accepted after it changes neither state nor suspended run. -/
theorem Rule.unaccepted (rule : Rule h id sc job a) {mode : Mode} (operation : job.operation = .evaluate mode)
    (unaccepted : ¬ a.job.Accepted) :
    a.scene.slot.state = sc.slot.state ∧ a.scene.slot.suspended = sc.slot.suspended := by
  cases rule with
  | refused | waiting | admitted | armed | deprived | settled => exact ⟨rfl, rfl⟩
  | enqueued => rw [enqueue_slot]; exact ⟨rfl, rfl⟩
  | left => rw [leave_slot]; exact ⟨rfl, rfl⟩
  | cutShort | aborted | completed => exact absurd (endBatch_accepted _ _) unaccepted
  | next | gradedBegun => exact absurd (fun _ => Option.some_ne_none _) unaccepted
  | gradedEmpty | answered => exact absurd (rfl : (Reply.outcome _).refusal? = none) unaccepted
  | @loaded purpose => exact absurd (proceed_accepted purpose) unaccepted
  | allEmpty _ other | allBegun _ other | reset _ other | chapter _ other | library _ other =>
    cases operation.symm.trans other
  | unchanged _ other => rcases other with other | other <;> cases operation.symm.trans other
  | _ => exact absurd trivial unaccepted

/-- It delivers something exactly if it is the first step of one that is to resume a run, there is such a run at
that moment, and somebody listens. -/
theorem Rule.unaccepted_delivery (rule : Rule h id sc job a) {mode : Mode}
    (operation : job.operation = .evaluate mode) (unaccepted : ¬ a.job.Accepted) :
    (∃ n, (sc.slot.mailbox.queue n).length < (a.scene.slot.mailbox.queue n).length) ↔
      job.stage = .submitted ∧ mode = .debugResume ∧ sc.slot.suspended.isSome = true ∧
        sc.slot.mailbox.listener.isSome = true := by
  constructor
  · rintro ⟨n, grown⟩
    obtain ⟨submitted, stops, l, armed, -⟩ := rule.delivery grown
    rw [operation] at stops
    cases rule with
    | enqueued _ allowed =>
      have refusable : mode.isRefusable = true := by
        cases refusable : mode.isRefusable with
        | true => rfl
        | false =>
          refine absurd (fun m asked => ?_) unaccepted
          cases operation.symm.trans asked
          exact refusable
      cases mode with
      | debugResume =>
        have resumable := allowed .debugResume operation
        refine ⟨submitted, rfl, ?_, by simp [armed]⟩
        cases suspended : sc.slot.suspended with
        | some s => rfl
        | none => simp [refusal?, suspended] at resumable
      | testcaseRun => cases stops
      | editorRun | replRun => cases refusable
    | refused => exact absurd grown (Nat.lt_irrefl _)
    | _ => simp_all
  · rintro ⟨submitted, rfl, suspended, listener⟩
    obtain ⟨l, armed⟩ := Option.isSome_iff_exists.1 listener
    obtain ⟨s, suspended⟩ := Option.isSome_iff_exists.1 suspended
    cases rule with
    | enqueued =>
      refine ⟨l.number, ?_⟩
      rw [enqueue_slot, operation]
      change _ < ((sc.slot.mailbox.fire .interrupt).1.queue l.number).length
      rw [Mailbox.fire_interrupt_queue armed]
      simp
    | refused _ asked because =>
      cases operation.symm.trans asked
      simp [refusal?, suspended] at because
    | _ => simp_all

end Job

/-! ## The theorem -/

namespace Hub

/-- Nothing that happens later makes an accepted job a refused one. -/
theorem Reachable.accepted {hub : Hub E} (reached : hub.Reachable) {w : WorkspaceId} {id : JobId} {job : Job E}
    (known : hub.jobOn? w id = some job) (accepted : job.Accepted) (m : Move) :
    ∃ job, (hub.move m).jobOn? w id = some job ∧ job.Accepted := by
  cases here : hub.site? w with
  | none =>
    obtain ⟨-, -, stage | ⟨v, stage⟩⟩ := reached.sound.unopened here known
    · rw [Job.Accepted, stage] at accepted
      cases accepted
    · rw [Job.Accepted, stage] at accepted
      cases accepted
  | some s =>
    obtain ⟨next, there, moved⟩ := move_site reached.sound m here
    rw [← (site?_eq_some.1 here).2] at known
    rw [← (site?_eq_some.1 there).2]
    rcases moved with rfl | ⟨c, -, step⟩
    · exact ⟨job, known, accepted⟩
    · rcases (reached.owned here).undisturbed known step with ⟨h, asked, rfl⟩ | ⟨same, -⟩
      · exact ⟨_, s.take_own id _, (Job.step_rule h id _ job).accepted accepted⟩
      · exact ⟨job, same, accepted⟩

/-- An accepted job is not refused in the end. -/
theorem Reachable.accepted_after {hub : Hub E} (reached : hub.Reachable) {w : WorkspaceId} {id : JobId}
    {job : Job E} (known : hub.jobOn? w id = some job) (accepted : job.Accepted) (moves : List Move)
    (r : Refusal) : (hub.after moves).reply? id ≠ some (.refused r) := by
  induction moves generalizing hub job with
  | nil =>
    intro refused
    rw [after_nil, reply?, jobOn?_eq_some.1 known] at refused
    simp only [Option.bind_some, Job.reply?] at refused
    split at refused
    · next reply stage =>
      cases refused
      rw [Job.Accepted, stage] at accepted
      cases accepted
    · cases refused
  | cons m moves ih =>
    obtain ⟨later, known, accepted⟩ := reached.accepted known accepted m
    exact ih (reached.move m) known accepted

/-- Whatever else goes on, no step of an evaluation that is refused, in this step or later, changes the state or
the suspended run of any workspace. It delivers nothing either, unless it is the first step of one that is to
resume a run, there is such a run at that moment, and somebody listens there. -/
theorem Reachable.refused_evaluation {hub : Hub E} (reached : hub.Reachable) {w : WorkspaceId} {id : JobId}
    {job : Job E} (known : hub.jobOn? w id = some job) {mode : Mode} (operation : job.operation = .evaluate mode)
    {now : Nat} {moves : List Move} {r : Refusal}
    (refused : ((hub.move (.step id now)).after moves).reply? id = some (.refused r))
    {v : WorkspaceId} {s : Site E} (here : hub.site? v = some s) :
    ∃ next, (hub.move (.step id now)).site? v = some next ∧
      next.slot.state = s.slot.state ∧ next.slot.suspended = s.slot.suspended ∧
      ((∃ n, (s.slot.mailbox.queue n).length < (next.slot.mailbox.queue n).length) ↔
        v = w ∧ job.stage = .submitted ∧ mode = .debugResume ∧ s.slot.suspended.isSome = true ∧
          s.slot.mailbox.listener.isSome = true) := by
  by_cases same : v = w
  · subst same
    have own := known
    rw [← (site?_eq_some.1 here).2] at own
    obtain ⟨there, -⟩ := step_own reached.sound here own now
    have rule := Job.step_rule (hub.house now) id { slot := s.slot, asked := hub.asked } job
    have unaccepted : ¬ (Job.step (hub.house now) id { slot := s.slot, asked := hub.asked } job).job.Accepted := by
      intro accepted
      have later := s.take_own id (Job.step (hub.house now) id { slot := s.slot, asked := hub.asked } job)
      rw [(site?_eq_some.1 there).2] at later
      exact (reached.move (.step id now)).accepted_after later accepted moves r refused
    obtain ⟨state, suspended⟩ := rule.unaccepted operation unaccepted
    refine ⟨_, there, state, suspended, ?_⟩
    rw [Site.take_slot, rule.unaccepted_delivery operation unaccepted]
    simp
  · -- the job is for another workspace, and nothing happens here
    obtain ⟨next, there, rfl | ⟨c, cause, step⟩⟩ := move_site reached.sound (.step id now) here
    · exact ⟨_, there, rfl, rfl, by simp [same]⟩
    · cases cause
      cases step with
      | step h _ asked _ other theirs =>
        rw [(site?_eq_some.1 here).2] at theirs
        cases (jobOn?_eq_some.1 theirs).symm.trans (jobOn?_eq_some.1 known)
        exact absurd rfl same

end Hub

/-! ### A request to resume that comes while another run is under way -/

/-- A run stands at a breakpoint, and another one goes on for good. -/
def occupied : Hub Directive.engine :=
  (Hub.create {} .bundled).1.after
    ([.edit .playground (.editorValue "break 1\nfinish 1"), .submit 0 .playground (.evaluate .editorRun)] ++
      List.replicate 10 (.step 0 0) ++
      [.edit .playground (.replValue "hang"), .submit 1 .playground (.evaluate .replRun)] ++
      List.replicate 6 (.step 1 0))

/-- The run at the breakpoint is about to be resumed. -/
def contested : Hub Directive.engine := occupied.move (.submit 2 .playground (.evaluate .debugResume))

/-- The run that goes on gives the workspace up, and the request is given it. -/
def contestedRest : List Move := List.replicate 3 (.step 1 0) ++ List.replicate 4 (.step 2 0)

theorem contested_reachable : contested.Reachable := by
  unfold contested occupied
  exact ((Hub.Reachable.create {} .bundled).after _).move _

theorem contested_job : contested.jobOn? .playground 2 = some { operation := .evaluate .debugResume } :=
  Hub.submit_jobOn? (by decide +kernel) ..

theorem contested_site :
    ∃ s, contested.site? .playground = some s ∧ s.slot.suspended.isSome = true ∧
      s.slot.mailbox.listener.isSome = true := by
  have open_ : (contested.site? .playground).any
      (fun s => s.slot.suspended.isSome && s.slot.mailbox.listener.isSome) = true := by
    decide +kernel
  obtain ⟨s, here, both⟩ := (Option.any_eq_true _ _).1 open_
  exact ⟨s, here, Bool.and_eq_true_iff.1 both⟩

theorem contested_refused :
    ((contested.move (.step 2 0)).after contestedRest).reply? 2 =
      some (.refused (.noSuspendedExecution .playground)) := by
  have settled : (((contested.move (.step 2 0)).after contestedRest).reply? 2).any
      (fun reply => reply.refusal? = some (.noSuspendedExecution .playground)) = true := by
    decide +kernel
  obtain ⟨reply, answer, refusal⟩ := (Option.any_eq_true _ _).1 settled
  rw [answer, Reply.refusal?_eq_some.1 (of_decide_eq_true refusal)]

/-- In its first step the request changes neither state nor suspended run, and interrupts the run under way. -/
theorem refused_resume_of_contested :
    ∃ s next, contested.Reachable ∧
      contested.jobOn? .playground 2 = some { operation := .evaluate .debugResume } ∧
      ((contested.move (.step 2 0)).after contestedRest).reply? 2 =
        some (.refused (.noSuspendedExecution .playground)) ∧
      contested.site? .playground = some s ∧ (contested.move (.step 2 0)).site? .playground = some next ∧
      next.slot.state = s.slot.state ∧ next.slot.suspended = s.slot.suspended ∧
      ∃ n, (s.slot.mailbox.queue n).length < (next.slot.mailbox.queue n).length := by
  obtain ⟨s, here, stands, listener⟩ := contested_site
  obtain ⟨next, there, state, suspended, delivery⟩ :=
    contested_reachable.refused_evaluation contested_job rfl contested_refused here
  exact ⟨s, next, contested_reachable, contested_job, contested_refused, here, there, state, suspended,
    delivery.2 ⟨rfl, rfl, rfl, stands, listener⟩⟩

/-- The other run then forgets the one that was to be resumed, and the request is refused. -/
theorem refused_resume_interrupts :
    ∃ s next last, contested.Reachable ∧
      contested.jobOn? .playground 2 = some { operation := .evaluate .debugResume } ∧
      ((contested.move (.step 2 0)).after contestedRest).reply? 2 =
        some (.refused (.noSuspendedExecution .playground)) ∧
      contested.site? .playground = some s ∧ (contested.move (.step 2 0)).site? .playground = some next ∧
      (s.slot.mailbox.queue 1).length < (next.slot.mailbox.queue 1).length ∧ s.slot.suspended.isSome = true ∧
      ((contested.move (.step 2 0)).after contestedRest).site? .playground = some last ∧
      last.slot.suspended.isSome = false := by
  obtain ⟨s, here, suspended, -⟩ := contested_site
  have unread : (contested.site? .playground).all (fun s => (s.slot.mailbox.queue 1).length = 0) = true := by
    decide +kernel
  have delivered : ((contested.move (.step 2 0)).site? .playground).any
      (fun s => (s.slot.mailbox.queue 1).length = 1) = true := by
    decide +kernel
  have forgotten : (((contested.move (.step 2 0)).after contestedRest).site? .playground).any
      (fun s => !s.slot.suspended.isSome) = true := by
    decide +kernel
  obtain ⟨next, there, one⟩ := (Option.any_eq_true _ _).1 delivered
  obtain ⟨last, afterwards, none⟩ := (Option.any_eq_true _ _).1 forgotten
  rw [here] at unread
  simp only [Option.all_some, decide_eq_true_eq] at unread one
  exact ⟨s, next, last, contested_reachable, contested_job, contested_refused, here, there, by omega, suspended,
    afterwards, by simpa using none⟩

end Workbench
