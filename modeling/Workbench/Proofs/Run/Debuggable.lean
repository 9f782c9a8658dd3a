/-
What the debugger chapter keeps from a run, and what it does not.

In a context below that chapter no breakpoint counts, so a script is suspended there only
if it is asked to pause, and whoever asks it is not asked for the chapter: a pause that is
accepted for a job, at any time since it armed, is looked at (`Job.Heard`). So below the
chapter a run ends as paused, and is stored, exactly if a pause was accepted for it and
came in time (`Hub.Reachable.below_debugger`).
-/
import Workbench.Proofs.Run.Pause
import Workbench.Proofs.Run.LifeCycle

namespace Workbench

variable {E : Engine}

/-! ## Pauses that are accepted -/

theorem Mailbox.fire_queue_or (m : Mailbox) (s : Signal) (n : Nat) :
    (m.fire s).1.queue n = m.queue n ∨ (m.fire s).1.queue n = m.queue n ++ [s] := by
  unfold fire
  cases armed : m.listener with
  | none => exact .inl rfl
  | some l =>
    by_cases takes : l.takes s = true
    · by_cases own : l.number = n
      · subst own
        exact .inr (by simp [takes, queue])
      · exact .inl (by simp [takes, queue, own])
    · exact .inl (by simp [takes])

namespace Job

variable {h : House} {id : JobId} {sc : Scene E} {job : Job E} {a : Advance E} {m : Mailbox} {due : Prop}

/-- No step delivers a pause. -/
theorem Rule.no_pause (rule : Rule h id sc job a) {n : Nat} {ahead : List Signal}
    (before : sc.slot.mailbox.queue n = ahead) : a.scene.slot.mailbox.queue n ≠ ahead ++ [.pause] := by
  intro after
  have grown : (sc.slot.mailbox.queue n).length < (a.scene.slot.mailbox.queue n).length := by
    simp [before, after]
  obtain ⟨stage, -, -⟩ := rule.delivery grown
  cases rule with
  | refused => exact absurd grown (Nat.lt_irrefl _)
  | enqueued =>
    rw [enqueue_slot] at grown after
    dsimp only at grown after
    split at after
    · rcases sc.slot.mailbox.fire_queue_or .interrupt n with same | more
      · simp [same, before] at after
      · simp [more, before] at after
    · simp [before] at after
  | _ => simp_all

/-- A job and the pauses for it, given whether one was accepted: until its own run is over, it has been asked to
pause, or a pause waits for it, exactly if one was. -/
inductive Heard (due : Prop) (m : Mailbox) (job : Job E) : Prop
  | unarmed (unarmed : job.receiver = none) (unasked : job.stage.isAsked = false) (undue : ¬ due)
  | alone {number : Nat} (receiver : job.receiver = some number) (unended : job.stage.ended? = none)
    (asked : (job.stage.isAsked = true ∨ .pause ∈ m.queue number) ↔ due)
  | past (past : job.batch.isSome = true ∨ job.stage.ended?.isSome = true ∨ job.Over)

theorem Rule.batch_kept (rule : Rule h id sc job a) (under : job.batch.isSome = true) : a.job.batch.isSome = true := by
  cases rule with
  | @loaded purpose => cases purpose <;> exact under
  | allBegun | gradedBegun | next => rfl
  | _ => exact under

/-- When a job's own run is over, it stays so. -/
theorem Rule.past_kept (rule : Rule h id sc job a)
    (past : job.batch.isSome = true ∨ job.stage.ended?.isSome = true ∨ job.Over) :
    a.job.batch.isSome = true ∨ a.job.stage.ended?.isSome = true ∨ a.job.Over := by
  rcases past with under | ended | gone
  · exact .inl (rule.batch_kept under)
  · cases rule with
    | aborted | completed | answered | gradedEmpty => exact .inr (.inr ⟨_, .inl rfl⟩)
    | next | gradedBegun => exact .inl rfl
    | waiting | settled => exact .inr (.inl ended)
    | _ => simp_all [Stage.ended?]
  · exact .inr (.inr (rule.over_kept gone))

/-- A job that is not over, and at the end of no run, is past its own run only in a batch. -/
theorem under_of_past (past : job.batch.isSome = true ∨ job.stage.ended?.isSome = true ∨ job.Over)
    (going : ¬ job.Over) (unended : job.stage.ended? = none) : job.batch.isSome = true := by
  rcases past with under | ended | gone
  · exact under
  · simp [unended] at ended
  · exact absurd gone going

theorem Heard.of_untouched (untouched : Site.Untouched job) (undue : ¬ due) : job.Heard due m := by
  obtain ⟨unarmed, -, stage | ⟨r, stage⟩⟩ := untouched <;> exact .unarmed unarmed (by rw [stage]; rfl) undue

/-- A step that takes no signal and does not end the run. -/
theorem Heard.goes_on (heard : job.Heard due m) (going : ¬ job.Over) (unended : job.stage.ended? = none)
    {stage : Stage E} (same : stage.isAsked = job.stage.isAsked) (unended' : stage.ended? = none) :
    (job.at_ stage).Heard due m := by
  cases heard with
  | unarmed unarmed unasked undue => exact .unarmed unarmed (same.trans unasked) undue
  | alone receiver _ asked => exact .alone receiver unended' (by simpa only [at_, same] using asked)
  | past past =>
    have under := under_of_past past going unended
    exact .past (.inl under)

/-- A step that takes the pause. -/
theorem Heard.takes_pause {number : Nat} {rest : List Signal} (heard : job.Heard due m)
    (receiver : job.receiver = some number) (signal : m.queue number = .pause :: rest) {m' : Mailbox} {stage : Stage E}
    (going : ¬ job.Over) (unended : job.stage.ended? = none) (asked : stage.isAsked = true)
    (unended' : stage.ended? = none) : (job.at_ stage).Heard due m' := by
  have waits : .pause ∈ m.queue number := signal ▸ .head _
  cases heard with
  | unarmed unarmed => cases unarmed.symm.trans receiver
  | alone own _ heard =>
    cases own.symm.trans receiver
    exact .alone receiver unended' (iff_of_true (.inl asked) (heard.1 (.inr waits)))
  | past past =>
    have under := under_of_past past going unended
    exact .past (.inl under)

/-- Without a number a job is asked nothing, whatever is delivered. -/
theorem Heard.unarmed_at (heard : job.Heard due m) (unarmed : job.receiver = none) (going : ¬ job.Over)
    (unended : job.stage.ended? = none) (m' : Mailbox) {stage : Stage E} (unasked : stage.isAsked = false) :
    (job.at_ stage).Heard due m' := by
  cases heard with
  | unarmed _ _ undue => exact .unarmed unarmed unasked undue
  | alone receiver => cases unarmed.symm.trans receiver
  | past past =>
    have under := under_of_past past going unended
    exact .past (.inl under)

/-- Every step of a job leaves it so. -/
theorem Rule.heard (rule : Rule h id sc job a) (orderly : job.Orderly) (heard : job.Heard due sc.slot.mailbox) :
    a.job.Heard due a.scene.slot.mailbox := by
  by_cases past : job.batch.isSome = true ∨ job.stage.ended?.isSome = true ∨ job.Over
  · exact .past (rule.past_kept past)
  obtain ⟨alone, unended, going⟩ : job.batch = none ∧ job.stage.ended? = none ∧ ¬ job.Over := by simpa using past
  have unarmed : job.stage.mode? = none → job.receiver = none := fun stage => (orderly.outside stage going).2
  cases rule with
  | refused => exact .past (.inr (.inr ⟨_, .inr rfl⟩))
  | allEmpty | reset | unchanged | deprived | cutShort => exact .past (.inr (.inr ⟨_, .inl rfl⟩))
  | stoppedEarly | ended | stopped => exact .past (.inr (.inl rfl))
  | aborted _ under | next _ under | completed _ under => cases alone.symm.trans under
  | gradedEmpty stage | gradedBegun stage | answered stage =>
    rw [stage] at unended
    cases unended
  | left stage => exact absurd ⟨_, .inl stage⟩ going
  | waiting | settled => exact heard
  | allBegun => exact .past (.inl rfl)
  | enqueued stage | admitted stage | chapter stage | library stage =>
    exact heard.unarmed_at (unarmed (by rw [stage]; rfl)) going unended _ rfl
  | armed stage =>
    cases heard with
    | unarmed _ _ undue =>
      refine .alone rfl rfl (iff_of_false ?_ undue)
      rintro (asked | waits)
      · cases asked
      · simp [arm, Mailbox.arm, Mailbox.queue] at waits
    | alone receiver => cases (unarmed (by rw [stage]; rfl)).symm.trans receiver
    | past done => exact absurd done past
  | editor stage | resumed stage | testcase stage | started stage | unheard stage | running stage =>
    exact heard.goes_on going unended (by rw [stage]; rfl) rfl
  | repl stage => exact heard.goes_on going unended (by rw [stage]; rfl) rfl
  | loading stage => exact heard.goes_on going unended (by rw [stage]; rfl) rfl
  | launched stage =>
    rw [launch_slot]
    exact heard.goes_on going unended (by rw [stage]; rfl) rfl
  | @loaded purpose wait next stage waited =>
    rw [(proceed_door h next job purpose).2.2, waited.slot]
    cases purpose with
    | selection => exact .past (.inr (.inr ⟨_, .inl rfl⟩))
    | _ => exact heard.goes_on going unended (by rw [stage]; rfl) rfl
  | pausedEarly stage receiver signal | paused stage _ _ receiver signal =>
    exact heard.takes_pause receiver signal going unended rfl rfl

end Job

/-! ## Courses of moves -/

namespace Hub

variable {hub : Hub E} {w : WorkspaceId} {s next : Site E} {id : JobId} {job : Job E} {due : Prop} {m : Move}

/-- A pause is accepted for a job at some moment of a course. -/
def Asked (hub : Hub E) (w : WorkspaceId) (id : JobId) (moves : List Move) : Prop :=
  ∃ past rest ahead, moves = past ++ .signal w .pause :: rest ∧
    (hub.after past).Accepts (.signal w .pause) w id .pause ahead

/-- A pause that is accepted was fired. -/
theorem Reachable.accepts_pause (reached : hub.Reachable) {ahead : List Signal}
    (accepts : hub.Accepts m w id .pause ahead) : m = .signal w .pause := by
  obtain ⟨s, next, job, number, here, there, -, -, before, after⟩ := accepts
  obtain ⟨_, moved, rfl | ⟨c, cause, step⟩⟩ := move_site reached.sound m here <;> cases moved.symm.trans there
  · simp [before] at after
  · cases step with
    | edit | clearOutput | submit => simp [before] at after
    | signal sig =>
      cases cause
      rcases s.slot.mailbox.fire_queue_or sig number with same | more
      · simp [same, before] at after
      · simp only [more, before, List.append_cancel_left_eq, List.cons.injEq, and_true] at after
        rw [after]
    | step h _ asked j other theirs => exact absurd after ((Job.step_rule ..).no_pause before)

/-- How a job stands to the pauses for it, if it is there. -/
inductive Hears (hub : Hub E) (w : WorkspaceId) (id : JobId) (due : Prop) : Prop
  | absent (absent : ∀ s, hub.site? w = some s → s.job? id = none) (undue : ¬ due)
  | known {s : Site E} {job : Job E} (here : hub.site? w = some s) (known : s.job? id = some job)
    (heard : job.Heard due s.slot.mailbox)

/-- While others move, a pause comes to wait for a job exactly if one is accepted for it. -/
theorem waits_iff (here : hub.site? w = some s)
    (there : (hub.move m).site? w = some next) (known : next.job? id = some job) {number : Nat}
    (receiver : job.receiver = some number)
    (mailbox : next.slot.mailbox = s.slot.mailbox ∨ ∃ sig, next.slot.mailbox = (s.slot.mailbox.fire sig).1) :
    .pause ∈ next.slot.mailbox.queue number ↔
      .pause ∈ s.slot.mailbox.queue number ∨ ∃ ahead, hub.Accepts m w id .pause ahead := by
  have queue : next.slot.mailbox.queue number = s.slot.mailbox.queue number ∨
      ∃ sig, next.slot.mailbox.queue number = s.slot.mailbox.queue number ++ [sig] := by
    rcases mailbox with mailbox | ⟨sig, mailbox⟩ <;> rw [mailbox]
    · exact .inl rfl
    · exact (s.slot.mailbox.fire_queue_or sig number).imp_right fun more => ⟨sig, more⟩
  constructor
  · intro waits
    rcases queue with same | ⟨sig, more⟩
    · exact .inl (same ▸ waits)
    · rw [more] at waits
      rcases List.mem_append.1 waits with before | new
      · exact .inl before
      · cases List.mem_singleton.1 new
        exact .inr ⟨_, s, next, job, number, here, there, known, receiver, rfl, more⟩
  · rintro (before | ⟨ahead, s', next', job', number', here', there', known', receiver', -, after⟩)
    · rcases queue with same | ⟨sig, more⟩
      · exact same ▸ before
      · rw [more]
        exact List.mem_append_left _ before
    · cases there.symm.trans there'
      cases known.symm.trans known'
      cases receiver.symm.trans receiver'
      rw [after]
      simp

theorem Hears.of_free (free : hub.tasks.contains id = false) : hub.Hears w id False := by
  refine .absent (fun s here => ?_) fun due => due
  cases known : s.job? id with
  | none => rfl
  | some job =>
    rw [(site?_eq_some.1 here).2, jobOn?_eq_some] at known
    simp [Table.contains, known] at free

theorem Hears.move (reached : hub.Reachable) (hears : hub.Hears w id due) (m : Move) :
    (hub.move m).Hears w id (due ∨ ∃ ahead, hub.Accepts m w id .pause ahead) := by
  cases hears with
  | absent absent undue =>
    -- a job that has just come in has no number
    have undue' : ¬ (due ∨ ∃ ahead, hub.Accepts m w id .pause ahead) := by
      rintro (now | ⟨ahead, -, next, job, number, -, there, known, receiver, -⟩)
      · exact undue now
      · cases (reached.comes_in absent there known).1.symm.trans receiver
    by_cases gone : ∀ s, (hub.move m).site? w = some s → s.job? id = none
    · exact .absent gone undue'
    · simp only [Classical.not_forall] at gone
      obtain ⟨next, there, known⟩ := gone
      obtain ⟨job, known⟩ := Option.ne_none_iff_exists'.1 known
      exact .known there known (.of_untouched (reached.comes_in absent there known) undue')
  | @known s job here known heard =>
    rcases reached.stride here known m with ⟨now, stride, there⟩ | ⟨-, next, there, known', mailbox⟩
    · have still : ¬ ∃ ahead, hub.Accepts m w id .pause ahead := by
        rintro ⟨ahead, accepts⟩
        cases reached.accepts_pause accepts
        cases stride
      have rule := Job.step_rule (hub.house now) id { slot := s.slot, asked := hub.asked } job
      rw [or_iff_left still]
      exact .known there (s.take_own ..) (rule.heard ((reached.attentive here).orderly known) heard)
    · refine .known there known' ?_
      cases heard with
      | unarmed unarmed unasked undue =>
        refine .unarmed unarmed unasked ?_
        rintro (now | ⟨ahead, -, next', job', number, -, there', known'', receiver, -⟩)
        · exact undue now
        · cases there.symm.trans there'
          cases known'.symm.trans known''
          cases unarmed.symm.trans receiver
      | alone receiver unended asked =>
        refine .alone receiver unended ?_
        rw [waits_iff here there known' receiver (mailbox _ receiver), ← or_assoc, asked]
      | past past => exact .past past

theorem Reachable.asked_cons (reached : hub.Reachable) (m : Move) (moves : List Move) :
    hub.Asked w id (m :: moves) ↔ (∃ ahead, hub.Accepts m w id .pause ahead) ∨ (hub.move m).Asked w id moves := by
  constructor
  · rintro ⟨past, rest, ahead, split, accepts⟩
    cases past with
    | nil =>
      cases split
      exact .inl ⟨ahead, accepts⟩
    | cons first past =>
      cases split
      exact .inr ⟨past, rest, ahead, rfl, accepts⟩
  · rintro (⟨ahead, accepts⟩ | ⟨past, rest, ahead, rfl, accepts⟩)
    · cases reached.accepts_pause accepts
      exact ⟨[], moves, ahead, rfl, accepts⟩
    · exact ⟨m :: past, rest, ahead, rfl, accepts⟩

theorem Hears.after (reached : hub.Reachable) (hears : hub.Hears w id due) (moves : List Move) :
    (hub.after moves).Hears w id (due ∨ hub.Asked w id moves) := by
  induction moves generalizing hub due with
  | nil => simpa [Asked] using hears
  | cons m moves ih =>
    rw [reached.asked_cons, ← or_assoc]
    exact ih (reached.move m) (hears.move reached m)

end Hub

/-! ## Scripts below the debugger chapter -/

namespace Script

/-- Whether a script can be run: a text that is refused cannot. -/
def Run.IsLegible : Run → Prop
  | .ofSource text _ _ => ∃ program, parse text = .ok program
  | _ => True

/-- A script that is asked to pause is suspended with its next result, unless its text is refused. -/
theorem Run.suspended_of_asked {r : Run} {now : Nat} {lines : List String} {result : RunResult Machine}
    (polled : r.poll now { paused := true } = (lines, .ended result)) :
    (∃ m location, result = .suspended m location) ↔ r.IsLegible := by
  have proceeds : ∀ {f : Flight} {spare : Nat}, f.proceed now { paused := true } spare = (lines, .ended result) →
      ∃ m location, result = .suspended m location := by
    intro f spare ends
    unfold Flight.proceed at ends
    cases ends
    exact ⟨_, _, rfl⟩
  unfold poll at polled
  cases r with
  | ofSource text context options =>
    dsimp only at polled
    cases parsed : parse text with
    | error e =>
      rw [parsed] at polled
      cases polled
      refine iff_of_false (fun ⟨_, _, same⟩ => by cases same) ?_
      rintro ⟨program, parses⟩
      cases parsed.symm.trans parses
    | ok program =>
      rw [parsed] at polled
      exact iff_of_true (proceeds polled) ⟨program, parsed⟩
  | ofMachine => exact iff_of_true (proceeds polled) trivial
  | flying f =>
    refine iff_of_true ?_ trivial
    unfold Flight.poll at polled
    dsimp only at polled
    split at polled
    · exact proceeds polled
    · rw [if_pos (.inr (.inr rfl))] at polled
      exact proceeds polled
    · split at polled
      · exact proceeds polled
      · cases polled

/-- With the debugger off, a script is suspended exactly if it is asked to pause, unless its text is refused. -/
theorem Run.suspended_iff {r : Run} {now : Nat} {paused : Bool} {lines : List String} {result : RunResult Machine}
    (off : r.options.debuggerOn = false) (polled : r.poll now { paused := paused } = (lines, .ended result)) :
    (∃ m location, result = .suspended m location) ↔ paused = true ∧ r.IsLegible := by
  cases paused with
  | true => simpa using suspended_of_asked polled
  | false =>
    refine iff_of_false ?_ (by simp)
    rintro ⟨m, location, rfl⟩
    have answer := obeys.poll r now false off
    rw [show engine.poll r now { paused := false } = _ from polled] at answer
    cases answer with
    | suspended asked => cases asked

end Script

namespace Stride.Made

variable {step : Stride Script.engine} {l : Live Script.engine} {mode : Mode} {o : Outcome}

/-- The end of a script's run with the debugger off. -/
theorem paused_iff (made : step.Made) (stage : step.job.stage = .running l)
    (suspended : ∀ result, step.job.Answered step.now l result →
      ((∃ snapshot location, result = .suspended snapshot location) ↔ l.paused = true ∧ l.run.IsLegible))
    (ended : step.ended? = some (mode, o)) :
    o ≠ .breakpointHit ∧ (o = .paused ↔ (∀ i, mode ≠ .testcaseRun i) ∧ l.paused = true ∧ l.run.IsLegible ∧
      ∃ result, step.job.Answered step.now l result) := by
  -- what the engine says decides it, unless the run is interrupted
  have final : o ≠ .breakpointHit ∧ o ≠ .paused → (∀ result, step.job.Answered step.now l result →
      (∀ i, mode ≠ .testcaseRun i) → ∀ snapshot location, result ≠ .suspended snapshot location) →
      o ≠ .breakpointHit ∧ (o = .paused ↔ (∀ i, mode ≠ .testcaseRun i) ∧ l.paused = true ∧ l.run.IsLegible ∧
        ∃ result, step.job.Answered step.now l result) := by
    rintro ⟨unhit, unpaused⟩ other
    refine ⟨unhit, iff_of_false unpaused ?_⟩
    rintro ⟨own, asked, legible, result, answered⟩
    obtain ⟨snapshot, location, same⟩ := (suspended result answered).2 ⟨asked, legible⟩
    exact other result answered own snapshot location same
  cases (made.ends ended).1 with
  | interrupted =>
    refine final (by simp) fun result answered => ?_
    obtain ⟨o, same, ran⟩ := made.ended answered
    cases ended.symm.trans same
    exact absurd rfl ran
  | value _ answered | faults _ answered =>
    refine final (by simp) fun result again _ snapshot location same => ?_
    subst same
    cases answered.unique again
  | @unkept _ _ _ i testcase =>
    exact final (by simp) fun _ _ own => absurd testcase (own i)
  | @suspended own snapshot location same other answered kept =>
    cases stage.symm.trans answered.1
    obtain ⟨asked, legible⟩ := (suspended _ answered).1 ⟨snapshot, location, rfl⟩
    rw [asked]
    exact ⟨by simp, iff_of_true rfl ⟨other, rfl, legible, _, answered⟩⟩

/-- A run ends as paused exactly if it is stored, unless it stops at a breakpoint. -/
theorem paused_iff_stored (made : step.Made) (ended : step.ended? = some (mode, o)) (unhit : o ≠ .breakpointHit) :
    o = .paused ↔ ∃ x, step.Suspends mode x ∧ step.made.scene.slot.suspended = some x := by
  have stored := made.suspends_iff ended
  rw [or_iff_right unhit] at stored
  rw [stored]
  exact ⟨fun ⟨x, suspends⟩ => ⟨x, suspends, made.suspends suspends⟩, fun ⟨x, suspends, _⟩ => ⟨x, suspends⟩⟩

end Stride.Made

namespace Hub

variable {hub : Hub E} {w : WorkspaceId} {id : JobId}

/-- While a job's own run is in the engine's hands, a pause has been accepted for it exactly if it has been asked to
pause, or the pause still waits. -/
theorem Reachable.asked_or_waits_iff (reached : hub.Reachable) (free : hub.tasks.contains id = false)
    {past : List Move} {s : Site E} (there : (hub.after past).site? w = some s) {job : Job E}
    (known : s.job? id = some job) {l : Live E} (stage : job.stage = .running l) (own : ∀ i, l.mode ≠ .testcaseRun i) :
    (l.paused = true ∨ ∃ number, job.receiver = some number ∧ .pause ∈ s.slot.mailbox.queue number) ↔
      hub.Asked w id past := by
  have run : job.stage.mode? = some l.mode := by rw [stage]; rfl
  cases (Hears.of_free free).after reached past with
  | absent absent => cases (absent s there).symm.trans known
  | @known other same here known' heard =>
    cases there.symm.trans here
    cases known.symm.trans known'
    rw [false_or] at heard
    cases heard with
    | unarmed unarmed unasked undue =>
      rw [stage] at unasked
      refine iff_of_false ?_ undue
      rintro (asked | ⟨number, receiver, -⟩)
      · cases asked.symm.trans unasked
      · cases unarmed.symm.trans receiver
    | @alone number receiver _ asked =>
      rw [← asked, stage, receiver]
      simp [Stage.isAsked]
    | past past =>
      rcases past with under | ended | ⟨reply, gone | gone⟩
      · obtain ⟨batch, under⟩ := Option.isSome_iff_exists.1 under
        rcases ((((reached.after past).attentive there).orderly known).batch batch under).1 with testcase | gone
        · exact absurd (Option.some.inj (run.symm.trans testcase)) (own _)
        · cases gone.mode?_eq_none.symm.trans run
      · rw [stage] at ended
        cases ended
      · cases stage.symm.trans gone
      · cases stage.symm.trans gone

end Hub

/-- Below the debugger chapter no breakpoint stops a script. It is suspended exactly if it is asked to pause, and
then its run ends as paused and is stored, if it is not a testcase's. It has been asked, or will be when the next
signal is looked at, exactly if a pause has been accepted for it; the chapter does not matter for that. -/
theorem Hub.Reachable.below_debugger {hub : Hub Script.engine} {w : WorkspaceId} {id : JobId} (reached : hub.Reachable)
    (free : hub.tasks.contains id = false) {past : List Move} {m : Move} {step : Stride Script.engine}
    (took : (hub.after past).stride? w id m = some step) {l : Live Script.engine} (stage : step.job.stage = .running l)
    (below : l.context.chapter < hub.settings.execution.debuggerChapter) :
    (∀ result, step.job.Answered step.now l result →
      ((∃ snapshot location, result = .suspended snapshot location) ↔ l.paused = true ∧ l.run.IsLegible)) ∧
    (∀ mode o, step.ended? = some (mode, o) → o ≠ .breakpointHit ∧
      (o = .paused ↔ (∀ i, mode ≠ .testcaseRun i) ∧ l.paused = true ∧ l.run.IsLegible ∧
        ∃ result, step.job.Answered step.now l result) ∧
      (o = .paused ↔ ∃ x, step.Suspends mode x ∧ step.made.scene.slot.suspended = some x)) ∧
    ((∀ i, l.mode ≠ .testcaseRun i) →
      ((l.paused = true ∨ ∃ number, step.job.receiver = some number ∧ .pause ∈ step.slot.mailbox.queue number) ↔
        hub.Asked w id past)) := by
  obtain ⟨s, there, slot, known, made⟩ := stride?_eq_some took
  have kept : step.job.DebuggerOff (fun _ context => context.chapter < hub.settings.execution.debuggerChapter)
      (fun run : Script.Run => run.options.debuggerOn = false) := by
    refine (reached.after past).kept_under .of_untouched (fun same rule => rule.debuggerOff Script.obeys ?_) there known
    intro mode context below
    rw [same, (after_fixed hub past).1]
    simpa [Job.debuggable] using fun _ => below
  have suspended : ∀ result, step.job.Answered step.now l result →
      ((∃ snapshot location, result = .suspended snapshot location) ↔ l.paused = true ∧ l.run.IsLegible) := by
    rintro result ⟨-, lines, polled⟩
    have off : (Script.Run.options l.run).debuggerOn = false := kept.running l stage below
    have polled : Script.Run.poll l.run step.now { paused := l.paused } = (lines, .ended result) := polled
    exact Script.Run.suspended_iff off polled
  refine ⟨suspended, fun mode o ended => ?_, fun own => ?_⟩
  · obtain ⟨unhit, paused⟩ := made.paused_iff stage suspended ended
    exact ⟨unhit, paused, made.paused_iff_stored ended unhit⟩
  · rw [← slot]
    exact reached.asked_or_waits_iff free there known stage own

/-! ### A pause in the first chapter -/

/-- A script that sleeps, in the first chapter; the debugger is on from the third. -/
def dozing : Hub Script.engine := (Hub.create {} .bundled).1.move (.edit .playground (.editorValue "sleep 100"))

/-- It is run, and asked to pause while it sleeps. -/
def dozingMoves : List Move :=
  .submit 0 .playground (.evaluate .editorRun) :: List.replicate 8 (.step 0 0) ++
    [.signal .playground .pause, .step 0 50]

/-- The run that has been started. -/
def Stage.live? : Stage E → Option (Live E)
  | .running l => some l
  | _ => none

theorem Stage.live?_eq_some {stage : Stage E} {l : Live E} (live : stage.live? = some l) : stage = .running l := by
  cases stage <;> cases live
  rfl

theorem dozing_reachable : dozing.Reachable := (Hub.Reachable.create {} .bundled).move _

theorem dozing_free : dozing.tasks.contains 0 = false := by decide +kernel

theorem dozing_ends : ∃ step l, (dozing.after dozingMoves).stride? .playground 0 (.step 0 50) = some step ∧
    step.job.stage = .running l ∧ l.mode = .editorRun ∧
    l.context.chapter < dozing.settings.execution.debuggerChapter ∧ step.ended? = some (.editorRun, .paused) ∧
    step.made.scene.slot.suspended.isSome = true := by
  have ends : ((dozing.after dozingMoves).stride? .playground 0 (.step 0 50)).any (fun step =>
      step.job.stage.live?.any (fun l => decide (l.mode = .editorRun) &&
        decide (l.context.chapter < dozing.settings.execution.debuggerChapter)) &&
      (step.ended?.any (fun e => e.1 = .editorRun && e.2.kind = .paused) &&
        step.made.scene.slot.suspended.isSome)) = true := by
    decide +kernel
  obtain ⟨step, took, ends⟩ := (Option.any_eq_true _ _).1 ends
  simp only [Bool.and_eq_true] at ends
  obtain ⟨running, ended, stored⟩ := ends
  obtain ⟨l, live, own⟩ := (Option.any_eq_true _ _).1 running
  obtain ⟨⟨mode, o⟩, ended, kind⟩ := (Option.any_eq_true _ _).1 ended
  simp only [Bool.and_eq_true, decide_eq_true_eq] at own kind
  obtain ⟨rfl, paused⟩ := kind
  cases o <;> cases paused
  exact ⟨step, l, took, Stage.live?_eq_some live, own.1, own.2, ended, stored⟩

/-- It was asked because the pause was accepted, and for no other reason. -/
theorem below_debugger_of_dozing :
    ∃ step l, dozing.Reachable ∧ dozing.tasks.contains 0 = false ∧
      (dozing.after dozingMoves).stride? .playground 0 (.step 0 50) = some step ∧ step.job.stage = .running l ∧
      l.context.chapter < dozing.settings.execution.debuggerChapter ∧ l.paused = true ∧
      (∃ x, step.Suspends .editorRun x ∧ step.made.scene.slot.suspended = some x) ∧
      dozing.Asked .playground 0 dozingMoves := by
  obtain ⟨step, l, took, stage, mode, below, ended, -⟩ := dozing_ends
  obtain ⟨-, ends, asked⟩ := dozing_reachable.below_debugger dozing_free took stage below
  obtain ⟨-, paused, stored⟩ := ends _ _ ended
  obtain ⟨-, paused, -⟩ := paused.1 rfl
  have own : ∀ i, l.mode ≠ .testcaseRun i := by simp [mode]
  exact ⟨step, l, dozing_reachable, dozing_free, took, stage, below, paused, stored.1 rfl, (asked own).1 (.inl paused)⟩

/-- A run in a chapter below the one from which runs can be paused is paused, and stored. -/
theorem paused_in_first_chapter :
    ∃ step l, dozing.Reachable ∧ (dozing.after dozingMoves).stride? .playground 0 (.step 0 50) = some step ∧
      step.job.stage = .running l ∧ l.context.chapter < dozing.settings.execution.debuggerChapter ∧
      step.ended? = some (.editorRun, .paused) ∧ step.made.scene.slot.suspended.isSome = true := by
  obtain ⟨step, l, took, stage, -, below, ended, stored⟩ := dozing_ends
  exact ⟨step, l, dozing_reachable, took, stage, below, ended, stored⟩

end Workbench
