/-
Jobs that are left to themselves.

Nothing is edited, cleared or signalled in their workspace, and nobody who would stop
them begins (`Hub.Undisturbed`). What the steps of such a job keep is then kept
(`Hub.Reachable.undisturbed`), and comes with it from one of its steps to another
(`Hub.Undergoes.last`).
-/
import Workbench.Proofs.Run.Attribution
import Workbench.Proofs.Run.Call

namespace Workbench

variable {E : Engine}

/-! ## Jobs that nobody disturbs -/

namespace Job

variable {h : House} {id : JobId} {sc : Scene E} {job : Job E} {a : Advance E}

/-- Who owns the workspace and hears nothing makes nothing heard. -/
theorem Rule.quiet_kept (rule : Rule h id sc job a) (place : job.stage.place = .owning)
    (later : a.job.stage.place = .owning) (quiet : Quiet sc job) : Quiet a.scene a.job := by
  intro number receiver
  have own : job.receiver = some number := by
    cases rule.trade with
    | stays _ same => exact same ▸ receiver
    | asks other | admitted other | works other | arms other => cases place.symm.trans other
    | leaves _ other => cases later.symm.trans other
  refine List.eq_nil_of_length_eq_zero (Nat.eq_zero_of_not_pos fun grown => ?_)
  rw [← List.length_nil, ← quiet number own] at grown
  have handed := (rule.delivery grown).1
  rw [handed] at place
  cases place

end Job

namespace Hub

variable {hub : Hub E} {w : WorkspaceId} {s next : Site E} {id : JobId} {job : Job E} {m : Move}

/-- Whether a move leaves a job in a workspace to itself: nothing is edited, cleared or signalled there, and no
other job is begun that stops the owner. -/
def Leaves (hub : Hub E) (w : WorkspaceId) (id : JobId) : Move → Prop
  | .edit v _ => v ≠ w
  | .clearOutput v => v ≠ w
  | .signal v _ => v ≠ w
  | .step j _ =>
    j ≠ id → ∀ job, hub.jobOn? w j = some job → job.stage = .submitted → Job.interrupts job.operation = false
  | .openWorkspace _ => True
  | .submit _ _ _ => True

/-- Whether all moves do so. -/
def Undisturbed (hub : Hub E) (w : WorkspaceId) (id : JobId) : List Move → Prop
  | [] => True
  | m :: moves => hub.Leaves w id m ∧ (hub.move m).Undisturbed w id moves

/-- No signal waits for a job. -/
def Unsignalled (hub : Hub E) (w : WorkspaceId) (id : JobId) : Prop :=
  ∀ s job, hub.site? w = some s → s.job? id = some job → Job.Quiet { slot := s.slot, asked := hub.asked } job

theorem undisturbed_of_own {moves : List Move} (own : ∀ m ∈ moves, ∃ now, m = .step id now) :
    hub.Undisturbed w id moves := by
  induction moves generalizing hub with
  | nil => trivial
  | cons m moves ih =>
    obtain ⟨now, rfl⟩ := own m (.head _)
    exact ⟨fun other => absurd rfl other, ih fun m later => own m (.tail _ later)⟩

/-- A job at work that is left to itself takes a step, or stays as it is, and so does the state. -/
theorem Happens.left (happens : hub.Happens w s m next) (here : hub.site? w = some s) (owned : s.Owned)
    (leaves : hub.Leaves w id m) (known : s.job? id = some job) (place : job.stage.place = .owning) (asked : Nat)
    (quiet : Job.Quiet { slot := s.slot, asked := asked } job) :
    (∃ now a, a = Job.step (hub.house now) id { slot := s.slot, asked := hub.asked } job ∧
      hub.stride? w id m = some ⟨now, s.slot, job, a⟩ ∧ next = s.take id a) ∨
    hub.stride? w id m = none ∧ next.job? id = some job ∧ next.slot.state = s.slot.state ∧
      Job.Quiet { slot := next.slot, asked := asked } job := by
  cases happens with
  | still still => exact .inr ⟨stride?_of_strideAt? still, known, rfl, quiet⟩
  | edit => exact absurd rfl leaves
  | clearOutput => exact absurd rfl leaves
  | signal => exact absurd rfl leaves
  | submit j operation free =>
    refine .inr ⟨rfl, (if_neg ?_).trans known, rfl, quiet⟩
    rintro rfl
    cases free.symm.trans known
  | @step j other a now theirs made took =>
    by_cases own : j = id
    · subst own
      cases known.symm.trans theirs
      exact .inl ⟨now, a, made, took, rfl⟩
    · have rule := made ▸ Job.step_rule (hub.house now) j { slot := s.slot, asked := hub.asked } other
      obtain ⟨unadmitted, outside⟩ := owned.bystander (owned.owner known place) own theirs
      refine .inr ⟨by simp [stride?, own], (s.take_other a (Ne.symm own)).trans known, ?_, fun number receiver => ?_⟩
      · rw [Site.take_slot, (rule.bystander unadmitted outside).1]
      · refine List.eq_nil_of_length_eq_zero (Nat.eq_zero_of_not_pos fun grown => ?_)
        rw [← List.length_nil, ← quiet number receiver] at grown
        obtain ⟨handed, stops, -⟩ := rule.delivery grown
        rw [leaves own other ((site?_eq_some.1 here).2 ▸ theirs) handed] at stops
        cases stops

/-- What each step of a job at work keeps, if the step is as `Q` has it and no signal waits for the job. The moments
at which the next step is in time, if those in the past were so, come along with it. -/
structure Kept (id : JobId) (P : Prop → (Nat → Prop) → WorkspaceState → Job E → Prop) (Q : Stride E → Prop) :
    Prop where
  owning : ∀ {past due state job}, P past due state job → job.stage.place = .owning
  step : ∀ {past due} (h : House) (sc : Scene E) (job : Job E), P past due sc.slot.state job → Job.Quiet sc job →
    let a := Job.step h id sc job
    Q ⟨h.now, sc.slot, job, a⟩ →
      P (past ∧ due h.now) (Stride.due ⟨h.now, sc.slot, job, a⟩) a.scene.slot.state a.job

/-- What is kept by each step of a job is kept as long as the job is left to itself. -/
theorem Reachable.undisturbed {P : Prop → (Nat → Prop) → WorkspaceState → Job E → Prop} {Q : Stride E → Prop}
    (kept : Kept id P Q)
    (reached : hub.Reachable) (here : hub.site? w = some s) (known : s.job? id = some job) {asked : Nat}
    (quiet : Job.Quiet { slot := s.slot, asked := asked } job) {past : Prop} {due : Nat → Prop}
    (holds : P past due s.slot.state job) {moves : List Move} (undisturbed : hub.Undisturbed w id moves)
    (all : ∀ step ∈ hub.strides w id moves, Q step) :
    ∃ past' due' last job', (hub.after moves).site? w = some last ∧ last.job? id = some job' ∧
      Job.Quiet { slot := last.slot, asked := (hub.after moves).asked } job' ∧ P past' due' last.slot.state job' ∧
      ∀ more, past → InTime due (hub.strides w id moves ++ more) → past' ∧ InTime due' more := by
  induction moves generalizing hub s job past due with
  | nil => exact ⟨past, due, s, job, here, known, quiet, holds, fun _ past inTime => ⟨past, inTime⟩⟩
  | cons m moves ih =>
    obtain ⟨next, there, happens⟩ := reached.happens here m
    have later (step) (among : step ∈ (hub.move m).strides w id moves) : Q step :=
      all step (List.mem_append_right _ among)
    rcases happens.left here (reached.owned here) undisturbed.1 known (kept.owning holds) asked quiet with
      ⟨now, a, made, took, rfl⟩ | ⟨still, same, state, quiet'⟩
    · have goes : P (past ∧ due now) (Stride.due ⟨now, s.slot, job, a⟩) a.scene.slot.state a.job := by
        rw [made]
        refine kept.step (hub.house now) { slot := s.slot, asked := hub.asked } job holds quiet ?_
        rw [← made]
        exact all _ (List.mem_append_left _ (Option.mem_toList.2 took))
      have rule := made ▸ Job.step_rule (hub.house now) id { slot := s.slot, asked := hub.asked } job
      have quiet' := rule.quiet_kept (kept.owning holds) (kept.owning goes) quiet
      obtain ⟨past', due', last, job', end_, known', unheard, holds', timely⟩ :=
        ih (reached.move m) there (s.take_own ..) quiet' goes undisturbed.2 later
      refine ⟨past', due', last, job', end_, known', unheard, holds', fun more past inTime => ?_⟩
      rw [strides, took, Option.toList_some, List.singleton_append, List.cons_append] at inTime
      exact timely more ⟨past, inTime.1⟩ inTime.2
    · obtain ⟨past', due', last, job', end_, known', unheard, holds', timely⟩ :=
        ih (reached.move m) there same quiet' (state ▸ holds) undisturbed.2 later
      refine ⟨past', due', last, job', end_, known', unheard, holds', fun more past inTime => ?_⟩
      rw [strides, still] at inTime
      exact timely more past inTime

end Hub

/-! ## From one step to another -/

/-- Moves from one step of a job to another. -/
structure Stretch where
  workspace : WorkspaceId
  id : JobId
  /-- when the first step is taken -/
  now : Nat
  moves : List Move
  /-- when the last step is taken -/
  later : Nat

namespace Hub

/-- The hub after the first step. -/
def begun (hub : Hub E) (p : Stretch) : Hub E := hub.move (.step p.id p.now)

/-- The hub before the last step. -/
def during (hub : Hub E) (p : Stretch) : Hub E := (hub.begun p).after p.moves

/-- From its first step to its last a job is left to itself, and no signal waits for it. -/
structure Undergoes (hub : Hub E) (p : Stretch) (before after : WorkspaceState) : Prop where
  reached : hub.Reachable
  opened : hub.state p.workspace = .ok before
  unsignalled : (hub.begun p).Unsignalled p.workspace p.id
  undisturbed : (hub.begun p).Undisturbed p.workspace p.id p.moves
  closed : ((hub.during p).move (.step p.id p.later)).state p.workspace = .ok after

/-- Whether the job is looked after in time. -/
def Prompt (hub : Hub E) (p : Stretch) : Prop :=
  InTime (fun _ => True) ((hub.begun p).strides p.workspace p.id (p.moves ++ [.step p.id p.later]))

variable {hub : Hub E} {p : Stretch} {before after : WorkspaceState} {s : Site E} {job : Job E} {w : WorkspaceId}
  {id : JobId}

/-- What the steps of the job keep it brings to its last step. -/
theorem Undergoes.last {P : Prop → (Nat → Prop) → WorkspaceState → Job E → Prop} {Q : Stride E → Prop}
    (kept : Kept p.id P Q)
    (undergoes : hub.Undergoes p before after) (there : (hub.begun p).site? p.workspace = some s)
    (known : s.job? p.id = some job) (holds : P True (fun _ => True) s.slot.state job)
    (all : ∀ step ∈ (hub.begun p).strides p.workspace p.id p.moves, Q step) :
    ∃ h sc job' past due, h.now = p.later ∧ sc.slot.id = p.workspace ∧ sc.effects = [] ∧
      P past due sc.slot.state job' ∧ Job.Quiet sc job' ∧
      let a := Job.step h p.id sc job'
      (hub.during p).stride? p.workspace p.id (.step p.id p.later) = some ⟨p.later, sc.slot, job', a⟩ ∧
      ((hub.during p).step p.later p.id).2 = a.scene.effects ∧ after = a.scene.slot.state ∧
      (hub.Prompt p → past ∧ due p.later) := by
  have reached : (hub.begun p).Reachable := undergoes.reached.move (.step p.id p.now)
  obtain ⟨past, due, last, job', end_, known', quiet, holds', timely⟩ :=
    reached.undisturbed kept there known (undergoes.unsignalled s job there known) holds
      undergoes.undisturbed all
  obtain ⟨there', seen⟩ := step_own (reached.after p.moves).sound end_ known' p.later
  have took : (hub.during p).stride? p.workspace p.id (.step p.id p.later) = some ⟨p.later, last.slot, job',
      Job.step ((hub.during p).house p.later) p.id { slot := last.slot, asked := (hub.during p).asked } job'⟩ := by
    simp [stride?, during, end_, known']
  have name := (reached.after p.moves).sound.keyed (site?_eq_some.1 end_).1
  refine ⟨(hub.during p).house p.later, { slot := last.slot, asked := (hub.during p).asked }, job', past, due, rfl,
    name, rfl, holds', quiet, took, seen, ?_, fun inTime => ?_⟩
  · exact (Except.ok.inj ((site?_state there').symm.trans undergoes.closed)).symm
  · rw [Prompt, strides_append, strides, show ((hub.begun p).after p.moves).stride? _ _ _ = _ from took] at inTime
    obtain ⟨past, inTime⟩ := timely _ trivial inTime
    exact ⟨past, inTime.1⟩

/-- A job that is over stays so. -/
theorem Reachable.over_stays (reached : hub.Reachable) (here : hub.site? w = some s) (known : s.job? id = some job)
    (finished : job.Over) (moves : List Move) :
    ∃ last job', (hub.after moves).site? w = some last ∧ last.job? id = some job' ∧ job'.Over := by
  induction moves generalizing hub s job with
  | nil => exact ⟨s, job, here, known, finished⟩
  | cons m moves ih =>
    rcases reached.stride here known m with ⟨now, -, there⟩ | ⟨-, next, there, same, -⟩
    · exact ih (reached.move m) there (s.take_own ..) ((Job.step_rule ..).over_kept finished)
    · exact ih (reached.move m) there same finished

/-- A job that has come to its answer in one of its steps is over afterwards. -/
theorem Reachable.over_of_strides (reached : hub.Reachable) (here : hub.site? w = some s)
    (known : s.job? id = some job) {moves : List Move} {step : Stride E} (among : step ∈ hub.strides w id moves)
    (finished : step.made.job.Over) :
    ∃ last job', (hub.after moves).site? w = some last ∧ last.job? id = some job' ∧ job'.Over := by
  induction moves generalizing hub s job with
  | nil => cases among
  | cons m moves ih =>
    rcases reached.stride here known m with ⟨now, took, there⟩ | ⟨still, next, there, same, -⟩
    · rw [strides, took, Option.toList_some, List.singleton_append, List.mem_cons] at among
      rcases among with rfl | later
      · exact (reached.move m).over_stays there (s.take_own ..) finished moves
      · exact ih (reached.move m) there (s.take_own ..) later
    · rw [strides, still] at among
      exact ih (reached.move m) there same among

/-- The first step that is not as it is wanted. -/
theorem first_stride {Q : Stride E → Prop} {moves : List Move} (not_all : ¬ ∀ step ∈ hub.strides w id moves, Q step) :
    ∃ early m rest last, moves = early ++ m :: rest ∧ (∀ step ∈ hub.strides w id early, Q step) ∧
      (hub.after early).stride? w id m = some last ∧ ¬ Q last := by
  have none (hub : Hub E) : ∀ step ∈ hub.strides w id [], Q step := fun _ among => nomatch (among : _ ∈ [])
  induction moves generalizing hub with
  | nil => exact absurd (none hub) not_all
  | cons m moves ih =>
    by_cases first : ∀ step ∈ (hub.stride? w id m).toList, Q step
    · have join {later : List Move} (all : ∀ step ∈ (hub.move m).strides w id later, Q step) :
          ∀ step ∈ hub.strides w id (m :: later), Q step :=
        fun step among => (List.mem_append.1 among).elim (first step) (all step)
      obtain ⟨early, n, rest, last, rfl, before, took, unlike⟩ := ih fun later => not_all (join later)
      exact ⟨m :: early, n, rest, last, rfl, join before, took, unlike⟩
    · obtain ⟨last, unlike⟩ := not_forall.1 first
      obtain ⟨took, unlike⟩ := Classical.not_imp.1 unlike
      exact ⟨[], m, moves, last, rfl, none hub, Option.mem_toList.1 took, unlike⟩

end Hub

theorem InTime.of_append {due : Nat → Prop} {steps more : List (Stride E)} (inTime : InTime due (steps ++ more)) :
    InTime due steps := by
  induction steps generalizing due with
  | nil => trivial
  | cons step steps ih => exact ⟨inTime.1, ih inTime.2⟩

/-- A job that is over does nothing more that is seen. -/
theorem Job.step_over {h : House} {id : JobId} {sc : Scene E} {job : Job E} (finished : job.Over) :
    (Job.step h id sc job).scene.effects = sc.effects := by
  obtain ⟨reply, stage | stage⟩ := finished
  · simp only [Job.step, stage, Job.leave]
    cases job.receiver <;> rfl
  · simp only [Job.step, stage]

end Workbench
