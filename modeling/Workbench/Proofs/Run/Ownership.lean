/-
Whose a workspace is: at every moment at most one job's.

The permit says it. A job that has been given the permit keeps it until it gives
up its listener, so a listener belongs to the holder of the permit, an engine
runs for nobody else, and nobody else touches the context.

The proof is one invariant over a site (`Site.Owned`). What a step of a job does
to permit, listener and receiver is one of six trades (`Job.Trade`), whatever
else the step does; each of them keeps the invariant.
-/
import Workbench.Proofs.Run.Course

namespace Workbench

/-! ## Permits -/

namespace Permit

variable {κ : Type} {p : Permit κ} {j k : κ}

/-- Who holds the permit or waits for it. -/
def claimants (p : Permit κ) : List κ := p.holder.toList ++ p.waiting

theorem mem_claimants_request : j ∈ (p.request k).claimants ↔ j = k ∨ j ∈ p.claimants := by
  unfold request claimants
  cases p.holder <;> grind

theorem nodup_request (nodup : p.claimants.Nodup) (fresh : k ∉ p.claimants) : (p.request k).claimants.Nodup := by
  unfold request claimants at *
  cases holder : p.holder <;> grind

theorem holder_request (held : p.holder = some j) : (p.request k).holder = some j := by
  simp [request, held]

/-- After the holder has given the permit back, the others have the claims they had. -/
theorem claimants_release [DecidableEq κ] (held : p.holder = some k) : (p.release k).claimants = p.waiting := by
  unfold release claimants
  cases waiting : p.waiting <;> simp [held]

theorem claimants_of_holder (held : p.holder = some k) : p.claimants = k :: p.waiting := by
  simp [claimants, held]

@[simp] theorem isHeldBy_iff [DecidableEq κ] : p.isHeldBy k = true ↔ p.holder = some k := by simp [isHeldBy]

end Permit

/-! ## Listeners -/

namespace Mailbox

/-- No other number listens, and no new one was given out. -/
structure Within (later earlier : Mailbox) : Prop where
  next : later.next = earlier.next
  listener : ∀ l, later.listener = some l → ∃ own, earlier.listener = some own ∧ own.number = l.number

@[simp] theorem Within.refl (m : Mailbox) : m.Within m := ⟨rfl, fun l own => ⟨l, own, rfl⟩⟩

theorem fire_within (m : Mailbox) (s : Signal) : (m.fire s).1.Within m := by
  unfold fire
  cases armed : m.listener with
  | none => exact .refl m
  | some own =>
    dsimp only
    split
    · refine ⟨rfl, fun l holds => ?_⟩
      cases s with
      | interrupt => cases holds
      | pause =>
        cases holds
        exact ⟨own, armed, rfl⟩
    · exact .refl m

@[simp] theorem took_within (m : Mailbox) (queues : Table Nat (List Signal)) : Within { m with queues := queues } m :=
  ⟨rfl, fun l own => ⟨l, own, rfl⟩⟩

theorem acceptPause_within (m : Mailbox) (number : Nat) (accepts : Bool) :
    (m.acceptPause number accepts).Within m := by
  refine ⟨rfl, fun l holds => ?_⟩
  obtain ⟨own, armed, rfl⟩ := Option.map_eq_some_iff.1 holds
  exact ⟨own, armed, by split <;> rfl⟩

theorem drop_within (m : Mailbox) (number : Nat) : (m.drop number).Within m := by
  refine ⟨rfl, fun l holds => ?_⟩
  unfold drop at holds
  dsimp only at holds
  split at holds
  · cases holds
  · exact ⟨l, holds, rfl⟩

/-- A number that was given up does not listen. -/
theorem drop_listener {m : Mailbox} {number : Nat} {l : Listener} (holds : (m.drop number).listener = some l) :
    l.number ≠ number := by
  unfold drop listens at holds
  cases armed : m.listener with
  | none => simp [armed] at holds
  | some own =>
    simp only [armed, decide_eq_true_eq] at holds
    split at holds
    · cases holds
    · next other =>
      cases holds
      exact other

/-- Only the number that listens is delivered to. -/
theorem fire_queue {m : Mailbox} {s : Signal} {n : Nat} (grown : (m.queue n).length < ((m.fire s).1.queue n).length) :
    ∃ l, m.listener = some l ∧ l.number = n := by
  unfold fire at grown
  cases armed : m.listener with
  | none => simp [armed] at grown
  | some l =>
    refine ⟨l, rfl, ?_⟩
    by_cases own : l.number = n
    · exact own
    · simp only [armed] at grown
      split at grown <;> simp [queue, own] at grown

/-- Who listens is reached by an interrupt. -/
theorem fire_interrupt_queue {m : Mailbox} {l : Listener} (armed : m.listener = some l) :
    (m.fire .interrupt).1.queue l.number = m.queue l.number ++ [.interrupt] := by
  simp [fire, armed, Listener.takes, queue]

theorem arm_queue_le (m : Mailbox) (accepts : Bool) (n : Nat) :
    ((m.arm accepts).1.queue n).length ≤ (m.queue n).length := by
  by_cases same : m.next = n <;> simp [queue, arm, same]

theorem drop_queue_le (m : Mailbox) (number n : Nat) : ((m.drop number).queue n).length ≤ (m.queue n).length := by
  by_cases same : number = n <;> simp [queue, drop, same]

theorem took_queue_le {m : Mailbox} {number : Nat} {s : Signal} {rest : List Signal}
    (signal : m.queue number = s :: rest) (n : Nat) :
    (Mailbox.queue { m with queues := m.queues.set number rest } n).length ≤ (m.queue n).length := by
  by_cases same : number = n
  · subst same
    rw [signal]
    simp [queue]
  · simp [queue, same]

end Mailbox

/-! ## How far a job has come with the permit -/

/-- What a stage has to do with the permit. -/
inductive Place where
  /-- not asked for yet, or given back -/
  | outside
  | waiting
  /-- held, and nothing done with it yet -/
  | admitted
  | owning
  deriving DecidableEq

/-- The place of a stage. -/
def Stage.place {E : Engine} : Stage E → Place
  | .submitted => .outside
  | .settled _ => .outside
  | .queued => .waiting
  | .admitted => .admitted
  | _ => .owning

namespace Job

variable {E : Engine}

/-- What a step does to the permit, the listener and the job's receiver. -/
inductive Trade (id : JobId) (slot : Slot E) (job : Job E) (later : Slot E) (next : Job E) : Prop
  | stays (place : next.stage.place = job.stage.place) (receiver : next.receiver = job.receiver)
    (permit : later.permit = slot.permit) (mailbox : later.mailbox.Within slot.mailbox)
  | asks (place : job.stage.place = .outside) (target : next.stage.place = .waiting)
    (receiver : next.receiver = job.receiver) (permit : later.permit = slot.permit.request id)
    (mailbox : later.mailbox.Within slot.mailbox)
  | admitted (place : job.stage.place = .waiting) (target : next.stage.place = .admitted)
    (held : slot.permit.holder = some id) (receiver : next.receiver = job.receiver)
    (permit : later.permit = slot.permit) (mailbox : later.mailbox.Within slot.mailbox)
  | works (place : job.stage.place = .admitted) (target : next.stage.place = .owning)
    (receiver : next.receiver = job.receiver) (permit : later.permit = slot.permit)
    (mailbox : later.mailbox.Within slot.mailbox)
  | arms (place : job.stage.place = .admitted) (target : next.stage.place = .owning)
    (receiver : next.receiver = some slot.mailbox.next) (permit : later.permit = slot.permit)
    (mailbox : ∃ accepts, later.mailbox = (slot.mailbox.arm accepts).1)
  | leaves (place : job.stage.place = .owning) (target : next.stage.place = .outside)
    (receiver : next.receiver = none) (permit : later.permit = slot.permit.release id)
    (mailbox : later.mailbox.Within slot.mailbox)
    (given : ∀ l, later.mailbox.listener = some l → job.receiver ≠ some l.number)

variable {h : House} {id : JobId} {sc : Scene E} {job : Job E} {a : Advance E}

theorem proceed_place (h : House) (sc : Scene E) (job : Job E) (purpose : Purpose) :
    (proceed h sc job purpose).job.stage.place = .owning ∧
      (proceed h sc job purpose).job.receiver = job.receiver := by
  cases purpose <;> exact ⟨rfl, rfl⟩

/-- Every step is a trade. -/
theorem Rule.trade (rule : Rule h id sc job a) : Trade id sc.slot job a.scene.slot a.job := by
  cases rule with
  | enqueued stage allowed =>
    refine .asks (by rw [stage]; rfl) rfl rfl (by rw [enqueue_slot]) ?_
    rw [enqueue_slot]
    dsimp only
    split
    · exact Mailbox.fire_within ..
    · exact .refl _
  | admitted stage held =>
    exact .admitted (by rw [stage]; rfl) rfl (Permit.isHeldBy_iff.1 held) rfl rfl (.refl _)
  | armed stage | allEmpty stage | allBegun stage =>
    exact .arms (by rw [stage]; rfl) rfl rfl rfl ⟨_, rfl⟩
  | reset stage | unchanged stage =>
    exact .works (by rw [stage]; rfl) rfl rfl rfl (.refl _)
  | chapter stage | library stage =>
    exact .works (by rw [stage]; rfl) rfl rfl (by simp) (by simp)
  | left stage =>
    refine .leaves (by rw [stage]; rfl) rfl rfl (by rw [leave_slot]) ?_ ?_
    · rw [leave_slot]
      dsimp only
      split
      · exact Mailbox.drop_within ..
      · exact .refl _
    · rw [leave_slot]
      intro l holds own
      simp only [own] at holds
      exact Mailbox.drop_listener holds rfl
  | gradedEmpty stage | gradedBegun stage =>
    refine .stays (by rw [stage]; rfl) rfl (by simp [refusePause_slot]) ?_
    simp only [Scene.occur_slot, Scene.sayBriefly_slot, refusePause_slot]
    split
    · exact Mailbox.acceptPause_within ..
    · exact .refl _
  | loaded stage waited =>
    obtain ⟨place, receiver⟩ := proceed_place h _ job _
    exact .stays (by rw [stage]; exact place) receiver (by simp [waited.slot]) (by simp [waited.slot])
  | waiting stage | settled stage => exact .stays rfl rfl rfl (.refl _)
  | refused stage | deprived stage | cutShort stage | editor stage | repl stage | resumed stage | testcase stage
  | loading stage | launched stage | stoppedEarly stage | pausedEarly stage | started stage | ended stage
  | stopped stage | paused stage | unheard stage | running stage | aborted stage | next stage | completed stage
  | answered stage =>
    exact .stays (by rw [stage]; rfl) rfl (by simp) (by simp)

/-- A job that has not been given the permit leaves state and suspended run as they are. -/
theorem Rule.bystander (rule : Rule h id sc job a) (unadmitted : job.stage.place ≠ .admitted)
    (place : job.stage.place ≠ .owning) :
    a.scene.slot.state = sc.slot.state ∧ a.scene.slot.suspended = sc.slot.suspended := by
  cases rule with
  | refused | waiting | admitted | settled => exact ⟨rfl, rfl⟩
  | enqueued => rw [enqueue_slot]; exact ⟨rfl, rfl⟩
  | armed stage | allEmpty stage | allBegun stage | reset stage | unchanged stage | chapter stage
  | library stage => exact absurd (by rw [stage]; rfl) unadmitted
  | _ => exact absurd (by simp_all [Stage.place]) place

/-- A step delivers something only when it hands in an operation that stops the owner, and to the one who
listens. -/
theorem Rule.delivery (rule : Rule h id sc job a) {n : Nat}
    (grown : (sc.slot.mailbox.queue n).length < (a.scene.slot.mailbox.queue n).length) :
    job.stage = .submitted ∧ interrupts job.operation = true ∧
      ∃ l, sc.slot.mailbox.listener = some l ∧ l.number = n := by
  cases rule with
  | enqueued stage =>
    rw [enqueue_slot] at grown
    dsimp only at grown
    split at grown
    · next stops => exact ⟨stage, stops, Mailbox.fire_queue grown⟩
    · exact absurd grown (Nat.lt_irrefl _)
  | armed | allEmpty | allBegun => exact absurd grown (Nat.not_lt.2 (Mailbox.arm_queue_le ..))
  | stoppedEarly _ _ signal | pausedEarly _ _ signal | stopped _ _ _ _ signal | paused _ _ _ _ signal =>
    refine absurd ?_ (Nat.not_lt.2 (Mailbox.took_queue_le signal n))
    simpa using grown
  | left =>
    rw [leave_slot] at grown
    dsimp only at grown
    split at grown
    · exact absurd grown (Nat.not_lt.2 (Mailbox.drop_queue_le ..))
    · exact absurd grown (Nat.lt_irrefl _)
  | gradedEmpty | gradedBegun =>
    simp only [Scene.occur_slot, Scene.sayBriefly_slot, refusePause_slot] at grown
    split at grown <;> exact absurd grown (Nat.lt_irrefl _)
  | loaded _ waited => simp [waited.slot] at grown
  | _ => simp at grown

end Job

/-! ## The invariant -/

/-- What a job has to show for its place. -/
def Job.Standing {E : Engine} (p : Permit JobId) (id : JobId) (job : Job E) : Prop :=
  match job.stage.place with
  | .outside => id ∉ p.claimants ∧ job.receiver = none
  | .waiting => id ∈ p.claimants ∧ job.receiver = none
  | .admitted => p.holder = some id ∧ job.receiver = none
  | .owning => p.holder = some id

namespace Job.Standing

variable {E : Engine} {p : Permit JobId} {id j : JobId} {job : Job E}

/-- Another one asks for the permit. -/
theorem request (standing : job.Standing p j) (other : j ≠ id) : job.Standing (p.request id) j := by
  unfold Job.Standing at *
  cases place : job.stage.place with
  | outside => simpa [place, Permit.mem_claimants_request, other] using standing
  | waiting => simpa [place, Permit.mem_claimants_request, other] using standing
  | admitted =>
    simp only [place] at standing ⊢
    exact ⟨Permit.holder_request standing.1, standing.2⟩
  | owning =>
    simp only [place] at standing ⊢
    exact Permit.holder_request standing

/-- Another one gives the permit back. -/
theorem release (standing : job.Standing p j) (other : j ≠ id) (held : p.holder = some id) :
    job.Standing (p.release id) j := by
  have claims : j ∈ (p.release id).claimants ↔ j ∈ p.claimants := by
    rw [Permit.claimants_release held, Permit.claimants_of_holder held, List.mem_cons]
    simp [other]
  have taken : p.holder ≠ some j := by
    rw [held]
    rintro ⟨⟩
    exact other rfl
  unfold Job.Standing at *
  cases place : job.stage.place with
  | outside => simpa [place, claims] using standing
  | waiting => simpa [place, claims] using standing
  | admitted =>
    simp only [place] at standing
    exact absurd standing.1 taken
  | owning =>
    simp only [place] at standing
    exact absurd standing taken

end Job.Standing

namespace Site

variable {E : Engine}

/-- Permit, listener and receivers of a site fit together. -/
structure Owned (s : Site E) : Prop where
  nodup : s.slot.permit.claimants.Nodup
  known : ∀ id ∈ s.slot.permit.claimants, ∃ job, s.job? id = some job
  standing : ∀ {id job}, s.job? id = some job → job.Standing s.slot.permit id
  listener : ∀ l, s.slot.mailbox.listener = some l →
    ∃ id job, s.job? id = some job ∧ job.receiver = some l.number

/-- Whoever has a receiver holds the permit. -/
theorem Owned.holder {s : Site E} (owned : s.Owned) {id number : Nat} {job : Job E} (known : s.job? id = some job)
    (receiver : job.receiver = some number) : s.slot.permit.holder = some id := by
  have standing := owned.standing known
  unfold Job.Standing at standing
  cases place : job.stage.place with
  | owning => simpa [place] using standing
  | _ => simp [place, receiver] at standing

/-- Whoever works in the workspace holds the permit. -/
theorem Owned.owner {s : Site E} (owned : s.Owned) {id : JobId} {job : Job E} (known : s.job? id = some job)
    (place : job.stage.place = .owning) : s.slot.permit.holder = some id := by
  have standing := owned.standing known
  rwa [Job.Standing, place] at standing

/-- Who does not hold the permit has not been given it. -/
theorem Owned.bystander {s : Site E} (owned : s.Owned) {id j : JobId} {other : Job E}
    (held : s.slot.permit.holder = some id) (different : j ≠ id) (there : s.job? j = some other) :
    other.stage.place ≠ .admitted ∧ other.stage.place ≠ .owning := by
  have standing := owned.standing there
  have taken : s.slot.permit.holder ≠ some j := by
    rw [held]
    rintro ⟨⟩
    exact different rfl
  unfold Job.Standing at standing
  constructor <;> intro place <;> simp [place, taken] at standing

/-- A job takes its own step, or is left as it is. While it owns the workspace, others only edit the state or
clear the output. -/
theorem Owned.undisturbed {settings : Settings} {s next : Site E} {c : Cause} {id : JobId} {job : Job E}
    (owned : s.Owned) (known : s.job? id = some job) (step : s.Step settings c next) :
    (∃ h asked, next = s.take id (Job.step h id { slot := s.slot, asked := asked } job)) ∨
    next.job? id = some job ∧ (job.stage.place = .owning → next.slot.suspended = s.slot.suspended ∧
      (next.slot.state = s.slot.state ∨ (∃ e, c = .edit e ∧ next.slot.state = e.apply s.slot.state) ∨
        next.slot.state = s.slot.state.onOutput fun _ => .cleared)) := by
  cases step with
  | edit e => exact .inr ⟨known, fun _ => ⟨rfl, .inr (.inl ⟨e, rfl, rfl⟩)⟩⟩
  | clearOutput => exact .inr ⟨known, fun _ => ⟨rfl, .inr (.inr rfl)⟩⟩
  | signal => exact .inr ⟨known, fun _ => ⟨rfl, .inl rfl⟩⟩
  | submit j operation free =>
    have different : id ≠ j := by
      rintro rfl
      cases free.symm.trans known
    exact .inr ⟨by simp [different, known], fun _ => ⟨rfl, .inl rfl⟩⟩
  | step h _ asked j other theirs =>
    by_cases own : id = j
    · subst own
      cases known.symm.trans theirs
      exact .inl ⟨h, asked, rfl⟩
    · refine .inr ⟨(s.take_other _ own).trans known, fun place => ?_⟩
      obtain ⟨unadmitted, outside⟩ := owned.bystander (owned.owner known place) (Ne.symm own) theirs
      have rule := Job.step_rule h j { slot := s.slot, asked := asked } other
      exact ⟨(rule.bystander unadmitted outside).2, .inl (rule.bystander unadmitted outside).1⟩

theorem Fresh.owned {settings : Settings} {w : WorkspaceId} {s : Site E} (fresh : s.Fresh settings w) :
    s.Owned where
  nodup := by rw [fresh.slot]; exact .nil
  known := by
    rw [fresh.slot]
    intro id claims
    cases claims
  standing := by
    intro id job known
    obtain ⟨receiver, -, stage⟩ := fresh.jobs id job known
    have outside : job.stage.place = .outside := by
      rcases stage with stage | ⟨w, stage⟩ <;> rw [stage] <;> rfl
    rw [fresh.slot]
    simp [Job.Standing, outside, receiver, Slot.fresh, Permit.claimants]
  listener := by
    rw [fresh.slot]
    nofun

/-- A job steps. It is enough to look at the permit, at the job itself, and at who listens. -/
theorem Owned.stepped {s : Site E} (owned : s.Owned) {id : JobId} {job : Job E} (known : s.job? id = some job)
    {a : Advance E} (nodup : a.scene.slot.permit.claimants.Nodup)
    (claims : ∀ j ∈ a.scene.slot.permit.claimants, j = id ∨ j ∈ s.slot.permit.claimants)
    (others : ∀ j other, j ≠ id → Job.Standing s.slot.permit j other →
      Job.Standing (E := E) a.scene.slot.permit j other)
    (own : a.job.Standing a.scene.slot.permit id)
    (listener : ∀ l, a.scene.slot.mailbox.listener = some l → a.job.receiver = some l.number ∨
      job.receiver ≠ some l.number ∧ ∃ before, s.slot.mailbox.listener = some before ∧ before.number = l.number) :
    (s.take id a).Owned where
  nodup := nodup
  known := by
    intro j claim
    by_cases same : j = id
    · subst same
      exact ⟨a.job, s.take_own j a⟩
    · rw [s.take_other a same]
      exact owned.known j ((claims j claim).resolve_left same)
  standing := by
    intro j other there
    by_cases same : j = id
    · subst same
      cases (s.take_own j a).symm.trans there
      exact own
    · rw [s.take_other a same] at there
      exact others j other same (owned.standing there)
  listener := by
    intro l holds
    rcases listener l holds with receiver | ⟨foreign, before, armed, number⟩
    · exact ⟨id, a.job, s.take_own id a, receiver⟩
    · obtain ⟨j, other, there, receiver⟩ := owned.listener before armed
      rw [number] at receiver
      have different : j ≠ id := by
        rintro rfl
        cases known.symm.trans there
        exact foreign receiver
      exact ⟨j, other, (s.take_other a different).trans there, receiver⟩

/-- Nobody listens when a job that has just been admitted arms. -/
theorem Owned.unarmed {s : Site E} (owned : s.Owned) {id : JobId} {job : Job E} (known : s.job? id = some job)
    (place : job.stage.place = .admitted) : s.slot.mailbox.listener = none := by
  have standing := owned.standing known
  simp only [Job.Standing, place] at standing
  cases armed : s.slot.mailbox.listener with
  | none => rfl
  | some l =>
    obtain ⟨j, other, there, receiver⟩ := owned.listener l armed
    cases standing.1.symm.trans (owned.holder there receiver)
    cases known.symm.trans there
    rw [standing.2] at receiver
    cases receiver

/-- A job steps and leaves the permit alone. -/
theorem Owned.kept {s : Site E} (owned : s.Owned) {id : JobId} {job : Job E} (known : s.job? id = some job)
    {a : Advance E} (permit : a.scene.slot.permit = s.slot.permit) (own : a.job.Standing s.slot.permit id)
    (listener : ∀ l, a.scene.slot.mailbox.listener = some l → a.job.receiver = some l.number ∨
      job.receiver ≠ some l.number ∧ ∃ before, s.slot.mailbox.listener = some before ∧ before.number = l.number) :
    (s.take id a).Owned := by
  refine owned.stepped known ?_ ?_ ?_ ?_ listener <;> rw [permit]
  · exact owned.nodup
  · exact fun j claim => .inr claim
  · exact fun j other _ standing => standing
  · exact own

/-- Each trade keeps the invariant. -/
theorem Owned.trade {s : Site E} (owned : s.Owned) {id : JobId} {job : Job E} (known : s.job? id = some job)
    {a : Advance E} (trade : Job.Trade id s.slot job a.scene.slot a.job) : (s.take id a).Owned := by
  have standing := owned.standing known
  -- as long as the receiver stays, whoever listened before may listen on
  have listening : a.job.receiver = job.receiver → a.scene.slot.mailbox.Within s.slot.mailbox →
      ∀ l, a.scene.slot.mailbox.listener = some l → a.job.receiver = some l.number ∨
        job.receiver ≠ some l.number ∧
          ∃ before, s.slot.mailbox.listener = some before ∧ before.number = l.number := by
    intro receiver mailbox l holds
    by_cases own : job.receiver = some l.number
    · exact .inl (receiver.trans own)
    · exact .inr ⟨own, mailbox.listener l holds⟩
  cases trade with
  | stays place receiver permit mailbox =>
    refine owned.kept known permit ?_ (listening receiver mailbox)
    simpa only [Job.Standing, place, receiver] using standing
  | asks place target receiver permit mailbox =>
    simp only [Job.Standing, place] at standing
    refine owned.stepped known ?_ ?_ ?_ ?_ (listening receiver mailbox) <;> rw [permit]
    · exact Permit.nodup_request owned.nodup standing.1
    · exact fun j claim => Permit.mem_claimants_request.1 claim
    · exact fun j other different standing => standing.request different
    · simp only [Job.Standing, target]
      exact ⟨Permit.mem_claimants_request.2 (.inl rfl), receiver.trans standing.2⟩
  | admitted place target held receiver permit mailbox =>
    simp only [Job.Standing, place] at standing
    refine owned.kept known permit ?_ (listening receiver mailbox)
    simp only [Job.Standing, target]
    exact ⟨held, receiver.trans standing.2⟩
  | works place target receiver permit mailbox =>
    simp only [Job.Standing, place] at standing
    refine owned.kept known permit ?_ (listening receiver mailbox)
    simpa only [Job.Standing, target] using standing.1
  | arms place target receiver permit mailbox =>
    obtain ⟨accepts, mailbox⟩ := mailbox
    simp only [Job.Standing, place] at standing
    refine owned.kept known permit ?_ ?_
    · simpa only [Job.Standing, target] using standing.1
    · rw [mailbox]
      rintro l ⟨⟩
      exact .inl receiver
  | leaves place target receiver permit mailbox given =>
    simp only [Job.Standing, place] at standing
    have nodup := owned.nodup
    rw [Permit.claimants_of_holder standing, List.nodup_cons] at nodup
    have rest := Permit.claimants_release standing
    refine owned.stepped known ?_ ?_ ?_ ?_ ?_
    · rw [permit, rest]
      exact nodup.2
    · rw [permit, rest, Permit.claimants_of_holder standing]
      exact fun j claim => .inr (.tail _ claim)
    · rw [permit]
      exact fun j other different theirs => theirs.release different standing
    · simp only [Job.Standing, target, permit, rest]
      exact ⟨nodup.1, receiver⟩
    · exact fun l holds => .inr ⟨given l holds, mailbox.listener l holds⟩

/-- Whatever happens at a site keeps the invariant. -/
theorem Owned.step {settings : Settings} {s next : Site E} {c : Cause} (owned : s.Owned)
    (step : s.Step settings c next) : next.Owned := by
  cases step with
  | edit e => exact ⟨owned.nodup, owned.known, owned.standing, owned.listener⟩
  | clearOutput => exact ⟨owned.nodup, owned.known, owned.standing, owned.listener⟩
  | signal sig =>
    refine ⟨owned.nodup, owned.known, owned.standing, fun l holds => ?_⟩
    obtain ⟨before, armed, number⟩ := (Mailbox.fire_within _ sig).listener l holds
    rw [← number]
    exact owned.listener before armed
  | submit id operation free =>
    have unclaimed : id ∉ s.slot.permit.claimants := by
      intro claim
      obtain ⟨job, known⟩ := owned.known id claim
      cases free.symm.trans known
    refine ⟨owned.nodup, fun j claim => ?_, fun {j job} known => ?_, fun l holds => ?_⟩
    · obtain ⟨job, known⟩ := owned.known j claim
      have different : j ≠ id := fun same => unclaimed (same ▸ claim)
      exact ⟨job, by simp [different, known]⟩
    · by_cases same : j = id
      · subst same
        simp only [↓reduceIte, Option.some.injEq] at known
        subst known
        exact ⟨unclaimed, rfl⟩
      · simp only [same, ↓reduceIte] at known
        exact owned.standing known
    · obtain ⟨j, job, known, receiver⟩ := owned.listener l holds
      have different : j ≠ id := by
        rintro rfl
        cases free.symm.trans known
      exact ⟨j, job, by simp [different, known], receiver⟩
  | step h _ asked id job known =>
    have rule := Job.step_rule h id { slot := s.slot, asked := asked } job
    exact owned.trade known rule.trade

end Site

theorem Hub.Reachable.owned {E : Engine} {hub : Hub E} (reached : hub.Reachable) {w : WorkspaceId} {s : Site E}
    (here : hub.site? w = some s) : s.Owned :=
  reached.site (fun _ _ fresh => fresh.owned) (fun _ _ _ owned step => owned.step step) here

end Workbench
