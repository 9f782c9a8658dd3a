/-
Runs that are under way do not notice what is set in their workspace.

What a run goes by is settled when it begins. While it is in the engine's hands its
workspace may be edited, its output cleared, and another chapter or library asked for:
nothing of this fires a signal, and the run does not look at the state of the workspace.
So if such calls are left out of a course of moves (`Hub.unset`), the same comes of the
run, step by step up to its end (`Hub.Reachable.detached`).

Two workspaces are level (`Site.Level`) when the run has come as far in both, the same
signals wait for it, the same run is stored, and the others who may stop it are as far.
Their states may differ altogether.
-/
import Workbench.Proofs.Run.Selection
import Workbench.Proofs.Run.Attribution
import Workbench.Proofs.Run.Answer

namespace Workbench

variable {E : Engine}

/-! ## A step of the run -/

namespace Scene

variable {h₁ h₂ : House} {a b : Scene E}

/-- Two scenes with the same signals and the same stored run, in which runs have been started and polled alike. -/
structure Level (a b : Scene E) : Prop where
  mailbox : b.slot.mailbox = a.slot.mailbox
  suspended : b.slot.suspended = a.slot.suspended
  traffic : b.traffic = a.traffic

namespace Level

/-- Whatever becomes of the states. -/
theorem onState (level : a.Level b) (f g : WorkspaceState → WorkspaceState) : (a.onState f).Level (b.onState g) :=
  ⟨level.mailbox, level.suspended, level.traffic⟩

theorem add (level : a.Level b) (e : Effect E) : (a.add e).Level (b.add e) :=
  ⟨level.mailbox, level.suspended, by simpa [Scene.traffic] using congrArg (· ++ [e].filter Effect.isOfRun) level.traffic⟩

theorem withMailbox (level : a.Level b) (m : Mailbox) : (a.withMailbox m).Level (b.withMailbox m) :=
  ⟨rfl, level.suspended, level.traffic⟩

theorem heard (level : a.Level b) (lines : List String) : (a.heard lines).Level (b.heard lines) :=
  (level.onState _ _).add _

theorem settleMode (level : a.Level b) (mode : Mode) (verdict : Verdict) (occurrence : Nat → Occurrence) :
    (a.settleMode mode verdict occurrence).Level (b.settleMode mode verdict occurrence) where
  mailbox := by simp [level.mailbox]
  suspended := by cases mode <;> first | exact level.suspended | rfl
  traffic := by simpa [Scene.traffic] using level.traffic

theorem finishInterrupted (level : a.Level b) (mode : Mode) :
    (a.finishInterrupted h₁ mode).1.Level (b.finishInterrupted h₂ mode).1 where
  mailbox := by simp [level.mailbox]
  suspended := by cases mode <;> first | exact level.suspended | rfl
  traffic := by simpa [Scene.traffic] using level.traffic

theorem finishSuspended (level : a.Level b) (s : Suspension E.Snapshot) (paused : Bool) :
    (a.finishSuspended h₁ s paused).1.Level (b.finishSuspended h₂ s paused).1 where
  mailbox := by cases paused <;> exact level.mailbox
  suspended := by cases paused <;> rfl
  traffic := by cases paused <;> simpa [Scene.traffic] using level.traffic

end Level

end Scene

namespace Job

variable {h₁ h₂ : House} {id : JobId} {a b : Scene E} {job : Job E}

/-- What a result of the engine means does not depend on the state. -/
theorem finish_level (h₁ h₂ : House) (level : a.Level b) (l : Live E) (result : RunResult E.Snapshot) :
    (finish h₁ a l result).1.Level (finish h₂ b l result).1 ∧
      (finish h₂ b l result).2 = (finish h₁ a l result).2 := by
  cases result with
  | finished value => exact ⟨(level.onState _ _).settleMode .., rfl⟩
  | failed faults => exact ⟨((level.onState _ _).onState _ _).settleMode .., rfl⟩
  | suspended snapshot location =>
    unfold finish
    dsimp only
    split
    · exact ⟨((level.onState _ _).onState _ _).settleMode .., rfl⟩
    · refine ⟨level.finishSuspended .., ?_⟩
      cases l.paused <;> rfl

/-- Two steps of one job that come to the same for it. -/
structure Level (a b : Advance E) : Prop where
  scene : a.scene.Level b.scene
  job : b.job = a.job
  wake : b.wake = a.wake

theorem conclude_level {mode : Mode} {end₁ end₂ : Scene E × Outcome} (level : end₁.1.Level end₂.1)
    (outcome : end₂.2 = end₁.2) : Level (conclude job mode end₁) (conclude job mode end₂) where
  scene := ⟨level.mailbox, level.suspended, by simpa [Scene.traffic] using level.traffic⟩
  job := by simp only [conclude, outcome]
  wake := rfl

/-- The next signal is looked at in both. -/
theorem receive_level (level : a.Level b) (job : Job E) :
    (receive a job).1.Level (receive b job).1 ∧ (receive b job).2 = (receive a job).2 := by
  unfold receive
  cases job.receiver with
  | none => exact ⟨level, rfl⟩
  | some number =>
    dsimp only
    rw [level.mailbox]
    exact ⟨level.withMailbox _, rfl⟩

theorem hear_level (level : a.Level b) (job : Job E) (wake : Wake) :
    (hear a job wake).1.Level (hear b job wake).1 ∧ (hear b job wake).2 = (hear a job wake).2 := by
  unfold hear
  split
  · exact ⟨level, rfl⟩
  · exact receive_level level job

theorem start_level (level : a.Level b) (l : Launch E) : Level (start h₁ a job l) (start h₂ b job l) := by
  obtain ⟨same, signal⟩ := receive_level level job
  unfold start
  generalize receive a job = first at same signal ⊢
  generalize receive b job = second at same signal ⊢
  obtain ⟨a, r⟩ := first
  obtain ⟨b, r'⟩ := second
  obtain rfl : r' = r := signal
  cases r' with
  | signal s =>
    cases s with
    | interrupt => exact conclude_level (same.finishInterrupted _) rfl
    | pause => exact ⟨same, rfl, rfl⟩
  | pending | disarmed => exact ⟨same.add _, rfl, rfl⟩

theorem race_level (now : h₂.now = h₁.now) (level : a.Level b) (l : Live E) :
    Level (race h₁ a job l) (race h₂ b job l) := by
  unfold race
  rw [now]
  rcases E.poll l.run h₁.now { paused := l.paused } with ⟨lines, polled⟩
  have heard := level.heard lines
  cases polled with
  | ended result =>
    obtain ⟨same, outcome⟩ := finish_level h₁ h₂ (heard.add (.engine .release)) l result
    exact conclude_level same outcome
  | pending run wake =>
    dsimp only
    split
    · obtain ⟨same, signal⟩ := hear_level heard job wake
      simp only [Scene.heard] at same signal
      generalize hear (Scene.add (a.onState _) _) job wake = first at same signal ⊢
      generalize hear (Scene.add (b.onState _) _) job wake = second at same signal ⊢
      obtain ⟨a, r⟩ := first
      obtain ⟨b, r'⟩ := second
      obtain rfl : r' = r := signal
      cases r' with
      | signal s =>
        cases s with
        | interrupt => exact conclude_level (((same.add _).add _).finishInterrupted _) rfl
        | pause => exact ⟨same, rfl, rfl⟩
      | pending | disarmed => exact ⟨same, rfl, rfl⟩
    · exact ⟨heard, rfl, rfl⟩

/-- A run in the engine's hands takes the same step in both. -/
theorem step_level (now : h₂.now = h₁.now) (level : a.Level b) (atEngine : job.stage.isAtEngine = true) :
    Level (step h₁ id a job) (step h₂ id b job) := by
  unfold step
  cases stage : job.stage with
  | starting l => exact start_level level l
  | running l => exact race_level now level l
  | _ =>
    rw [stage] at atEngine
    cases atEngine

/-! ## The others -/

/-- A job that begins by stopping the owner of the workspace. -/
def Stops (slot : Slot E) (job : Job E) : Prop :=
  job.stage = .submitted ∧ interrupts job.operation = true ∧
    ∀ mode, job.operation = .evaluate mode → refusal? slot mode = none

/-- A job that has not been given the permit signals nothing unless it is one that stops the owner. -/
theorem Rule.fires {h : House} {sc : Scene E} {a : Advance E} (rule : Rule h id sc job a)
    (unadmitted : job.stage.place ≠ .admitted) (outside : job.stage.place ≠ .owning) :
    (job.Stops sc.slot → a.scene.slot.mailbox = (sc.slot.mailbox.fire .interrupt).1) ∧
      (¬ job.Stops sc.slot → a.scene.slot.mailbox = sc.slot.mailbox) := by
  cases rule with
  | refused _ operation because =>
    refine ⟨fun stops => ?_, fun _ => rfl⟩
    cases (stops.2.2 _ operation).symm.trans because
  | enqueued stage allowed =>
    rw [enqueue_slot]
    dsimp only
    split
    · next stops => exact ⟨fun _ => rfl, fun not => absurd ⟨stage, stops, allowed⟩ not⟩
    · next spares => exact ⟨fun stops => absurd stops.2.1 spares, fun _ => rfl⟩
  | waiting stage | admitted stage | settled stage =>
    refine ⟨fun stops => ?_, fun _ => rfl⟩
    cases stage.symm.trans stops.1
  | armed stage | allEmpty stage | allBegun stage | reset stage | unchanged stage | chapter stage
  | library stage => exact absurd (by rw [stage]; rfl) unadmitted
  | _ => exact absurd (by simp_all [Stage.place]) outside

/-- Whether a run that takes the place of another is refused depends on the stored run only. -/
theorem refusal?_eq_none {s t : Slot E} (suspended : t.suspended = s.suspended) {mode : Mode}
    (top : mode.isTopLevel = true) : refusal? t mode = none ↔ refusal? s mode = none := by
  cases mode with
  | debugResume =>
    simp only [refusal?, suspended]
    cases s.suspended <;> simp
  | testcaseRun => cases top
  | _ => exact iff_of_true rfl rfl

/-- A job in two workspaces: it is there in both, and has begun in both if it is one that stops the owner; or it
selects something and is there in the first only. -/
inductive Counterpart : Option (Job E) → Option (Job E) → Prop
  | none : Counterpart none none
  | both {k k' : Job E} (operation : k'.operation = k.operation)
    (begun : interrupts k.operation = true → (k'.stage = .submitted ↔ k.stage = .submitted)) :
    Counterpart (some k) (some k')
  | alone {k : Job E} (selects : k.operation.isSelection = true) : Counterpart (some k) none

theorem stops_iff {s t : Slot E} {k k' : Job E} (suspended : t.suspended = s.suspended)
    (operation : k'.operation = k.operation)
    (begun : interrupts k.operation = true → (k'.stage = .submitted ↔ k.stage = .submitted)) :
    k'.Stops t ↔ k.Stops s := by
  unfold Stops
  rw [operation]
  by_cases stops : interrupts k.operation = true
  · rw [begun stops]
    refine and_congr_right fun _ => and_congr_right fun _ => forall₂_congr fun mode same => ?_
    rw [same] at stops
    exact refusal?_eq_none suspended stops
  · simp [stops]

theorem interrupts_of_isSelection {operation : Operation} (selects : operation.isSelection = true) :
    interrupts operation = false := by
  cases operation <;> first | rfl | cases selects

end Job

namespace Site

variable {id j : JobId} {s t s' t' : Site E}

/-- Two sites in which one run has come as far. -/
structure Level (id : JobId) (s t : Site E) : Prop where
  run : ∃ job, s.job? id = some job ∧ t.job? id = some job ∧ job.stage.isAtEngine = true ∧
    job.operation.isSelection = false
  mailbox : t.slot.mailbox = s.slot.mailbox
  suspended : t.slot.suspended = s.slot.suspended
  others : ∀ j, Job.Counterpart (s.job? j) (t.job? j)

/-- The states do not count. -/
theorem Level.onState (level : s.Level id t) (f g : WorkspaceState) :
    Level id { s with slot := { s.slot with state := f } } { t with slot := { t.slot with state := g } } :=
  ⟨level.run, level.mailbox, level.suspended, level.others⟩

/-- Another job than the one that runs changes. -/
theorem Level.update (level : s.Level id t) (other : j ≠ id) (kept : ∀ i, i ≠ j → s'.job? i = s.job? i)
    (kept' : ∀ i, i ≠ j → t'.job? i = t.job? i) (mailbox : t'.slot.mailbox = s'.slot.mailbox)
    (suspended : t'.slot.suspended = s'.slot.suspended) (counterpart : Job.Counterpart (s'.job? j) (t'.job? j)) :
    s'.Level id t' where
  run := by
    rw [kept id (Ne.symm other), kept' id (Ne.symm other)]
    exact level.run
  mailbox := mailbox
  suspended := suspended
  others := by
    intro i
    by_cases same : i = j
    · exact same ▸ counterpart
    · rw [kept i same, kept' i same]
      exact level.others i

/-- Both take a step of a job that does not run. -/
theorem Level.both (level : s.Level id t) (owned : s.Owned) (owned' : t.Owned) (other : j ≠ id) {k k' : Job E}
    (here : s.job? j = some k) (there : t.job? j = some k') {h₁ h₂ : House} {n₁ n₂ : Nat} :
    Level id (s.take j (Job.step h₁ j { slot := s.slot, asked := n₁ } k))
      (t.take j (Job.step h₂ j { slot := t.slot, asked := n₂ } k')) := by
  obtain ⟨job, known, known', atEngine, -⟩ := level.run
  have owning := Stage.owning_of_atEngine atEngine
  obtain ⟨unadmitted, outside⟩ := owned.bystander (owned.owner known owning) other here
  obtain ⟨unadmitted', outside'⟩ := owned'.bystander (owned'.owner known' owning) other there
  have rule := Job.step_rule h₁ j { slot := s.slot, asked := n₁ } k
  have rule' := Job.step_rule h₂ j { slot := t.slot, asked := n₂ } k'
  have counterpart := level.others j
  rw [here, there] at counterpart
  cases counterpart with
  | both operation begun =>
    refine level.update other (fun i => s.take_other _) (fun i => t.take_other _) ?_ ?_ ?_
    · have fires := rule.fires unadmitted outside
      have fires' := rule'.fires unadmitted' outside'
      have alike := Job.stops_iff level.suspended operation begun
      by_cases stops : k.Stops s.slot
      · have fired := congrArg (fun m => (m.fire .interrupt).1) level.mailbox
        exact (fires'.1 (alike.2 stops)).trans (fired.trans (fires.1 stops).symm)
      · exact (fires'.2 (mt alike.1 stops)).trans (level.mailbox.trans (fires.2 stops).symm)
    · exact (rule'.bystander unadmitted' outside').2.trans
        (level.suspended.trans (rule.bystander unadmitted outside).2.symm)
    · rw [s.take_own, t.take_own]
      refine .both ?_ fun _ => iff_of_false rule'.begun rule.begun
      rw [rule.operation_eq, rule'.operation_eq, operation]

/-- Only the first takes a step of a job that selects something. -/
theorem Level.alone (level : s.Level id t) (owned : s.Owned) {k : Job E} (here : s.job? j = some k)
    (selects : k.operation.isSelection = true) {h : House} {n : Nat} :
    j ≠ id ∧ Level id (s.take j (Job.step h j { slot := s.slot, asked := n } k)) t := by
  obtain ⟨job, known, -, atEngine, unselecting⟩ := level.run
  have other : j ≠ id := by
    rintro rfl
    cases known.symm.trans here
    cases selects.symm.trans unselecting
  obtain ⟨unadmitted, outside⟩ := owned.bystander (owned.owner known (Stage.owning_of_atEngine atEngine)) other here
  have rule := Job.step_rule h j { slot := s.slot, asked := n } k
  have spares : ¬ k.Stops s.slot := by simp [Job.Stops, Job.interrupts_of_isSelection selects]
  refine ⟨other, level.update other (fun i => s.take_other _) (fun _ _ => rfl) ?_ ?_ ?_⟩
  · exact level.mailbox.trans ((rule.fires unadmitted outside).2 spares).symm
  · exact level.suspended.trans (rule.bystander unadmitted outside).2.symm
  · rw [s.take_own]
    have counterpart := level.others j
    rw [here] at counterpart
    have selects' := rule.operation_eq ▸ selects
    cases there : t.job? j with
    | none => exact .alone selects'
    | some k' =>
      rw [there] at counterpart
      cases counterpart with
      | both operation begun =>
        refine .both (by rw [operation, rule.operation_eq]) fun stops => ?_
        rw [Job.interrupts_of_isSelection selects'] at stops
        cases stops

/-- The run takes its own step in both, and they stay level unless it ends. -/
theorem Level.own (level : s.Level id t) {job : Job E} (here : s.job? id = some job) (h₁ h₂ : House)
    (now : h₂.now = h₁.now) (n₁ n₂ : Nat) :
    let a := Job.step h₁ id { slot := s.slot, asked := n₁ } job
    let b := Job.step h₂ id { slot := t.slot, asked := n₂ } job
    t.job? id = some job ∧ Job.Level a b ∧ (a.job.stage.ended? = none → (s.take id a).Level id (t.take id b)) := by
  intro a b
  obtain ⟨job', known, known', atEngine, unselecting⟩ := level.run
  cases known.symm.trans here
  have scenes : Scene.Level { slot := s.slot, asked := n₁ } { slot := t.slot, asked := n₂ } :=
    ⟨level.mailbox, level.suspended, rfl⟩
  have same : Job.Level a b := Job.step_level now scenes atEngine
  refine ⟨known', same, fun unended => ?_⟩
  have rule : Job.Rule h₁ id { slot := s.slot, asked := n₁ } job a := Job.step_rule ..
  have later : a.job.stage.isAtEngine = true := by
    cases rule.prints with
    | aside aside | clears aside => cases aside.symm.trans atEngine
    | begins ready => simp [ready, Stage.isAtEngine] at atEngine
    | goesOn _ _ later => exact later
    | ends _ _ _ ended => simp [ended, Stage.ended?] at unended
  refine ⟨⟨a.job, s.take_own .., ?_, later, rule.operation_eq ▸ unselecting⟩, same.scene.mailbox,
    same.scene.suspended, fun j => ?_⟩
  · rw [t.take_own, same.job]
  · by_cases own : j = id
    · subst own
      rw [s.take_own, t.take_own, same.job]
      exact .both rfl fun _ => Iff.rfl
    · rw [s.take_other _ own, t.take_other _ own]
      exact level.others j

/-- A workspace is level with itself. -/
theorem Level.refl {job : Job E} (known : s.job? id = some job) (atEngine : job.stage.isAtEngine = true)
    (unselecting : job.operation.isSelection = false) : s.Level id s where
  run := ⟨job, known, known, atEngine, unselecting⟩
  mailbox := rfl
  suspended := rfl
  others := by
    intro j
    cases s.job? j with
    | none => exact .none
    | some k => exact .both rfl fun _ => Iff.rfl

end Site

/-! ## What comes of a run -/

namespace Stride

/-- What comes of a step: the moment, when the next one is asked for, what the run writes, how it ends if it does, and
which run the workspace then has stored. -/
structure Upshot (E : Engine) where
  now : Nat
  wake : Option Wake
  lines : List String
  ended? : Option (Mode × Outcome)
  stored : Option (Suspension E.Snapshot)

/-- What comes of this step. -/
def upshot (s : Stride E) : Upshot E where
  now := s.now
  wake := s.made.wake
  lines := s.written
  ended? := s.ended?
  stored := s.made.scene.slot.suspended

/-- The steps up to the end of a run. -/
def ofRun : List (Stride E) → List (Stride E)
  | [] => []
  | s :: rest => s :: if s.ended?.isSome then [] else ofRun rest

theorem upshot_level {a b : Stride E} (now : b.now = a.now) (level : Job.Level a.made b.made) :
    b.upshot = a.upshot := by
  have lines : b.written = a.written := by
    rw [written, written, ← written_traffic, ← written_traffic a.made.scene.effects]
    exact congrArg (List.flatMap Effect.written) level.scene.traffic
  simp only [upshot, Upshot.mk.injEq]
  exact ⟨now, level.wake, lines, congrArg (·.stage.ended?) level.job, level.scene.suspended⟩

end Stride

/-! ## Courses of moves -/

namespace Hub

variable {hub lone : Hub E} {w : WorkspaceId} {id : JobId} {s : Site E} {m : Move}

/-- A call at a workspace that sets something there and fires no signal, or a step of one that selects a chapter or a
library. -/
def sets (hub : Hub E) (w : WorkspaceId) : Move → Bool
  | .edit v _ => decide (v = w)
  | .clearOutput v => decide (v = w)
  | .submit _ v operation => decide (v = w) && operation.isSelection
  | .step id _ => (hub.jobOn? w id).any (·.operation.isSelection)
  | _ => false

/-- A course of moves without those that set something at a workspace, and without those that come to nothing. -/
def unset (hub : Hub E) (w : WorkspaceId) : List Move → List Move
  | [] => []
  | m :: moves =>
    if hub.sets w m = true ∨ hub.about? m = none then (hub.move m).unset w moves
    else m :: (hub.move m).unset w moves

/-- What comes of a run that a job has begun, step by step up to the end of the run. -/
def yields (hub : Hub E) (w : WorkspaceId) (id : JobId) (moves : List Move) : List (Stride.Upshot E) :=
  (Stride.ofRun (hub.strides w id moves)).map Stride.upshot

theorem yields_still {moves : List Move} (still : hub.stride? w id m = none) :
    hub.yields w id (m :: moves) = (hub.move m).yields w id moves := by
  simp [yields, strides, still]

theorem yields_step {step : Stride E} {moves : List Move} (took : hub.stride? w id m = some step) :
    hub.yields w id (m :: moves) =
      step.upshot :: if step.upshot.ended?.isSome then [] else (hub.move m).yields w id moves := by
  simp only [yields, strides, took, Option.toList_some, List.singleton_append, Stride.ofRun, List.map_cons]
  rw [apply_ite (List.map Stride.upshot)]
  rfl

/-- What an open workspace is after a move. -/
def siteAfter (hub : Hub E) (w : WorkspaceId) (s : Site E) : Move → Site E
  | .openWorkspace _ => s
  | .edit v e => if v = w then { s with slot := { s.slot with state := e.apply s.slot.state } } else s
  | .clearOutput v =>
    if v = w then { s with slot := { s.slot with state := s.slot.state.onOutput fun _ => .cleared } } else s
  | .signal v sig => if v = w then { s with slot := { s.slot with mailbox := (s.slot.mailbox.fire sig).1 } } else s
  | .submit id v operation =>
    if v = w ∧ hub.tasks.contains id = false then
      { s with job? := fun j => if j = id then some { operation := operation } else s.job? j }
    else s
  | .step id now =>
    match s.job? id with
    | some job => s.take id (Job.step (hub.house now) id { slot := s.slot, asked := hub.asked } job)
    | none => s

theorem Sound.siteAfter (sound : hub.Sound) (here : hub.site? w = some s) (m : Move) :
    (hub.move m).site? w = some (hub.siteAfter w s m) := by
  cases m with
  | openWorkspace v =>
    obtain ⟨next, there, rfl | ⟨c, cause, -⟩⟩ := move_site sound (.openWorkspace v) here
    · exact there
    · cases cause
  | edit v e => rw [move_edit, onSlot_site sound (by exact fun _ => rfl) here]; rfl
  | clearOutput v => rw [move_clearOutput, onSlot_site sound (by exact fun _ => rfl) here]; rfl
  | signal v sig => rw [move_signal, onSlot_site sound (by exact fun _ => rfl) here]; rfl
  | submit id v operation =>
    by_cases own : v = w ∧ hub.tasks.contains id = false
    · obtain ⟨rfl, free⟩ := own
      rw [handed_in here free, Hub.siteAfter, if_pos ⟨rfl, free⟩]
    · rw [site?_elsewhere sound, here, Hub.siteAfter, if_neg own]
      intro about
      simp only [about?] at about
      split at about
      · cases about
      · next free => exact own ⟨Option.some.inj about, eq_false_of_ne_true free⟩
  | step id now =>
    rw [Hub.siteAfter]
    cases known : s.job? id with
    | some job => exact (step_own sound here known now).1
    | none =>
      rw [site?_elsewhere sound, here]
      intro about
      obtain ⟨task, there, rfl⟩ := Option.map_eq_some_iff.1 about
      rw [(site?_eq_some.1 here).2] at known
      simp [jobOn?, there] at known

/-- In two hubs one run of a workspace has come as far, and no number is taken in the second only. -/
structure Detached (w : WorkspaceId) (id : JobId) (hub lone : Hub E) : Prop where
  sites : ∃ s t, hub.site? w = some s ∧ lone.site? w = some t ∧ s.Level id t
  free : ∀ j, hub.tasks.get? j = none → lone.tasks.get? j = none

/-- The run's own number is taken. -/
theorem Detached.taken (detached : Detached w id hub lone) {j : JobId} (unknown : hub.tasks.get? j = none) :
    j ≠ id := by
  rintro rfl
  obtain ⟨s, t, here, -, level⟩ := detached.sites
  obtain ⟨job, known, -⟩ := level.run
  cases unknown.symm.trans (jobOn?_eq_some.1 ((site?_eq_some.1 here).2 ▸ known))

/-- Nothing comes of a move that is about no workspace. -/
theorem Detached.vain (detached : Detached w id hub lone) (about : hub.about? m = none) :
    hub.stride? w id m = none ∧ Detached w id (hub.move m) lone := by
  rw [(about?_none about).1]
  refine ⟨?_, detached⟩
  cases m with
  | step j now => exact if_neg (detached.taken (Option.map_eq_none_iff.1 about))
  | _ => rfl

/-- A move that sets something is made in the first only. -/
theorem Detached.leave (detached : Detached w id hub lone) (reached : hub.Reachable) (sets : hub.sets w m = true) :
    hub.stride? w id m = none ∧ Detached w id (hub.move m) lone := by
  obtain ⟨s, t, here, there, level⟩ := detached.sites
  have free (j : JobId) (later : (hub.move m).tasks.get? j = none) : lone.tasks.get? j = none :=
    detached.free j ((move_free hub m j).1 later).1
  have after := reached.sound.siteAfter here m
  cases m with
  | openWorkspace | signal => cases sets
  | edit v e | clearOutput v =>
    rw [siteAfter, if_pos (of_decide_eq_true sets)] at after
    exact ⟨rfl, ⟨_, t, after, there, level.onState _ t.slot.state⟩, free⟩
  | submit j v operation =>
    simp only [Hub.sets, Bool.and_eq_true, decide_eq_true_eq] at sets
    refine ⟨rfl, ⟨_, t, after, there, ?_⟩, free⟩
    rw [siteAfter]
    split
    · next own =>
      have unknown : hub.tasks.get? j = none := by simpa [Table.contains] using own.2
      have absent : t.job? j = none := by
        rw [(site?_eq_some.1 there).2, jobOn?, detached.free j unknown, Option.bind_none]
      refine level.update (detached.taken unknown) (fun i others => if_neg others) (fun _ _ => rfl) level.mailbox
        level.suspended ?_
      simp only [absent, ↓reduceIte]
      exact .alone sets.2
    · exact level
  | step j now =>
    obtain ⟨k, theirs, selects⟩ := (Option.any_eq_true _ _).1 sets
    rw [← (site?_eq_some.1 here).2] at theirs
    obtain ⟨other, later⟩ := level.alone (reached.owned here) theirs selects
    simp only [siteAfter, theirs] at after
    exact ⟨if_neg other, ⟨_, t, after, there, later⟩, free⟩

/-- Any other move is made in both. -/
theorem Detached.keep (detached : Detached w id hub lone) (reached : hub.Reachable) (reached' : lone.Reachable)
    (unset : hub.sets w m ≠ true) (about : hub.about? m ≠ none) (other : ∀ now, m ≠ .step id now) :
    hub.stride? w id m = none ∧ lone.stride? w id m = none ∧ Detached w id (hub.move m) (lone.move m) := by
  obtain ⟨s, t, here, there, level⟩ := detached.sites
  have still (hub : Hub E) : hub.stride? w id m = none := by
    cases m with
    | step j now =>
      refine if_neg ?_
      rintro rfl
      exact other now rfl
    | _ => rfl
  refine ⟨still hub, still lone, ⟨_, _, reached.sound.siteAfter here m, reached'.sound.siteAfter there m, ?_⟩,
    fun j later => ?_⟩
  · cases m with
    | openWorkspace => exact level
    | edit v e | clearOutput v =>
      simp only [siteAfter]
      split
      · exact level.onState _ _
      · exact level
    | signal v sig =>
      simp only [siteAfter]
      split
      · exact ⟨level.run, congrArg (fun m => (m.fire sig).1) level.mailbox, level.suspended, level.others⟩
      · exact level
    | submit j v operation =>
      have free : hub.tasks.contains j = false := by
        by_contra taken
        exact about (if_pos (eq_true_of_ne_false taken))
      have unknown : hub.tasks.get? j = none := by simpa [Table.contains] using free
      have free' : lone.tasks.contains j = false := by simp [Table.contains, detached.free j unknown]
      simp only [siteAfter, free, free', and_true]
      split
      · refine level.update (detached.taken unknown) (fun i others => if_neg others) (fun i others => if_neg others)
          level.mailbox level.suspended ?_
        simp only [↓reduceIte]
        exact .both rfl fun _ => Iff.rfl
      · exact level
    | step j now =>
      have distinct : j ≠ id := fun same => other now (same ▸ rfl)
      have counterpart := level.others j
      simp only [siteAfter]
      cases theirs : s.job? j with
      | none =>
        rw [theirs] at counterpart
        cases absent : t.job? j with
        | none => exact level
        | some k' => rw [absent] at counterpart; cases counterpart
      | some k =>
        have selects : ¬ k.operation.isSelection = true := by
          rw [(site?_eq_some.1 here).2] at theirs
          simpa [Hub.sets, theirs] using unset
        cases theirs' : t.job? j with
        | none =>
          rw [theirs, theirs'] at counterpart
          cases counterpart with
          | alone selects' => exact absurd selects' selects
        | some k' => exact level.both (reached.owned here) (reached'.owned there) distinct theirs theirs'
  · obtain ⟨unknown, unsubmitted⟩ := (move_free hub m j).1 later
    exact (move_free lone m j).2 ⟨detached.free j unknown, unsubmitted⟩

/-- The run's own step comes to the same in both. -/
theorem Detached.own (detached : Detached w id hub lone) (reached : hub.Reachable) (reached' : lone.Reachable)
    (now : Nat) :
    ∃ a b, hub.stride? w id (.step id now) = some a ∧ lone.stride? w id (.step id now) = some b ∧
      b.upshot = a.upshot ∧
      (a.ended? = none → Detached w id (hub.move (.step id now)) (lone.move (.step id now))) := by
  obtain ⟨s, t, here, there, level⟩ := detached.sites
  obtain ⟨job, known, -⟩ := level.run
  obtain ⟨known', same, later⟩ :=
    level.own known (hub.house now) (lone.house now) rfl hub.asked lone.asked
  have took : hub.stride? w id (.step id now) = some ⟨now, s.slot, job,
      Job.step (hub.house now) id { slot := s.slot, asked := hub.asked } job⟩ := by
    simp [stride?, here, known]
  have took' : lone.stride? w id (.step id now) = some ⟨now, t.slot, job,
      Job.step (lone.house now) id { slot := t.slot, asked := lone.asked } job⟩ := by
    simp [stride?, there, known']
  refine ⟨_, _, took, took', Stride.upshot_level rfl same,
    fun unended => ⟨⟨_, _, ?_, ?_, later unended⟩, fun j free => ?_⟩⟩
  · exact (step_own reached.sound here known now).1
  · exact (step_own reached'.sound there known' now).1
  · obtain ⟨unknown, unsubmitted⟩ := (move_free hub _ j).1 free
    exact (move_free lone _ j).2 ⟨detached.free j unknown, unsubmitted⟩

/-- The same comes of the run when the moves that set something are left out in the second. -/
theorem Detached.yields (detached : Detached w id hub lone) (reached : hub.Reachable) (reached' : lone.Reachable)
    (moves : List Move) : lone.yields w id (hub.unset w moves) = hub.yields w id moves := by
  induction moves generalizing hub lone with
  | nil => rfl
  | cons m moves ih =>
    rw [unset]
    split
    · next left =>
      obtain ⟨still, later⟩ := left.elim (detached.leave reached) detached.vain
      rw [yields_still still]
      exact ih later (reached.move m) reached'
    · next kept =>
      by_cases own : ∃ now, m = .step id now
      · obtain ⟨now, rfl⟩ := own
        obtain ⟨a, b, took, took', same, unended⟩ := detached.own reached reached' now
        rw [yields_step took, yields_step took', same]
        cases ended : a.ended? with
        | some => simp [Stride.upshot, ended]
        | none =>
          rw [ih (unended ended) (reached.move _) (reached'.move _)]
      · obtain ⟨still, still', later⟩ := detached.keep reached reached' (fun sets => kept (.inl sets))
          (fun about => kept (.inr about)) fun now same => own ⟨now, same⟩
        rw [yields_still still, yields_still still']
        exact ih later (reached.move m) (reached'.move m)

/-! ## The theorem -/

/-- Whoever begins a run selects nothing. -/
theorem unselecting_of_run {job : Job E} (orderly : job.Orderly) {mode : Mode} (run : job.stage.mode? = some mode) :
    job.operation.isSelection = false := by
  cases under : job.batch with
  | none => rw [orderly.alone under mode run]; rfl
  | some batch =>
    obtain ⟨-, -, ⟨operation, -⟩ | ⟨operation, -⟩⟩ := orderly.batch batch under <;> rw [operation] <;> rfl

/-- Once a run has begun, whatever is set in its workspace makes no difference to it: what it writes and when, how it
ends, with which faults, and what is stored of it if it is suspended are the same as if nothing had been set. -/
theorem Reachable.detached (reached : hub.Reachable) {now : Nat} {mode : Mode}
    (started : .event ⟨w, .runStarted mode⟩ ∈ (hub.step now id).2) (moves : List Move) :
    let begun := hub.move (.step id now)
    begun.yields w id (begun.unset w moves) = begun.yields w id moves := by
  intro begun
  obtain ⟨s, job, here, known, there, -, speaks⟩ := reached.speaks started
  cases speaks with
  | runStarted stage launched =>
    have later := reached.move (.step id now)
    have starting := (congrArg Advance.job launched).trans (Job.launch_job ..)
    have unselecting := unselecting_of_run ((reached.attentive here).orderly known) (by rw [stage]; rfl)
    refine Detached.yields ⟨⟨_, _, there, there, .refl (s.take_own ..) (by rw [starting]; rfl) ?_⟩, fun _ free => free⟩
      later later moves
    rw [starting]
    exact unselecting

end Hub

/-! ### A run whose workspace is tinkered with -/

/-- A script with a prepend is about to be run. -/
def tinkered : Hub Script.engine :=
  (Hub.create {} .bundled).1.after
    ([.edit .playground (.editorPrepend "display \"p\""), .edit .playground (.editorValue "display \"a\"\nsleep 100"),
        .submit 0 .playground (.evaluate .editorRun)] ++ List.replicate 5 (.step 0 0))

/-- It runs, and everything that it was made of is set anew; then it is paused. -/
def tinkering : List Move :=
  [.step 0 0, .step 0 0, .edit .playground (.editorPrepend ""), .edit .playground (.editorValue "display \"b\""),
    .edit .playground (.execTime 5), .clearOutput .playground, .submit 1 .playground (.selectChapter 2), .step 1 10,
    .signal .playground .pause, .step 0 20, .step 1 20, .step 0 20]

theorem tinkered_reachable : tinkered.Reachable := by
  unfold tinkered
  exact (Hub.Reachable.create {} .bundled).after _

theorem tinkered_starts : .event ⟨.playground, .runStarted .editorRun⟩ ∈ (tinkered.step 0 0).2 :=
  mem_of_event (by decide +kernel)

/-- The run writes what it was begun with, and is stored with the prepend that stood before it then. -/
theorem detached_of_tinkered :
    let begun := tinkered.move (.step 0 0)
    let rest := begun.unset .playground tinkering
    tinkered.Reachable ∧ .event ⟨.playground, .runStarted .editorRun⟩ ∈ (tinkered.step 0 0).2 ∧
      tinkering.length = 12 ∧ rest.length = 5 ∧
      (begun.yields .playground 0 tinkering).flatMap (·.lines) = ["p", "a"] ∧
      (begun.yields .playground 0 rest).flatMap (·.lines) = ["p", "a"] ∧
      ∃ last x, (begun.yields .playground 0 rest).getLast? = some last ∧
        (begun.yields .playground 0 tinkering).getLast? = some last ∧ last.ended? = some (.editorRun, .paused) ∧
        last.stored = some x ∧ x.prependLines = 1 ∧ x.location = some (.line 3) := by
  intro begun rest
  have same : begun.yields .playground 0 rest = begun.yields .playground 0 tinkering :=
    tinkered_reachable.detached tinkered_starts tinkering
  have lines : (begun.yields .playground 0 tinkering).flatMap (·.lines) = ["p", "a"] := by decide +kernel
  have ends : (begun.yields .playground 0 tinkering).getLast?.any (fun last =>
      last.ended?.any (fun e => e.1 = .editorRun && e.2.kind = .paused) &&
        last.stored.any (fun x => x.prependLines = 1 && x.location = some (.line 3))) = true := by
    decide +kernel
  obtain ⟨last, there, ends⟩ := (Option.any_eq_true _ _).1 ends
  rw [Bool.and_eq_true] at ends
  obtain ⟨⟨⟨mode, o⟩, ended, own⟩, x, stored, place⟩ :=
    ends.imp (Option.any_eq_true _ _).1 (Option.any_eq_true _ _).1
  simp only [Bool.and_eq_true, decide_eq_true_eq] at own place
  obtain ⟨rfl, paused⟩ := own
  cases o <;> cases paused
  exact ⟨tinkered_reachable, tinkered_starts, rfl, by decide +kernel, lines, by rw [same]; exact lines, last, x,
    by rw [same]; exact there, there, ended, stored, place.1, place.2⟩

end Workbench
