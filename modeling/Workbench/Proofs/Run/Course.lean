/-
Courses of events: what can happen to a hub, in any order whatever.

A move is one edit, one signal, one job handed in, or one step of one job. Others
may come in between any two steps of a job, more often than the places where it
waits; what holds on every course holds a fortiori when each job keeps its turn
(`turn_eq_after`). A job's number is given to it once.

What the jobs on one workspace can see of the hub is a site: the slot and those
jobs. Every move is, at each site, either nothing at all or one of the steps of
`Site.Step` (`move_site`), so a fact about one workspace is shown by looking at
its site alone (`Reachable.site`).
-/
import Workbench.Proofs.Run.Disregard
import Workbench.Proofs.Run.Rule
import Workbench.Run.Hub

namespace Workbench

/-! ## Tables -/

namespace Table

variable {κ α : Type} [DecidableEq κ]

theorem put_put (k : κ) (a b : α) (es : List (κ × α)) : put k b (put k a es) = put k b es := by
  induction es with
  | nil => simp [put]
  | cons e rest ih =>
    obtain ⟨j, c⟩ := e
    by_cases hjk : j = k <;> simp [put, hjk, ih]

@[simp] theorem set_set (t : Table κ α) (k : κ) (a b : α) : (t.set k a).set k b = t.set k b := by
  simp [set, put_put]

theorem put_self {k : κ} {a : α} {es : List (κ × α)} (held : find k es = some a) : put k a es = es := by
  induction es with
  | nil => simp [find] at held
  | cons e rest ih =>
    obtain ⟨j, c⟩ := e
    by_cases hjk : j = k
    · simp_all [find, put]
    · simp only [find, hjk, ↓reduceIte] at held
      simp [put, hjk, ih held]

theorem set_self {t : Table κ α} {k : κ} {a : α} (held : t.get? k = some a) : t.set k a = t := by
  rw [set, put_self held]

end Table

/-! ## Moves -/

/-- One thing that happens to a hub. -/
inductive Move where
  | openWorkspace (w : WorkspaceId)
  | edit (w : WorkspaceId) (e : Edit)
  | clearOutput (w : WorkspaceId)
  | signal (w : WorkspaceId) (s : Signal)
  | submit (id : JobId) (w : WorkspaceId) (operation : Operation)
  /-- a job takes one step -/
  | step (id : JobId) (now : Nat)

namespace Hub

variable {E : Engine}

/-- The surroundings of a job's step at a time. -/
def house (hub : Hub E) (now : Nat) : House := { settings := hub.settings, loader := hub.loader, now := now }

/-- A job's step is taken over: its scene becomes the slot of the workspace. -/
def take (hub : Hub E) (id : JobId) (task : Task E) (sc : Scene E) (job : Job E) : Hub E :=
  { hub.withSlot sc.slot with asked := sc.asked, tasks := hub.tasks.set id { task with job := job } }

/-- A job takes one step of its turn. -/
def step (hub : Hub E) (now : Nat) (id : JobId) : Hub E × List (Effect E) :=
  match hub.tasks.get? id with
  | none => (hub, [])
  | some task =>
    match hub.slot task.workspace with
    | .error r =>
      ({ hub with tasks := hub.tasks.set id { task with job := task.job.at_ (.settled (.refused r)) } }, [])
    | .ok slot =>
      let a := Job.step (hub.house now) id { slot := slot, asked := hub.asked } task.job
      (hub.take id task a.scene a.job, a.scene.effects)

/-- The hub after a move. Edits of a workspace that is not open come to nothing, and so does a job that is
handed in under a number that is taken. -/
def move (hub : Hub E) : Move → Hub E
  | .openWorkspace w => (hub.openWorkspace w).1
  | .edit w e => match hub.edit w e with | .ok next => next | .error _ => hub
  | .clearOutput w => match hub.clearOutput w with | .ok (next, _) => next | .error _ => hub
  | .signal w s => (hub.signal w s).1
  | .submit id w operation => if hub.tasks.contains id then hub else hub.submit id w operation
  | .step id now => (hub.step now id).1

/-- The hub after a course of moves. -/
def after (hub : Hub E) (moves : List Move) : Hub E := moves.foldl move hub

@[simp] theorem after_nil (hub : Hub E) : hub.after [] = hub := rfl

@[simp] theorem after_cons (hub : Hub E) (m : Move) (moves : List Move) :
    hub.after (m :: moves) = (hub.move m).after moves := rfl

theorem after_append (hub : Hub E) (first second : List Move) :
    hub.after (first ++ second) = (hub.after first).after second := List.foldl_append

theorem after_concat (hub : Hub E) (moves : List Move) (m : Move) :
    hub.after (moves ++ [m]) = (hub.after moves).move m := by
  rw [after_append]
  rfl

/-- A hub that can come about, from the two workspaces that are always there. -/
inductive Reachable : Hub E → Prop
  | create (settings : Settings) (loader : Loader) : Reachable (Hub.create settings loader).1
  | move {hub : Hub E} (reached : Reachable hub) (m : Move) : Reachable (hub.move m)

theorem Reachable.after {hub : Hub E} (reached : hub.Reachable) (moves : List Move) :
    (hub.after moves).Reachable := by
  induction moves generalizing hub with
  | nil => exact reached
  | cons m moves ih => exact ih (reached.move m)

end Hub

/-! ## Sites -/

/-- A workspace and the jobs on it. -/
structure Site (E : Engine) where
  slot : Slot E
  job? : JobId → Option (Job E)

/-- The slot of a workspace when it is opened. -/
def Slot.fresh {E : Engine} (settings : Settings) (w : WorkspaceId) : Slot E where
  id := w
  state := .ofContext settings.execution (E.makeContext { chapter := settings.execution.chapter })

/-- What brings a step of a site about. -/
inductive Cause where
  | edit (e : Edit)
  | clearOutput
  | signal (s : Signal)
  | submit (id : JobId) (operation : Operation)
  | step (id : JobId)

namespace Site

variable {E : Engine}

/-- The site after a job's step. -/
def take (s : Site E) (id : JobId) (a : Advance E) : Site E :=
  { slot := a.scene.slot, job? := fun j => if j = id then some a.job else s.job? j }

@[simp] theorem take_slot (s : Site E) (id : JobId) (a : Advance E) : (s.take id a).slot = a.scene.slot := rfl

@[simp] theorem take_own (s : Site E) (id : JobId) (a : Advance E) : (s.take id a).job? id = some a.job := by
  simp [take]

theorem take_other (s : Site E) (a : Advance E) {id j : JobId} (other : j ≠ id) :
    (s.take id a).job? j = s.job? j := by
  simp [take, other]

/-- What can happen at a site, under given settings. -/
inductive Step (settings : Settings) (s : Site E) : Cause → Site E → Prop
  | edit (e : Edit) :
    Step settings s (.edit e) { s with slot := { s.slot with state := e.apply s.slot.state } }
  | clearOutput :
    Step settings s .clearOutput
      { s with slot := { s.slot with state := s.slot.state.onOutput fun _ => .cleared } }
  | signal (sig : Signal) :
    Step settings s (.signal sig) { s with slot := { s.slot with mailbox := (s.slot.mailbox.fire sig).1 } }
  | submit (id : JobId) (operation : Operation) (free : s.job? id = none) :
    Step settings s (.submit id operation)
      { s with job? := fun j => if j = id then some { operation := operation } else s.job? j }
  | step (h : House) (same : h.settings = settings) (asked : Nat) (id : JobId) (job : Job E)
    (known : s.job? id = some job) :
    Step settings s (.step id) (s.take id (Job.step h id { slot := s.slot, asked := asked } job))

theorem Step.id_eq {settings : Settings} {s next : Site E} {c : Cause} (step : s.Step settings c next) :
    next.slot.id = s.slot.id := by
  cases step with
  | step h _ asked id job => exact (Job.step_rule h id { slot := s.slot, asked := asked } job).id_eq
  | _ => rfl

/-- A job that has done nothing: handed in, or refused because its workspace was not open. -/
def Untouched (job : Job E) : Prop :=
  job.receiver = none ∧ job.batch = none ∧
    (job.stage = .submitted ∨ ∃ w, job.stage = .settled (.refused (.unknownWorkspace w)))

/-- A site whose workspace has just been opened. -/
structure Fresh (settings : Settings) (w : WorkspaceId) (s : Site E) : Prop where
  slot : s.slot = .fresh settings w
  jobs : ∀ id job, s.job? id = some job → Untouched job

end Site

/-- The moves that bring a step of a workspace's site about. -/
inductive Move.Causes (w : WorkspaceId) : Move → Cause → Prop
  | edit (e : Edit) : Move.Causes w (.edit w e) (.edit e)
  | clearOutput : Move.Causes w (.clearOutput w) .clearOutput
  | signal (s : Signal) : Move.Causes w (.signal w s) (.signal s)
  | submit (id : JobId) (operation : Operation) : Move.Causes w (.submit id w operation) (.submit id operation)
  | step (id : JobId) (now : Nat) : Move.Causes w (.step id now) (.step id)

namespace Hub

variable {E : Engine}

/-- The job of a number, if it is one for the workspace. -/
def jobOn? (hub : Hub E) (w : WorkspaceId) (id : JobId) : Option (Job E) :=
  (hub.tasks.get? id).bind fun task => if task.workspace = w then some task.job else none

/-- The site of a workspace, once it is open. -/
def site? (hub : Hub E) (w : WorkspaceId) : Option (Site E) :=
  (hub.registry.slots.get? w).map fun slot => { slot := slot, job? := hub.jobOn? w }

theorem slot_eq_ok {hub : Hub E} {w : WorkspaceId} {slot : Slot E} :
    hub.slot w = .ok slot ↔ hub.registry.slots.get? w = some slot := by
  unfold Hub.slot Registry.slot
  cases hub.registry.slots.get? w <;> simp

theorem slot_eq_error {hub : Hub E} {w : WorkspaceId} {r : Refusal} :
    hub.slot w = .error r ↔ hub.registry.slots.get? w = none ∧ r = .unknownWorkspace w := by
  unfold Hub.slot Registry.slot
  cases hub.registry.slots.get? w <;> simp [eq_comm]

theorem site?_eq_some {hub : Hub E} {w : WorkspaceId} {s : Site E} :
    hub.site? w = some s ↔ hub.slot w = .ok s.slot ∧ s.job? = hub.jobOn? w := by
  rw [slot_eq_ok, site?]
  obtain ⟨slot, job?⟩ := s
  cases hub.registry.slots.get? w with
  | none => simp
  | some own => simp [eq_comm]

theorem site?_eq_none {hub : Hub E} {w : WorkspaceId} :
    hub.site? w = none ↔ hub.registry.slots.get? w = none := by
  simp [site?]

theorem jobOn?_eq_some {hub : Hub E} {w : WorkspaceId} {id : JobId} {job : Job E} :
    hub.jobOn? w id = some job ↔ hub.tasks.get? id = some { workspace := w, job := job } := by
  unfold jobOn?
  cases hub.tasks.get? id with
  | none => simp
  | some task =>
    obtain ⟨v, own⟩ := task
    by_cases same : v = w <;> simp [same]

/-- What a job answers is what it has settled on. -/
theorem reply?_eq_some {hub : Hub E} {w : WorkspaceId} {s : Site E} {id : JobId} {job : Job E} {reply : Reply}
    (here : hub.site? w = some s) (known : s.job? id = some job) :
    hub.reply? id = some reply ↔ job.stage = .settled reply := by
  rw [reply?, jobOn?_eq_some.1 ((site?_eq_some.1 here).2 ▸ known), Option.bind_some]
  unfold Job.reply?
  split <;> simp_all

/-! ### What the parts of a move do to a site -/

/-- One slot is replaced. -/
theorem site?_set {hub next : Hub E} {slot : Slot E} (set : next.registry = hub.registry.set slot.id slot)
    (w : WorkspaceId) :
    next.site? w =
      if slot.id = w then some { slot := slot, job? := next.jobOn? w }
      else (hub.site? w).map ({ · with job? := next.jobOn? w }) := by
  unfold site?
  rw [set, Registry.set]
  by_cases same : slot.id = w
  · simp [same]
  · simp only [Table.get?_set, same, ↓reduceIte]
    cases hub.registry.slots.get? w <;> rfl

theorem site?_map_jobOn? {hub : Hub E} (w : WorkspaceId) :
    (hub.site? w).map ({ · with job? := hub.jobOn? w }) = hub.site? w := by
  unfold site?
  cases hub.registry.slots.get? w <;> rfl

/-- The hub with a task replaced, or added. -/
def withTask (hub : Hub E) (id : JobId) (task : Task E) : Hub E := { hub with tasks := hub.tasks.set id task }

theorem withTask_jobOn? (hub : Hub E) (id : JobId) (task : Task E) (w : WorkspaceId) :
    (hub.withTask id task).jobOn? w =
      fun j => if j = id then (if task.workspace = w then some task.job else none) else hub.jobOn? w j := by
  funext j
  unfold jobOn? withTask
  rw [Table.get?_set]
  by_cases same : id = j
  · subst same
    simp
  · simp [same, Ne.symm same]

/-- A job that is handed in under a free number. -/
theorem submit_jobOn? {hub : Hub E} {id : JobId} (free : hub.tasks.contains id = false) (w : WorkspaceId)
    (operation : Operation) : (hub.move (.submit id w operation)).jobOn? w id = some { operation := operation } := by
  simp [move, free, submit, jobOn?_eq_some]

theorem withTask_site? {hub : Hub E} {w : WorkspaceId} {s : Site E} (here : hub.site? w = some s) (id : JobId)
    (task : Task E) :
    (hub.withTask id task).site? w =
      some { s with
        job? := fun j => if j = id then (if task.workspace = w then some task.job else none) else s.job? j } := by
  obtain ⟨slot, jobs⟩ := site?_eq_some.1 here
  refine site?_eq_some.2 ⟨slot, ?_⟩
  rw [jobs, withTask_jobOn?]

theorem withTask_closed {hub : Hub E} {w : WorkspaceId} (closed : hub.site? w = none) (id : JobId)
    (task : Task E) : (hub.withTask id task).site? w = none :=
  site?_eq_none.2 (site?_eq_none.1 closed : hub.registry.slots.get? w = none)

/-- A task of another workspace is replaced, or added under a number that was free. -/
theorem withTask_jobOn?_other {hub : Hub E} {id : JobId} {task : Task E} {w : WorkspaceId}
    (other : task.workspace ≠ w) (absent : hub.jobOn? w id = none) :
    (hub.withTask id task).jobOn? w = hub.jobOn? w := by
  rw [withTask_jobOn?]
  funext j
  by_cases same : j = id
  · subst same
    simp [other, absent]
  · simp [same]

theorem withTask_site?_other {hub : Hub E} {id : JobId} {task : Task E} {w : WorkspaceId} {s : Site E}
    (here : hub.site? w = some s) (other : task.workspace ≠ w) (absent : hub.jobOn? w id = none) :
    (hub.withTask id task).site? w = some s := by
  obtain ⟨slot, jobs⟩ := site?_eq_some.1 here
  exact site?_eq_some.2 ⟨slot, jobs.trans (withTask_jobOn?_other other absent).symm⟩

theorem jobOn?_elsewhere {hub : Hub E} {id : JobId} {task : Task E} {w : WorkspaceId}
    (known : hub.tasks.get? id = some task) (other : task.workspace ≠ w) : hub.jobOn? w id = none := by
  simp [jobOn?, known, other]

/-- A step is taken over. -/
theorem take_site? (hub : Hub E) (id : JobId) (task : Task E) (sc : Scene E) (job : Job E) (w : WorkspaceId) :
    (hub.take id task sc job).site? w =
      if sc.slot.id = w then
        some { slot := sc.slot, job? := (hub.withTask id { task with job := job }).jobOn? w }
      else (hub.site? w).map ({ · with job? := (hub.withTask id { task with job := job }).jobOn? w }) :=
  site?_set rfl w

/-! ### Every move, site by site -/

/-- What holds of a hub between moves: each slot stands under its own name, and jobs for a workspace that is
not open have done nothing. -/
structure Sound (hub : Hub E) : Prop where
  keyed : ∀ {w slot}, hub.slot w = .ok slot → slot.id = w
  unopened : ∀ {w id job}, hub.site? w = none → hub.jobOn? w id = some job → Site.Untouched job

/-- A job's step, seen from its workspace. -/
theorem step_own {hub : Hub E} (sound : hub.Sound) {w : WorkspaceId} {s : Site E} {id : JobId} {job : Job E}
    (here : hub.site? w = some s) (known : s.job? id = some job) (now : Nat) :
    let a := Job.step (hub.house now) id { slot := s.slot, asked := hub.asked } job
    (hub.step now id).1.site? w = some (s.take id a) ∧ (hub.step now id).2 = a.scene.effects := by
  intro a
  obtain ⟨slot, jobs⟩ := site?_eq_some.1 here
  have task := jobOn?_eq_some.1 (jobs ▸ known)
  have name : a.scene.slot.id = w := (Job.step_rule ..).id_eq.trans (sound.keyed slot)
  have stepped : hub.step now id = (hub.take id { workspace := w, job := job } a.scene a.job, a.scene.effects) := by
    unfold step
    rw [task]
    dsimp only
    rw [slot]
  rw [stepped]
  refine ⟨?_, rfl⟩
  rw [take_site?, if_pos name, withTask_jobOn?]
  simp [Site.take, jobs]

theorem withSlot_site? {hub : Hub E} (slot : Slot E) (w : WorkspaceId) :
    (hub.withSlot slot).site? w =
      if slot.id = w then some { slot := slot, job? := hub.jobOn? w } else hub.site? w := by
  have same : (hub.withSlot slot).jobOn? w = hub.jobOn? w := rfl
  have set : (hub.withSlot slot).site? w = _ := site?_set (rfl : _ = hub.registry.set slot.id slot) w
  rw [set, same, site?_map_jobOn?]

/-- The slot of a workspace is changed, if it is open. -/
def onSlot (hub : Hub E) (v : WorkspaceId) (f : Slot E → Slot E) : Hub E :=
  match hub.slot v with
  | .ok slot => hub.withSlot (f slot)
  | .error _ => hub

theorem move_edit (hub : Hub E) (v : WorkspaceId) (e : Edit) :
    hub.move (.edit v e) = hub.onSlot v fun slot => { slot with state := e.apply slot.state } := by
  simp only [move, edit, onSlot]
  cases hub.slot v <;> rfl

theorem move_clearOutput (hub : Hub E) (v : WorkspaceId) :
    hub.move (.clearOutput v) =
      hub.onSlot v fun slot => { slot with state := slot.state.onOutput fun _ => .cleared } := by
  simp only [move, clearOutput, onSlot]
  cases hub.slot v <;> rfl

theorem move_signal (hub : Hub E) (v : WorkspaceId) (sig : Signal) :
    hub.move (.signal v sig) = hub.onSlot v fun slot => { slot with mailbox := (slot.mailbox.fire sig).1 } := by
  simp only [move, signal, onSlot]
  cases hub.slot v <;> rfl

theorem onSlot_site {hub : Hub E} (sound : hub.Sound) {v w : WorkspaceId} {f : Slot E → Slot E}
    (name : ∀ slot, (f slot).id = slot.id) {s : Site E} (here : hub.site? w = some s) :
    (hub.onSlot v f).site? w = some (if v = w then { s with slot := f s.slot } else s) := by
  obtain ⟨slot, jobs⟩ := site?_eq_some.1 here
  unfold onSlot
  cases there : hub.slot v with
  | error r =>
    rw [if_neg, here]
    rintro rfl
    cases slot.symm.trans there
  | ok own =>
    dsimp only
    rw [withSlot_site?, name, sound.keyed there, here]
    by_cases same : v = w
    · subst same
      cases slot.symm.trans there
      rw [if_pos rfl, if_pos rfl, jobs]
    · rw [if_neg same, if_neg same]

theorem onSlot_closed {hub : Hub E} (sound : hub.Sound) {v w : WorkspaceId} {f : Slot E → Slot E}
    (name : ∀ slot, (f slot).id = slot.id) (closed : hub.site? w = none) : (hub.onSlot v f).site? w = none := by
  unfold onSlot
  cases there : hub.slot v with
  | error r => exact closed
  | ok own =>
    dsimp only
    rw [withSlot_site?, name, sound.keyed there, if_neg, closed]
    rintro rfl
    rw [slot_eq_ok, site?_eq_none.1 closed] at there
    cases there

theorem onSlot_jobOn? (hub : Hub E) (v : WorkspaceId) (f : Slot E → Slot E) :
    (hub.onSlot v f).jobOn? = hub.jobOn? := by
  unfold onSlot
  cases hub.slot v <;> rfl

theorem onSlot_fixed (hub : Hub E) (v : WorkspaceId) (f : Slot E → Slot E) :
    (hub.onSlot v f).settings = hub.settings ∧ (hub.onSlot v f).loader = hub.loader := by
  unfold onSlot
  cases hub.slot v <;> exact ⟨rfl, rfl⟩

theorem openWorkspace_closed {hub : Hub E} {v : WorkspaceId} (closed : hub.site? v = none) :
    (hub.openWorkspace v).1 = hub.withSlot (.fresh hub.settings v) := by
  have absent : hub.registry.contains v = false := by
    simp [Registry.contains, Table.contains, site?_eq_none.1 closed]
  simp only [openWorkspace, absent, Bool.false_eq_true, ↓reduceIte, Registry.openWith]
  rfl

theorem openWorkspace_open {hub : Hub E} {v : WorkspaceId} {s : Site E} (here : hub.site? v = some s) :
    (hub.openWorkspace v).1 = hub := by
  have present : hub.registry.contains v = true := by
    simp [Registry.contains, Table.contains, slot_eq_ok.1 (site?_eq_some.1 here).1]
  simp [openWorkspace, present]

/-- What a move does at an open site: nothing, or a step of the site that it causes. -/
theorem move_site {hub : Hub E} (sound : hub.Sound) (m : Move) {w : WorkspaceId} {s : Site E}
    (here : hub.site? w = some s) :
    ∃ next, (hub.move m).site? w = some next ∧ (next = s ∨ ∃ c, m.Causes w c ∧ s.Step hub.settings c next) := by
  obtain ⟨slot, jobs⟩ := site?_eq_some.1 here
  cases m with
  | openWorkspace v =>
    refine ⟨s, ?_, .inl rfl⟩
    simp only [move]
    cases there : hub.site? v with
    | some t => rw [openWorkspace_open there, here]
    | none =>
      rw [openWorkspace_closed there, withSlot_site?, if_neg, here]
      rintro rfl
      cases there.symm.trans here
  | edit v e =>
    rw [move_edit, onSlot_site sound (by exact fun _ => rfl) here]
    refine ⟨_, rfl, ?_⟩
    split
    · next same =>
      subst same
      exact .inr ⟨_, .edit e, .edit e⟩
    · exact .inl rfl
  | clearOutput v =>
    rw [move_clearOutput, onSlot_site sound (by exact fun _ => rfl) here]
    refine ⟨_, rfl, ?_⟩
    split
    · next same =>
      subst same
      exact .inr ⟨_, .clearOutput, .clearOutput⟩
    · exact .inl rfl
  | signal v sig =>
    rw [move_signal, onSlot_site sound (by exact fun _ => rfl) here]
    refine ⟨_, rfl, ?_⟩
    split
    · next same =>
      subst same
      exact .inr ⟨_, .signal sig, .signal sig⟩
    · exact .inl rfl
  | submit id v operation =>
    simp only [move]
    split
    · exact ⟨s, here, .inl rfl⟩
    · next free =>
      have unknown : hub.tasks.get? id = none := by simpa [Table.contains] using free
      have absent : hub.jobOn? w id = none := by simp [jobOn?, unknown]
      change ∃ next, (hub.withTask id _).site? w = some next ∧ _
      by_cases same : v = w
      · subst same
        refine ⟨_, withTask_site? here id _, .inr ⟨_, .submit id operation, ?_⟩⟩
        simpa using .submit id operation (jobs ▸ absent)
      · exact ⟨s, withTask_site?_other here same absent, .inl rfl⟩
  | step id now =>
    simp only [move]
    cases known : hub.tasks.get? id with
    | none => exact ⟨s, by simp [step, known, here], .inl rfl⟩
    | some task =>
      obtain ⟨v, job⟩ := task
      by_cases same : v = w
      · subst same
        have own : s.job? id = some job := jobs ▸ jobOn?_eq_some.2 known
        refine ⟨_, (step_own sound here own now).1, .inr ⟨_, .step id now, ?_⟩⟩
        exact .step (hub.house now) rfl hub.asked id job own
      · have absent := jobOn?_elsewhere (w := w) known same
        refine ⟨s, ?_, .inl rfl⟩
        simp only [step, known]
        cases there : hub.slot v with
        | error r => exact withTask_site?_other here same absent
        | ok own =>
          have name := (Job.step_rule (hub.house now) id { slot := own, asked := hub.asked } job).id_eq
          dsimp only
          rw [take_site?, if_neg (by rw [name, sound.keyed there]; exact same),
            withTask_jobOn?_other same absent, site?_map_jobOn?, here]

/-- A move changes neither the settings nor the loader. -/
theorem move_fixed (hub : Hub E) (m : Move) :
    (hub.move m).settings = hub.settings ∧ (hub.move m).loader = hub.loader := by
  cases m with
  | openWorkspace v =>
    simp only [move, openWorkspace]
    split <;> exact ⟨rfl, rfl⟩
  | edit v e => rw [move_edit]; exact onSlot_fixed hub v _
  | clearOutput v => rw [move_clearOutput]; exact onSlot_fixed hub v _
  | signal v sig => rw [move_signal]; exact onSlot_fixed hub v _
  | submit id v operation =>
    simp only [move]
    split <;> exact ⟨rfl, rfl⟩
  | step id now =>
    simp only [move, step]
    cases hub.tasks.get? id with
    | none => exact ⟨rfl, rfl⟩
    | some task =>
      dsimp only
      cases hub.slot task.workspace <;> exact ⟨rfl, rfl⟩

theorem after_fixed (hub : Hub E) (moves : List Move) :
    (hub.after moves).settings = hub.settings ∧ (hub.after moves).loader = hub.loader := by
  induction moves generalizing hub with
  | nil => exact ⟨rfl, rfl⟩
  | cons m moves ih => exact ⟨(ih _).1.trans (move_fixed hub m).1, (ih _).2.trans (move_fixed hub m).2⟩

/-- What a move does at a workspace that is not open: it may open it, and nothing else. -/
theorem move_closed {hub : Hub E} (sound : hub.Sound) (m : Move) {w : WorkspaceId} (closed : hub.site? w = none) :
    ((hub.move m).site? w = none ∨ ∃ jobs, (hub.move m).site? w = some ⟨.fresh hub.settings w, jobs⟩) ∧
      ∀ id job, (hub.move m).jobOn? w id = some job → Site.Untouched job := by
  have untouched : ∀ id job, hub.jobOn? w id = some job → Site.Untouched job :=
    fun _ _ => sound.unopened closed
  cases m with
  | openWorkspace v =>
    simp only [move]
    cases there : hub.site? v with
    | some t =>
      rw [openWorkspace_open there]
      exact ⟨.inl closed, untouched⟩
    | none =>
      rw [openWorkspace_closed there, withSlot_site?]
      refine ⟨?_, untouched⟩
      by_cases same : v = w
      · subst same
        exact .inr ⟨_, if_pos rfl⟩
      · exact .inl ((if_neg same).trans closed)
  | edit v e =>
    rw [move_edit, onSlot_jobOn?]
    exact ⟨.inl (onSlot_closed sound (fun _ => rfl) closed), untouched⟩
  | clearOutput v =>
    rw [move_clearOutput, onSlot_jobOn?]
    exact ⟨.inl (onSlot_closed sound (fun _ => rfl) closed), untouched⟩
  | signal v sig =>
    rw [move_signal, onSlot_jobOn?]
    exact ⟨.inl (onSlot_closed sound (fun _ => rfl) closed), untouched⟩
  | submit id v operation =>
    simp only [move]
    split
    · exact ⟨.inl closed, untouched⟩
    · refine ⟨.inl (withTask_closed closed _ _), fun j job => ?_⟩
      change (hub.withTask id _).jobOn? w j = some job → _
      rw [withTask_jobOn?]
      dsimp only
      split
      · split
        · rintro ⟨⟩
          exact ⟨rfl, rfl, .inl rfl⟩
        · nofun
      · exact untouched j job
  | step id now =>
    simp only [move]
    cases known : hub.tasks.get? id with
    | none =>
      simp only [step, known]
      exact ⟨.inl closed, untouched⟩
    | some task =>
      obtain ⟨v, job⟩ := task
      simp only [step, known]
      by_cases same : v = w
      · subst same
        have missing := slot_eq_error.2 ⟨site?_eq_none.1 closed, rfl⟩
        rw [missing]
        refine ⟨.inl (withTask_closed closed _ _), fun j other => ?_⟩
        change (hub.withTask id _).jobOn? v j = some other → _
        rw [withTask_jobOn?]
        dsimp only
        split
        · rw [if_pos rfl]
          rintro ⟨⟩
          obtain ⟨receiver, batch, -⟩ := untouched id job (jobOn?_eq_some.2 known)
          exact ⟨receiver, batch, .inr ⟨v, rfl⟩⟩
        · exact untouched j other
      · have absent := jobOn?_elsewhere (w := w) known same
        cases there : hub.slot v with
        | error r =>
          refine ⟨.inl (withTask_closed closed _ _), fun j other => ?_⟩
          change (hub.withTask id _).jobOn? w j = some other → _
          rw [withTask_jobOn?_other same absent]
          exact untouched j other
        | ok own =>
          have name := (Job.step_rule (hub.house now) id { slot := own, asked := hub.asked } job).id_eq
          refine ⟨.inl ?_, fun j other => ?_⟩
          · dsimp only
            rw [take_site?, if_neg (by rw [name, sound.keyed there]; exact same), closed]
            rfl
          · change (hub.withTask id _).jobOn? w j = some other → _
            rw [withTask_jobOn?_other same absent]
            exact untouched j other

theorem Sound.move {hub : Hub E} (sound : hub.Sound) (m : Move) : (hub.move m).Sound where
  keyed := by
    intro w slot own
    have open_ : (hub.move m).site? w = some ⟨slot, _⟩ := site?_eq_some.2 ⟨own, rfl⟩
    cases here : hub.site? w with
    | none =>
      rcases (move_closed sound m here).1 with closed | ⟨jobs, fresh⟩
      · cases closed.symm.trans open_
      · cases fresh.symm.trans open_
        rfl
    | some s =>
      have name := sound.keyed (site?_eq_some.1 here).1
      obtain ⟨next, there, rfl | ⟨c, -, step⟩⟩ := move_site sound m here
      · cases there.symm.trans open_
        exact name
      · cases there.symm.trans open_
        exact step.id_eq.trans name
  unopened := by
    intro w id job closed known
    cases here : hub.site? w with
    | none => exact (move_closed sound m here).2 id job known
    | some s =>
      obtain ⟨next, there, -⟩ := move_site sound m here
      cases there.symm.trans closed

/-- A hub in which nothing has been opened or handed in. -/
theorem Sound.empty (settings : Settings) (loader : Loader) :
    ({ settings := settings, loader := loader } : Hub E).Sound where
  keyed := fun own => by cases slot_eq_ok.1 own
  unopened := fun _ known => by cases jobOn?_eq_some.1 known

theorem Reachable.sound {hub : Hub E} (reached : hub.Reachable) : hub.Sound := by
  induction reached with
  | create settings loader =>
    exact ((Sound.empty settings loader).move (.openWorkspace .playground)).move (.openWorkspace .assessment)
  | move _ m ih => exact ih.move m

/-- What holds of a workspace that has just been opened and is kept by each step at its site holds always. -/
theorem Reachable.site {hub : Hub E} (reached : hub.Reachable) {P : Site E → Prop}
    (fresh : ∀ w s, s.Fresh hub.settings w → P s)
    (step : ∀ s c next, P s → s.Step hub.settings c next → P next)
    {w : WorkspaceId} {s : Site E} (here : hub.site? w = some s) : P s := by
  have moved : ∀ {before : Hub E}, before.Sound → before.settings = hub.settings →
      (∀ w s, before.site? w = some s → P s) → ∀ m w s, (before.move m).site? w = some s → P s := by
    intro before sound settings holds m w s here
    cases earlier : before.site? w with
    | none =>
      have jobs := (move_closed sound m earlier).2
      rcases (move_closed sound m earlier).1 with closed | ⟨_, opened⟩
      · cases closed.symm.trans here
      · cases opened.symm.trans here
        refine fresh w _ ⟨by rw [settings], fun id job known => jobs id job ?_⟩
        rw [← (site?_eq_some.1 opened).2]
        exact known
    | some old =>
      obtain ⟨next, there, rfl | ⟨c, -, stepped⟩⟩ := move_site sound m earlier
      · cases there.symm.trans here
        exact holds w _ earlier
      · cases there.symm.trans here
        exact step old c _ (holds w old earlier) (settings ▸ stepped)
  have all : ∀ w s, hub.site? w = some s → P s := by
    clear here
    induction reached with
    | create settings loader =>
      have empty := Sound.empty (E := E) settings loader
      have first := moved empty rfl (fun w s here => by cases site?_eq_some.1 here |>.1) (.openWorkspace .playground)
      exact moved (empty.move _) rfl first (.openWorkspace .assessment)
    | @move before reached m ih =>
      have same := (move_fixed before m).1
      rw [same] at fresh step moved
      exact moved reached.sound rfl (ih fresh step moved) m
  exact all w s here

/-! ### Turns -/

theorem take_take (hub : Hub E) (id : JobId) (task : Task E) (first second : Scene E) (before after : Job E)
    (same : second.slot.id = first.slot.id) :
    (hub.take id task first before).take id { task with job := before } second after =
      hub.take id task second after := by
  simp [take, withSlot, Registry.set, same]

/-- The steps of a turn are steps of the hub. -/
theorem take_steps (hub : Hub E) (id : JobId) (task : Task E) (now n : Nat) (sc : Scene E) (job : Job E)
    (name : sc.slot.id = task.workspace) :
    ∃ k, hub.take id task (Job.steps (hub.house now) id n sc job).1 (Job.steps (hub.house now) id n sc job).2.1 =
      (hub.take id task sc job).after (List.replicate k (.step id now)) := by
  induction n generalizing sc job with
  | zero => exact ⟨0, rfl⟩
  | succ n ih =>
    have stepped : (hub.take id task sc job).move (.step id now) =
        hub.take id task (Job.step (hub.house now) id sc job).scene (Job.step (hub.house now) id sc job).job := by
      have known : (hub.take id task sc job).tasks.get? id = some { task with job := job } := by
        simp [take]
      have slot : (hub.take id task sc job).slot task.workspace = .ok sc.slot := by
        simp [slot_eq_ok, take, withSlot, Registry.set, name]
      simp only [move, step, known, slot]
      rw [Job.step_seen (hub.house now) id sc job]
      refine take_take hub id task sc _ job _ ?_
      exact (Job.step_rule ..).id_eq
    unfold Job.steps
    rcases made : Job.step (hub.house now) id sc job with ⟨next, later, _ | wake⟩
    · rw [made] at stepped
      have kept : next.slot.id = sc.slot.id := by
        have := (Job.step_rule (hub.house now) id sc job).id_eq
        rwa [made] at this
      obtain ⟨k, rest⟩ := ih next later (kept.trans name)
      refine ⟨k + 1, ?_⟩
      rw [List.replicate_succ, after_cons, stepped]
      exact rest
    · rw [made] at stepped
      exact ⟨1, stepped.symm⟩

/-- A turn comes to as many steps of the job, with nothing in between. -/
theorem turn_eq_after {hub : Hub E} (sound : hub.Sound) (now : Nat) (id : JobId) :
    ∃ n, (hub.turn now id).1 = hub.after (List.replicate n (.step id now)) := by
  unfold turn
  cases known : hub.tasks.get? id with
  | none => exact ⟨0, rfl⟩
  | some task =>
    dsimp only
    cases slot : hub.slot task.workspace with
    | error r => exact ⟨1, by simp [move, step, known, slot]⟩
    | ok own =>
      have name := sound.keyed slot
      obtain ⟨k, steps⟩ := take_steps hub id task now (Job.reach own task.job) { slot := own, asked := hub.asked }
        task.job name
      have same : hub.take id task { slot := own, asked := hub.asked } task.job = hub := by
        unfold take withSlot Registry.set
        dsimp only
        rw [name, Table.set_self (slot_eq_ok.1 slot), Table.set_self known]
      rw [same] at steps
      exact ⟨k, steps⟩

end Hub

end Workbench
