/-
Workspaces are independent: what happens in one does not depend on the others.

All workspaces share the hub, its settings and the loader. A loader may count how
often it was asked, by whomever; apart from that, the moves that are about one
workspace can be taken out of a course of events, and at every other workspace
everything is as it was: what is answered, what its slot and its jobs go through,
and what it tells (`Hub.Reachable.independent`).

Two hubs are compared that agree on all workspaces but one (`Hub.Besides`). A
move about that one keeps them so if only the first hub makes it, and any other
move does if both make it.
-/
import Workbench.Proofs.Run.Abort
import Workbench.Proofs.Run.Loading

namespace Workbench

variable {E : Engine}

/-! ## Whose name an event carries -/

/-- Whether an effect, if it is an event, carries the name of a workspace. -/
def Effect.Names (w : WorkspaceId) (e : Effect E) : Prop := ∀ event, e.event? = some event → event.workspace = w

/-- A scene of a workspace in which all events carry its name. -/
def Scene.Of (w : WorkspaceId) (sc : Scene E) : Prop := sc.slot.id = w ∧ ∀ e ∈ sc.effects, e.Names w

theorem Scene.of_iff {sc : Scene E} {w : WorkspaceId} :
    sc.Of w ↔ sc.slot.id = w ∧ ∀ e ∈ sc.told, e.workspace = w := by
  refine and_congr_right fun _ => ⟨fun names e told => ?_, fun told e here event same => ?_⟩
  · exact names _ (mem_told.1 told) e rfl
  · exact told event (List.mem_filterMap.2 ⟨e, here, same⟩)

/-- What is told further carries the name as well. -/
theorem Scene.Of.further {sc next : Scene E} {w : WorkspaceId} (of : sc.Of w) (name : next.slot.id = sc.slot.id)
    (occs : List Occurrence) (told : next.told = sc.told ++ occs.map (Event.mk sc.slot.id)) : next.Of w := by
  obtain ⟨own, before⟩ := Scene.of_iff.1 of
  refine Scene.of_iff.2 ⟨name.trans own, fun e here => ?_⟩
  rw [told] at here
  rcases List.mem_append.1 here with early | now
  · exact before e early
  · obtain ⟨occ, -, rfl⟩ := List.mem_map.1 now
    exact own

/-- The events of a step carry the name of the workspace in which it is taken. -/
theorem Job.Rule.of {h : House} {id : JobId} {sc : Scene E} {job : Job E} {a : Advance E} {w : WorkspaceId}
    (rule : Rule h id sc job a) (of : sc.Of w) : a.scene.Of w := by
  obtain ⟨occs, told, -⟩ := rule.speaks
  exact of.further rule.id_eq occs told

/-! ## What there is to see of a workspace -/

/-- What is answered to a move at once. What a job comes to is its reply. -/
inductive Answer where
  | done
  | refused (r : Refusal)
  /-- whether the signal was delivered -/
  | delivered (yes : Bool)

/-- All there is of a workspace: its slot, if it is open, and the jobs for it. -/
@[ext] structure Sight (E : Engine) where
  slot? : Option (Slot E)
  job? : JobId → Option (Job E)

namespace Hub

/-- The workspace that a move is about. Nothing comes of a job that is handed in under a number that is taken, or of
a step of a job that is not known: such a move is about none. -/
def about? (hub : Hub E) : Move → Option WorkspaceId
  | .openWorkspace w => some w
  | .edit w _ => some w
  | .clearOutput w => some w
  | .signal w _ => some w
  | .submit id w _ => if hub.tasks.contains id then none else some w
  | .step id _ => (hub.tasks.get? id).map (·.workspace)

/-- What is answered to a move, and what is seen of it from outside. -/
def respond (hub : Hub E) : Move → Answer × List (Effect E)
  | .openWorkspace w => (.done, (hub.openWorkspace w).2)
  | .edit w e => match hub.edit w e with | .ok _ => (.done, []) | .error r => (.refused r, [])
  | .clearOutput w => match hub.clearOutput w with | .ok (_, effects) => (.done, effects) | .error r => (.refused r, [])
  | .signal w s => (.delivered (hub.signal w s).2, [])
  | .submit .. => (.done, [])
  | .step id now => (.done, (hub.step now id).2)

/-- What there is to see of a workspace. -/
def sight (hub : Hub E) (w : WorkspaceId) : Sight E := { slot? := hub.registry.slots.get? w, job? := hub.jobOn? w }

/-- What is seen at a workspace in a course of moves: after each move that is about it, what there is of it, and
what the move came to. -/
def seen (hub : Hub E) (w : WorkspaceId) : List Move → List (Sight E × Answer × List (Effect E))
  | [] => []
  | m :: moves =>
    (if hub.about? m = some w then [((hub.move m).sight w, hub.respond m)] else []) ++ (hub.move m).seen w moves

/-- The events of a course of moves. -/
def events (hub : Hub E) : List Move → List Event
  | [] => []
  | m :: moves => (hub.respond m).2.filterMap Effect.event? ++ (hub.move m).events moves

/-- A course of moves without those about a workspace, and without those that are about none. -/
def without (hub : Hub E) (w : WorkspaceId) : List Move → List Move
  | [] => []
  | m :: moves =>
    match hub.about? m with
    | none => (hub.move m).without w moves
    | some v => if v = w then (hub.move m).without w moves else m :: (hub.move m).without w moves

/-! ### One move -/

variable {hub lone : Hub E} {m : Move} {v w : WorkspaceId}

theorem withSlot_sight (hub : Hub E) (slot : Slot E) (w : WorkspaceId) :
    (hub.withSlot slot).sight w =
      if slot.id = w then { slot? := some slot, job? := hub.jobOn? w } else hub.sight w := by
  by_cases same : slot.id = w
  · simp [sight, withSlot, Registry.set, same]
    rfl
  · simp [sight, withSlot, Registry.set, same]
    rfl

theorem onSlot_sight (sound : hub.Sound) {f : Slot E → Slot E} (name : ∀ slot, (f slot).id = slot.id)
    (v w : WorkspaceId) :
    (hub.onSlot v f).sight w =
      if v = w then { slot? := (hub.registry.slots.get? v).map f, job? := hub.jobOn? v } else hub.sight w := by
  unfold onSlot
  cases there : hub.slot v with
  | error r =>
    have closed := (slot_eq_error.1 there).1
    by_cases same : v = w
    · subst same
      simp [sight, closed]
    · simp [same]
  | ok own =>
    dsimp only
    rw [withSlot_sight, name, sound.keyed there, slot_eq_ok.1 there]
    by_cases same : v = w
    · subst same
      simp
    · simp [same]

theorem withTask_sight {id : JobId} {task : Task E} (absent : hub.jobOn? w id = none) (other : task.workspace ≠ w) :
    (hub.withTask id task).sight w = hub.sight w := by
  ext1
  · rfl
  · exact withTask_jobOn?_other other absent

/-- A move that is about no workspace comes to nothing. -/
theorem about?_none (about : hub.about? m = none) : hub.move m = hub ∧ (hub.respond m).2 = [] := by
  cases m with
  | submit id v operation =>
    cases taken : hub.tasks.contains id with
    | true => exact ⟨by simp [move, taken], rfl⟩
    | false => simp [about?, taken] at about
  | step id now =>
    have unknown : hub.tasks.get? id = none := Option.map_eq_none_iff.1 about
    simp [move, respond, step, unknown]
  | _ => cases about

/-- A move that is about one workspace leaves the others as they are. -/
theorem sight_elsewhere (sound : hub.Sound) (about : hub.about? m = some v) (other : v ≠ w) :
    (hub.move m).sight w = hub.sight w := by
  cases m with
  | openWorkspace u =>
    cases about
    show (hub.openWorkspace v).1.sight w = _
    cases there : hub.site? v with
    | some t => rw [openWorkspace_open there]
    | none =>
      rw [openWorkspace_closed there, withSlot_sight]
      exact if_neg other
  | edit u e =>
    cases about
    rw [move_edit, onSlot_sight sound (by exact fun _ => rfl), if_neg other]
  | clearOutput u =>
    cases about
    rw [move_clearOutput, onSlot_sight sound (by exact fun _ => rfl), if_neg other]
  | signal u sig =>
    cases about
    rw [move_signal, onSlot_sight sound (by exact fun _ => rfl), if_neg other]
  | submit id u operation =>
    by_cases taken : hub.tasks.contains id = true
    · simp [about?, taken] at about
    · simp only [about?, taken, Bool.false_eq_true, ↓reduceIte, Option.some.injEq] at about
      subst about
      simp only [move, taken, Bool.false_eq_true, ↓reduceIte]
      refine withTask_sight ?_ other
      have unknown : hub.tasks.get? id = none := by simpa [Table.contains] using taken
      simp [jobOn?, unknown]
  | step id now =>
    obtain ⟨task, known, rfl⟩ := Option.map_eq_some_iff.1 about
    have absent := jobOn?_elsewhere known other
    simp only [move, step, known]
    cases there : hub.slot task.workspace with
    | error r => exact withTask_sight absent other
    | ok own =>
      have name := (Job.step_rule (hub.house now) id { slot := own, asked := hub.asked } task.job).id_eq
      ext1
      · simp only [sight, take, withSlot, Registry.set, Table.get?_set, name, sound.keyed there, if_neg other]
      · exact @withTask_jobOn?_other _ _ _ { task with job := _ } _ other absent

/-- The events of a move carry the name of the workspace that it is about. -/
theorem respond_names (sound : hub.Sound) (about : hub.about? m = some v) :
    ∀ e ∈ (hub.respond m).2, e.Names v := by
  cases m with
  | openWorkspace u =>
    intro e here
    simp only [respond, openWorkspace] at here
    split at here
    · cases here
    · rw [List.mem_singleton] at here
      subst here
      simp [Effect.Names, Effect.event?]
  | edit u e =>
    simp only [respond]
    split <;> simp
  | clearOutput u =>
    cases about
    cases there : hub.slot v with
    | error r => simp [respond, clearOutput, there, bind, Except.bind]
    | ok own =>
      have fresh : ({ slot := own, asked := hub.asked } : Scene E).Of v := ⟨sound.keyed there, by simp⟩
      have of : (Scene.clearOutput { slot := own, asked := hub.asked } : Scene E).Of v :=
        fresh.further rfl [.outputCleared] (by simp [Scene.told])
      simpa [respond, clearOutput, there, bind, Except.bind, pure, Except.pure] using of.2
  | signal | submit => simp [respond]
  | step id now =>
    obtain ⟨task, known, rfl⟩ := Option.map_eq_some_iff.1 about
    simp only [respond, step, known]
    cases there : hub.slot task.workspace with
    | error r => simp
    | ok own =>
      exact ((Job.step_rule (hub.house now) id { slot := own, asked := hub.asked } task.job).of
        ⟨sound.keyed there, by simp⟩).2

/-- Which numbers are free after a move. -/
theorem move_free (hub : Hub E) (m : Move) (id : JobId) :
    (hub.move m).tasks.get? id = none ↔ hub.tasks.get? id = none ∧ ∀ w operation, m ≠ .submit id w operation := by
  have onSlot_tasks (v : WorkspaceId) (f : Slot E → Slot E) : (hub.onSlot v f).tasks = hub.tasks := by
    unfold onSlot
    cases hub.slot v <;> rfl
  cases m with
  | openWorkspace u =>
    have same : (hub.openWorkspace u).1.tasks = hub.tasks := by
      unfold openWorkspace
      split <;> rfl
    simp [move, same]
  | edit u e => rw [move_edit, onSlot_tasks]; simp
  | clearOutput u => rw [move_clearOutput, onSlot_tasks]; simp
  | signal u sig => rw [move_signal, onSlot_tasks]; simp
  | submit j u operation =>
    by_cases taken : hub.tasks.contains j = true
    · simp only [move, taken, ↓reduceIte, ne_eq, Move.submit.injEq, not_and]
      refine ⟨fun free => ⟨free, ?_⟩, And.left⟩
      rintro _ _ rfl
      simp [Table.contains, free] at taken
    · simp only [move, taken, Bool.false_eq_true, ↓reduceIte, submit, Table.get?_set]
      by_cases same : j = id
      · subst same
        simp
      · simp [same]
  | step j now =>
    simp only [move, step]
    cases known : hub.tasks.get? j with
    | none => simp
    | some task =>
      have kept (next : Task E) : (hub.tasks.set j next).get? id = none ↔ hub.tasks.get? id = none := by
        by_cases same : j = id
        · subst same
          simp [known]
        · simp [same]
      dsimp only
      cases hub.slot task.workspace with
      | error r => simpa using kept _
      | ok own => simpa [take] using kept _

theorem withTask_agrees (jobs : lone.jobOn? v = hub.jobOn? v) (id : JobId) (task : Task E) :
    (lone.withTask id task).jobOn? v = (hub.withTask id task).jobOn? v := by
  rw [withTask_jobOn?, withTask_jobOn?, jobs]

theorem slot_agrees (same : lone.sight v = hub.sight v) : lone.slot v = hub.slot v := by
  have slots : lone.registry.slots.get? v = hub.registry.slots.get? v := congrArg Sight.slot? same
  simp only [Hub.slot, Registry.slot, slots]

theorem openWorkspace_agrees (settings : lone.settings = hub.settings) (same : lone.sight v = hub.sight v) :
    (lone.openWorkspace v).1.sight v = (hub.openWorkspace v).1.sight v ∧
      (lone.openWorkspace v).2 = (hub.openWorkspace v).2 := by
  have slots : lone.registry.slots.get? v = hub.registry.slots.get? v := congrArg Sight.slot? same
  have jobs : lone.jobOn? v = hub.jobOn? v := congrArg Sight.job? same
  have contains : lone.registry.contains v = hub.registry.contains v := by
    simp only [Registry.contains, Table.contains, slots]
  constructor
  · cases there : hub.registry.slots.get? v with
    | none =>
      rw [openWorkspace_closed (site?_eq_none.2 there), openWorkspace_closed (site?_eq_none.2 (slots.trans there)),
        settings, withSlot_sight, withSlot_sight, jobs]
      exact (if_pos rfl).trans (if_pos rfl).symm
    | some own =>
      have open_ (hub : Hub E) (there : hub.registry.slots.get? v = some own) :
          hub.site? v = some ⟨own, hub.jobOn? v⟩ :=
        site?_eq_some.2 ⟨slot_eq_ok.2 there, rfl⟩
      rw [openWorkspace_open (open_ hub there), openWorkspace_open (open_ lone (slots.trans there)), same]
  · simp only [openWorkspace, contains, settings]
    split <;> rfl

/-- A job takes the same step in both. -/
theorem step_agrees (settings : lone.settings = hub.settings) (loader : lone.loader = hub.loader)
    (indifferent : hub.loader.Indifferent) (same : lone.sight v = hub.sight v) {id : JobId} {job : Job E}
    (known : hub.jobOn? v id = some job) (now : Nat) :
    (lone.step now id).1.sight v = (hub.step now id).1.sight v ∧ (lone.step now id).2 = (hub.step now id).2 := by
  have slots : lone.registry.slots.get? v = hub.registry.slots.get? v := congrArg Sight.slot? same
  have jobs : lone.jobOn? v = hub.jobOn? v := congrArg Sight.job? same
  have known' : lone.tasks.get? id = some ⟨v, job⟩ := jobOn?_eq_some.1 (jobs ▸ known)
  simp only [step, jobOn?_eq_some.1 known, known', slot_agrees same]
  cases hub.slot v with
  | error r =>
    refine ⟨?_, rfl⟩
    ext1
    · exact slots
    · exact withTask_agrees jobs id _
  | ok own =>
    have house : lone.house now = hub.house now := by simp only [Hub.house, settings, loader]
    obtain ⟨m, made⟩ := Job.step_witnessed (hub.house now) id { slot := own, asked := hub.asked } job lone.asked
      (indifferent.alike _ _)
    have counted : Job.step (hub.house now) id { slot := own, asked := lone.asked } job =
        (Job.step (hub.house now) id { slot := own, asked := hub.asked } job).witnessed [] m := made []
    simp only [house, counted]
    refine ⟨?_, rfl⟩
    ext1
    · simp only [sight, take, withSlot, Registry.set, Table.get?_set, slots]
      rfl
    · exact withTask_agrees jobs id _

/-- A move that is about one workspace comes to the same in two hubs that agree there, and have the same settings and
the same loader, if that does not count. -/
theorem move_agrees (sound : hub.Sound) (sound' : lone.Sound) (settings : lone.settings = hub.settings)
    (loader : lone.loader = hub.loader) (indifferent : hub.loader.Indifferent) (same : lone.sight v = hub.sight v)
    (about : hub.about? m = some v) (about' : lone.about? m = some v) :
    (lone.move m).sight v = (hub.move m).sight v ∧ lone.respond m = hub.respond m := by
  have slots : lone.registry.slots.get? v = hub.registry.slots.get? v := congrArg Sight.slot? same
  have jobs : lone.jobOn? v = hub.jobOn? v := congrArg Sight.job? same
  have slot := slot_agrees same
  have onSlot {f : Slot E → Slot E} (name : ∀ slot, (f slot).id = slot.id) :
      (lone.onSlot v f).sight v = (hub.onSlot v f).sight v := by
    rw [onSlot_sight sound name, onSlot_sight sound' name, slots, jobs, if_pos rfl, if_pos rfl]
  cases m with
  | openWorkspace u =>
    cases about
    exact (openWorkspace_agrees settings same).imp_right (congrArg (Answer.done, ·))
  | edit u e =>
    cases about
    rw [move_edit, move_edit]
    refine ⟨onSlot fun _ => rfl, ?_⟩
    simp only [respond, edit, slot]
    cases hub.slot v <;> rfl
  | clearOutput u =>
    cases about
    rw [move_clearOutput, move_clearOutput]
    refine ⟨onSlot fun _ => rfl, ?_⟩
    simp only [respond, clearOutput, slot]
    cases hub.slot v <;> rfl
  | signal u sig =>
    cases about
    rw [move_signal, move_signal]
    refine ⟨onSlot fun _ => rfl, ?_⟩
    simp only [respond, signal, slot]
    cases hub.slot v <;> rfl
  | submit id u operation =>
    have free {hub : Hub E} (about : hub.about? (.submit id u operation) = some v) :
        hub.tasks.contains id = false ∧ u = v := by
      cases taken : hub.tasks.contains id with
      | true => simp [about?, taken] at about
      | false => simpa [about?, taken] using about
    obtain ⟨untaken, rfl⟩ := free about
    simp only [move, untaken, (free about').1, Bool.false_eq_true, ↓reduceIte]
    refine ⟨?_, rfl⟩
    ext1
    · exact slots
    · exact withTask_agrees jobs id _
  | step id now =>
    obtain ⟨⟨u, job⟩, known, own⟩ := Option.map_eq_some_iff.1 about
    obtain rfl : u = v := own
    have agrees := step_agrees settings loader indifferent same (jobOn?_eq_some.2 known) now
    exact agrees.imp_right (congrArg (Answer.done, ·))

/-! ### Two hubs -/

/-- Two hubs that agree on all workspaces but one; numbers that are free in the first are free in the second. -/
structure Besides (w : WorkspaceId) (hub lone : Hub E) : Prop where
  settings : lone.settings = hub.settings
  loader : lone.loader = hub.loader
  sight : ∀ v, w ≠ v → lone.sight v = hub.sight v
  free : ∀ id, hub.tasks.get? id = none → lone.tasks.get? id = none

theorem Besides.refl (w : WorkspaceId) (hub : Hub E) : Besides w hub hub := ⟨rfl, rfl, fun _ _ => rfl, fun _ => id⟩

/-- A move about another workspace is about it in both hubs. -/
theorem Besides.about (besides : Besides w hub lone) (other : w ≠ v) (about : hub.about? m = some v) :
    lone.about? m = some v := by
  cases m with
  | submit id u operation =>
    cases taken : hub.tasks.contains id with
    | true => simp [about?, taken] at about
    | false =>
      have free : lone.tasks.contains id = false := by
        simp only [Table.contains, Option.isSome_eq_false_iff, Option.isNone_iff_eq_none] at taken ⊢
        exact besides.free id taken
      simpa [about?, taken, free] using about
  | step id now =>
    obtain ⟨⟨u, job⟩, known, rfl⟩ := Option.map_eq_some_iff.1 about
    have known' : lone.jobOn? u id = some job := by
      rw [show lone.jobOn? u = hub.jobOn? u from congrArg Sight.job? (besides.sight u other)]
      exact jobOn?_eq_some.2 known
    simp [about?, jobOn?_eq_some.1 known']
  | _ => exact about

/-- The first hub makes a move about the workspace on which they may differ. -/
theorem Besides.alone (besides : Besides w hub lone) (sound : hub.Sound) (about : hub.about? m = some w) :
    Besides w (hub.move m) lone where
  settings := besides.settings.trans (move_fixed hub m).1.symm
  loader := besides.loader.trans (move_fixed hub m).2.symm
  sight := fun v other => (besides.sight v other).trans (sight_elsewhere sound about other).symm
  free := fun id free => besides.free id ((move_free hub m id).1 free).1

/-- Both hubs make a move about another workspace. -/
theorem Besides.both (besides : Besides w hub lone) (sound : hub.Sound) (sound' : lone.Sound)
    (indifferent : hub.loader.Indifferent) (other : w ≠ v) (about : hub.about? m = some v) :
    Besides w (hub.move m) (lone.move m) ∧ (lone.move m).sight v = (hub.move m).sight v ∧
      lone.respond m = hub.respond m := by
  have about' := besides.about other about
  have agrees :=
    move_agrees sound sound' besides.settings besides.loader indifferent (besides.sight v other) about about'
  refine ⟨⟨?_, ?_, ?_, ?_⟩, agrees⟩
  · rw [(move_fixed hub m).1, (move_fixed lone m).1, besides.settings]
  · rw [(move_fixed hub m).2, (move_fixed lone m).2, besides.loader]
  · intro u different
    by_cases same : v = u
    · subst same
      exact agrees.1
    · rw [sight_elsewhere sound about same, sight_elsewhere sound' about' same]
      exact besides.sight u different
  · intro id free
    obtain ⟨before, nothing⟩ := (move_free hub m id).1 free
    exact (move_free lone m id).2 ⟨besides.free id before, nothing⟩

/-- Events that carry another name are not those of a workspace. -/
theorem filter_names {effects : List (Effect E)} (names : ∀ e ∈ effects, e.Names v) (other : v ≠ w) :
    (effects.filterMap Effect.event?).filter (·.workspace = w) = [] := by
  simp only [List.filter_eq_nil_iff, List.mem_filterMap, decide_eq_true_eq]
  rintro event ⟨e, here, same⟩ own
  exact other ((names e here event same).symm.trans own)

/-- Without the moves about a workspace, everything is the same at every other one. -/
theorem Besides.run {away own : WorkspaceId} {hub lone : Hub E} (besides : Besides away hub lone)
    (reached : hub.Reachable) (reached' : lone.Reachable) (indifferent : hub.loader.Indifferent) (apart : away ≠ own)
    (moves : List Move) :
    lone.seen own (hub.without away moves) = hub.seen own moves ∧
      (lone.events (hub.without away moves)).filter (·.workspace = own) =
        (hub.events moves).filter (·.workspace = own) ∧
      Besides away (hub.after moves) (lone.after (hub.without away moves)) := by
  induction moves generalizing hub lone with
  | nil => exact ⟨rfl, rfl, besides⟩
  | cons m moves ih =>
    have later := reached.move m
    have indifferent' : (hub.move m).loader.Indifferent := by rwa [(move_fixed hub m).2]
    cases about : hub.about? m with
    | none =>
      -- nothing comes of the move
      obtain ⟨still, silent⟩ := about?_none about
      simp only [without, seen, events, about, silent, after_cons]
      rw [still]
      simpa using ih besides reached reached' indifferent
    | some v =>
      by_cases gone : v = away
      · subst gone
        have names := filter_names (respond_names reached.sound about) apart
        have rest := ih (besides.alone reached.sound about) later reached' indifferent'
        simp only [without, seen, events, about, ↓reduceIte, Option.some.injEq, apart, List.nil_append, after_cons,
          List.filter_append, names]
        exact rest
      · have different : away ≠ v := fun same => gone same.symm
        obtain ⟨both, sight, respond⟩ := besides.both reached.sound reached'.sound indifferent different about
        obtain ⟨seen_eq, events_eq, rest⟩ := ih both later (reached'.move m) indifferent'
        have about' := besides.about different about
        simp only [without, seen, events, about, about', gone, ↓reduceIte, Option.some.injEq, after_cons,
          List.filter_append, seen_eq, events_eq, respond]
        refine ⟨?_, trivial, rest⟩
        by_cases same : v = own
        · subst same
          rw [sight]
        · simp [same]

/-- Workspaces are independent, if the loader does not count how often it is asked. A move that is about another
workspace leaves all there is of a workspace as it is, and tells nothing in its name. And if all moves that are about
one workspace are taken out of a course of events, then at every other workspace each move comes to what it came to
before, slot and jobs go through the same states, and the same events are told in its name. -/
theorem Reachable.independent {hub : Hub E} (reached : hub.Reachable) (indifferent : hub.loader.Indifferent)
    {away own : WorkspaceId} (apart : away ≠ own) :
    (∀ m, hub.about? m ≠ some own → (hub.move m).sight own = hub.sight own ∧
      ∀ event, .event event ∈ (hub.respond m).2 → event.workspace ≠ own) ∧
    ∀ moves,
      hub.seen own (hub.without away moves) = hub.seen own moves ∧
      (hub.events (hub.without away moves)).filter (·.workspace = own) =
        (hub.events moves).filter (·.workspace = own) ∧
      (hub.after (hub.without away moves)).sight own = (hub.after moves).sight own := by
  constructor
  · intro m elsewhere
    cases about : hub.about? m with
    | none =>
      obtain ⟨still, silent⟩ := about?_none about
      rw [still, silent]
      exact ⟨rfl, nofun⟩
    | some v =>
      have other : v ≠ own := fun same => elsewhere (about.trans (congrArg some same))
      refine ⟨sight_elsewhere reached.sound about other, fun event here same => ?_⟩
      exact other ((respond_names reached.sound about _ here event rfl).symm.trans same)
  · intro moves
    obtain ⟨seen, events, rest⟩ := (Besides.refl away hub).run reached reached indifferent apart moves
    exact ⟨seen, events, rest.sight own apart⟩

end Hub

/-! ### Two runs at once -/

/-- A run in each of two workspaces. -/
def mixed : Hub Directive.engine :=
  (Hub.create {} .bundled).1.after
    [.edit .playground (.editorValue "hang"), .edit .assessment (.editorValue "log a\nsleep 5\nfinish 2")]

/-- They take turns, and one of them is interrupted while the other waits. -/
def mixedMoves : List Move :=
  [.submit 0 .playground (.evaluate .editorRun), .submit 1 .assessment (.evaluate .editorRun)] ++
    (List.replicate 9 [.step 0 0, .step 1 0]).flatten ++ [.signal .playground .interrupt] ++
    List.replicate 4 (.step 0 2) ++ List.replicate 4 (.step 1 5)

/-- The other one finishes, as it does without the first. -/
theorem independent_of_mixed :
    mixed.Reachable ∧ mixed.loader.Indifferent ∧ WorkspaceId.playground ≠ .assessment ∧
      (mixed.without .playground mixedMoves).length = 14 ∧
      (mixed.after mixedMoves).sight .assessment =
        (mixed.after (mixed.without .playground mixedMoves)).sight .assessment ∧
      ⟨.assessment, .runCompleted .editorRun .finished⟩ ∈ mixed.events (mixed.without .playground mixedMoves) := by
  have reached : mixed.Reachable := by
    unfold mixed
    exact (Hub.Reachable.create {} .bundled).after _
  have indifferent : mixed.loader.Indifferent := fun _ _ _ => rfl
  have apart : WorkspaceId.playground ≠ .assessment := by decide
  obtain ⟨-, events, sight⟩ := (reached.independent indifferent apart).2 mixedMoves
  have finishes : ⟨.assessment, .runCompleted .editorRun .finished⟩ ∈ mixed.events mixedMoves := by decide +kernel
  refine ⟨reached, indifferent, apart, by decide +kernel, sight.symm, ?_⟩
  have told : ⟨.assessment, .runCompleted .editorRun .finished⟩ ∈
      (mixed.events mixedMoves).filter (·.workspace = .assessment) := by
    simpa using finishes
  rw [← events] at told
  exact (List.mem_filter.1 told).1

end Workbench
