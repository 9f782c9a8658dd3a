/-
The selected chapter and library, and the calls that select them.

A selection changes before the libraries are waited for and the context after it, and
while it waits anything may happen that does not need the permit. So the context fits
what is selected when nobody holds the permit (`Hub.Reachable.fits`).

What a call that selects is to answer and to tell is settled when it is given the permit
(`Operation.due`), since until it gives the permit back nobody else selects anything; each
of its steps pays a part of it (`Job.Rule.chooses`).
-/
import Workbench.Proofs.Run.Brief
import Workbench.Proofs.Run.Renewal

namespace Workbench

variable {E : Engine}

/-! ## What is selected when nobody works -/

/-- The context has the chapter that is selected, and the library with its symbols. -/
structure WorkspaceState.Fits (s : WorkspaceState) : Prop where
  chapter : s.context.chapter = s.chapter
  library : s.context.library = .named s.library

theorem WorkspaceState.fits_iff {s : WorkspaceState} :
    s.Fits ↔ s.context.chapter = s.selection.chapter ∧ s.context.library = s.selection.library :=
  ⟨fun fits => ⟨fits.chapter, fits.library⟩, fun ⟨chapter, library⟩ => ⟨chapter, library⟩⟩

namespace Job

variable {h : House} {id : JobId} {sc : Scene E} {job : Job E} {a : Advance E}

/-- A job that has selected something else waits on, or goes on with a context of what is selected, and tells that. -/
theorem Rule.selecting (rule : Rule h id sc job a) {message : String} {wait : Wait}
    (stage : job.stage = .loading (.selection message) wait) :
    (a.scene.slot = sc.slot ∧ a.scene.told = sc.told ∧ ∃ later, a.job = job.at_ (.loading (.selection message) later)) ∨
      a.scene.slot.state.selection = sc.slot.state.selection ∧
      a.scene.slot.state.context = E.makeContext sc.slot.state.selection ∧
      a.scene.told = sc.told ++ [.contextReset (E.makeContext sc.slot.state.selection).chapter, .outputCleared].map
        (Event.mk sc.slot.id) ∧
      a.job = job.at_ (.leaving (.switched true)) := by
  cases rule with
  | loading here =>
    cases stage.symm.trans here
    exact .inl ⟨rfl, by simp [Scene.told], _, rfl⟩
  | @loaded _ _ next here waited =>
    cases stage.symm.trans here
    have slot := waited.slot
    exact .inr ⟨by rw [← slot]; rfl, by rw [← slot]; rfl, by simp [Scene.told, proceed, waited.silent, slot], rfl⟩
  | _ => simp_all

/-- Where the context fits what is selected it still does after a step, unless the job has selected something else. -/
theorem Rule.fits (rule : Rule h id sc job a) (faithful : E.Faithful)
    (before : sc.slot.state.Fits ∨ ∃ message wait, job.stage = .loading (.selection message) wait) :
    a.scene.slot.state.Fits ∨ ∃ message wait, a.job.stage = .loading (.selection message) wait := by
  rcases before with fits | ⟨message, wait, stage⟩
  · rcases rule.brief_or with brief | ⟨-, selects, -⟩
    · have selection := WorkspaceState.selection_of_brief brief
      left
      rw [WorkspaceState.fits_iff, selection]
      cases rule.renewal with
      | keeps _ context =>
        obtain ⟨faults, context⟩ := context
        rw [context]
        exact WorkspaceState.fits_iff.1 fits
      | renews _ _ context =>
        rw [context]
        exact ⟨(faithful _).chapter, (faithful _).library⟩
    · exact .inr selects
  · rcases rule.selecting stage with ⟨-, -, later, same⟩ | ⟨selection, context, -, -⟩
    · exact .inr ⟨message, later, by rw [same]; rfl⟩
    · left
      rw [WorkspaceState.fits_iff, selection, context]
      exact ⟨(faithful _).chapter, (faithful _).library⟩

end Job

namespace Site

variable {s next : Site E} {c : Cause} {settings : Settings}

/-- The context fits what is selected, or a job that has selected something else waits for the libraries. -/
def Fitting (s : Site E) : Prop :=
  s.slot.state.Fits ∨ ∃ id job message wait, s.job? id = some job ∧ job.stage = .loading (.selection message) wait

theorem Fresh.fitting {w : WorkspaceId} (faithful : E.Faithful) (fresh : s.Fresh settings w) : s.Fitting := by
  have library : (E.makeContext { chapter := settings.execution.chapter }).library = {} := (faithful _).library
  left
  rw [fresh.slot]
  refine ⟨rfl, ?_⟩
  simp only [Slot.fresh, WorkspaceState.ofContext, library]
  rfl

/-- Whatever happens at a site keeps it so. -/
theorem Fitting.step (faithful : E.Faithful) (fitting : s.Fitting) (step : s.Step settings c next) : next.Fitting := by
  cases step with
  | edit e =>
    refine fitting.imp_left fun fits => ?_
    cases e <;> exact ⟨fits.chapter, fits.library⟩
  | clearOutput => exact fitting.imp_left fun fits => ⟨fits.chapter, fits.library⟩
  | signal => exact fitting
  | submit id operation free =>
    refine fitting.imp_right ?_
    rintro ⟨j, job, message, wait, known, stage⟩
    refine ⟨j, job, message, wait, (if_neg ?_).trans known, stage⟩
    rintro rfl
    cases free.symm.trans known
  | step h _ asked id job known =>
    have rule := Job.step_rule h id { slot := s.slot, asked := asked } job
    -- the job that waits is another one, or the one that takes the step
    have own (before : s.slot.state.Fits ∨ ∃ message wait, job.stage = .loading (.selection message) wait) :
        (s.take id (Job.step h id { slot := s.slot, asked := asked } job)).Fitting :=
      (rule.fits faithful before).imp_right fun ⟨message, wait, stage⟩ => ⟨id, _, message, wait, s.take_own .., stage⟩
    rcases fitting with fits | ⟨j, other, message, wait, theirs, stage⟩
    · exact own (.inl fits)
    · by_cases same : j = id
      · subst same
        cases known.symm.trans theirs
        exact own (.inr ⟨message, wait, stage⟩)
      · exact .inr ⟨j, other, message, wait, (s.take_other _ same).trans theirs, stage⟩

end Site

namespace Hub

variable {hub : Hub E} {w : WorkspaceId} {s next : Site E} {m : Move}

/-- When nobody holds the permit the context fits what is selected. -/
theorem Reachable.fits (reached : hub.Reachable) (faithful : E.Faithful) (here : hub.site? w = some s)
    (free : s.slot.permit.holder = none) : s.slot.state.Fits := by
  rcases reached.site (fun _ _ fresh => fresh.fitting faithful) (fun _ _ _ fitting step => fitting.step faithful step)
    here with fits | ⟨id, job, message, wait, known, stage⟩
  · exact fits
  · have held := (reached.owned here).owner known (by rw [stage]; rfl)
    cases free.symm.trans held

end Hub

/-! ## Calls that select -/

namespace Operation

/-- Whether a chapter or a library is selected. -/
def isSelection : Operation → Bool
  | .selectChapter _ => true
  | .selectLibrary _ => true
  | _ => false

/-- Whether an operation selects something else than is selected. -/
def differs (s : WorkspaceState) : Operation → Bool
  | .selectChapter chapter => decide (s.chapter ≠ chapter)
  | .selectLibrary library => decide (s.library ≠ library)
  | _ => false

/-- The chapter that is selected when an operation is through. -/
def chapter (s : WorkspaceState) : Operation → UInt8
  | .selectChapter chapter => chapter
  | _ => s.chapter

/-- What a call that selects tells if this is selected when it is given the permit. -/
def announces (s : WorkspaceState) (operation : Operation) : List Occurrence :=
  if operation.differs s then [.contextReset (operation.chapter s), .outputCleared] else []

/-- What it answers then, and what it tells. -/
def due (s : WorkspaceState) (operation : Operation) : Bool × List Occurrence :=
  (operation.differs s, operation.announces s)

theorem due_congr {s t : WorkspaceState} (chapter : t.chapter = s.chapter) (library : t.library = s.library)
    (operation : Operation) : operation.due t = operation.due s := by
  cases operation <;> simp [due, announces, differs, Operation.chapter, chapter, library]

end Operation

namespace Job

variable {h : House} {id : JobId} {sc : Scene E} {job : Job E} {a : Advance E}

/-- A call that selects, and what it still has to answer and to tell once it holds the permit. -/
inductive Chooses (id : JobId) (slot : Slot E) (job : Job E) : Option (Bool × List Occurrence) → Prop
  | asks (stage : job.stage = .submitted ∨ job.stage = .queued) (held : slot.permit.holder ≠ some id) :
    Chooses id slot job none
  | holds (stage : job.stage = .queued ∨ job.stage = .admitted) (held : slot.permit.holder = some id) :
    Chooses id slot job (some (job.operation.due slot.state))
  | loads {message : String} {wait : Wait} {chapter : UInt8} (stage : job.stage = .loading (.selection message) wait)
    (held : slot.permit.holder = some id) (selected : slot.state.chapter = chapter) :
    Chooses id slot job (some (true, [.contextReset chapter, .outputCleared]))
  | answers {changed : Bool}
    (stage : job.stage = .leaving (.switched changed) ∨ job.stage = .settled (.switched changed)) :
    Chooses id slot job (some (changed, []))

/-- Before it holds the permit it tells nothing; it may be given it at once. -/
theorem Rule.asks (rule : Rule h id sc job a) (selects : job.operation.isSelection = true)
    (chooses : job.Chooses id sc.slot none) :
    a.scene.told = sc.told ∧ (a.job.Chooses id a.scene.slot none ∨
      a.scene.slot.permit.holder = some id ∧
        a.job.Chooses id a.scene.slot (some (a.job.operation.due a.scene.slot.state))) := by
  obtain ⟨stage, held⟩ := chooses
  cases rule with
  | refused _ operation =>
    rw [operation] at selects
    cases selects
  | enqueued =>
    refine ⟨by simp [Scene.told], ?_⟩
    by_cases given : (enqueue id sc job).scene.slot.permit.holder = some id
    · exact .inr ⟨given, .holds (.inl rfl) given⟩
    · exact .inl (.asks (.inr rfl) given)
  | waiting => exact ⟨rfl, .inl (.asks stage held)⟩
  | admitted _ own => exact absurd (Permit.isHeldBy_iff.1 own) held
  | _ => simp_all

/-- When it holds the permit it tells some of what is due, first things first. -/
theorem Rule.chooses (rule : Rule h id sc job a) (faithful : E.Faithful) (selects : job.operation.isSelection = true)
    {due : Bool × List Occurrence} (chooses : job.Chooses id sc.slot (some due)) :
    ∃ now rest, due.2 = now ++ rest ∧ a.scene.told = sc.told ++ now.map (Event.mk sc.slot.id) ∧
      a.job.Chooses id a.scene.slot (some (due.1, rest)) := by
  -- nothing is told, and as much is due as before
  have silent (told : a.scene.told = sc.told) (later : a.job.Chooses id a.scene.slot (some due)) :
      ∃ now rest, due.2 = now ++ rest ∧ a.scene.told = sc.told ++ now.map (Event.mk sc.slot.id) ∧
        a.job.Chooses id a.scene.slot (some (due.1, rest)) :=
    ⟨[], due.2, rfl, told.trans (List.append_nil _).symm, later⟩
  cases chooses with
  | holds stage held =>
    cases rule with
    | admitted => exact silent rfl (.holds (.inr rfl) held)
    | waiting _ free => simp [Permit.isHeldBy, held] at free
    | unchanged _ operation =>
      refine silent rfl ?_
      rw [show job.operation.due sc.slot.state = (false, []) by
        rcases operation with same | same <;> simp [same, Operation.due, Operation.announces, Operation.differs]]
      exact .answers (.inl rfl)
    | @chapter chapter _ operation other =>
      have announced : job.operation.due sc.slot.state = (true, [.contextReset chapter, .outputCleared]) := by
        simp [operation, Operation.due, Operation.announces, Operation.differs, Operation.chapter, other]
      refine silent (by simp [Scene.told]) (announced ▸ .loads rfl (by simpa using held) ?_)
      rw [Scene.forgetShown_slot]
      split <;> rfl
    | @library library _ operation other =>
      have announced : job.operation.due sc.slot.state =
          (true, [.contextReset sc.slot.state.chapter, .outputCleared]) := by
        simp [operation, Operation.due, Operation.announces, Operation.differs, Operation.chapter, other]
      refine silent (by simp [Scene.told]) (announced ▸ .loads rfl (by simpa using held) ?_)
      rw [Scene.forgetShown_slot]
      split <;> rfl
    | armed _ operation | allEmpty _ operation | allBegun _ operation | reset _ operation =>
      rw [operation] at selects
      cases selects
    | _ => simp_all
  | loads stage held selected =>
    subst selected
    rcases rule.selecting stage with ⟨slot, told, later, same⟩ | ⟨-, -, told, same⟩
    · refine silent told ?_
      rw [same, slot]
      exact .loads rfl held rfl
    · refine ⟨_, [], (List.append_nil _).symm, told.trans ?_, ?_⟩
      · rw [(faithful _).chapter]
        rfl
      · rw [same]
        exact .answers (.inl rfl)
  | @answers changed stage =>
    cases rule with
    | @left reply here =>
      refine silent (by simp [Scene.told]) (.answers (.inr ?_))
      rcases stage with stage | stage <;> cases stage.symm.trans here
      rfl
    | settled => exact silent rfl (.answers stage)
    | _ => simp_all

end Job

namespace Hub

variable {hub : Hub E} {w : WorkspaceId} {s next : Site E} {m : Move} {id : JobId} {job : Job E}

/-- What a job has told in a course of moves. -/
def toldBy (hub : Hub E) (w : WorkspaceId) (id : JobId) (moves : List Move) : List Occurrence :=
  (hub.strides w id moves).flatMap fun step => step.made.scene.told.map Event.occurrence

/-- The state of a workspace, if a job holds the permit. -/
def holding? (hub : Hub E) (w : WorkspaceId) (id : JobId) : Option WorkspaceState :=
  (hub.site? w).bind fun s => if s.slot.permit.isHeldBy id then some s.slot.state else none

/-- The state of a workspace when a job is first seen to hold the permit. -/
def granted? (hub : Hub E) (w : WorkspaceId) (id : JobId) : List Move → Option WorkspaceState
  | [] => hub.holding? w id
  | m :: moves => (hub.holding? w id).or ((hub.move m).granted? w id moves)

/-- A call that selects takes its own step, or is left as it is; while it holds the permit nobody else selects
anything. -/
theorem Happens.beside (happens : hub.Happens w s m next) (owned : s.Owned) (known : s.job? id = some job) :
    (∃ now a, a = Job.step (hub.house now) id { slot := s.slot, asked := hub.asked } job ∧
      hub.stride? w id m = some ⟨now, s.slot, job, a⟩ ∧ next = s.take id a) ∨
    hub.stride? w id m = none ∧ next.job? id = some job ∧ (s.slot.permit.holder = some id →
      next.slot.permit.holder = some id ∧ next.slot.state.chapter = s.slot.state.chapter ∧
        next.slot.state.library = s.slot.state.library) := by
  cases happens with
  | still still => exact .inr ⟨stride?_of_strideAt? still, known, fun held => ⟨held, rfl, rfl⟩⟩
  | edit e => exact .inr ⟨rfl, known, fun held => ⟨held, by cases e <;> rfl, by cases e <;> rfl⟩⟩
  | clearOutput | signal => exact .inr ⟨rfl, known, fun held => ⟨held, rfl, rfl⟩⟩
  | submit j operation free =>
    refine .inr ⟨rfl, (if_neg ?_).trans known, fun held => ⟨held, rfl, rfl⟩⟩
    rintro rfl
    cases free.symm.trans known
  | @step j other a now theirs made took =>
    by_cases own : j = id
    · subst own
      cases known.symm.trans theirs
      exact .inl ⟨now, a, made, took, rfl⟩
    · refine .inr ⟨by simp [stride?, own], (s.take_other a (Ne.symm own)).trans known, fun held => ?_⟩
      have rule := made ▸ Job.step_rule (hub.house now) j { slot := s.slot, asked := hub.asked } other
      obtain ⟨unadmitted, outside⟩ := owned.bystander held own theirs
      rw [Site.take_slot, (rule.bystander unadmitted outside).1]
      refine ⟨?_, rfl, rfl⟩
      cases rule.trade with
      | stays _ _ permit | admitted _ _ _ _ permit | works _ _ _ permit | arms _ _ _ permit => exact permit ▸ held
      | asks _ _ _ permit => exact permit ▸ Permit.holder_request held
      | leaves place => exact absurd place outside

theorem toldBy_cons (hub : Hub E) (w : WorkspaceId) (id : JobId) (m : Move) (moves : List Move) :
    hub.toldBy w id (m :: moves) =
      (hub.stride? w id m).toList.flatMap (fun step => step.made.scene.told.map Event.occurrence) ++
        (hub.move m).toldBy w id moves := by
  simp [toldBy, strides]

theorem toldBy_still {moves : List Move} (still : hub.stride? w id m = none) :
    hub.toldBy w id (m :: moves) = (hub.move m).toldBy w id moves := by
  rw [toldBy_cons, still]
  rfl

theorem toldBy_step {step : Stride E} (occs : List Occurrence) {moves : List Move} {v : WorkspaceId}
    (took : hub.stride? w id m = some step) (told : step.made.scene.told = occs.map (Event.mk v)) :
    hub.toldBy w id (m :: moves) = occs ++ (hub.move m).toldBy w id moves := by
  have same : (occs.map (Event.mk v)).map Event.occurrence = occs := by simp [Function.comp_def]
  rw [toldBy_cons, took, Option.toList_some, List.flatMap_singleton, told, same]

theorem holding?_eq (here : hub.site? w = some s) :
    hub.holding? w id = if s.slot.permit.holder = some id then some s.slot.state else none := by
  simp [holding?, here, Permit.isHeldBy]

/-- A call that selects and holds the permit answers what is due, and tells what is due and nothing else. -/
theorem Reachable.chooses (reached : hub.Reachable) (faithful : E.Faithful) (here : hub.site? w = some s)
    (known : s.job? id = some job) (selects : job.operation.isSelection = true) {due : Bool × List Occurrence}
    (chooses : job.Chooses id s.slot (some due)) {moves : List Move} {reply : Reply}
    (answered : (hub.after moves).reply? id = some reply) :
    reply = .switched due.1 ∧ hub.toldBy w id moves = due.2 := by
  induction moves generalizing hub s job due with
  | nil =>
    have settled := (reply?_eq_some here known).1 answered
    cases chooses with
    | holds stage => rcases stage with stage | stage <;> cases stage.symm.trans settled
    | loads stage => cases stage.symm.trans settled
    | answers stage =>
      rcases stage with stage | stage <;> cases stage.symm.trans settled
      exact ⟨rfl, rfl⟩
  | cons m moves ih =>
    obtain ⟨next, there, happens⟩ := reached.happens here m
    rcases happens.beside (reached.owned here) known with ⟨now, a, made, took, rfl⟩ | ⟨still, same, kept⟩
    · have rule := made ▸ Job.step_rule (hub.house now) id { slot := s.slot, asked := hub.asked } job
      obtain ⟨first, rest, split, told, later⟩ := rule.chooses faithful selects chooses
      obtain ⟨replied, tells⟩ := ih (reached.move m) there (s.take_own ..) (rule.operation_eq ▸ selects) later answered
      exact ⟨replied, by rw [toldBy_step _ took told, tells, split]⟩
    · rw [toldBy_still still]
      refine ih (reached.move m) there same selects ?_ answered
      cases chooses with
      | holds stage held =>
        obtain ⟨holds, chapter, library⟩ := kept held
        exact job.operation.due_congr chapter library ▸ .holds stage holds
      | loads stage held selected =>
        obtain ⟨holds, chapter, -⟩ := kept held
        exact .loads stage holds (chapter.trans selected)
      | answers stage => exact .answers stage

/-- A call that selects answers and tells what is due when it is given the permit. -/
theorem Reachable.asks (reached : hub.Reachable) (faithful : E.Faithful) (here : hub.site? w = some s)
    (known : s.job? id = some job) (selects : job.operation.isSelection = true)
    (chooses : job.Chooses id s.slot none) {moves : List Move} {reply : Reply}
    (answered : (hub.after moves).reply? id = some reply) :
    ∃ state, hub.granted? w id moves = some state ∧ reply = .switched (job.operation.differs state) ∧
      hub.toldBy w id moves = job.operation.announces state := by
  induction moves generalizing hub s job with
  | nil =>
    obtain ⟨stage | stage, -⟩ := chooses <;> cases stage.symm.trans ((reply?_eq_some here known).1 answered)
  | cons m moves ih =>
    have unheld : hub.holding? w id = none := by
      obtain ⟨-, held⟩ := chooses
      rw [holding?_eq here, if_neg held]
    rw [granted?, unheld, Option.none_or]
    -- it is given the permit, or waits on
    have goes (own : Job E) (next : Site E) (there : (hub.move m).site? w = some next) (known : next.job? id = some own)
        (same : own.operation = job.operation)
        (later : own.Chooses id next.slot none ∨ next.slot.permit.holder = some id ∧
          own.Chooses id next.slot (some (own.operation.due next.slot.state))) :
        ∃ state, (hub.move m).granted? w id moves = some state ∧ reply = .switched (job.operation.differs state) ∧
          (hub.move m).toldBy w id moves = job.operation.announces state := by
      rcases later with waits | ⟨held, holds⟩
      · rw [← same]
        exact ih (reached.move m) there known (same ▸ selects) waits answered
      · have now : (hub.move m).holding? w id = some next.slot.state := by rw [holding?_eq there, if_pos held]
        refine ⟨next.slot.state, ?_, ?_⟩
        · cases moves <;> simp [granted?, now]
        · rw [← same]
          exact (reached.move m).chooses faithful there known (same ▸ selects) holds answered
    obtain ⟨next, there, happens⟩ := reached.happens here m
    rcases happens.beside (reached.owned here) known with ⟨now, a, made, took, rfl⟩ | ⟨still, same, -⟩
    · have rule := made ▸ Job.step_rule (hub.house now) id { slot := s.slot, asked := hub.asked } job
      obtain ⟨told, later⟩ := rule.asks selects chooses
      rw [toldBy_step [] (v := w) took told, List.nil_append]
      exact goes a.job _ there (s.take_own ..) rule.operation_eq later
    · rw [toldBy_still still]
      refine goes job next there same rfl ?_
      obtain ⟨stage, -⟩ := chooses
      by_cases held : next.slot.permit.holder = some id
      · refine .inr ⟨held, .holds (.inl (stage.resolve_left fun submitted => ?_)) held⟩
        have standing := ((reached.move m).owned there).standing same
        simp only [Job.Standing, submitted, Stage.place] at standing
        exact standing.1 (by simp [Permit.claimants, held])
      · exact .inl (.asks stage held)

end Hub

/-- The context of a workspace always is of the selection that the engine was last asked to make one of for it, and of
what is selected there when nobody holds the permit. A call that selects answers whether that is something else than
is selected when it is given the permit; if it is, the call tells of the context and then of the output, once each, and
otherwise of nothing. -/
theorem Hub.context_selected (faithful : E.Faithful) (settings : Settings) (loader : Loader) (moves : List Move) :
    let start : Hub E := { settings := settings, loader := loader }
    let hub : Hub E := (Hub.create settings loader).1.after moves
    (∀ w s, hub.site? w = some s →
      (∃ selection, (start.requests w (.openWorkspace .playground :: .openWorkspace .assessment :: moves)).getLast? =
        some selection ∧ s.slot.state.context.Serves selection) ∧
      (s.slot.permit.holder = none → s.slot.state.Fits)) ∧
    ∀ w id operation rest reply, (hub.site? w).isSome → hub.tasks.contains id = false →
      operation.isSelection = true → (hub.after (.submit id w operation :: rest)).reply? id = some reply →
      ∃ state, (hub.move (.submit id w operation)).granted? w id rest = some state ∧
        reply = .switched (operation.differs state) ∧
        (hub.move (.submit id w operation)).toldBy w id rest =
          if operation.differs state then [.contextReset (operation.chapter state), .outputCleared] else [] := by
  intro start hub
  have reached : hub.Reachable := (Hub.Reachable.create settings loader).after moves
  refine ⟨fun w s here => ⟨?_, reached.fits faithful here⟩,
    fun w id operation rest reply opened free selects answered => ?_⟩
  · exact (Hub.Sound.empty settings loader).serves_last faithful rfl _ here
  · obtain ⟨s, here⟩ := Option.isSome_iff_exists.1 opened
    have there := Hub.handed_in here free operation
    have known : (if id = id then some ({ operation := operation } : Job E) else s.job? id) =
        some { operation := operation } :=
      if_pos rfl
    have unheld : s.slot.permit.holder ≠ some id := by
      intro held
      obtain ⟨job, known⟩ := (reached.owned here).known id (by simp [Permit.claimants, held])
      rw [(Hub.site?_eq_some.1 here).2, Hub.jobOn?_eq_some] at known
      simp [Table.contains, known] at free
    exact (reached.move _).asks faithful there known selects (.asks (.inl rfl) unheld) answered

/-! ### Two calls for one chapter -/

/-- The second chapter is selected; that call has the permit, and has not begun. -/
def switching : Hub Script.engine :=
  (Hub.create {} .bundled).1.after [.submit 0 .playground (.selectChapter 2), .step 0 0]

/-- It is selected again, and the calls take turns. -/
def switchingAgain : List Move := .step 1 0 :: List.replicate 6 (.step 0 0) ++ List.replicate 4 (.step 1 0)

theorem switching_answered :
    (switching.after (.submit 1 .playground (.selectChapter 2) :: switchingAgain)).reply? 1 =
      some (.switched false) := by
  have answered : ((switching.after (.submit 1 .playground (.selectChapter 2) :: switchingAgain)).reply? 1).any
      (fun r => match r with | .switched changed => !changed | _ => false) = true := by
    decide +kernel
  obtain ⟨reply, answered, unchanged⟩ := (Option.any_eq_true _ _).1 answered
  rw [answered]
  split at unchanged
  · rw [Bool.not_eq_true'] at unchanged
    rw [unchanged]
  · cases unchanged

/-- The second call finds the chapter as the first leaves it, not as it was when it was handed in: it changes nothing
and tells nothing. In the end the context fits. -/
theorem context_selected_of_switching :
    ∃ (s last : Site Script.engine) (state : WorkspaceState), Script.engine.Faithful ∧
      switching.site? .playground = some s ∧ s.slot.state.chapter = 1 ∧ switching.tasks.contains 1 = false ∧
      (Operation.selectChapter 2).isSelection = true ∧
      (switching.move (.submit 1 .playground (.selectChapter 2))).granted? .playground 1 switchingAgain = some state ∧
      state.chapter = 2 ∧
      (switching.move (.submit 1 .playground (.selectChapter 2))).toldBy .playground 1 switchingAgain = [] ∧
      (switching.after (.submit 1 .playground (.selectChapter 2) :: switchingAgain)).site? .playground = some last ∧
      last.slot.permit.holder = none ∧ last.slot.state.Fits ∧ last.slot.state.chapter = 2 := by
  have opened : (switching.site? .playground).any (fun s => decide (s.slot.state.chapter = 1)) = true := by
    decide +kernel
  have closed : ((switching.after (.submit 1 .playground (.selectChapter 2) :: switchingAgain)).site? .playground).any
      (fun s => decide (s.slot.permit.holder = none) && decide (s.slot.state.chapter = 2)) = true := by
    decide +kernel
  have free : switching.tasks.contains 1 = false := by decide +kernel
  obtain ⟨s, here, first⟩ := (Option.any_eq_true _ _).1 opened
  obtain ⟨last, there, second⟩ := (Option.any_eq_true _ _).1 closed
  simp only [Bool.and_eq_true, decide_eq_true_eq] at first second
  obtain ⟨state, granted, replied, told⟩ := (Hub.context_selected Script.faithful {} .bundled
    [.submit 0 .playground (.selectChapter 2), .step 0 0]).2 .playground 1 (.selectChapter 2) switchingAgain
    (.switched false) (Option.isSome_iff_exists.2 ⟨s, here⟩) free rfl switching_answered
  have same : (Operation.selectChapter 2).differs state = false := (Reply.switched.inj replied).symm
  rw [same] at told
  obtain ⟨-, fits⟩ := (Hub.context_selected Script.faithful {} .bundled
    ([.submit 0 .playground (.selectChapter 2), .step 0 0] ++ .submit 1 .playground (.selectChapter 2) ::
      switchingAgain)).1 .playground last (by rw [Hub.after_append]; exact there)
  refine ⟨s, last, state, Script.faithful, here, first, free, rfl, granted, ?_, told, there, second.1, fits second.1,
    second.2⟩
  simpa [Operation.differs] using same

end Workbench
