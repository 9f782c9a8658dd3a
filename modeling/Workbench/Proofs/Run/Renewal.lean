/-
How the context of a workspace comes about.

It is made anew when a job has waited for the libraries, of what is selected then, and in
no other step (`Job.Rule.renewal`); faults may be reported in it at other times. So it is
always of the selection that the engine was last asked to make a context of
(`Hub.Sound.serves_last`).
-/
import Workbench.Proofs.Run.Call
import Workbench.Proofs.Run.Happening
import Workbench.Directive.Engine
import Mathlib.Data.List.Induction

namespace Workbench

variable {E : Engine}

/-! ## Contexts and selections -/

namespace Context

variable {c : Context} {selection : Selection}

@[simp] theorem report_nil (c : Context) : c.report [] = c := by simp [report]

/-- A context with the chapter, the library with its symbols, and the globals of a selection. -/
structure Serves (c : Context) (selection : Selection) : Prop where
  chapter : c.chapter = selection.chapter
  library : c.library = selection.library
  globals : c.globals = selection.globals

/-- Faults are reported in it, and nothing else changes. -/
theorem Serves.report (serves : c.Serves selection) (faults : List Fault) : (c.report faults).Serves selection :=
  ⟨serves.chapter, serves.library, serves.globals⟩

end Context

/-- Contexts are made of what the engine is asked to make them of. -/
def Engine.Faithful (E : Engine) : Prop := ∀ selection, (E.makeContext selection).Serves selection

theorem Script.faithful : Script.engine.Faithful := fun _ => ⟨rfl, rfl, rfl⟩

theorem Directive.faithful : Directive.engine.Faithful := fun _ => ⟨rfl, rfl, rfl⟩

/-! ## Contexts that the engine is asked for -/

/-- What the engine is asked to make a context of. -/
@[simp] def Effect.request? : Effect E → Option Selection
  | .engine (.makeContext selection) => some selection
  | _ => none

namespace Scene

variable (h : House) (sc : Scene E)

/-- The selections of which the engine has been asked to make a context. -/
def requests (sc : Scene E) : List Selection := sc.effects.filterMap Effect.request?

@[simp] theorem filterMap_request? (e : Effect E) (rest : List (Effect E)) :
    (e :: rest).filterMap Effect.request? = e.request?.toList ++ rest.filterMap Effect.request? := by
  rw [List.filterMap_cons]
  cases e.request? <;> rfl

/-- Where nothing is done with the engine, no context is asked for. -/
theorem filterMap_of_silent {more : List (Effect E)} (silent : ∀ e ∈ more, e.isCall = false) :
    more.filterMap Effect.request? = [] := by
  refine List.filterMap_eq_nil_iff.2 fun e there => ?_
  have other := silent e there
  cases e with
  | engine => cases other
  | _ => rfl

@[simp] theorem filterMap_ended (mode : Mode) (occurrence : Nat → Occurrence) :
    (sc.ended mode occurrence).filterMap Effect.request? = [] := filterMap_of_silent (sc.isCall_ended mode occurrence)

end Scene

namespace Job

variable {h : House} {id : JobId} {sc : Scene E} {job : Job E} {a : Advance E}

@[simp] theorem filterMap_finish (l : Live E) (result : RunResult E.Snapshot) :
    (finish h sc l result).1.effects.filterMap Effect.request? = sc.effects.filterMap Effect.request? := by
  obtain ⟨more, seen, silent⟩ := finish_effects h sc l result
  rw [seen, List.filterMap_append, Scene.filterMap_of_silent silent, List.append_nil]

/-! ## What a step does about the context -/

/-- What a step does about the context. -/
inductive Renewal (sc : Scene E) (job : Job E) (a : Advance E) : Prop
  /-- nothing, but that faults may be reported in it -/
  | keeps (requests : a.scene.requests = sc.requests)
    (context : ∃ faults, a.scene.slot.state.context = sc.slot.state.context.report faults)
  /-- the libraries have been waited for, and it is made of what is selected -/
  | renews {purpose : Purpose} {wait : Wait} (stage : job.stage = .loading purpose wait)
    (requests : a.scene.requests = sc.requests ++ [sc.slot.state.selection])
    (context : a.scene.slot.state.context = E.makeContext sc.slot.state.selection)

/-- A context is made in no other step. -/
theorem Rule.renewal (rule : Rule h id sc job a) : Renewal sc job a := by
  -- the context is the same as before
  have same : a.scene.requests = sc.requests → a.scene.slot.state.context = sc.slot.state.context → Renewal sc job a :=
    fun requests context => .keeps requests ⟨[], by rw [context, Context.report_nil]⟩
  cases rule with
  | @loaded purpose wait next stage waited =>
    have requests : next.effects.filterMap Effect.request? = sc.requests := by
      rcases waited with rfl | rfl <;> simp [Scene.requests]
    cases purpose <;>
      exact .renews stage (by simp [Scene.requests, proceed, requests, waited.slot]) (by rw [← waited.slot]; rfl)
  | stoppedEarly | stopped => exact .keeps (by simp [Scene.requests]) ⟨_, finishInterrupted_context ..⟩
  | @ended l lines result =>
    refine .keeps (by simp [Scene.requests]) ?_
    rcases finish_context h ((sc.heard lines).add (.engine .release)) l result with kept | reported
    · exact ⟨[], kept.trans (Context.report_nil _).symm⟩
    · exact reported
  | started =>
    refine same ?_ rfl
    unfold call
    split <;> simp [Scene.requests]
  | chapter | library =>
    refine same (by simp [Scene.requests]) ?_
    rw [Scene.forgetShown_slot]
    split <;> rfl
  | enqueued => exact same (by simp [Scene.requests]) (by rw [enqueue_slot])
  | left => exact same (by simp [Scene.requests]) (by rw [leave_slot])
  | cutShort | aborted | completed => exact same (by simp [Scene.requests]) (by rw [endBatch_slot])
  | launched =>
    refine same ?_ (by rw [launch_slot]; rfl)
    simp only [Scene.requests, launch_effects]
    split <;> simp
  | gradedEmpty | gradedBegun => exact same (by simp [Scene.requests]) (by simp [refusePause_slot])
  | repl => exact same rfl rfl
  | _ => exact same (by simp [Scene.requests, arm]) rfl

end Job

/-! ### Courses of moves -/

namespace Hub

variable {hub : Hub E} {w : WorkspaceId} {s next : Site E} {m : Move}

/-- What contexts are made of for a workspace in a course of moves. -/
def requests (hub : Hub E) (w : WorkspaceId) : List Move → List Selection
  | [] => []
  | m :: moves =>
    (if hub.about? m = some w then (hub.respond m).2.filterMap Effect.request? else []) ++ (hub.move m).requests w moves

theorem requests_append (hub : Hub E) (w : WorkspaceId) (first second : List Move) :
    hub.requests w (first ++ second) = hub.requests w first ++ (hub.after first).requests w second := by
  induction first generalizing hub with
  | nil => rfl
  | cons m moves ih => simp [requests, ih]

theorem Sound.after (sound : hub.Sound) (moves : List Move) : (hub.after moves).Sound := by
  induction moves generalizing hub with
  | nil => exact sound
  | cons m moves ih => exact ih (sound.move m)

/-- Where no job steps at an open workspace, no context is made for it. -/
theorem still_requests (here : hub.site? w = some s) (still : hub.strideAt? w m = none) :
    hub.requests w [m] = [] := by
  simp only [requests, List.append_nil, ite_eq_right_iff]
  intro about
  cases m with
  | openWorkspace v =>
    cases about
    have present : hub.registry.contains w = true := by
      simp [Registry.contains, Table.contains, slot_eq_ok.1 (site?_eq_some.1 here).1]
    simp [respond, openWorkspace, present]
  | edit v e =>
    simp only [respond]
    split <;> rfl
  | clearOutput v =>
    cases about
    simp [respond, clearOutput, (site?_eq_some.1 here).1, bind, Except.bind, pure, Except.pure, Scene.clearOutput,
      Scene.occur, Scene.add, Scene.onState, Effect.request?]
  | signal | submit => rfl
  | step id now =>
    obtain ⟨⟨v, job⟩, known, own⟩ := Option.map_eq_some_iff.1 about
    obtain rfl : v = w := own
    have theirs : s.job? id = some job := (site?_eq_some.1 here).2 ▸ jobOn?_eq_some.2 known
    simp [strideAt?, stride?, here, theirs] at still

/-- At an open workspace a move makes one context of what is selected, or none. -/
theorem Happens.renewal (sound : hub.Sound) (here : hub.site? w = some s) (happens : hub.Happens w s m next) :
    hub.requests w [m] = [] ∧ (∃ faults, next.slot.state.context = s.slot.state.context.report faults) ∨
      hub.requests w [m] = [s.slot.state.selection] ∧
        next.slot.state.context = E.makeContext s.slot.state.selection := by
  have same : next.slot.state.context = s.slot.state.context →
      ∃ faults, next.slot.state.context = s.slot.state.context.report faults :=
    fun kept => ⟨[], kept.trans (Context.report_nil _).symm⟩
  cases happens with
  | still still => exact .inl ⟨still_requests here still, same rfl⟩
  | edit e => exact .inl ⟨still_requests here rfl, same (by cases e <;> rfl)⟩
  | clearOutput | signal | submit => exact .inl ⟨still_requests here rfl, same rfl⟩
  | @step id job a now known made took =>
    have own : hub.requests w [.step id now] = a.scene.requests := by
      have task := jobOn?_eq_some.1 ((site?_eq_some.1 here).2 ▸ known)
      have seen : (hub.respond (.step id now)).2 = a.scene.effects :=
        ((step_own sound here known now).2).trans (by rw [made])
      simp [requests, about?, task, seen, Scene.requests]
    rw [own]
    cases (made ▸ Job.step_rule (hub.house now) id { slot := s.slot, asked := hub.asked } job).renewal with
    | keeps requests context => exact .inl ⟨requests, context⟩
    | renews _ requests context => exact .inr ⟨requests, context⟩

/-- A workspace is opened by the move that is there for it. -/
theorem Sound.opens (sound : hub.Sound) (closed : hub.site? w = none) (opened : (hub.move m).site? w = some next) :
    m = .openWorkspace w ∧ next.slot = .fresh hub.settings w := by
  have about : hub.about? m = some w := by
    by_contra elsewhere
    cases ((site?_elsewhere sound elsewhere).trans closed).symm.trans opened
  have slot : next.slot = .fresh hub.settings w := by
    rcases (move_closed sound m closed).1 with still | ⟨jobs, fresh⟩
    · cases still.symm.trans opened
    · cases fresh.symm.trans opened
      rfl
  refine ⟨?_, slot⟩
  cases m with
  | openWorkspace v =>
    cases about
    rfl
  | edit v e =>
    rw [move_edit, onSlot_closed sound (by exact fun _ => rfl) closed] at opened
    cases opened
  | clearOutput v =>
    rw [move_clearOutput, onSlot_closed sound (by exact fun _ => rfl) closed] at opened
    cases opened
  | signal v sig =>
    rw [move_signal, onSlot_closed sound (by exact fun _ => rfl) closed] at opened
    cases opened
  | submit id v operation =>
    simp only [Hub.move] at opened
    split at opened
    · cases closed.symm.trans opened
    · cases (withTask_closed closed _ _).symm.trans opened
  | step id now =>
    obtain ⟨⟨v, job⟩, known, own⟩ := Option.map_eq_some_iff.1 about
    obtain rfl : v = w := own
    have missing := slot_eq_error.2 ⟨site?_eq_none.1 closed, rfl⟩
    simp only [Hub.move, step, known, missing] at opened
    cases (withTask_closed closed _ _).symm.trans opened

/-- The context of a workspace is of the selection that the engine was last asked to make one of for it. -/
theorem Sound.serves_last (sound : hub.Sound) (faithful : E.Faithful) (closed : hub.site? w = none) (moves : List Move)
    (here : (hub.after moves).site? w = some s) :
    ∃ selection, (hub.requests w moves).getLast? = some selection ∧ s.slot.state.context.Serves selection := by
  induction moves using List.reverseRecOn generalizing s with
  | nil => cases closed.symm.trans here
  | append_singleton moves m ih =>
    rw [after_concat] at here
    rw [requests_append]
    have last (selection : Selection) (asked : (hub.after moves).requests w [m] = [selection]) :
        (hub.requests w moves ++ (hub.after moves).requests w [m]).getLast? = some selection := by
      rw [asked, List.getLast?_concat]
    cases before : (hub.after moves).site? w with
    | none =>
      obtain ⟨rfl, slot⟩ := (sound.after moves).opens before here
      have absent : (hub.after moves).registry.contains w = false := by
        simp [Registry.contains, Table.contains, site?_eq_none.1 before]
      refine ⟨_, last _ (by simp [requests, about?, respond, openWorkspace, absent, Effect.request?]; rfl), ?_⟩
      rw [slot]
      exact faithful _
    | some old =>
      obtain ⟨next, there, happens⟩ := (sound.after moves).happens before m
      cases there.symm.trans here
      obtain ⟨earlier, asked, serves⟩ := ih before
      rcases happens.renewal (sound.after moves) before with ⟨none, faults, context⟩ | ⟨one, context⟩
      · refine ⟨earlier, by rw [none, List.append_nil, asked], ?_⟩
        rw [context]
        exact serves.report faults
      · refine ⟨_, last _ one, ?_⟩
        rw [context]
        exact faithful _

end Hub

end Workbench
