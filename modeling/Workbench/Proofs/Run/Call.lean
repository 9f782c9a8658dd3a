/-
Calls: an evaluation that is handed in and waited for while nothing else happens in
its workspace.

Elsewhere anything may go on. What one step of the job keeps then holds when the
call is over (`Hub.Reachable.carried`). A job is looked after in time if the engine
is never polled later than it has asked for (`InTime`); what depends on that is
carried along with the moments at which the next step would be in time.
-/
import Workbench.Proofs.Run.Independence
import Workbench.Proofs.Run.Stride
import Workbench.Proofs.Script.Ride

namespace Workbench

variable {E : Engine}

/-! ## In time -/

/-- The times at which the step after this one is in time: when the engine has asked to be polled again, or
earlier. -/
def Stride.due (s : Stride E) (later : Nat) : Prop :=
  ∀ l lines run wake, s.job.stage = .running l →
    E.poll l.run s.now { paused := l.paused } = (lines, .pending run wake) → wake.Admits s.now later

/-- Steps of one job, each of them in time. -/
def InTime : (due : Nat → Prop) → List (Stride E) → Prop
  | _, [] => True
  | due, s :: steps => due s.now ∧ InTime s.due steps

namespace Hub

/-! ## A workspace on which little happens -/

/-- In a course of moves nothing is about a workspace but what is allowed. -/
def Only (hub : Hub E) (w : WorkspaceId) (allowed : Move → Prop) : List Move → Prop
  | [] => True
  | m :: moves => (hub.about? m = some w → allowed m) ∧ (hub.move m).Only w allowed moves

variable {hub : Hub E} {w : WorkspaceId} {s : Site E} {id : JobId} {job : Job E} {m : Move}

theorem only_of {allowed : Move → Prop} {moves : List Move} (all : ∀ m ∈ moves, allowed m) :
    hub.Only w allowed moves := by
  induction moves generalizing hub with
  | nil => trivial
  | cons m moves ih => exact ⟨fun _ => all m (.head _), ih fun m there => all m (.tail _ there)⟩

theorem site?_elsewhere (sound : hub.Sound) (elsewhere : hub.about? m ≠ some w) :
    (hub.move m).site? w = hub.site? w := by
  have same : (hub.move m).sight w = hub.sight w := by
    cases about : hub.about? m with
    | none => rw [(about?_none about).1]
    | some v => exact sight_elsewhere sound about fun same => elsewhere (about.trans (congrArg some same))
  have slots : (hub.move m).registry.slots.get? w = hub.registry.slots.get? w := congrArg Sight.slot? same
  have jobs : (hub.move m).jobOn? w = hub.jobOn? w := congrArg Sight.job? same
  rw [site?, site?, slots, jobs]

/-- Where only one job steps, a move is a step of the job or leaves the workspace as it is. -/
theorem stride_or_still (sound : hub.Sound) (here : hub.site? w = some s) (known : s.job? id = some job)
    (allowed : hub.about? m = some w → ∃ now, m = .step id now) :
    (∃ now, m = .step id now ∧
      hub.stride? w id m = some ⟨now, s.slot, job,
        Job.step (hub.house now) id { slot := s.slot, asked := hub.asked } job⟩ ∧
      (hub.move m).site? w =
        some (s.take id (Job.step (hub.house now) id { slot := s.slot, asked := hub.asked } job))) ∨
    hub.stride? w id m = none ∧ (hub.move m).site? w = some s := by
  by_cases about : hub.about? m = some w
  · obtain ⟨now, rfl⟩ := allowed about
    exact .inl ⟨now, rfl, by simp [stride?, here, known], (step_own sound here known now).1⟩
  · refine .inr ⟨?_, (site?_elsewhere sound about).trans here⟩
    cases m with
    | step j now =>
      have other : j ≠ id := by
        rintro rfl
        rw [(site?_eq_some.1 here).2, jobOn?_eq_some] at known
        exact about (by simp [about?, known])
      simp [stride?, other]
    | _ => rfl

/-- What each step of a job keeps is kept as long as nothing else happens in its workspace. -/
theorem Reachable.carried {settings : Settings} {P : Prop → (Nat → Prop) → Slot E → Job E → Prop}
    (kept : ∀ past due (h : House) asked slot job, h.settings = settings → P past due slot job →
      let a := Job.step h id { slot := slot, asked := asked } job
      P (past ∧ due h.now) (Stride.due ⟨h.now, slot, job, a⟩) a.scene.slot a.job)
    (reached : hub.Reachable) (same : hub.settings = settings) (here : hub.site? w = some s)
    (known : s.job? id = some job) {past : Prop} {due : Nat → Prop} (holds : P past due s.slot job)
    (moves : List Move) (only : hub.Only w (fun m => ∃ now, m = .step id now) moves) :
    ∃ past' due' last job', (hub.after moves).site? w = some last ∧ last.job? id = some job' ∧
      P past' due' last.slot job' ∧ (past → InTime due (hub.strides w id moves) → past') := by
  induction moves generalizing hub s job past due with
  | nil => exact ⟨past, due, s, job, here, known, holds, fun past _ => past⟩
  | cons m moves ih =>
    have fixed := (move_fixed hub m).1.trans same
    rcases stride_or_still reached.sound here known only.1 with ⟨now, -, took, there⟩ | ⟨none, there⟩
    · have next := kept past due (hub.house now) hub.asked s.slot job same holds
      obtain ⟨past', due', last, job', end_, known', holds', timely⟩ :=
        ih (reached.move m) fixed there (s.take_own ..) next only.2
      refine ⟨past', due', last, job', end_, known', holds', fun past inTime => ?_⟩
      rw [strides, took] at inTime
      exact timely ⟨past, inTime.1⟩ inTime.2
    · obtain ⟨past', due', last, job', end_, known', holds', timely⟩ :=
        ih (reached.move m) fixed there known holds only.2
      refine ⟨past', due', last, job', end_, known', holds', fun past inTime => timely past ?_⟩
      rw [strides, none] at inTime
      exact inTime

/-- What no edit changes is kept as long as there are only edits. -/
theorem Reachable.edited {P : Slot E → Prop}
    (kept : ∀ slot e, P slot → P { slot with state := Edit.apply e slot.state }) (reached : hub.Reachable)
    {slot : Slot E} (open_ : hub.slot w = .ok slot) (holds : P slot) (moves : List Move)
    (only : hub.Only w (fun m => ∃ e, m = .edit w e) moves) :
    ∃ last, (hub.after moves).slot w = .ok last ∧ P last := by
  induction moves generalizing hub slot with
  | nil => exact ⟨slot, open_, holds⟩
  | cons m moves ih =>
    have here : hub.site? w = some ⟨slot, hub.jobOn? w⟩ := site?_eq_some.2 ⟨open_, rfl⟩
    by_cases about : hub.about? m = some w
    · obtain ⟨e, rfl⟩ := only.1 about
      have there := onSlot_site reached.sound (v := w) (f := fun slot => { slot with state := e.apply slot.state })
        (by exact fun _ => rfl) here
      rw [if_pos rfl, ← move_edit] at there
      exact ih (reached.move _) (site?_eq_some.1 there).1 (kept slot e holds) only.2
    · have there := (site?_elsewhere reached.sound about).trans here
      exact ih (reached.move m) (site?_eq_some.1 there).1 holds only.2

/-! ## Calls -/

/-- A job that is handed in is there, and nothing else has changed in its workspace. -/
theorem handed_in (here : hub.site? w = some s) (free : hub.tasks.contains id = false) (operation : Operation) :
    (hub.move (.submit id w operation)).site? w =
      some { s with job? := fun j => if j = id then some { operation := operation } else s.job? j } := by
  have taken : hub.move (.submit id w operation) =
      hub.withTask id { workspace := w, job := { operation := operation } } := by
    simp only [move, free, Bool.false_eq_true, ↓reduceIte]
    rfl
  rw [taken, withTask_site? here]
  simp

/-- An evaluation is handed in at a workspace, and nothing else happens there until it is answered. -/
structure Calls (hub : Hub E) (w : WorkspaceId) (id : JobId) (mode : Mode) (moves : List Move) (reply : Reply) :
    Prop where
  free : hub.tasks.contains id = false
  only : (hub.move (.submit id w (.evaluate mode))).Only w (fun m => ∃ now, m = .step id now) moves
  answered : (hub.after (.submit id w (.evaluate mode) :: moves)).reply? id = some reply

/-- Whether a call is looked after in time. -/
def Timely (hub : Hub E) (w : WorkspaceId) (id : JobId) (mode : Mode) (moves : List Move) : Prop :=
  InTime (fun _ => True) ((hub.move (.submit id w (.evaluate mode))).strides w id moves)

end Hub

end Workbench
