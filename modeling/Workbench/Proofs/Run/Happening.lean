/-
What a move does at an open workspace.

Nothing, or what it is there for: `Hub.Happens` has a case for each kind of move,
and `Hub.Reachable.happens` has every move of a run among them. A step of a job is
the only one at which anything is told.
-/
import Workbench.Proofs.Run.LifeCycle

namespace Workbench

variable {E : Engine}

theorem Table.mem_of_get? {κ α : Type} [DecidableEq κ] {t : Table κ α} {k : κ} {a : α} (held : t.get? k = some a) :
    (k, a) ∈ t.entries := by
  obtain ⟨entries⟩ := t
  simp only [Table.get?] at held
  induction entries with
  | nil => cases held
  | cons e rest ih =>
    obtain ⟨j, b⟩ := e
    by_cases same : j = k
    · subst same
      simp only [find, ↓reduceIte, Option.some.injEq] at held
      exact held ▸ .head _
    · simp only [find, same, ↓reduceIte] at held
      exact .tail _ (ih held)

namespace Hub

variable {hub : Hub E} {w : WorkspaceId} {s : Site E}

/-- What holds of all jobs holds of those of a workspace. -/
theorem jobs_of_all (p : Job E → Bool) (all : hub.tasks.entries.all (fun e => p e.2.job) = true) {id : JobId}
    {job : Job E} (known : hub.jobOn? w id = some job) : p job = true :=
  List.all_eq_true.1 all _ (Table.mem_of_get? (jobOn?_eq_some.1 known))

/-- Where no job steps, a given one does not. -/
theorem stride?_of_strideAt? {id : JobId} {m : Move} (still : hub.strideAt? w m = none) :
    hub.stride? w id m = none := by
  cases m with
  | step j now =>
    by_cases own : j = id
    · exact own ▸ still
    · simp [stride?, own]
  | _ => rfl

/-- What a move does at an open workspace: nothing, or what it is there for. -/
inductive Happens (hub : Hub E) (w : WorkspaceId) (s : Site E) : Move → Site E → Prop
  | still {m : Move} (none : hub.strideAt? w m = none) : hub.Happens w s m s
  | edit (e : Edit) : hub.Happens w s (.edit w e) { s with slot := { s.slot with state := e.apply s.slot.state } }
  | clearOutput :
    hub.Happens w s (.clearOutput w)
      { s with slot := { s.slot with state := s.slot.state.onOutput fun _ => .cleared } }
  | signal (sig : Signal) :
    hub.Happens w s (.signal w sig) { s with slot := { s.slot with mailbox := (s.slot.mailbox.fire sig).1 } }
  | submit (id : JobId) (operation : Operation) (free : s.job? id = none) :
    hub.Happens w s (.submit id w operation)
      { s with job? := fun j => if j = id then some { operation := operation } else s.job? j }
  | step {id : JobId} {job : Job E} {a : Advance E} (now : Nat) (known : s.job? id = some job)
    (made : a = Job.step (hub.house now) id { slot := s.slot, asked := hub.asked } job)
    (took : hub.strideAt? w (.step id now) = some ⟨now, s.slot, job, a⟩) :
    hub.Happens w s (.step id now) (s.take id a)

/-- Every move does one of these. -/
theorem Sound.happens (sound : hub.Sound) (here : hub.site? w = some s) (m : Move) :
    ∃ next, (hub.move m).site? w = some next ∧ hub.Happens w s m next := by
  cases took : hub.strideAt? w m with
  | some own =>
    cases m with
    | step id now =>
      obtain ⟨s', here', -, known, -⟩ := stride?_eq_some (show hub.stride? w id (.step id now) = some own from took)
      cases here.symm.trans here'
      have stepped := (step_own sound here known now).1
      exact ⟨_, stepped, .step now known rfl (by simp [strideAt?, stride?, here, known])⟩
    | _ => cases took
  | none =>
    obtain ⟨next, there, rfl | ⟨c, cause, step⟩⟩ := move_site sound m here
    · exact ⟨next, there, .still took⟩
    · refine ⟨next, there, ?_⟩
      cases step with
      | step _ _ _ id job known =>
        cases cause
        simp [strideAt?, stride?, here, known] at took
      | edit e => cases cause; exact .edit e
      | clearOutput => cases cause; exact .clearOutput
      | signal sig => cases cause; exact .signal sig
      | submit id operation free => cases cause; exact .submit id operation free

theorem Reachable.happens (reached : hub.Reachable) (here : hub.site? w = some s) (m : Move) :
    ∃ next, (hub.move m).site? w = some next ∧ hub.Happens w s m next :=
  reached.sound.happens here m

end Hub

end Workbench
