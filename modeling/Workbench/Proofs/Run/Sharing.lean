/-
What is kept of all workspaces in one place.

Each slot has a mailbox and may have a suspended run. A bus has the mailboxes of
all workspaces, and there is a table of all suspended runs; whoever works with
those need not know of slots. What the slots of a hub hold is what such a bus
and such a table hold, at every point of a course of moves: a move does at most
one thing to the bus, with a receiver that is given out and not given up, so the
bus has a history (`Hub.Reachable.dealt`), and all that is known of buses with a
history holds of the hub; and a move stores, takes or clears at most one
suspended run, where a job steps (`Hub.Stores.after`).
-/
import Workbench.Proofs.Run.LifeCycle
import Workbench.Proofs.Signal.Delivery
import Workbench.Workspace.Suspension

namespace Workbench

variable {E : Engine}

/-! ## What a step does to a mailbox -/

/-- What becomes of the mailbox of a workspace and of a receiver's number there: at most one thing is done, if not by
firing or arming then with that number. -/
inductive Mailbox.Used (m : Mailbox) (receiver : Option Nat) : Mailbox → Option Nat → Prop
  | kept : m.Used receiver m receiver
  | fired (s : Signal) : m.Used receiver (m.fire s).1 receiver
  | armed (accepts : Bool) : m.Used receiver (m.arm accepts).1 (some m.next)
  | received {number : Nat} (own : receiver = some number) : m.Used receiver (m.tryReceive number).1 receiver
  | accepted {number : Nat} (own : receiver = some number) (accepts : Bool) :
    m.Used receiver (m.acceptPause number accepts) receiver
  | dropped {number : Nat} (own : receiver = some number) : m.Used receiver (m.drop number) none

namespace Job

variable {h : House} {id : JobId} {sc : Scene E} {job : Job E} {a : Advance E}

/-- A signal is taken out of the queue. -/
theorem took_used {number : Nat} {s : Signal} {rest : List Signal} (receiver : job.receiver = some number)
    (signal : sc.slot.mailbox.queue number = s :: rest) :
    sc.slot.mailbox.Used job.receiver (sc.took number rest).slot.mailbox job.receiver := by
  have taken : (sc.slot.mailbox.tryReceive number).1 = (sc.took number rest).slot.mailbox := by
    unfold Mailbox.tryReceive
    rw [signal]
    rfl
  exact taken ▸ .received receiver

/-- Where the mailbox and the number are as before, nothing is done. -/
theorem kept_used (mailbox : a.scene.slot.mailbox = sc.slot.mailbox) (receiver : a.job.receiver = job.receiver) :
    sc.slot.mailbox.Used job.receiver a.scene.slot.mailbox a.job.receiver := by
  rw [mailbox, receiver]
  exact .kept

/-- Each step of a job does at most one thing to the mailbox, with its own number. -/
theorem Rule.used (rule : Rule h id sc job a) :
    sc.slot.mailbox.Used job.receiver a.scene.slot.mailbox a.job.receiver := by
  cases rule with
  | enqueued =>
    rw [enqueue_slot]
    dsimp only
    split
    · exact .fired .interrupt
    · exact .kept
  | armed | allEmpty | allBegun => exact .armed _
  | pausedEarly _ receiver signal | paused _ _ _ receiver signal => exact took_used receiver signal
  | stoppedEarly _ receiver signal | stopped _ _ _ receiver signal =>
    rw [conclude_slot, (Scene.finishInterrupted_door ..).2.2]
    exact took_used receiver signal
  | gradedEmpty | gradedBegun =>
    simp only [Scene.occur_slot, Scene.sayBriefly_slot, refusePause_slot]
    split
    · next own => exact .accepted own false
    · exact .kept
  | left =>
    rw [leave_slot]
    cases own : job.receiver with
    | some number => exact .dropped rfl
    | none => exact .kept
  | @loaded purpose wait next _ waited =>
    exact kept_used (by rw [(proceed_door ..).2.2, waited.slot]) (proceed_place h next job purpose).2
  | chapter | library => exact kept_used (by rw [(Scene.forgetShown_door _).2.2]; rfl) rfl
  | ended => exact kept_used (by rw [conclude_slot, (finish_door ..).2.2]; rfl) rfl
  | cutShort | aborted | completed => exact kept_used (by rw [endBatch_slot]) rfl
  | launched => exact kept_used (by rw [launch_slot]) rfl
  | _ => exact kept_used rfl rfl

end Job

/-! ## The bus of a hub -/

theorem Receiver.Alive.later {r : Receiver} {h : List Dealing} (alive : r.Alive h) {d : Dealing}
    (other : d ≠ .dropped r) : r.Alive (d :: h) where
  given := alive.given.later d
  kept := fun gone => (List.mem_cons.1 gone).elim (fun same => other same.symm) alive.kept

/-- A bus on which one thing has been done, or nothing, at one workspace and with one receiver there. -/
structure Dealt.Next (h : List Dealing) (b : SignalBus) (w : WorkspaceId) (m : Mailbox) (before after : Option Nat)
    (later : List Dealing) (next : SignalBus) : Prop where
  dealt : Dealt later next
  mailbox : ∀ v, next.mailbox v = if w = v then m else b.mailbox v
  own : ∀ number, after = some number → Receiver.Alive ⟨w, number⟩ later
  others : ∀ r : Receiver, r.Alive h → (∀ number, before = some number → r ≠ ⟨w, number⟩) → r.Alive later

/-- What a job does to the mailbox of its workspace can be done to the bus. -/
theorem Dealt.uses {h : List Dealing} {b : SignalBus} (dealt : Dealt h b) {w : WorkspaceId} {m : Mailbox}
    {before after : Option Nat} (alive : ∀ number, before = some number → Receiver.Alive ⟨w, number⟩ h)
    (used : (b.mailbox w).Used before m after) : ∃ later next, Dealt.Next h b w m before after later next := by
  cases used with
  | kept => exact ⟨h, b, dealt, fun v => by split <;> simp_all, alive, fun _ there _ => there⟩
  | fired s =>
    exact ⟨_, _, dealt.fire w s, b.fire_mailbox w s, fun number own => (alive number own).later nofun,
      fun _ there _ => there.later nofun⟩
  | armed accepts =>
    refine ⟨_, _, dealt.arm w accepts, b.arm_mailbox w accepts, ?_, fun _ there _ => there.later nofun⟩
    rintro _ ⟨⟩
    refine ⟨⟨accepts, .head _⟩, fun gone => ?_⟩
    rcases List.mem_cons.1 gone with same | gone
    · cases same
    · exact dealt.booked.arm_fresh w accepts (dealt.booked.dropped gone)
  | received own =>
    have there := alive _ own
    exact ⟨_, _, dealt.tryReceive there, b.tryReceive_mailbox _, fun number own => (alive number own).later nofun,
      fun _ there _ => there.later nofun⟩
  | accepted own accepts =>
    have there := alive _ own
    exact ⟨_, _, dealt.acceptPause there accepts, b.acceptPause_mailbox _ accepts,
      fun number own => (alive number own).later nofun, fun _ there _ => there.later nofun⟩
  | @dropped number own =>
    have there := alive _ own
    refine ⟨_, _, dealt.drop there, b.drop_mailbox _, nofun, fun r other apart => other.later ?_⟩
    rintro ⟨⟩
    exact apart number own rfl

namespace Hub

variable {hub : Hub E}

/-- The mailbox of a workspace, empty as long as it is not open. -/
def mailbox (hub : Hub E) (w : WorkspaceId) : Mailbox := ((hub.site? w).map (·.slot.mailbox)).getD {}

/-- A bus with a history has the mailboxes of a hub, and the receivers of its jobs are in use. -/
structure Shares (hub : Hub E) (h : List Dealing) (b : SignalBus) : Prop where
  dealt : Dealt h b
  mailbox : ∀ w, b.mailbox w = hub.mailbox w
  alive : ∀ {w id job number}, hub.jobOn? w id = some job → job.receiver = some number → Receiver.Alive ⟨w, number⟩ h

/-- Only what is fired at a workspace and the steps of its jobs reach its mailbox. -/
theorem move_mailbox (sound : hub.Sound) {m : Move} {w : WorkspaceId} (unfired : ∀ sig, m ≠ .signal w sig)
    (still : hub.strideAt? w m = none) : (hub.move m).mailbox w = hub.mailbox w := by
  unfold mailbox
  cases here : hub.site? w with
  | none =>
    rcases (move_closed sound m here).1 with closed | ⟨jobs, opened⟩
    · rw [closed]
    · rw [opened]
      rfl
  | some s =>
    obtain ⟨next, there, rfl | ⟨c, cause, step⟩⟩ := move_site sound m here <;> rw [there]
    cases step with
    | signal sig =>
      cases cause
      exact absurd rfl (unfired sig)
    | step h _ asked id job known =>
      cases cause
      simp [strideAt?, stride?, here, known] at still
    | _ => rfl

/-- A job comes by a receiver only in its own steps. -/
theorem move_receiver (sound : hub.Sound) {m : Move} {w : WorkspaceId} {id : JobId} {job : Job E} {number : Nat}
    (known : (hub.move m).jobOn? w id = some job) (receiver : job.receiver = some number)
    (still : ∀ now, m = .step id now → hub.strideAt? w m = none) : hub.jobOn? w id = some job := by
  cases here : hub.site? w with
  | none =>
    cases ((move_closed sound m here).2 id job known).1.symm.trans receiver
  | some s =>
    obtain ⟨next, there, rfl | ⟨c, cause, step⟩⟩ := move_site sound m here
    · rw [← (site?_eq_some.1 here).2, (site?_eq_some.1 there).2]
      exact known
    · rw [← (site?_eq_some.1 there).2] at known
      rw [← (site?_eq_some.1 here).2]
      cases step with
      | edit | clearOutput | signal => exact known
      | submit j operation free =>
        dsimp only at known
        split at known
        · cases known
          cases receiver
        · exact known
      | step h _ asked j other theirs =>
        by_cases own : id = j
        · subst own
          cases cause
          have none := still _ rfl
          simp [strideAt?, stride?, here, theirs] at none
        · rwa [s.take_other _ own] at known

/-- In a move a job steps at one workspace at most. -/
theorem strideAt?_unique {m : Move} {w v : WorkspaceId} {step other : Stride E} (here : hub.strideAt? w m = some step)
    (there : hub.strideAt? v m = some other) : w = v := by
  cases m with
  | step id now =>
    obtain ⟨s, site, -, known, -⟩ := stride?_eq_some (show hub.stride? w id (.step id now) = some step from here)
    obtain ⟨t, place, -, again, -⟩ := stride?_eq_some (show hub.stride? v id (.step id now) = some other from there)
    rw [(site?_eq_some.1 site).2, jobOn?_eq_some] at known
    rw [(site?_eq_some.1 place).2, jobOn?_eq_some] at again
    exact congrArg Task.workspace (Option.some.inj (known.symm.trans again))
  | _ => cases here

/-- A signal that is fired at a workspace reaches its mailbox, if there is one. -/
theorem signal_mailbox (sound : hub.Sound) (w : WorkspaceId) (sig : Signal) (v : WorkspaceId) :
    (hub.move (.signal w sig)).mailbox v = if w = v then ((hub.mailbox w).fire sig).1 else hub.mailbox v := by
  unfold mailbox
  rw [move_signal]
  cases here : hub.site? v with
  | none =>
    rw [onSlot_closed sound (by exact fun _ => rfl) here]
    split
    · next same =>
      subst same
      rw [here]
      rfl
    · rfl
  | some s =>
    rw [onSlot_site sound (by exact fun _ => rfl) here]
    split
    · next same =>
      subst same
      rw [here]
      rfl
    · rfl

namespace Shares

variable {h : List Dealing} {b : SignalBus}

/-- A move in which no job steps and nothing is fired does nothing to the bus. -/
theorem still (shares : hub.Shares h b) (sound : hub.Sound) {m : Move} (unfired : ∀ w sig, m ≠ .signal w sig)
    (still : ∀ w, hub.strideAt? w m = none) : (hub.move m).Shares h b where
  dealt := shares.dealt
  mailbox := fun w => (shares.mailbox w).trans (hub.move_mailbox sound (unfired w) (still w)).symm
  alive := fun {w} _ _ _ known receiver =>
    shares.alive (hub.move_receiver sound known receiver fun _ _ => still w) receiver

theorem signal (shares : hub.Shares h b) (sound : hub.Sound) (w : WorkspaceId) (sig : Signal) :
    (hub.move (.signal w sig)).Shares (.fired w sig (b.fire w sig).2 :: h) (b.fire w sig).1 where
  dealt := shares.dealt.fire w sig
  mailbox := fun v => by rw [hub.signal_mailbox sound, b.fire_mailbox, shares.mailbox, shares.mailbox]
  alive := fun known receiver =>
    (shares.alive (hub.move_receiver sound known receiver nofun) receiver).later nofun

/-- A job steps: it uses its own receiver, and whoever else has one has another. -/
theorem step (shares : hub.Shares h b) (reached : hub.Reachable) {w : WorkspaceId} {id : JobId} {now : Nat}
    {stride : Stride E} (took : hub.strideAt? w (.step id now) = some stride) :
    ∃ later next, (hub.move (.step id now)).Shares later next := by
  obtain ⟨s, here, -, known, -⟩ := stride?_eq_some (show hub.stride? w id (.step id now) = some stride from took)
  have there := (step_own reached.sound here known now).1
  have jobs := (site?_eq_some.1 here).2
  have mailbox : b.mailbox w = s.slot.mailbox := by
    rw [shares.mailbox, Hub.mailbox, here]
    rfl
  have rule := Job.step_rule (hub.house now) id { slot := s.slot, asked := hub.asked } stride.job
  obtain ⟨later, next, goes⟩ := shares.dealt.uses (fun _ own => shares.alive (jobs ▸ known) own) (mailbox ▸ rule.used)
  have elsewhere : ∀ {v}, v ≠ w → hub.strideAt? v (.step id now) = none := by
    intro v other
    cases again : hub.strideAt? v (.step id now) with
    | none => rfl
    | some _ => exact absurd (strideAt?_unique again took) other
  refine ⟨later, next, goes.dealt, fun v => ?_, fun {v j job number} later receiver => ?_⟩
  · rw [goes.mailbox]
    split
    · next same =>
      subst same
      rw [Hub.mailbox, Hub.move, there]
      rfl
    · next other =>
      have kept := hub.move_mailbox reached.sound (fun _ => Move.noConfusion) (elsewhere (Ne.symm other))
      exact (shares.mailbox v).trans kept.symm
  · by_cases own : v = w ∧ j = id
    · obtain ⟨rfl, rfl⟩ := own
      have made := (site?_eq_some.1 there).2.symm
      rw [Hub.move, made, s.take_own, Option.some.injEq] at later
      subst later
      exact goes.own number receiver
    · -- a job that does not step had its receiver before
      have before : hub.jobOn? v j = some job := by
        refine hub.move_receiver reached.sound later receiver fun _ same => ?_
        cases same
        exact elsewhere fun same => own ⟨same, rfl⟩
      refine goes.others _ (shares.alive before receiver) fun _ theirs same => ?_
      cases same
      have owned := reached.owned here
      have holder := owned.holder known theirs
      cases holder.symm.trans (owned.holder (jobs ▸ before) receiver)
      exact own ⟨rfl, rfl⟩

/-- The bus goes along with a move: one thing is done to it at most. -/
theorem move (shares : hub.Shares h b) (reached : hub.Reachable) (m : Move) :
    ∃ later next, (hub.move m).Shares later next := by
  cases m with
  | signal w sig => exact ⟨_, _, shares.signal reached.sound w sig⟩
  | step id now =>
    by_cases took : ∃ w stride, hub.strideAt? w (.step id now) = some stride
    · obtain ⟨w, stride, took⟩ := took
      exact shares.step reached took
    · refine ⟨h, b, shares.still reached.sound nofun fun w => ?_⟩
      rw [Option.eq_none_iff_forall_ne_some]
      exact fun stride here => took ⟨w, stride, here⟩
  | _ => exact ⟨h, b, shares.still reached.sound nofun fun _ => rfl⟩

end Shares

/-- There is a bus with a history that has all mailboxes, at every point of a course of moves. -/
theorem Reachable.dealt (reached : hub.Reachable) : ∃ h b, hub.Shares h b := by
  induction reached with
  | create settings loader =>
    have empty := Sound.empty (E := E) settings loader
    have shares : ({ settings := settings, loader := loader } : Hub E).Shares [] {} := {
      dealt := .fresh
      mailbox := fun _ => rfl
      alive := fun known => by cases jobOn?_eq_some.1 known }
    have first := shares.still empty (m := .openWorkspace .playground) nofun fun _ => rfl
    exact ⟨[], {}, first.still (empty.move _) (m := .openWorkspace .assessment) nofun fun _ => rfl⟩
  | move reached m ih =>
    obtain ⟨h, b, shares⟩ := ih
    exact shares.move reached m

/-- What waits for a job has the order that a bus gives it: one pause at most, and behind it one interrupt. -/
theorem Reachable.waiting (reached : hub.Reachable) {w : WorkspaceId} {s : Site E} (here : hub.site? w = some s)
    {id : JobId} {job : Job E} {number : Nat} (known : s.job? id = some job) (receiver : job.receiver = some number) :
    s.slot.mailbox.queue number ∈ [[], [.pause], [.interrupt], [.pause, .interrupt]] := by
  obtain ⟨h, b, shares⟩ := reached.dealt
  have alive := shares.alive ((site?_eq_some.1 here).2 ▸ known) receiver
  have queue : b.queue ⟨w, number⟩ = s.slot.mailbox.queue number := by
    rw [SignalBus.queue, shares.mailbox, Hub.mailbox, here]
    rfl
  have rest := List.suffix_append (Receiver.taken ⟨w, number⟩ h) (s.slot.mailbox.queue number)
  rw [← queue, ← shares.dealt.booked.queue alive] at rest
  rw [← queue]
  have order := shares.dealt.booked.order ⟨w, number⟩
  simp only [List.mem_cons, List.not_mem_nil, or_false] at order ⊢
  rcases order with all | all | all | all <;> rw [all] at rest <;>
    simp only [List.suffix_cons_iff, List.suffix_nil] at rest <;> grind

/-! ## The suspended runs of a hub -/

/-- A table has the runs that are stored for the workspaces of a hub. -/
def Stores (hub : Hub E) (x : Suspensions E.Snapshot) : Prop := ∀ w, x.table.get? w = hub.suspended? w

/-- What a move does to such a table: nothing, or one thing for the workspace in which a job steps. -/
inductive Handles (hub : Hub E) (m : Move) (x : Suspensions E.Snapshot) : Suspensions E.Snapshot → Prop
  | kept (calm : ∀ w step, hub.strideAt? w m = some step → step.Calm) : hub.Handles m x x
  | stored {w : WorkspaceId} {step : Stride E} {mode : Mode} {s : Suspension E.Snapshot}
    (took : hub.strideAt? w m = some step) (suspends : step.Suspends mode s) : hub.Handles m x (x.store w s)
  | taken {w : WorkspaceId} {step : Stride E} {s : Suspension E.Snapshot} (took : hub.strideAt? w m = some step)
    (resumes : step.Resumes s) (answer : (x.take w).2 = some s) : hub.Handles m x (x.take w).1
  | cleared {w : WorkspaceId} {step : Stride E} (took : hub.strideAt? w m = some step) (forgets : step.Forgets) :
    hub.Handles m x (x.clear w)

/-- What a course of moves does to it, move by move. -/
inductive HandlesAll : Hub E → List Move → Suspensions E.Snapshot → Suspensions E.Snapshot → Prop
  | nil {hub : Hub E} {x : Suspensions E.Snapshot} : HandlesAll hub [] x x
  | cons {hub : Hub E} {m : Move} {moves : List Move} {x y z : Suspensions E.Snapshot} (handles : hub.Handles m x y)
    (rest : (hub.move m).HandlesAll moves y z) : HandlesAll hub (m :: moves) x z

namespace Stores

variable {x : Suspensions E.Snapshot}

/-- What can be asked of the table. -/
theorem answers (stores : hub.Stores x) (w : WorkspaceId) :
    x.contains w = (hub.suspended? w).isSome ∧ x.location? w = (hub.suspended? w).bind (·.location) :=
  ⟨congrArg Option.isSome (stores w), congrArg (·.bind (·.location)) (stores w)⟩

/-- Elsewhere than where a job steps, what is stored stays. -/
theorem changed (stores : hub.Stores x) (reached : hub.Reachable) {m : Move} {w : WorkspaceId} {step : Stride E}
    (took : hub.strideAt? w m = some step) (v : WorkspaceId) :
    (hub.move m).suspended? v = if w = v then (hub.move m).suspended? w else x.table.get? v := by
  split
  · next same => rw [same]
  · next other =>
    rw [stores v]
    refine reached.sound.suspended?_move (Option.eq_none_iff_forall_ne_some.2 fun _ there => ?_)
    exact other (strideAt?_unique took there)

/-- The table goes along with a move: at most one thing is done to it. -/
theorem move (stores : hub.Stores x) (reached : hub.Reachable) (m : Move) :
    ∃ y, hub.Handles m x y ∧ (hub.move m).Stores y := by
  by_cases calm : ∀ w step, hub.strideAt? w m = some step → step.Calm
  · exact ⟨x, .kept calm, fun w => (stores w).trans ((reached.turns w m).kept (calm w)).symm⟩
  · simp only [not_forall] at calm
    obtain ⟨w, step, took, uncalm⟩ := calm
    have turns := reached.turns w m
    have changed := stores.changed reached took
    by_cases forgets : step.Forgets
    · have gone := turns.forgotten step took forgets
      have erased : ∀ v, (x.table.erase w).get? v = (hub.move m).suspended? v := by
        intro v
        rw [changed v, gone, Table.get?_erase]
      by_cases resumes : ∃ s, step.Resumes s
      · obtain ⟨s, resumes⟩ := resumes
        have answer : (x.take w).2 = some s :=
          (stores w).trans ((reached.strideAt took).2.2.2.1.trans resumes.found)
        exact ⟨_, .taken took resumes answer, erased⟩
      · exact ⟨_, .cleared took forgets, erased⟩
    · have suspends : ∃ mode s, step.Suspends mode s := by
        by_contra none
        exact uncalm ⟨forgets, fun mode s suspends => none ⟨mode, s, suspends⟩⟩
      obtain ⟨mode, s, suspends⟩ := suspends
      refine ⟨_, .stored took suspends, fun v => ?_⟩
      rw [changed v, turns.stored step mode s took suspends]
      exact Table.get?_set ..

/-- A new hub has nothing stored. -/
theorem create (settings : Settings) (loader : Loader) : (Hub.create settings loader : Hub E × _).1.Stores {} := by
  have empty := Sound.empty (E := E) settings loader
  intro w
  exact (((empty.move (.openWorkspace .playground)).suspended?_move (m := .openWorkspace .assessment) rfl).trans
    (empty.suspended?_move (m := .openWorkspace .playground) rfl)).symm

/-- The table goes along with a course of moves. -/
theorem after (stores : hub.Stores x) (reached : hub.Reachable) (moves : List Move) :
    ∃ y, hub.HandlesAll moves x y ∧ (hub.after moves).Stores y := by
  induction moves generalizing hub x with
  | nil => exact ⟨x, .nil, stores⟩
  | cons m moves ih =>
    obtain ⟨y, handles, later⟩ := stores.move reached m
    obtain ⟨z, others, last⟩ := ih later (reached.move m)
    exact ⟨z, .cons handles others, last⟩

end Stores

end Hub

end Workbench
