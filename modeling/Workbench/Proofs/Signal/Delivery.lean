/-
What a signal bus delivers, whatever was done with it before.

The bus is compared with its history: everything that was done with it since it
was new, each thing with the answer it got (`Dealt`). The history says, without
looking at the bus, which receiver was armed last on a workspace, what was fired
at a receiver in that time and what it has received, and one invariant ties the
bus to it (`Booked`). A receiver that was replaced is in the history like any
other, so nothing has to be said about it apart: it is not the one armed last.

Receivers are used as their owners can use them: one that was given out, and
only until it is given up.
-/
import Workbench.Proofs.Signal.Mailbox
import Workbench.Signal.Bus

namespace Workbench

/-! ## The bus and its receivers -/

/-- The signals that one look into a queue has taken out of it. -/
def Received.taken : Received → List Signal
  | .signal s => [s]
  | .pending | .disarmed => []

/-- On one workspace, receivers differ by their numbers. -/
theorem Receiver.eq_of_number {q r : Receiver} (same : q.workspace = r.workspace) (number : q.number = r.number) :
    q = r := by
  cases q
  cases r
  simp_all

namespace SignalBus

variable {b : SignalBus} {r q : Receiver}

@[simp] theorem mailbox_withMailbox (b : SignalBus) (w v : WorkspaceId) (m : Mailbox) :
    (b.withMailbox w m).mailbox v = if w = v then m else b.mailbox v := by
  by_cases same : w = v <;> simp [mailbox, withMailbox, same]

/-- A number is given out anew only by arming. -/
theorem next_withMailbox (b : SignalBus) {w : WorkspaceId} {m : Mailbox} (same : m.next = (b.mailbox w).next)
    (v : WorkspaceId) : ((b.withMailbox w m).mailbox v).next = (b.mailbox v).next := by
  rw [mailbox_withMailbox]
  split
  · next here => rw [same, here]
  · rfl

theorem arm_receiver (b : SignalBus) (w : WorkspaceId) (accepts : Bool) :
    (b.arm w accepts).2 = ⟨w, (b.mailbox w).next⟩ := rfl

theorem arm_mailbox (b : SignalBus) (w : WorkspaceId) (accepts : Bool) (v : WorkspaceId) :
    (b.arm w accepts).1.mailbox v = if w = v then ((b.mailbox w).arm accepts).1 else b.mailbox v :=
  mailbox_withMailbox ..

theorem fire_answer (b : SignalBus) (w : WorkspaceId) (s : Signal) : (b.fire w s).2 = ((b.mailbox w).fire s).2 := rfl

theorem fire_mailbox (b : SignalBus) (w : WorkspaceId) (s : Signal) (v : WorkspaceId) :
    (b.fire w s).1.mailbox v = if w = v then ((b.mailbox w).fire s).1 else b.mailbox v :=
  mailbox_withMailbox ..

/-- Where nothing is delivered, the mailbox is as it was. -/
theorem fire_elsewhere {w v : WorkspaceId} {s : Signal} (apart : ¬ ((b.fire w s).2 = true ∧ w = v)) :
    (b.fire w s).1.mailbox v = b.mailbox v := by
  rw [fire_mailbox]
  by_cases here : w = v
  · rw [if_pos here, Mailbox.fire_unheard (Bool.eq_false_iff.2 fun heard => apart ⟨heard, here⟩), here]
  · rw [if_neg here]

theorem acceptPause_mailbox (b : SignalBus) (r : Receiver) (accepts : Bool) (v : WorkspaceId) :
    (b.acceptPause r accepts).mailbox v =
      if r.workspace = v then (b.mailbox r.workspace).acceptPause r.number accepts else b.mailbox v :=
  mailbox_withMailbox ..

theorem tryReceive_mailbox (b : SignalBus) (r : Receiver) (v : WorkspaceId) :
    (b.tryReceive r).1.mailbox v =
      if r.workspace = v then ((b.mailbox r.workspace).tryReceive r.number).1 else b.mailbox v :=
  mailbox_withMailbox ..

/-- Waiting for a signal takes what a look takes. -/
theorem receive_bus (b : SignalBus) (r : Receiver) : (b.receive r).1 = (b.tryReceive r).1 := by
  simp only [receive, tryReceive, Mailbox.receive_mailbox]

theorem drop_mailbox (b : SignalBus) (r : Receiver) (v : WorkspaceId) :
    (b.drop r).mailbox v = if r.workspace = v then (b.mailbox r.workspace).drop r.number else b.mailbox v :=
  mailbox_withMailbox ..

/-- What was delivered to a receiver and not yet received. -/
def queue (b : SignalBus) (r : Receiver) : List Signal := (b.mailbox r.workspace).queue r.number

theorem arm_queue_self (b : SignalBus) (w : WorkspaceId) (accepts : Bool) :
    (b.arm w accepts).1.queue (b.arm w accepts).2 = [] := by
  simp [queue, arm_mailbox, arm_receiver, Mailbox.arm, Mailbox.queue]

theorem arm_queue (w : WorkspaceId) (accepts : Bool) (given : r.number < (b.mailbox r.workspace).next) :
    (b.arm w accepts).1.queue r = b.queue r := by
  unfold queue
  rw [arm_mailbox]
  split
  · next here =>
    subst here
    simp [Mailbox.arm, Mailbox.queue, Nat.ne_of_gt given]
  · rfl

theorem acceptPause_queue (b : SignalBus) (r : Receiver) (accepts : Bool) (q : Receiver) :
    (b.acceptPause r accepts).queue q = b.queue q := by
  unfold queue
  rw [acceptPause_mailbox]
  split
  · next here =>
    rw [← here]
    rfl
  · rfl

theorem tryReceive_head (b : SignalBus) (r : Receiver) : (b.tryReceive r).2 = (b.queue r).head? :=
  Mailbox.tryReceive_head ..

theorem tryReceive_queue (b : SignalBus) (r q : Receiver) :
    (b.tryReceive r).1.queue q = if r = q then (b.queue r).tail else b.queue q := by
  unfold queue
  rw [tryReceive_mailbox]
  by_cases same : r = q
  · subst same
    simp [Mailbox.tryReceive_queue]
  · by_cases here : r.workspace = q.workspace
    · have other : r.number ≠ q.number := fun number => same (Receiver.eq_of_number here number)
      simp [here, Mailbox.tryReceive_queue, same, other]
    · simp [here, same]

/-- What waiting for a signal shows. -/
theorem receive_shown (b : SignalBus) (r : Receiver) :
    (b.receive r).2 = match b.queue r with
      | s :: _ => .signal s
      | [] => if (b.mailbox r.workspace).listens r.number then .pending else .disarmed :=
  Mailbox.receive_shown ..

theorem receive_signal_iff (b : SignalBus) (r : Receiver) (s : Signal) :
    (b.receive r).2 = .signal s ↔ (b.queue r).head? = some s := by
  rw [receive_shown]
  cases b.queue r with
  | nil => by_cases listens : (b.mailbox r.workspace).listens r.number <;> simp [listens]
  | cons first rest => simp

theorem receive_taken (b : SignalBus) (r : Receiver) : (b.receive r).2.taken = (b.tryReceive r).2.toList := by
  rw [receive_shown, tryReceive_head]
  cases b.queue r with
  | nil => by_cases listens : (b.mailbox r.workspace).listens r.number <;> simp [listens, Received.taken]
  | cons s rest => rfl

theorem drop_queue (b : SignalBus) {r q : Receiver} (other : r ≠ q) : (b.drop r).queue q = b.queue q := by
  unfold queue
  rw [drop_mailbox]
  split
  · next here =>
    have number : r.number ≠ q.number := fun number => other (Receiver.eq_of_number here number)
    rw [Mailbox.drop_queue, if_neg number, here]
  · rfl

end SignalBus

/-- One thing that was done with a bus, with the answer that was given. -/
inductive Dealing where
  | armed (r : Receiver) (accepts : Bool)
  | fired (w : WorkspaceId) (s : Signal) (delivered : Bool)
  | accepted (r : Receiver) (accepts : Bool)
  | tried (r : Receiver) (got : Option Signal)
  | received (r : Receiver) (got : Received)
  | dropped (r : Receiver)
  deriving DecidableEq

/-! ## What a history says

A history has the newest dealing in front. -/

section History

variable {w : WorkspaceId} {r q : Receiver} {h : List Dealing}

/-- The receiver that was armed last on the workspace. -/
def WorkspaceId.latest (w : WorkspaceId) : List Dealing → Option Receiver
  | [] => none
  | .armed r _ :: earlier => if r.workspace = w then some r else w.latest earlier
  | _ :: earlier => w.latest earlier

namespace Receiver

/-- The signals that were fired at the receiver's workspace while it was the one armed last there, each with
whether it was delivered. -/
def firings (r : Receiver) : List Dealing → List (Signal × Bool)
  | [] => []
  | .fired w s delivered :: earlier =>
    if w.latest earlier = some r then r.firings earlier ++ [(s, delivered)] else r.firings earlier
  | _ :: earlier => r.firings earlier

/-- The signals ever delivered to the receiver. -/
def delivered (r : Receiver) (h : List Dealing) : List Signal := ((r.firings h).filter (·.2)).map (·.1)

/-- The signals that the receiver has received. -/
def taken (r : Receiver) : List Dealing → List Signal
  | [] => []
  | .tried q got :: earlier => if q = r then r.taken earlier ++ got.toList else r.taken earlier
  | .received q got :: earlier => if q = r then r.taken earlier ++ got.taken else r.taken earlier
  | _ :: earlier => r.taken earlier

/-- Whether the receiver accepts pauses: what was said of it last. -/
def accepts (r : Receiver) : List Dealing → Bool
  | [] => false
  | .armed q accepts :: earlier | .accepted q accepts :: earlier => if q = r then accepts else r.accepts earlier
  | _ :: earlier => r.accepts earlier

/-- The receiver was given out. -/
def Given (r : Receiver) (h : List Dealing) : Prop := ∃ accepts, .armed r accepts ∈ h

/-- The receiver was given out and is not given up. -/
structure Alive (r : Receiver) (h : List Dealing) : Prop where
  given : r.Given h
  kept : .dropped r ∉ h

theorem Given.later (given : r.Given h) (d : Dealing) : r.Given (d :: h) :=
  given.imp fun _ armed => List.mem_cons_of_mem _ armed

theorem Given.of_armed {accepts : Bool} (given : r.Given (.armed q accepts :: h)) : r = q ∨ r.Given h := by
  simpa [Given, or_and_right, exists_or] using given

theorem Given.of_quiet {d : Dealing} (given : r.Given (d :: h)) (quiet : ∀ accepts, d ≠ .armed r accepts) : r.Given h :=
  given.imp fun accepts armed => (List.mem_cons.1 armed).resolve_left fun same => quiet accepts same.symm

theorem Alive.of_later {d : Dealing} (alive : r.Alive (d :: h)) (given : r.Given h) : r.Alive h :=
  ⟨given, fun dropped => alive.kept (List.mem_cons_of_mem _ dropped)⟩

/-- The listener that stands for a receiver, if it was the one armed last. -/
def listener (r : Receiver) (h : List Dealing) : Option Listener :=
  if .dropped r ∈ h ∨ .interrupt ∈ r.delivered h then none
  else some { number := r.number, acceptsPause := r.accepts h, pauseDelivered := .pause ∈ r.delivered h }

theorem mem_delivered {s : Signal} : s ∈ r.delivered h ↔ (s, true) ∈ r.firings h := by
  simp [delivered]

/-- What has to be said of a receiver for its listener to be the same. -/
theorem listener_congr {later : List Dealing} (dropped : .dropped r ∈ later ↔ .dropped r ∈ h)
    (delivered : r.delivered later = r.delivered h) (accepts : r.accepts later = r.accepts h) :
    r.listener h = r.listener later := by
  simp only [listener, dropped, delivered, accepts]

theorem listener_eq_some {l : Listener} : r.listener h = some l ↔
    .dropped r ∉ h ∧ .interrupt ∉ r.delivered h ∧
      l = { number := r.number, acceptsPause := r.accepts h, pauseDelivered := .pause ∈ r.delivered h } := by
  unfold listener
  split
  · next gone => exact ⟨nofun, fun ⟨kept, uninterrupted, _⟩ => (gone.elim kept uninterrupted).elim⟩
  · next here =>
    obtain ⟨kept, uninterrupted⟩ := not_or.1 here
    simp [kept, uninterrupted, eq_comm]

theorem listener_dropped (r : Receiver) (h : List Dealing) : r.listener (.dropped r :: h) = none :=
  if_pos (.inl List.mem_cons_self)

/-- What a receiver says about pauses is about its own listener. -/
theorem listener_accepted (same : q.workspace = r.workspace) (accepts : Bool) :
    q.listener (.accepted r accepts :: h) =
      (q.listener h).map fun l => if l.number = r.number then { l with acceptsPause := accepts } else l := by
  have delivered : q.delivered (.accepted r accepts :: h) = q.delivered h := rfl
  have own : q.number = r.number ↔ r = q :=
    ⟨fun number => (eq_of_number same number).symm, fun equal => equal ▸ rfl⟩
  unfold listener
  rw [delivered]
  simp only [List.mem_cons, reduceCtorEq, false_or]
  split
  · rfl
  · rw [Option.map_some]
    by_cases equal : r = q <;> simp [own, Receiver.accepts, equal]

theorem mem_firings_fired {w : WorkspaceId} {s : Signal} {answer : Bool} {f : Signal × Bool} :
    f ∈ r.firings (.fired w s answer :: h) ↔ f ∈ r.firings h ∨ w.latest h = some r ∧ f = (s, answer) := by
  by_cases last : w.latest h = some r <;> simp [firings, last]

theorem delivered_fired (r : Receiver) (w : WorkspaceId) (s : Signal) (answer : Bool) (h : List Dealing) :
    r.delivered (.fired w s answer :: h) =
      if answer = true ∧ w.latest h = some r then r.delivered h ++ [s] else r.delivered h := by
  by_cases last : w.latest h = some r <;> cases answer <;> simp [delivered, firings, last]

theorem delivered_prefix (r : Receiver) (w : WorkspaceId) (s : Signal) (answer : Bool) (h : List Dealing) :
    r.delivered h <+: r.delivered (.fired w s answer :: h) := by
  rw [r.delivered_fired]
  split
  · exact List.prefix_append ..
  · exact List.prefix_refl _

end Receiver

theorem WorkspaceId.latest_fired (v w : WorkspaceId) (s : Signal) (answer : Bool) (h : List Dealing) :
    v.latest (.fired w s answer :: h) = v.latest h := rfl

theorem WorkspaceId.latest_dropped (v : WorkspaceId) (r : Receiver) (h : List Dealing) :
    v.latest (.dropped r :: h) = v.latest h := rfl

theorem WorkspaceId.latest_given (last : w.latest h = some r) : r.workspace = w ∧ r.Given h := by
  fun_induction WorkspaceId.latest w h with
  | case1 => cases last
  | case2 r' accepts earlier here =>
    cases last
    exact ⟨here, accepts, List.mem_cons_self⟩
  | case3 r' accepts earlier elsewhere ih => exact (ih last).imp_right (·.later _)
  | case4 d earlier _ ih => exact (ih last).imp_right (·.later _)

/-- Nothing is fired at a receiver that was not given out. -/
theorem Receiver.firings_unknown (unknown : ¬ r.Given h) : r.firings h = [] := by
  fun_induction Receiver.firings r h with
  | case1 => rfl
  | case2 w s delivered earlier last ih => exact absurd ((WorkspaceId.latest_given last).2.later _) unknown
  | case3 w s delivered earlier _ ih => exact ih fun given => unknown (given.later _)
  | case4 d earlier _ ih => exact ih fun given => unknown (given.later _)

end History

theorem Receiver.taken_tried (r q : Receiver) (got : Option Signal) (h : List Dealing) :
    r.taken (.tried q got :: h) = if q = r then r.taken h ++ got.toList else r.taken h := rfl

theorem Receiver.taken_received (r q : Receiver) (shown : Received) (h : List Dealing) :
    r.taken (.received q shown :: h) = if q = r then r.taken h ++ shown.taken else r.taken h := rfl

/-- One pause at most and one interrupt at most, the interrupt last: what may be delivered next. -/
theorem Signal.order_append {before : List Signal} {s : Signal}
    (order : before ∈ [[], [Signal.pause], [.interrupt], [.pause, .interrupt]]) (uninterrupted : .interrupt ∉ before)
    (wanted : s = .interrupt ∨ .pause ∉ before) :
    before ++ [s] ∈ [[], [Signal.pause], [.interrupt], [.pause, .interrupt]] := by
  have few : before = [] ∨ before = [.pause] := by
    simp only [List.mem_cons, List.not_mem_nil, or_false] at order
    rcases order with rfl | rfl | rfl | rfl <;> simp at uninterrupted ⊢
  rcases few with rfl | rfl
  · cases s <;> simp
  · have last : s = .interrupt := wanted.resolve_right (by simp)
    simp [last]

/-! ## The bus and its history -/

/-- A history that a new bus can have, and the bus it leads to. -/
inductive Dealt : List Dealing → SignalBus → Prop
  | fresh : Dealt [] {}
  | arm {h b} (dealt : Dealt h b) (w : WorkspaceId) (accepts : Bool) :
    Dealt (.armed (b.arm w accepts).2 accepts :: h) (b.arm w accepts).1
  | fire {h b} (dealt : Dealt h b) (w : WorkspaceId) (s : Signal) :
    Dealt (.fired w s (b.fire w s).2 :: h) (b.fire w s).1
  | acceptPause {h b r} (dealt : Dealt h b) (alive : r.Alive h) (accepts : Bool) :
    Dealt (.accepted r accepts :: h) (b.acceptPause r accepts)
  | tryReceive {h b r} (dealt : Dealt h b) (alive : r.Alive h) :
    Dealt (.tried r (b.tryReceive r).2 :: h) (b.tryReceive r).1
  | receive {h b r} (dealt : Dealt h b) (alive : r.Alive h) :
    Dealt (.received r (b.receive r).2 :: h) (b.receive r).1
  | drop {h b r} (dealt : Dealt h b) (alive : r.Alive h) :
    Dealt (.dropped r :: h) (b.drop r)

/-- A bus as its history has it. -/
structure Booked (h : List Dealing) (b : SignalBus) : Prop where
  /-- a number that was given out is not given out again -/
  number {r : Receiver} (given : r.Given h) : r.number < (b.mailbox r.workspace).next
  /-- only a receiver that was given out is given up -/
  dropped {r : Receiver} (dropped : .dropped r ∈ h) : r.Given h
  /-- who listens on a workspace is the receiver armed last there -/
  listener (w : WorkspaceId) : (b.mailbox w).listener = (w.latest h).bind (·.listener h)
  /-- an interrupt is missed only by a receiver that is given up or has got one -/
  missed {r : Receiver} (missed : (.interrupt, false) ∈ r.firings h) : .dropped r ∈ h ∨ .interrupt ∈ r.delivered h
  /-- at most one pause and behind it at most one interrupt -/
  order (r : Receiver) : r.delivered h ∈ [[], [.pause], [.interrupt], [.pause, .interrupt]]
  /-- what is received is the beginning of what was delivered -/
  taken (r : Receiver) : r.taken h <+: r.delivered h
  /-- what is not yet received waits -/
  queue {r : Receiver} (alive : r.Alive h) : r.delivered h = r.taken h ++ b.queue r

namespace Booked

variable {h : List Dealing} {b : SignalBus} {r q : Receiver} {w : WorkspaceId} {s : Signal}

theorem fresh : Booked [] {} where
  number given := by simp [Receiver.Given] at given
  dropped dropped := by cases dropped
  listener w := rfl
  missed missed := by cases missed
  order r := by simp [Receiver.delivered, Receiver.firings]
  taken r := List.nil_prefix
  queue alive := by simpa [Receiver.Given] using alive.given

/-- Who listens on a workspace. -/
theorem listener_iff (booked : Booked h b) {l : Listener} : (b.mailbox w).listener = some l ↔
    ∃ r, w.latest h = some r ∧ .dropped r ∉ h ∧ .interrupt ∉ r.delivered h ∧
      l = { number := r.number, acceptsPause := r.accepts h, pauseDelivered := .pause ∈ r.delivered h } := by
  simp only [booked.listener, Option.bind_eq_some_iff, Receiver.listener_eq_some]

/-- A receiver that was not given out has nothing. -/
theorem unknown (booked : Booked h b) (unknown : ¬ r.Given h) :
    .dropped r ∉ h ∧ r.delivered h = [] ∧ r.taken h = [] := by
  have delivered : r.delivered h = [] := by simp [Receiver.delivered, Receiver.firings_unknown unknown]
  exact ⟨fun dropped => unknown (booked.dropped dropped), delivered, List.prefix_nil.1 (delivered ▸ booked.taken r)⟩

theorem arm_fresh (booked : Booked h b) (w : WorkspaceId) (accepts : Bool) : ¬ (b.arm w accepts).2.Given h :=
  fun given => Nat.lt_irrefl _ (booked.number given)

theorem latest_arm (b : SignalBus) (w : WorkspaceId) (accepts : Bool) (h : List Dealing) (v : WorkspaceId) :
    v.latest (.armed (b.arm w accepts).2 accepts :: h) = if w = v then some (b.arm w accepts).2 else v.latest h := rfl

/-- Who listens once a new listener is armed. -/
theorem arm_listener (booked : Booked h b) (w : WorkspaceId) (accepts : Bool) (v : WorkspaceId) :
    ((b.arm w accepts).1.mailbox v).listener =
      (v.latest (.armed (b.arm w accepts).2 accepts :: h)).bind
        (·.listener (.armed (b.arm w accepts).2 accepts :: h)) := by
  obtain ⟨undropped, undelivered, -⟩ := booked.unknown (booked.arm_fresh w accepts)
  rw [SignalBus.arm_mailbox]
  by_cases here : w = v
  · rw [latest_arm, if_pos here, if_pos here, Option.bind_some]
    refine (Receiver.listener_eq_some.2 ⟨by simpa using undropped, ?_, ?_⟩).symm
    · exact fun interrupted => by cases undelivered ▸ interrupted
    · simp [SignalBus.arm_receiver, Receiver.accepts, Receiver.delivered, Receiver.firings] at undelivered ⊢
      simp [undelivered]
  · rw [latest_arm, if_neg here, if_neg here, booked.listener]
    refine Option.bind_congr fun q last => ?_
    have other : (b.arm w accepts).2 ≠ q := fun same =>
      here ((congrArg Receiver.workspace same).trans (WorkspaceId.latest_given last).1)
    exact Receiver.listener_congr (by simp) rfl (if_neg other)

/-- A new listener is armed. -/
theorem arm (booked : Booked h b) (w : WorkspaceId) (accepts : Bool) :
    Booked (.armed (b.arm w accepts).2 accepts :: h) (b.arm w accepts).1 where
  number {r} given := by
    rcases given.of_armed with rfl | given
    · simp [SignalBus.arm_mailbox, SignalBus.arm_receiver, Mailbox.arm]
    · have below := booked.number given
      rw [SignalBus.arm_mailbox]
      split
      · next here =>
        subst here
        exact Nat.lt_succ_of_lt below
      · exact below
  dropped dropped := (booked.dropped (by simpa using dropped)).later _
  listener := booked.arm_listener w accepts
  missed missed := (booked.missed missed).imp_left (List.mem_cons_of_mem _)
  order := booked.order
  taken := booked.taken
  queue {r} alive := by
    rcases alive.given.of_armed with rfl | given
    · obtain ⟨-, undelivered, untaken⟩ := booked.unknown (booked.arm_fresh w accepts)
      rw [SignalBus.arm_queue_self, List.append_nil]
      exact undelivered.trans untaken.symm
    · rw [SignalBus.arm_queue w accepts (booked.number given)]
      exact booked.queue (alive.of_later given)

/-- When a signal is delivered. -/
theorem fire_iff (booked : Booked h b) : (b.fire w s).2 = true ↔
    ∃ r, w.latest h = some r ∧ .dropped r ∉ h ∧ .interrupt ∉ r.delivered h ∧
      (s = .interrupt ∨ r.accepts h = true ∧ .pause ∉ r.delivered h) := by
  rw [SignalBus.fire_answer, Mailbox.fire_taken]
  constructor
  · rintro ⟨l, armed, takes⟩
    obtain ⟨r, last, kept, uninterrupted, rfl⟩ := booked.listener_iff.1 armed
    exact ⟨r, last, kept, uninterrupted, by simpa using Listener.takes_iff.1 takes⟩
  · rintro ⟨r, last, kept, uninterrupted, wanted⟩
    exact ⟨_, booked.listener_iff.2 ⟨r, last, kept, uninterrupted, rfl⟩, Listener.takes_iff.2 (by simpa using wanted)⟩

/-- A signal that is delivered joins the queue of the receiver armed last on the workspace, and no other. -/
theorem fire_queue (booked : Booked h b) (w : WorkspaceId) (s : Signal) (r : Receiver) :
    (b.fire w s).1.queue r = if (b.fire w s).2 = true ∧ w.latest h = some r then b.queue r ++ [s] else b.queue r := by
  by_cases reached : (b.fire w s).2 = true ∧ w = r.workspace
  · obtain ⟨heard, rfl⟩ := reached
    obtain ⟨l, armed, takes⟩ := Mailbox.fire_taken.1 heard
    obtain ⟨q, last, -, -, rfl⟩ := booked.listener_iff.1 armed
    unfold SignalBus.queue
    rw [SignalBus.fire_mailbox, if_pos rfl, Mailbox.fire_queue_of armed takes]
    by_cases own : q = r
    · subst own
      rw [if_pos rfl, if_pos ⟨heard, last⟩]
    · have other : q.number ≠ r.number := fun same =>
        own (Receiver.eq_of_number (WorkspaceId.latest_given last).1 same)
      rw [if_neg other, if_neg fun taken => own (Option.some_inj.1 (last.symm.trans taken.2))]
  · unfold SignalBus.queue
    rw [SignalBus.fire_elsewhere reached,
      if_neg fun taken => reached ⟨taken.1, (WorkspaceId.latest_given taken.2).1.symm⟩]

/-- Who listens once a signal is fired. -/
theorem fire_listener (booked : Booked h b) (w : WorkspaceId) (s : Signal) (v : WorkspaceId) :
    ((b.fire w s).1.mailbox v).listener =
      (v.latest (.fired w s (b.fire w s).2 :: h)).bind (·.listener (.fired w s (b.fire w s).2 :: h)) := by
  by_cases reached : (b.fire w s).2 = true ∧ w = v
  · obtain ⟨heard, rfl⟩ := reached
    obtain ⟨l, armed, takes⟩ := Mailbox.fire_taken.1 heard
    obtain ⟨q, last, kept, uninterrupted, rfl⟩ := booked.listener_iff.1 armed
    have delivered : q.delivered (.fired w s (b.fire w s).2 :: h) = q.delivered h ++ [s] := by
      rw [q.delivered_fired, if_pos ⟨heard, last⟩]
    rw [SignalBus.fire_mailbox, if_pos rfl, Mailbox.fire_listener armed takes, WorkspaceId.latest_fired, last,
      Option.bind_some]
    cases s with
    | interrupt => simp [Receiver.listener, delivered]
    | pause => simp [Receiver.listener, delivered, kept, uninterrupted, Receiver.accepts]
  · rw [SignalBus.fire_elsewhere reached, booked.listener]
    refine Option.bind_congr fun q last => Receiver.listener_congr (by simp) ?_ rfl
    rw [q.delivered_fired, if_neg fun taken => reached ⟨taken.1, ?_⟩]
    exact (WorkspaceId.latest_given taken.2).1.symm.trans (WorkspaceId.latest_given last).1

/-- An interrupt that nobody gets was fired at nobody who could have got it. -/
theorem fire_missed (booked : Booked h b) (w : WorkspaceId) (s : Signal)
    (missed : (.interrupt, false) ∈ r.firings (.fired w s (b.fire w s).2 :: h)) :
    .dropped r ∈ Dealing.fired w s (b.fire w s).2 :: h ∨
      .interrupt ∈ r.delivered (.fired w s (b.fire w s).2 :: h) := by
  have grown := r.delivered_prefix w s (b.fire w s).2 h
  rcases Receiver.mem_firings_fired.1 missed with earlier | ⟨last, same⟩
  · exact (booked.missed earlier).imp (List.mem_cons_of_mem _) fun interrupted => grown.mem interrupted
  · -- nobody got the interrupt, though the receiver is the one armed last
    obtain ⟨rfl, unheard⟩ := Prod.mk.inj same
    by_cases dropped : .dropped r ∈ h
    · exact .inl (List.mem_cons_of_mem _ dropped)
    · by_cases interrupted : .interrupt ∈ r.delivered h
      · exact .inr (grown.mem interrupted)
      · have heard := booked.fire_iff.2 ⟨r, last, dropped, interrupted, .inl rfl⟩
        exact absurd (unheard.trans heard) Bool.false_ne_true

/-- A signal is fired, and somebody gets it or nobody. -/
theorem fire (booked : Booked h b) (w : WorkspaceId) (s : Signal) :
    Booked (.fired w s (b.fire w s).2 :: h) (b.fire w s).1 where
  number given :=
    Nat.lt_of_lt_of_eq (booked.number (given.of_quiet nofun)) (b.next_withMailbox (Mailbox.fire_next ..) _).symm
  dropped dropped := (booked.dropped (by simpa using dropped)).later _
  listener := booked.fire_listener w s
  missed := booked.fire_missed w s
  order r := by
    rw [r.delivered_fired]
    split
    · next taken =>
      obtain ⟨q, last, -, uninterrupted, wanted⟩ := booked.fire_iff.1 taken.1
      cases last.symm.trans taken.2
      exact Signal.order_append (booked.order r) uninterrupted (wanted.imp_right And.right)
    · exact booked.order r
  taken r := (booked.taken r).trans (r.delivered_prefix ..)
  queue {r} alive := by
    rw [r.delivered_fired, booked.fire_queue]
    have before := booked.queue (alive.of_later (alive.given.of_quiet nofun))
    split
    · rw [before, List.append_assoc]
      rfl
    · exact before

/-- A receiver listens if it is the one armed last on its workspace and neither given up nor interrupted. -/
theorem listens_iff (booked : Booked h b) : (b.mailbox r.workspace).listens r.number = true ↔
    r.workspace.latest h = some r ∧ .dropped r ∉ h ∧ .interrupt ∉ r.delivered h := by
  rw [Mailbox.listens_iff]
  constructor
  · rintro ⟨l, armed, number⟩
    obtain ⟨q, last, kept, uninterrupted, rfl⟩ := booked.listener_iff.1 armed
    cases Receiver.eq_of_number (WorkspaceId.latest_given last).1 number
    exact ⟨last, kept, uninterrupted⟩
  · rintro ⟨last, kept, uninterrupted⟩
    exact ⟨_, booked.listener_iff.2 ⟨r, last, kept, uninterrupted, rfl⟩, rfl⟩

/-- A receiver says whether it accepts pauses. -/
theorem acceptPause (booked : Booked h b) (r : Receiver) (accepts : Bool) :
    Booked (.accepted r accepts :: h) (b.acceptPause r accepts) where
  number given :=
    have same := b.next_withMailbox (w := r.workspace) (m := (b.mailbox r.workspace).acceptPause r.number accepts) rfl
    Nat.lt_of_lt_of_eq (booked.number (given.of_quiet nofun)) (same _).symm
  dropped dropped := (booked.dropped (by simpa using dropped)).later _
  listener v := by
    rw [SignalBus.acceptPause_mailbox]
    by_cases here : r.workspace = v
    · subst here
      rw [if_pos rfl, Mailbox.acceptPause, booked.listener, Option.map_bind]
      exact Option.bind_congr fun q last => (Receiver.listener_accepted (WorkspaceId.latest_given last).1 accepts).symm
    · rw [if_neg here, booked.listener]
      refine Option.bind_congr fun q last => ?_
      have other : r ≠ q := fun same => here (same ▸ (WorkspaceId.latest_given last).1)
      exact Receiver.listener_congr (by simp) rfl (if_neg other)
  missed missed := (booked.missed missed).imp_left (List.mem_cons_of_mem _)
  order := booked.order
  taken := booked.taken
  queue {q} later := by
    rw [SignalBus.acceptPause_queue]
    exact booked.queue (later.of_later (later.given.of_quiet nofun))

/-- A receiver looks into its queue. -/
theorem tryReceive (booked : Booked h b) (alive : r.Alive h) :
    Booked (.tried r (b.tryReceive r).2 :: h) (b.tryReceive r).1 where
  number given :=
    Nat.lt_of_lt_of_eq (booked.number (given.of_quiet nofun)) (b.next_withMailbox (Mailbox.tryReceive_next ..) _).symm
  dropped dropped := (booked.dropped (by simpa using dropped)).later _
  listener v := by
    have same : ((b.tryReceive r).1.mailbox v).listener = (b.mailbox v).listener := by
      rw [SignalBus.tryReceive_mailbox]
      split
      · next here => rw [Mailbox.tryReceive_listener, here]
      · rfl
    rw [same, booked.listener]
    exact Option.bind_congr fun q last => Receiver.listener_congr (by simp) rfl rfl
  missed missed := (booked.missed missed).imp_left (List.mem_cons_of_mem _)
  order := booked.order
  taken q := by
    by_cases own : r = q
    · subst own
      rw [Receiver.taken_tried, if_pos rfl, SignalBus.tryReceive_head]
      change _ <+: r.delivered h
      rw [booked.queue alive]
      cases b.queue r <;> simp
    · rw [Receiver.taken_tried, if_neg own]
      exact booked.taken q
  queue {q} later := by
    have before := booked.queue (later.of_later (later.given.of_quiet nofun))
    rw [SignalBus.tryReceive_queue, Receiver.taken_tried]
    by_cases own : r = q
    · subst own
      rw [if_pos rfl, if_pos rfl, SignalBus.tryReceive_head, List.append_assoc]
      refine before.trans ?_
      cases b.queue r <;> rfl
    · rw [if_neg own, if_neg own]
      exact before

/-- Whether a receiver looked into its queue or waited for what it shows is the same to everybody. -/
theorem received {got : Option Signal} {shown : Received} (booked : Booked (.tried r got :: h) b)
    (same : shown.taken = got.toList) : Booked (.received r shown :: h) b where
  number {q} given := booked.number ((given.of_quiet nofun).later _)
  dropped {q} dropped := by
    have given := booked.dropped (r := q) (by simpa using dropped)
    exact (given.of_quiet nofun).later _
  listener v := by
    rw [booked.listener]
    exact Option.bind_congr fun q last => Receiver.listener_congr (by simp) rfl rfl
  missed {q} missed := by
    have before := booked.missed (r := q) missed
    exact before.imp_left fun dropped => by simpa using dropped
  order := booked.order
  taken q := by
    rw [Receiver.taken_received, same, ← Receiver.taken_tried]
    exact booked.taken q
  queue {q} later := by
    rw [Receiver.taken_received, same, ← Receiver.taken_tried]
    exact booked.queue ⟨(later.given.of_quiet nofun).later _, by simpa using later.kept⟩

/-- Who listens once a receiver is given up. -/
theorem drop_listener (booked : Booked h b) (r : Receiver) (v : WorkspaceId) :
    ((b.drop r).mailbox v).listener = (v.latest (.dropped r :: h)).bind (·.listener (.dropped r :: h)) := by
  rw [SignalBus.drop_mailbox]
  by_cases here : r.workspace = v
  · subst here
    rw [if_pos rfl]
    cases listens : (b.mailbox r.workspace).listens r.number with
    | true =>
      obtain ⟨last, -, -⟩ := booked.listens_iff.1 listens
      rw [Mailbox.drop, if_pos listens, WorkspaceId.latest_dropped, last, Option.bind_some, r.listener_dropped]
    | false =>
      rw [Mailbox.drop, if_neg (by simp [listens]), booked.listener]
      refine Option.bind_congr fun q last => ?_
      by_cases own : r = q
      · subst own
        rw [r.listener_dropped]
        -- it was the one armed last, so it is interrupted if it does not listen
        refine Option.eq_none_iff_forall_ne_some.2 fun l here => ?_
        obtain ⟨kept, uninterrupted, -⟩ := Receiver.listener_eq_some.1 here
        exact Bool.false_ne_true (listens.symm.trans (booked.listens_iff.2 ⟨last, kept, uninterrupted⟩))
      · exact Receiver.listener_congr (by simp [Ne.symm own]) rfl rfl
  · rw [if_neg here, booked.listener]
    refine Option.bind_congr fun q last => ?_
    have other : q ≠ r := fun same => here (same ▸ (WorkspaceId.latest_given last).1)
    exact Receiver.listener_congr (by simp [other]) rfl rfl

/-- A receiver is given up. -/
theorem drop (booked : Booked h b) (alive : r.Alive h) : Booked (.dropped r :: h) (b.drop r) where
  number given :=
    have same := b.next_withMailbox (w := r.workspace) (m := (b.mailbox r.workspace).drop r.number) rfl
    Nat.lt_of_lt_of_eq (booked.number (given.of_quiet nofun)) (same _).symm
  dropped {q} dropped := by
    rcases List.mem_cons.1 dropped with same | dropped
    · cases same
      exact alive.given.later _
    · exact (booked.dropped dropped).later _
  listener := booked.drop_listener r
  missed missed := (booked.missed missed).imp_left (List.mem_cons_of_mem _)
  order := booked.order
  taken := booked.taken
  queue {q} later := by
    have other : r ≠ q := fun same => later.kept (same ▸ List.mem_cons_self)
    rw [SignalBus.drop_queue b other]
    exact booked.queue (later.of_later (later.given.of_quiet nofun))

/-- A workspace is armed while the receiver armed last there is neither given up nor interrupted. -/
theorem isArmed_iff (booked : Booked h b) : b.isArmed w = true ↔
    ∃ r, w.latest h = some r ∧ .dropped r ∉ h ∧ .interrupt ∉ r.delivered h := by
  rw [SignalBus.isArmed, Mailbox.isArmed, Option.isSome_iff_exists]
  constructor
  · rintro ⟨l, armed⟩
    obtain ⟨r, last, kept, uninterrupted, -⟩ := booked.listener_iff.1 armed
    exact ⟨r, last, kept, uninterrupted⟩
  · rintro ⟨r, last, kept, uninterrupted⟩
    exact ⟨_, booked.listener_iff.2 ⟨r, last, kept, uninterrupted, rfl⟩⟩

/-- No interrupt reached a receiver that is not given up: none was fired at it. -/
theorem uninterrupted_iff (booked : Booked h b) (kept : .dropped r ∉ h) :
    .interrupt ∉ r.delivered h ↔ ∀ heard, (.interrupt, heard) ∉ r.firings h := by
  rw [Receiver.mem_delivered]
  refine ⟨fun uninterrupted heard fired => ?_, fun unfired => unfired true⟩
  cases heard with
  | true => exact uninterrupted fired
  | false =>
    rcases booked.missed fired with dropped | interrupted
    · exact kept dropped
    · exact uninterrupted (Receiver.mem_delivered.1 interrupted)

/-- A workspace is armed while the receiver armed last there is alive and was fired no interrupt. -/
theorem isArmed_iff_unfired (booked : Booked h b) : b.isArmed w = true ↔
    ∃ r, w.latest h = some r ∧ r.Alive h ∧ ∀ heard, (.interrupt, heard) ∉ r.firings h := by
  rw [booked.isArmed_iff]
  refine exists_congr fun r => and_congr_right fun last => ?_
  constructor
  · rintro ⟨kept, uninterrupted⟩
    exact ⟨⟨(WorkspaceId.latest_given last).2, kept⟩, (booked.uninterrupted_iff kept).1 uninterrupted⟩
  · rintro ⟨alive, unfired⟩
    exact ⟨alive.kept, (booked.uninterrupted_iff alive.kept).2 unfired⟩

/-- A signal is delivered if the workspace is armed and the receiver armed last there wants it. -/
theorem fire_iff_wanted (booked : Booked h b) : (b.fire w s).2 = true ↔ b.isArmed w = true ∧
    (s = .interrupt ∨ ∃ r, w.latest h = some r ∧ r.accepts h = true ∧ .pause ∉ r.delivered h) := by
  rw [booked.fire_iff, booked.isArmed_iff]
  constructor
  · rintro ⟨r, last, kept, uninterrupted, wanted⟩
    exact ⟨⟨r, last, kept, uninterrupted⟩, wanted.imp_right fun wanted => ⟨r, last, wanted⟩⟩
  · rintro ⟨⟨r, last, kept, uninterrupted⟩, wanted⟩
    refine ⟨r, last, kept, uninterrupted, wanted.imp_right ?_⟩
    rintro ⟨q, same, wanted⟩
    cases last.symm.trans same
    exact wanted

/-- A receiver is told that nothing will come when nothing waits and it was interrupted or replaced. -/
theorem receive_disarmed_iff (booked : Booked h b) (kept : .dropped r ∉ h) : (b.receive r).2 = .disarmed ↔
    b.queue r = [] ∧ (.interrupt ∈ r.delivered h ∨ r.workspace.latest h ≠ some r) := by
  have silent : (b.mailbox r.workspace).listens r.number = false ↔
      .interrupt ∈ r.delivered h ∨ r.workspace.latest h ≠ some r := by
    rw [Bool.eq_false_iff, ne_eq, booked.listens_iff, or_comm, Decidable.not_and_iff_not_or_not]
    simp [kept]
  rw [b.receive_shown, ← silent]
  cases b.queue r with
  | nil => cases (b.mailbox r.workspace).listens r.number <;> simp
  | cons first rest => simp

/-- A receiver that was replaced has no say in who listens. -/
theorem replaced (booked : Booked h b) (replaced : r.workspace.latest h ≠ some r) (w : WorkspaceId) :
    ((b.drop r).mailbox w).listener = (b.mailbox w).listener ∧
      ∀ accepts, ((b.acceptPause r accepts).mailbox w).listener = (b.mailbox w).listener := by
  have silent : (b.mailbox r.workspace).listens r.number = false :=
    Bool.eq_false_iff.2 fun listens => replaced (booked.listens_iff.1 listens).1
  rw [SignalBus.drop_mailbox]
  by_cases here : r.workspace = w
  · subst here
    refine ⟨by simp [Mailbox.drop, silent], fun accepts => ?_⟩
    rw [SignalBus.acceptPause_mailbox, if_pos rfl]
    exact Mailbox.acceptPause_silent silent accepts
  · exact ⟨by rw [if_neg here], fun accepts => by rw [SignalBus.acceptPause_mailbox, if_neg here]⟩

end Booked

namespace Dealt

variable {h : List Dealing} {b : SignalBus}

theorem booked (dealt : Dealt h b) : Booked h b := by
  induction dealt with
  | fresh => exact .fresh
  | arm _ w accepts ih => exact ih.arm w accepts
  | fire _ w s ih => exact ih.fire w s
  | acceptPause _ _ accepts ih => exact ih.acceptPause _ accepts
  | tryReceive _ alive ih => exact ih.tryReceive alive
  | @receive _ b r _ alive ih =>
    rw [b.receive_bus r]
    exact (ih.tryReceive alive).received (b.receive_taken r)
  | drop _ alive ih => exact ih.drop alive

/-- Whatever was done with a bus, in whatever order:

* a workspace is armed while the receiver armed last there is neither given up nor was fired an interrupt;
* a signal that is fired is delivered if the workspace is armed and the receiver armed last there wants it, and
  then it joins the queue of that receiver and no other;
* a receiver gets at most a pause and behind it at most an interrupt, and receives them in that order, each once;
* it is told that nothing will come only when nothing waits and it was interrupted or replaced;
* a receiver that was replaced has no say in who listens. -/
theorem delivers (dealt : Dealt h b) :
    (∀ w, b.isArmed w = true ↔
      ∃ r, w.latest h = some r ∧ r.Alive h ∧ ∀ heard, (.interrupt, heard) ∉ r.firings h) ∧
    (∀ w s, ((b.fire w s).2 = true ↔ b.isArmed w = true ∧
        (s = .interrupt ∨ ∃ r, w.latest h = some r ∧ r.accepts h = true ∧ .pause ∉ r.delivered h)) ∧
      ∀ r, (b.fire w s).1.queue r =
        if (b.fire w s).2 = true ∧ w.latest h = some r then b.queue r ++ [s] else b.queue r) ∧
    (∀ r : Receiver, r.delivered h ∈ [[], [.pause], [.interrupt], [.pause, .interrupt]] ∧ r.taken h <+: r.delivered h) ∧
    (∀ r : Receiver, r.Alive h →
      r.delivered h = r.taken h ++ b.queue r ∧
      (b.tryReceive r).2 = (b.queue r).head? ∧
      (∀ s, (b.receive r).2 = .signal s ↔ (b.queue r).head? = some s) ∧
      ((b.receive r).2 = .disarmed ↔
        b.queue r = [] ∧ (.interrupt ∈ r.delivered h ∨ r.workspace.latest h ≠ some r))) ∧
    (∀ r : Receiver, r.Alive h → r.workspace.latest h ≠ some r → ∀ w,
      ((b.drop r).mailbox w).listener = (b.mailbox w).listener ∧
      ∀ accepts, ((b.acceptPause r accepts).mailbox w).listener = (b.mailbox w).listener) := by
  have booked := dealt.booked
  refine ⟨fun w => booked.isArmed_iff_unfired, fun w s => ⟨booked.fire_iff_wanted, booked.fire_queue w s⟩,
    fun r => ⟨booked.order r, booked.taken r⟩, fun r alive => ?_, fun r _ replaced => booked.replaced replaced⟩
  exact ⟨booked.queue alive, b.tryReceive_head r, b.receive_signal_iff r, booked.receive_disarmed_iff alive.kept⟩

/-- A receiver is replaced while a pause waits for it, by one that does not accept pauses. -/
def handover : List Dealing :=
  [.armed ⟨.playground, 1⟩ false, .fired .playground .pause true, .armed ⟨.playground, 0⟩ true]

/-- After the handover an interrupt reaches the receiver that took over; the pause is still received by the one that
was replaced, and giving that one up changes nothing for the other. -/
theorem delivers_after_handover : ∃ b, Dealt handover b ∧
    b.isArmed .playground = true ∧
    (b.fire .playground .interrupt).2 = true ∧
    (b.fire .playground .interrupt).1.queue ⟨.playground, 1⟩ = [.interrupt] ∧
    (b.fire .playground .interrupt).1.queue ⟨.playground, 0⟩ = [.pause] ∧
    (Receiver.mk .playground 0).delivered handover = (Receiver.mk .playground 0).taken handover ++ [.pause] ∧
    (b.receive ⟨.playground, 0⟩).2 = .signal .pause ∧
    ((b.drop ⟨.playground, 0⟩).mailbox .playground).listener = (b.mailbox .playground).listener := by
  have dealt : Dealt handover _ := ((Dealt.fresh.arm .playground true).fire .playground .pause).arm .playground false
  have old : (Receiver.mk .playground 0).Alive handover := ⟨⟨true, by decide⟩, by decide⟩
  have new : (Receiver.mk .playground 1).Alive handover := ⟨⟨false, by decide⟩, by decide⟩
  obtain ⟨armed, heard, -, waits, replaced⟩ := delivers dealt
  have listens := (armed .playground).2 ⟨_, rfl, new, by decide⟩
  obtain ⟨reached, joins⟩ := heard .playground .interrupt
  obtain ⟨whole, -, signal, -⟩ := waits _ old
  exact ⟨_, dealt, listens, reached.2 ⟨listens, .inl rfl⟩, joins _, joins _, whole, (signal _).2 rfl,
    (replaced _ old (by decide) _).1⟩

end Dealt

end Workbench
