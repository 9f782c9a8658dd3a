/-
What is done with a mailbox, as it shows in the three things a mailbox consists
of: the next number, the listener and the queues.

A signal that is fired is taken by the listener or changes nothing; a look into a
queue takes its head and leaves the listener alone.
-/
import Workbench.Signal.Mailbox

namespace Workbench

/-- An interrupt is always taken, a pause if pauses are accepted and none was delivered. -/
theorem Listener.takes_iff {l : Listener} {s : Signal} :
    l.takes s = true ↔ s = .interrupt ∨ l.acceptsPause = true ∧ l.pauseDelivered = false := by
  cases s <;> simp [takes]

namespace Mailbox

variable {m : Mailbox} {n : Nat} {s : Signal}

theorem queue_set_of (m : Mailbox) (k n : Nat) (rest : List Signal) :
    queue { m with queues := m.queues.set k rest } n = if k = n then rest else m.queue n := by
  by_cases same : k = n <;> simp [queue, same]

@[simp] theorem queue_set (m : Mailbox) (n : Nat) (rest : List Signal) :
    queue { m with queues := m.queues.set n rest } n = rest := by
  simp [queue]

/-- What nobody takes changes nothing. -/
theorem fire_refused (refused : ∀ l, m.listener = some l → l.takes s = false) : (m.fire s).1 = m := by
  unfold fire
  cases armed : m.listener with
  | none => rfl
  | some l => simp [refused l armed]

/-- A signal is delivered if somebody listens who takes it. -/
theorem fire_taken : (m.fire s).2 = true ↔ ∃ l, m.listener = some l ∧ l.takes s = true := by
  unfold fire
  cases armed : m.listener with
  | none => simp
  | some l => by_cases takes : l.takes s <;> simp [takes]

/-- What is not delivered changes nothing. -/
theorem fire_unheard (unheard : (m.fire s).2 = false) : (m.fire s).1 = m := by
  refine fire_refused fun l armed => Bool.eq_false_iff.2 fun takes => ?_
  exact Bool.false_ne_true (unheard.symm.trans (fire_taken.2 ⟨l, armed, takes⟩))

theorem fire_next (m : Mailbox) (s : Signal) : (m.fire s).1.next = m.next := by
  unfold fire
  cases m.listener with
  | none => rfl
  | some l => by_cases takes : l.takes s <;> simp [takes]

/-- The listener after it has taken a signal. -/
theorem fire_listener {l : Listener} (armed : m.listener = some l) (takes : l.takes s = true) :
    (m.fire s).1.listener = match (motive := Signal → Option Listener) s with
      | .interrupt => none
      | .pause => some { l with pauseDelivered := true } := by
  cases s <;> simp [fire, armed, takes]

/-- A signal that was taken waits for the listener and for nobody else. -/
theorem fire_queue_of {l : Listener} (armed : m.listener = some l) (takes : l.takes s = true) (n : Nat) :
    (m.fire s).1.queue n = if l.number = n then m.queue n ++ [s] else m.queue n := by
  by_cases own : l.number = n <;> simp [fire, armed, takes, queue, own]

theorem fire_queue_taken {l : Listener} (armed : m.listener = some l) (takes : l.takes s = true) :
    (m.fire s).1.queue l.number = m.queue l.number ++ [s] := by
  simp [fire_queue_of armed takes]

/-- A look into a queue takes its head. -/
theorem tryReceive_head (m : Mailbox) (n : Nat) : (m.tryReceive n).2 = (m.queue n).head? := by
  unfold tryReceive
  cases m.queue n <;> rfl

theorem tryReceive_queue (m : Mailbox) (n k : Nat) :
    (m.tryReceive n).1.queue k = if n = k then (m.queue n).tail else m.queue k := by
  unfold tryReceive
  cases waiting : m.queue n with
  | nil =>
    by_cases same : n = k
    · simp [← same, waiting]
    · simp [same]
  | cons s rest => simp [queue_set_of]

theorem tryReceive_next (m : Mailbox) (n : Nat) : (m.tryReceive n).1.next = m.next := by
  unfold tryReceive
  cases m.queue n <;> rfl

theorem tryReceive_listener (m : Mailbox) (n : Nat) : (m.tryReceive n).1.listener = m.listener := by
  unfold tryReceive
  cases m.queue n <;> rfl

theorem receive_mailbox (m : Mailbox) (n : Nat) : (m.receive n).1 = (m.tryReceive n).1 := by
  unfold receive tryReceive
  cases m.queue n <;> rfl

/-- What waiting for a signal shows. -/
theorem receive_shown (m : Mailbox) (n : Nat) :
    (m.receive n).2 = match m.queue n with
      | s :: _ => .signal s
      | [] => if m.listens n then .pending else .disarmed := by
  unfold receive tryReceive
  cases m.queue n <;> rfl

/-- What is said of a number that does not listen changes nothing. -/
theorem acceptPause_silent (silent : m.listens n = false) (accepts : Bool) :
    (m.acceptPause n accepts).listener = m.listener := by
  unfold listens at silent
  cases armed : m.listener with
  | none => simp [acceptPause, armed]
  | some l =>
    simp only [armed, decide_eq_false_iff_not] at silent
    simp [acceptPause, armed, silent]

theorem drop_queue (m : Mailbox) (n k : Nat) : (m.drop n).queue k = if n = k then [] else m.queue k := by
  by_cases same : n = k <;> simp [queue, drop, same]

theorem listens_iff : m.listens n = true ↔ ∃ l, m.listener = some l ∧ l.number = n := by
  unfold listens
  cases m.listener <;> simp

end Mailbox

end Workbench
