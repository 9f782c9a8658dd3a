/-
How long a host waits for its libraries.

The loader is asked an interval apart, from the start on, until it says yes or the
time is over. So what the wait comes to depends on the first yes alone
(`FirstYes`): if it falls within the time, the wait ends with it, and if not, it
ends when the time is over, whether the loader is ever ready or not
(`Wait.untilReady_exact`). A yes at the last instant still counts.

An interval may reach beyond the end of the time. Then the wait wakes once more, only
to see that its time is over, and does not ask (`Wait.poll_over`).
-/
import Workbench.Run.Readiness

namespace Workbench

/-- What the loader answers when it has been asked so often before, an interval apart. -/
def Loader.answer (loader : Loader) (interval asked : Nat) : Bool := loader.isReady (asked * interval) asked

/-- The loader says yes when it has been asked so often before, and not earlier. -/
structure FirstYes (loader : Loader) (interval k : Nat) : Prop where
  yes : loader.answer interval k = true
  no_before : ∀ j < k, loader.answer interval j = false

theorem FirstYes.unique {loader : Loader} {interval k k' : Nat} (first : FirstYes loader interval k)
    (first' : FirstYes loader interval k') : k' = k := by
  obtain less | same | more := Nat.lt_trichotomy k' k
  · exact absurd (first.no_before k' less) (by rw [first'.yes]; decide)
  · exact same
  · exact absurd (first'.no_before k more) (by rw [first.yes]; decide)

namespace Wait

variable {loader : Loader} {interval timeout now asked k : Nat} {w : Wait}

/-! ## One turn -/

theorem inARow_eq : inARow = Wake.allowance + 1 := rfl

theorem ask_not_due (times : Nat) (not_due : now < w.due) : ask loader now times asked w = (asked, some w) := by
  cases times with
  | zero => rfl
  | succ => rw [ask, if_neg (Nat.not_le.2 not_due)]

theorem poll_ready (due : w.due ≤ now) (ready : loader.isReady now asked = true) :
    w.poll loader now asked = (asked + 1, .ready) := by
  have answered : ask loader now inARow asked w = (asked + 1, none) := by
    rw [inARow_eq, ask, if_pos due, if_pos ready]
  rw [poll, answered]

/-- With an interval, the loader is asked once in a turn. -/
theorem ask_once (some_time : 1 ≤ w.interval) (due : w.due ≤ now) (not_ready : loader.isReady now asked = false) :
    ask loader now inARow asked w = (asked + 1, some { w with due := now + w.interval }) := by
  have later : now < now + w.interval := by omega
  rw [inARow_eq, ask, if_pos due, not_ready, if_neg Bool.false_ne_true, ask_not_due _ later]

theorem poll_late (some_time : 1 ≤ w.interval) (due : w.due ≤ now) (not_ready : loader.isReady now asked = false)
    (late : w.deadline ≤ now) : w.poll loader now asked = (asked + 1, .timedOut) := by
  rw [poll, ask_once some_time due not_ready]
  exact if_pos late

theorem poll_early (some_time : 1 ≤ w.interval) (due : w.due ≤ now) (not_ready : loader.isReady now asked = false)
    (early : now < w.deadline) :
    w.poll loader now asked =
      (asked + 1, .pending { w with due := now + w.interval } (.onTime (min (now + w.interval) w.deadline))) := by
  have later : ¬ now + w.interval ≤ now := by omega
  rw [poll, ask_once some_time due not_ready]
  simp only [Nat.not_le.2 early, if_false, later]

/-- The time is over before the loader is to be asked again. -/
theorem poll_over (not_due : now < w.due) (late : w.deadline ≤ now) : w.poll loader now asked = (asked, .timedOut) := by
  rw [poll, ask_not_due _ not_due]
  exact if_pos late

/-! ## The whole wait -/

/-- How a wait ends, by the first yes. -/
structure Exact (loader : Loader) (interval timeout : Nat) (e : WaitEnd) : Prop where
  ready : ∀ k, FirstYes loader interval k → k * interval ≤ timeout → e = ⟨true, k + 1, k * interval⟩
  timedOut : (∀ k, FirstYes loader interval k → timeout < k * interval) →
    e = ⟨false, timeout / interval + 1, timeout⟩

theorem Exact.of_yes (first : FirstYes loader interval k) (inTime : k * interval ≤ timeout) :
    Exact loader interval timeout ⟨true, k + 1, k * interval⟩ where
  ready k' first' _ := by rw [first.unique first']
  timedOut late := absurd (late k first) (Nat.not_lt.2 inTime)

/-- The loader has been asked as often as there was time for. -/
theorem Exact.of_vain (vain : ∀ j < k + 1, loader.answer interval j = false) (start : k * interval ≤ timeout)
    (beyond : timeout < (k + 1) * interval) : Exact loader interval timeout ⟨false, k + 1, timeout⟩ where
  ready k' first' inTime := by
    have within : k' < k + 1 := Nat.lt_of_mul_lt_mul_right (Nat.lt_of_le_of_lt inTime beyond)
    exact absurd first'.yes (by rw [vain k' within]; decide)
  timedOut _ := by rw [Nat.div_eq_of_lt_le start beyond]

/-- Behind answers in vain the wait goes on to its end. By induction on the turns, which the time that is left
bounds. -/
theorem follow_exact (some_time : 1 ≤ interval) {turns : Nat} (vain : ∀ j < k, loader.answer interval j = false)
    (inTime : k * interval ≤ timeout) (enough : timeout - k * interval + 2 ≤ turns) :
    ∃ e, follow loader turns ⟨interval, timeout, k * interval⟩ (k * interval) k = some e ∧
      Exact loader interval timeout e := by
  induction turns generalizing k with
  | zero => omega
  | succ turns ih =>
    rw [follow]
    by_cases yes : loader.answer interval k = true
    · rw [poll_ready (Nat.le_refl _) yes]
      exact ⟨_, rfl, .of_yes ⟨yes, vain⟩ inTime⟩
    have no : loader.answer interval k = false := eq_false_of_ne_true yes
    have vain' : ∀ j < k + 1, loader.answer interval j = false := fun j within =>
      (Nat.lt_succ_iff_lt_or_eq.1 within).elim (vain j) fun same => same ▸ no
    have next : (k + 1) * interval = k * interval + interval := Nat.succ_mul k interval
    by_cases last : timeout ≤ k * interval
    · rw [poll_late some_time (Nat.le_refl _) no last]
      have same : k * interval = timeout := Nat.le_antisymm inTime last
      refine ⟨_, rfl, ?_⟩
      rw [same]
      exact .of_vain vain' inTime (by omega)
    rw [poll_early some_time (Nat.le_refl _) no (Nat.not_le.1 last)]
    dsimp only
    rw [← next]
    by_cases again : (k + 1) * interval ≤ timeout
    · rw [Nat.min_eq_left again]
      exact ih vain' again (by omega)
    · -- the next time to ask lies behind the end
      have beyond := Nat.not_le.1 again
      rw [Nat.min_eq_right (Nat.le_of_lt beyond)]
      obtain ⟨turns, rfl⟩ : ∃ n, turns = n + 1 := ⟨turns - 1, by omega⟩
      rw [follow, poll_over beyond (Nat.le_refl timeout)]
      exact ⟨_, rfl, .of_vain vain' inTime beyond⟩

/-- A wait always ends. If the loader says yes in time, the wait is over at once, and the loader has been asked
exactly as often as it took; if not, it ends with the time, and the loader has been asked as often as there was
time for, the start and the last instant included. -/
theorem untilReady_exact (loader : Loader) (interval timeout : Nat) (some_time : 1 ≤ interval) :
    ∃ e, untilReady loader interval timeout = some e ∧
      (∀ k, FirstYes loader interval k → k * interval ≤ timeout →
        e.outcome timeout = .ok () ∧ e.time = k * interval ∧ e.asked = k + 1) ∧
      ((∀ k, FirstYes loader interval k → timeout < k * interval) →
        e.outcome timeout = .error ⟨timeout⟩ ∧ e.time = timeout ∧ e.asked = timeout / interval + 1) := by
  have begins : untilReady loader interval timeout =
      follow loader (timeout + 2) ⟨interval, timeout, 0 * interval⟩ (0 * interval) 0 := by
    rw [untilReady, start, Nat.zero_add, Nat.zero_mul]
  have none_asked : ∀ j < 0, loader.answer interval j = false := nofun
  obtain ⟨e, reached, exact_end⟩ := follow_exact some_time none_asked (by omega : 0 * interval ≤ timeout)
    (by omega : _ ≤ timeout + 2)
  refine ⟨e, begins.trans reached, fun k first inTime => ?_, fun late => ?_⟩
  · rw [exact_end.ready k first inTime]
    exact ⟨rfl, rfl, rfl⟩
  · rw [exact_end.timedOut late]
    exact ⟨rfl, rfl, rfl⟩

/-- Ready at the last instant, just too late, and never. -/
theorem untilReady_exact_of_third :
    1 ≤ 250 ∧
      (∃ e, untilReady (.readyAt (some 3)) 250 500 = some e ∧ e.outcome 500 = .ok () ∧ e.time = 500 ∧ e.asked = 3) ∧
      (∃ e, untilReady (.readyAt (some 3)) 250 499 = some e ∧
        e.outcome 499 = .error ⟨499⟩ ∧ e.time = 499 ∧ e.asked = 2) ∧
      ∃ e, untilReady (.readyAt none) 250 4000 = some e ∧
        e.outcome 4000 = .error ⟨4000⟩ ∧ e.time = 4000 ∧ e.asked = 17 := by
  have third : FirstYes (.readyAt (some 3)) 250 2 := ⟨rfl, by decide⟩
  refine ⟨by decide, ?_, ?_, ?_⟩
  · obtain ⟨e, reached, ready, -⟩ := untilReady_exact (.readyAt (some 3)) 250 500 (by decide)
    exact ⟨e, reached, ready 2 third (by decide)⟩
  · obtain ⟨e, reached, -, late⟩ := untilReady_exact (.readyAt (some 3)) 250 499 (by decide)
    refine ⟨e, reached, late fun k first => ?_⟩
    rw [third.unique first]
    decide
  · obtain ⟨e, reached, -, late⟩ := untilReady_exact (.readyAt none) 250 4000 (by decide)
    exact ⟨e, reached, late fun k first => nomatch first.yes⟩

end Wait

end Workbench
