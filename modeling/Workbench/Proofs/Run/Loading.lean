/-
Waits for the libraries that go alike.

A loader answers by the clock and by how often it was asked. If two loaders answer
alike when each is seen from a moment and a count of its own, then two waits that
stand alike, seen from there, go on alike (`Wait.poll_alike`).
-/
import Workbench.Run.Readiness

namespace Workbench

/-- Two loaders that answer alike, each seen from a moment and a count. -/
def Loader.Alike (first second : Loader) (t₁ t₂ n₁ n₂ : Nat) : Prop :=
  ∀ x k, first.isReady (t₁ + x) (n₁ + k) = second.isReady (t₂ + x) (n₂ + k)

/-- A loader whose answer does not depend on how often it was asked. -/
def Loader.Indifferent (loader : Loader) : Prop := ∀ now a b, loader.isReady now a = loader.isReady now b

theorem Loader.Indifferent.alike {loader : Loader} (indifferent : loader.Indifferent) (a b : Nat) :
    loader.Alike loader 0 0 a b := fun _ _ => indifferent ..

/-- A wake at a time that is counted from a moment. -/
def Wake.since (t : Nat) : Wake → Wake
  | .onTime x => .onTime (t + x)
  | wake => wake

@[simp] theorem Wake.since_eq_spent (t : Nat) (wake : Wake) : wake.since t = .spent ↔ wake = .spent := by
  cases wake <;> simp [since]

namespace Wait

/-- A wait whose times are counted from a moment. -/
def since (t : Nat) (w : Wait) : Wait := { w with deadline := t + w.deadline, due := t + w.due }

@[simp] theorem since_zero (w : Wait) : w.since 0 = w := by simp [since]

theorem start_since (t x interval timeout : Nat) :
    start (t + x) interval timeout = (start x interval timeout).since t := by
  simp [start, since, Nat.add_assoc]

end Wait

/-- A wait's state, with the times counted from a moment. -/
def WaitStatus.since (t : Nat) : WaitStatus → WaitStatus
  | .pending wait wake => .pending (wait.since t) (wake.since t)
  | status => status

@[simp] theorem Wake.since_zero (wake : Wake) : wake.since 0 = wake := by cases wake <;> simp [since]

@[simp] theorem WaitStatus.since_zero (status : WaitStatus) : status.since 0 = status := by
  cases status <;> simp [since]

namespace Wait

variable {first second : Loader} {t₁ t₂ n₁ n₂ : Nat}

/-- The loaders are asked as often, with the same result. -/
theorem ask_alike (alike : first.Alike second t₁ t₂ n₁ n₂) (x times k : Nat) (w : Wait) :
    ∃ (more : Nat) (left : Option Wait),
      ask first (t₁ + x) times (n₁ + k) (w.since t₁) = (n₁ + k + more, left.map (since t₁)) ∧
      ask second (t₂ + x) times (n₂ + k) (w.since t₂) = (n₂ + k + more, left.map (since t₂)) := by
  induction times generalizing k w with
  | zero => exact ⟨0, some w, rfl, rfl⟩
  | succ times ih =>
    have due : ∀ t, (w.since t).due ≤ t + x ↔ w.due ≤ x := fun t => Nat.add_le_add_iff_left
    unfold ask
    by_cases now : w.due ≤ x
    · simp only [due, now, ↓reduceIte]
      rw [alike x k]
      by_cases ready : second.isReady (t₂ + x) (n₂ + k) = true
      · simp only [ready, ↓reduceIte]
        exact ⟨1, none, rfl, rfl⟩
      · simp only [ready, Bool.false_eq_true, ↓reduceIte]
        have later : ∀ t, { w.since t with due := t + x + (w.since t).interval } =
            ({ w with due := x + w.interval } : Wait).since t := by
          intro t
          simp [since, Nat.add_assoc]
        obtain ⟨more, left, one, two⟩ := ih (k + 1) { w with due := x + w.interval }
        rw [later, later]
        refine ⟨more + 1, left, one.trans ?_, two.trans ?_⟩ <;> congr 1 <;> omega
    · simp only [due, now, ↓reduceIte]
      exact ⟨0, some w, rfl, rfl⟩

/-- Waits that stand alike go on alike. -/
theorem poll_alike (alike : first.Alike second t₁ t₂ n₁ n₂) (x k : Nat) (w : Wait) :
    ∃ (more : Nat) (status : WaitStatus), (w.since t₁).poll first (t₁ + x) (n₁ + k) = (n₁ + k + more, status.since t₁) ∧
      (w.since t₂).poll second (t₂ + x) (n₂ + k) = (n₂ + k + more, status.since t₂) := by
  obtain ⟨more, left, one, two⟩ := ask_alike alike x inARow k w
  unfold poll
  rw [one, two]
  cases left with
  | none => exact ⟨more, .ready, rfl, rfl⟩
  | some later =>
    have wake : ∀ t, (if later.due ≤ x then .soon else .onTime (min (t + later.due) (t + later.deadline))) =
        (if later.due ≤ x then Wake.soon else .onTime (min later.due later.deadline)).since t := by
      intro t
      by_cases due : later.due ≤ x
      · simp [due, Wake.since]
      · simp [due, Wake.since, Nat.add_min_add_left]
    by_cases late : later.deadline ≤ x
    · exact ⟨more, .timedOut, by simp [since, late, WaitStatus.since], by simp [since, late, WaitStatus.since]⟩
    · refine ⟨more, .pending later (if later.due ≤ x then .soon else .onTime (min later.due later.deadline)), ?_, ?_⟩
      all_goals
        simp only [Option.map_some, since, Nat.add_le_add_iff_left, late, ↓reduceIte, WaitStatus.since]
        rw [wake]

end Wait

end Workbench
