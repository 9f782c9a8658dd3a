/-
Runs that go by their own clock.

An engine is timeless if a run that was begun later goes as one that was begun
earlier: with all times counted from a moment, each poll answers the same
(`Engine.Timeless`). Scripts are run so (`Script.timeless`).
-/
import Workbench.Proofs.Run.Loading
import Workbench.Proofs.Script.Ride

namespace Workbench

/-- What a poll answers, with the times counted from a moment. -/
def Polled.since {R S : Type} (since : Nat → R → R) (t : Nat) : Polled R S → Polled R S
  | .ended result => .ended result
  | .pending run wake => .pending (since t run) (wake.since t)

/-- An engine that asks for the time only to see how much has gone by. -/
structure Engine.Timeless (E : Engine) (since : Nat → E.Run → E.Run) : Prop where
  start : ∀ t text context options, since t (E.start text context options) = E.start text context options
  resume : ∀ t snapshot context options, since t (E.resume snapshot context options) = E.resume snapshot context options
  poll : ∀ t run now tokens,
    E.poll (since t run) (t + now) tokens = ((E.poll run now tokens).1, (E.poll run now tokens).2.since since t)

namespace Script

/-- What a run waits for, counted from a moment. -/
def Waiting.since (t : Nat) : Waiting → Waiting
  | .turn => .turn
  | .slice since left => .slice (t + since) left
  | .tick time => .tick (t + time)

/-- A run under way that was begun so much later. -/
def Flight.since (t : Nat) (f : Flight) : Flight :=
  { f with started := t + f.started, waiting := f.waiting.since t }

/-- A run whose times are counted from a moment. -/
def Run.since (t : Nat) : Run → Run
  | .flying f => .flying (f.since t)
  | run => run

namespace Flight

variable {t now : Nat} {tokens : Tokens} {f : Flight}

theorem used_since (t now : Nat) (f : Flight) : (f.since t).used (t + now) = f.used now := by
  simp only [used, since]
  omega

/-- What a run that was begun later does at a statement, if nothing is asked of it. -/
theorem since_proceed_at {spare : Nat} {s : Statement} (going : ¬ tokens.cancelled = true) (on : ¬ tokens.paused = true)
    (current : f.machine.program[f.machine.position]? = some s) :
    (f.since t).proceed (t + now) tokens spare =
      if f.options.budgetMs < f.used now then
        ([], .ended (faultAt .timeout (timeoutMessage f.options.budgetMs) s.line))
      else if f.stopsAt s then ([], .ended f.machine.suspend)
      else
        match s.command with
        | .sleep ms =>
          let left := f.machine.sleepLeft.getD ms
          if left = 0 ∧ spare ≠ 0 then
            ({ f with machine := f.machine.advanced, waiting := .turn }.since t).proceed (t + now) tokens (spare - 1)
          else
            ([], .pending (.flying ({ f with
                  machine := { f.machine with sleepLeft := some left }, waiting := .slice now left }.since t))
              ((Wake.onTime (t + now + min left sleepSlice)).within spare))
        | .spin =>
          ([], .pending (.flying ({ f with waiting := .tick (now + spinTick) }.since t))
            ((Wake.onTime (t + now + spinTick)).within spare))
        | command =>
          match command.change f.machine.bindings f.machine.lastValue f.context with
          | .error message => ([], .ended (faultAt .runtime message s.line))
          | .ok c =>
            let next : Flight := { f with machine := f.machine.changed c, waiting := .turn }.since t
            match f.options.pacing with
            | .preemptive => (c.line.toList, .pending (.flying next) (Wake.soon.within spare))
            | .sync =>
              (c.line.toList ++ (next.proceed (t + now) tokens spare).1,
                (next.proceed (t + now) tokens spare).2) := by
  rw [proceed, if_neg going, if_neg on, used_since]
  split
  · next none_left => cases none_left.symm.trans current
  · next found =>
    cases found.symm.trans current
    rfl

theorem since_within (t spare : Nat) (wake : Wake) : (wake.within spare).since t = (wake.since t).within spare := by
  unfold Wake.within
  split <;> rfl

theorem proceed_since (t now : Nat) (tokens : Tokens) (spare : Nat) (f : Flight) :
    (f.since t).proceed (t + now) tokens spare =
      ((f.proceed now tokens spare).1, (f.proceed now tokens spare).2.since Run.since t) := by
  fun_induction proceed now tokens spare f with
  | case1 spare f cancelled =>
    rw [proceed, if_pos cancelled]
    rfl
  | case2 spare f going paused =>
    rw [proceed, if_neg going, if_pos paused]
    rfl
  | case3 spare f going on done =>
    rw [proceed, if_neg going, if_neg on]
    split
    · rfl
    · next found => cases done.symm.trans found
  | case4 spare f going on s current elapsed =>
    rw [since_proceed_at going on current, if_pos elapsed]
    rfl
  | case5 spare f going on s current within stops =>
    rw [since_proceed_at going on current, if_neg within, if_pos stops]
    rfl
  | case6 spare f going on s current within unarmed ms sleeps left nothing ih =>
    rw [since_proceed_at going on current, if_neg within, if_neg unarmed]
    simp only [sleeps]
    rw [if_pos nothing]
    exact ih
  | case7 spare f going on s current within unarmed ms sleeps left more =>
    rw [since_proceed_at going on current, if_neg within, if_neg unarmed]
    simp only [sleeps]
    rw [if_neg more, Nat.add_assoc]
    simp only [Polled.since, since_within]
    rfl
  | case8 spare f going on s current within unarmed spins =>
    rw [since_proceed_at going on current, if_neg within, if_neg unarmed]
    simp only [spins, Nat.add_assoc]
    simp only [Polled.since, since_within]
    rfl
  | case9 spare f going on s current within unarmed message awake still failed =>
    rw [since_proceed_at going on current, if_neg within, if_neg unarmed]
    split
    · next sleeps => exact absurd sleeps (awake _)
    · next spins => exact absurd spins still
    · rw [failed]
      rfl
  | case10 spare f going on s current within unarmed c written next pacing awake still changed =>
    rw [since_proceed_at going on current, if_neg within, if_neg unarmed]
    split
    · next sleeps => exact absurd sleeps (awake _)
    · next spins => exact absurd spins still
    · rw [changed]
      simp only [pacing]
      simp only [Polled.since, since_within]
      rfl
  | case11 spare f going on s current within unarmed c written pacing more polled rest awake still changed ih =>
    rw [since_proceed_at going on current, if_neg within, if_neg unarmed]
    split
    · next sleeps => exact absurd sleeps (awake _)
    · next spins => exact absurd spins still
    · rw [changed]
      simp only [pacing]
      rw [rest] at ih
      rw [ih]

theorem awake_since (t now : Nat) (since left : Nat) (f : Flight) :
    (f.since t).awake (t + now) (t + since) left = (f.awake now since left).since t := by
  unfold awake
  rw [Nat.add_sub_add_left]
  rfl

theorem poll_since (t now : Nat) (tokens : Tokens) (f : Flight) :
    (f.since t).poll (t + now) tokens = ((f.poll now tokens).1, (f.poll now tokens).2.since Run.since t) := by
  have waits : (f.since t).waiting = f.waiting.since t := rfl
  unfold poll
  rw [waits]
  cases waiting : f.waiting with
  | turn => exact f.proceed_since t now tokens _
  | slice since left =>
    have due : t + since + min left sleepSlice ≤ t + now ↔ since + min left sleepSlice ≤ now := by omega
    simp only [Waiting.since, due, awake_since]
    split
    · exact proceed_since ..
    · rw [Nat.add_assoc]
      rfl
  | tick time =>
    simp only [Waiting.since, Nat.add_le_add_iff_left]
    split
    · exact proceed_since t now tokens _ { f with waiting := .turn }
    · rfl

end Flight

/-- Scripts go by their own clock. -/
theorem timeless : engine.Timeless Run.since where
  start := fun _ _ _ _ => rfl
  resume := fun _ _ _ _ => rfl
  poll := by
    intro t run now tokens
    show Run.poll (run.since t) (t + now) tokens = ((Run.poll run now tokens).1, (Run.poll run now tokens).2.since _ t)
    cases run with
    | ofSource source context options =>
      unfold Run.poll
      simp only [Run.since]
      cases parse source with
      | error e => rfl
      | ok program =>
        exact Flight.proceed_since t now tokens _
          { machine := { program := program }, context, options, started := now }
    | ofMachine machine context options =>
      exact Flight.proceed_since t now tokens _ { machine, context, options, started := now }
    | flying f => exact f.poll_since t now tokens

end Script

end Workbench
