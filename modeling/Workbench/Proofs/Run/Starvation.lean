/-
How an interrupt can fail to come through.

A job looks for signals behind each poll of its engine, in the same turn. If the
engine has left nothing of the turn, it finds none, and polls again. An engine
that never leaves anything keeps its job from ever seeing the interrupt that was
accepted for it (`Hub.Reachable.starves`). The engine of the language is not of
that kind, but comes near it: it lets others go on behind every statement but a
sleep, so each 128 sleeps of no time leave nothing of a turn
(`Script.Flight.far_of_spent`), and what is behind them is carried out before the
interrupt is looked at.
-/
import Workbench.Proofs.Run.Interruption
import Workbench.Proofs.Script.Ride

namespace Workbench

variable {E : Engine}

/-! ## Engines that leave nothing -/

/-- An engine whose runs never end, and never leave anything of a turn to whoever polls them. -/
def Engine.Greedy (E : Engine) : Prop :=
  ∀ run now tokens, ∃ lines next, E.poll run now tokens = (lines, .pending next .spent)

/-- Behind a poll that leaves nothing of the turn the run is under way as before. -/
theorem Job.race_spent {h : House} {sc : Scene E} {job : Job E} {l : Live E} {lines : List String} {run : E.Run}
    (polled : E.poll l.run h.now { paused := l.paused } = (lines, .pending run .spent)) :
    race h sc job l =
      { scene := sc.heard lines, job := job.at_ (.running { l with run := run }), wake := some .spent } := by
  unfold race
  rw [polled]
  dsimp only
  split <;> rfl

namespace Hub

variable {hub : Hub E} {w : WorkspaceId} {s : Site E} {id : JobId} {job : Job E}

/-- A run of an engine that never leaves anything of a turn is polled in every step of its job, whatever signals
are accepted for it, and does not end. -/
theorem Reachable.starves (reached : hub.Reachable) (greedy : E.Greedy) (here : hub.site? w = some s)
    (known : s.job? id = some job) (runs : job.Runs) (moves : List Move) :
    ∀ step ∈ hub.strides w id moves, step.polls = 1 ∧ step.ended? = none := by
  induction moves generalizing hub s job with
  | nil => simp [strides]
  | cons m moves ih =>
    rcases reached.stride here known m with ⟨now, stride, there⟩ | ⟨none, next, there, known', -⟩
    · obtain ⟨l, stage⟩ := runs
      obtain ⟨lines, run, polled⟩ := greedy l.run now { paused := l.paused }
      have step : Job.step (hub.house now) id { slot := s.slot, asked := hub.asked } job =
          { scene := Scene.heard { slot := s.slot, asked := hub.asked } lines
            job := job.at_ (.running { l with run := run })
            wake := some .spent } := by
        simp only [Job.step, stage]
        exact Job.race_spent polled
      have goes := ih (reached.move m) there (s.take_own ..) (step ▸ ⟨_, rfl⟩)
      rw [strides, stride, step]
      exact List.forall_mem_cons.2 ⟨⟨rfl, rfl⟩, goes⟩
    · rw [strides, none]
      exact ih (reached.move m) there known' runs

end Hub

/-! ### An engine that only writes -/

/-- An engine that writes a line in each turn, and leaves nothing of it. -/
abbrev Tireless.engine : Engine where
  Snapshot := Unit
  Run := Unit
  makeContext selection := .ofSelection selection []
  start _ _ _ := ()
  resume _ _ _ := ()
  poll _ _ _ := (["on"], .pending () .spent)
  patience _ := 0

theorem Tireless.greedy : Tireless.engine.Greedy := fun _ _ _ => ⟨_, _, rfl⟩

/-- An editor's run is under way. -/
def tireless : Hub Tireless.engine :=
  (Hub.create {} .bundled).1.after (.submit 0 .playground (.evaluate .editorRun) :: List.replicate 7 (.step 0 0))

/-- After an interrupt has been accepted the engine is polled as often as the job has its turn, and writes each
time. -/
theorem interrupt_unheard :
    tireless.Reachable ∧ tireless.Accepts (.signal .playground .interrupt) .playground 0 .interrupt [] ∧
      ((tireless.move (.signal .playground .interrupt)).strides .playground 0 (List.replicate 5 (.step 0 0))).map
        (fun s => (s.polls, s.written, s.ended?.isSome)) = List.replicate 5 (1, ["on"], false) := by
  have reached : tireless.Reachable := by
    unfold tireless
    exact (Hub.Reachable.create {} .bundled).after _
  exact ⟨reached, Hub.accepts_of [] 0 (by decide +kernel) (by decide +kernel), by decide +kernel⟩

/-! ## The engine of the language -/

namespace Script

/-- Nothing is left of a turn in which as many timers have run out as may. -/
theorem spare_of_within {wake : Wake} {spare : Nat} (other : wake ≠ .spent) (spent : wake.within spare = .spent) :
    spare = 0 := by
  by_contra left
  exact other ((if_neg left).symm.trans spent)

namespace Flight

variable {f next : Flight} {now : Nat} {tokens : Tokens} {lines : List String}

theorem proceed_far (f : Flight) (spare : Nat) (lines : List String)
    (spent : f.proceed now tokens spare = (lines, .pending (.flying next) .spent)) :
    f.machine.position + spare ≤ next.machine.position := by
  fun_induction proceed now tokens spare f generalizing lines with
  | case1 | case2 | case3 | case4 | case5 | case9 => cases spent
  | case6 spare f _ _ s current _ _ ms sleeps left ended further =>
    have further := further _ spent
    simp only [Machine.advanced] at further
    omega
  | case7 | case8 =>
    simp only [Prod.mk.injEq, Polled.pending.injEq, Run.flying.injEq] at spent
    obtain ⟨-, rfl, wake⟩ := spent
    rw [spare_of_within Wake.noConfusion wake, Nat.add_zero]
  | case10 =>
    simp only [Prod.mk.injEq, Polled.pending.injEq, Run.flying.injEq] at spent
    obtain ⟨-, rfl, wake⟩ := spent
    rw [spare_of_within Wake.noConfusion wake]
    exact Nat.le_succ _
  | case11 spare f _ _ s current _ _ c written pacing more polled rest awake still changed further =>
    simp only [Prod.mk.injEq] at spent
    exact Nat.le_trans (Nat.add_le_add_right (Nat.le_succ _) _) (further _ (rest.trans (Prod.ext rfl spent.2)))

/-- A poll leaves nothing of the turn only if the script comes as many statements further as timers may run out in
one, but for the timer that it may have waited for. -/
theorem far_of_spent (spent : f.poll now tokens = (lines, .pending (.flying next) .spent)) :
    f.machine.position + (Wake.allowance - 1) ≤ next.machine.position := by
  unfold poll at spent
  split at spent
  · exact Nat.le_of_succ_le (proceed_far f _ _ spent)
  · next since left _ =>
    dsimp only at spent
    split at spent
    · have further := proceed_far (f.awake now since left) _ _ spent
      have awake : f.machine.position ≤ (f.awake now since left).machine.position := by
        unfold Flight.awake
        dsimp only
        split
        · exact Nat.le_succ _
        · exact Nat.le_refl _
      omega
    · cases spent
  · split at spent
    · exact proceed_far { f with waiting := .turn } _ _ spent
    · cases spent

end Flight

end Script

end Workbench
