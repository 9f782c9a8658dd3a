/-
Operations that are carried out with nobody else about.

What the job of such an operation does is a path (`Path`): step after step, and where it
waits the clock moves to the time that it waits for. A turn is long enough for all steps up
to where the job waits next, since each of them makes what is left for the turn less
(`Job.Rule.lighter`). So an operation whose path ends in an answer, and waits less often
than it has turns, is carried out to that answer (`Hub.Holds.perform`).
-/
import Workbench.Proofs.Run.Answer
import Workbench.Run.Alone

namespace Workbench

variable {E : Engine}

/-! ## A turn is long enough -/

/-- How many steps lead from a stage to the last one at most, without those for signals and further testcases. -/
def Stage.rank : Stage E → Nat
  | .submitted => 11
  | .queued => 10
  | .admitted => 9
  | .preparing _ => 8
  | .loading .. => 7
  | .launching .. => 6
  | .starting _ => 5
  | .running l => if l.listening then 4 else 3
  | .concluded .. => 2
  | .leaving _ => 1
  | .settled _ => 0

namespace Job

/-- How many signals wait for a job. -/
def signals (mailbox : Mailbox) (job : Job E) : Nat := (job.receiver.elim [] mailbox.queue).length

/-- How many steps a turn still takes at most. -/
def weight (slot : Slot E) (job : Job E) : Nat :=
  8 * job.testcasesLeft slot.state.testcases.length + job.stage.rank + job.signals slot.mailbox

theorem weight_lt_reach (slot : Slot E) (job : Job E) : job.weight slot < reach slot job := by
  have rank : job.stage.rank ≤ 11 := by
    unfold Stage.rank
    split <;> try split
    all_goals decide
  unfold weight reach testcasesLeft signals
  cases job.batch <;> cases job.receiver <;> simp only [Option.elim] <;> simp <;> omega

variable {h : House} {id : JobId} {sc : Scene E} {job : Job E} {a : Advance E}

theorem lighter_of_rank (batch : a.job.batch = job.batch)
    (length : a.scene.slot.state.testcases.length = sc.slot.state.testcases.length)
    (signals : a.job.signals a.scene.slot.mailbox ≤ job.signals sc.slot.mailbox)
    (rank : a.job.stage.rank < job.stage.rank) : a.job.weight a.scene.slot < job.weight sc.slot := by
  unfold weight testcasesLeft
  rw [batch, length]
  omega

theorem lighter_of_signal (batch : a.job.batch = job.batch)
    (length : a.scene.slot.state.testcases.length = sc.slot.state.testcases.length)
    (rank : a.job.stage.rank ≤ job.stage.rank)
    (signals : a.job.signals a.scene.slot.mailbox < job.signals sc.slot.mailbox) :
    a.job.weight a.scene.slot < job.weight sc.slot := by
  unfold weight testcasesLeft
  rw [batch, length]
  omega

theorem lighter_of_testcases
    (signals : a.job.signals a.scene.slot.mailbox ≤ job.signals sc.slot.mailbox)
    (rank : a.job.stage.rank < job.stage.rank + 8)
    (less : a.job.testcasesLeft a.scene.slot.state.testcases.length <
      job.testcasesLeft sc.slot.state.testcases.length) : a.job.weight a.scene.slot < job.weight sc.slot := by
  unfold weight
  omega

/-- A signal that is looked at no longer waits. -/
theorem signals_took {number : Nat} {s : Signal} {rest : List Signal} (receiver : job.receiver = some number)
    (signal : sc.slot.mailbox.queue number = s :: rest) (stage : Stage E) :
    (job.at_ stage).signals (sc.took number rest).slot.mailbox < job.signals sc.slot.mailbox := by
  simp [signals, at_, receiver, signal]

/-- Who has just armed a listener has no signals. -/
theorem signals_arm (sc : Scene E) (job : Job E) (accepts : Bool) :
    (arm sc job accepts).2.signals (arm sc job accepts).1.slot.mailbox = 0 := by
  simp [signals, arm, Mailbox.arm, Mailbox.queue]

/-- What is left for a turn is less after each step at which the job does not wait. -/
theorem Rule.lighter (rule : Rule h id sc job a) (orderly : job.Orderly) (awake : a.wake = none) :
    a.job.weight a.scene.slot < job.weight sc.slot := by
  have length := rule.testcases_length
  have outside : job.stage.mode? = none → (∀ reply, job.stage ≠ .leaving reply) →
      (∀ reply, job.stage ≠ .settled reply) → job.batch = none ∧ job.receiver = none := by
    intro stage leaving settled
    refine orderly.outside stage ?_
    rintro ⟨reply, past | past⟩
    · exact leaving reply past
    · exact settled reply past
  cases rule with
  | waiting | loading | running | settled => cases awake
  | enqueued stage =>
    have none := (outside (by rw [stage]; rfl) (by simp [stage]) (by simp [stage])).2
    refine lighter_of_rank rfl length ?_ (by rw [stage]; exact Nat.lt_succ_self _)
    simp [signals, enqueue, at_, none]
  | armed stage =>
    refine lighter_of_rank rfl length (Nat.le_trans (Nat.le_of_eq (signals_arm sc job _)) (Nat.zero_le _)) ?_
    rw [stage]
    exact Nat.lt_succ_self _
  | allEmpty stage =>
    refine lighter_of_rank rfl length (Nat.le_trans (Nat.le_of_eq (signals_arm sc job _)) (Nat.zero_le _)) ?_
    rw [stage]
    simp [Stage.rank, at_]
  | allBegun stage =>
    have alone := (outside (by rw [stage]; rfl) (by simp [stage]) (by simp [stage])).1
    refine lighter_of_testcases (Nat.le_trans (Nat.le_of_eq (signals_arm sc job _)) (Nat.zero_le _)) ?_ ?_
    · rw [stage]
      simp [Stage.rank]
    · simp [testcasesLeft, alone]
  | gradedBegun stage alone =>
    refine lighter_of_testcases (Nat.le_of_eq ?_) ?_ (by simp [testcasesLeft, alone])
    · simp only [signals, Scene.occur_slot, Scene.sayBriefly_slot, refusePause_slot]
      cases job.receiver <;> rfl
    · rw [stage]
      simp [Stage.rank]
  | gradedEmpty stage =>
    refine lighter_of_rank rfl length (Nat.le_of_eq ?_) (by rw [stage]; exact Nat.lt_succ_self _)
    simp only [signals, at_, refusePause_slot]
    cases job.receiver <;> rfl
  | next stage under ran more =>
    refine lighter_of_testcases (Nat.le_refl _) ?_ (by simp only [testcasesLeft, under]; omega)
    rw [stage]
    simp [Stage.rank]
  | left stage =>
    exact lighter_of_rank rfl length (Nat.zero_le _) (by rw [stage]; exact Nat.lt_succ_self 0)
  | pausedEarly stage receiver signal =>
    exact lighter_of_signal rfl length (by rw [stage]; exact Nat.le_refl _) (signals_took receiver signal _)
  | paused stage polled listening receiver signal =>
    refine lighter_of_signal rfl length ?_ (signals_took receiver signal _)
    rw [stage]
    exact Nat.le_refl _
  | unheard stage polled listening =>
    refine lighter_of_rank rfl length (Nat.le_refl _) ?_
    rw [stage]
    simp [Stage.rank, at_, listening]
  | @stoppedEarly l number rest stage receiver signal =>
    refine lighter_of_rank rfl length ?_ ?_
    · have fewer := signals_took receiver signal (.concluded l.mode .interrupted)
      simp only [conclude_slot, signals, (Scene.finishInterrupted_door _ _ _).2.2] at fewer ⊢
      exact Nat.le_of_lt fewer
    · rw [stage]
      simp [Stage.rank, conclude, at_]
  | @stopped l lines run wake number rest stage polled listening receiver signal =>
    refine lighter_of_rank rfl length ?_ ?_
    · have fewer : (job.at_ (.concluded l.mode .interrupted)).signals (sc.took number rest).slot.mailbox <
          job.signals sc.slot.mailbox := signals_took receiver signal _
      simp only [conclude_slot, signals, (Scene.finishInterrupted_door _ _ _).2.2] at fewer ⊢
      exact Nat.le_of_lt fewer
    · rw [stage]
      simp [Stage.rank, conclude, at_, listening]
  | @ended l lines result stage polled =>
    refine lighter_of_rank rfl length (Nat.le_of_eq ?_) ?_
    · simp only [conclude_slot, signals, (finish_door _ _ _ _).2.2]
      rfl
    · rw [stage]
      simp only [Stage.rank, conclude, at_]
      split <;> decide
  | @loaded purpose wait next stage waited =>
    have same : (proceed h next job purpose).scene.slot.mailbox = sc.slot.mailbox := by
      rw [(proceed_door h next job purpose).2.2, waited.slot]
    cases purpose <;>
      exact lighter_of_rank rfl length (by simp only [signals, same]; exact Nat.le_refl _)
        (by rw [stage]; simp [Stage.rank, proceed, at_])
  | launched stage =>
    refine lighter_of_rank ?_ length ?_ ?_
    · rw [launch_job]
      rfl
    · rw [launch_job, launch_slot]
      exact Nat.le_refl _
    · rw [launch_job, stage]
      exact Nat.lt_succ_self _
  | refused stage | admitted stage | reset stage | unchanged stage | chapter stage | library stage | deprived stage
  | cutShort stage | editor stage | resumed stage | testcase stage | repl stage | started stage | aborted stage
  | completed stage | answered stage =>
    refine lighter_of_rank rfl length (Nat.le_of_eq ?_) ?_
    · simp [signals, at_, load, endBatch, prepare, Scene.forgetShown_door]
      try rfl
    · rw [stage]
      simp [Stage.rank, at_, load, endBatch, prepare]

end Job

/-! ## Paths -/

/-- What the clock shows when a wake is waited for. -/
def Wake.look (now : Nat) : Wake → Nat
  | .onTime time => max now time
  | _ => now

/-- A workspace and the job that is at work on it, at a time. -/
structure Point (E : Engine) where
  now : Nat
  slot : Slot E
  job : Job E

section

variable (settings : Settings) (loader : Loader) (id : JobId)

/-- What the job's step leads to, however often the loader has been asked, and what the job waits for then. -/
def Point.Takes (p : Point E) (wake : Option Wake) (q : Point E) : Prop :=
  ∀ asked,
    let a := Job.step { settings := settings, loader := loader, now := p.now } id
      { slot := p.slot, asked := asked } p.job
    a.scene.slot = q.slot ∧ a.job = q.job ∧ a.wake = wake ∧ q.now = wake.elim p.now (·.look p.now)

/-- The job's way from one point to another, on which it waits so often. -/
inductive Path : Point E → (waits : Nat) → Point E → Prop
  | here {p : Point E} : Path p 0 p
  | goes {p q r : Point E} {waits : Nat} (takes : p.Takes settings loader id none q) (rest : Path q waits r) :
    Path p waits r
  | waits {p q r : Point E} {wake : Wake} {waits : Nat} (takes : p.Takes settings loader id (some wake) q)
    (open_ : q.job.reply? = none) (rest : Path q waits r) : Path p (waits + 1) r

end

variable {settings : Settings} {loader : Loader} {id : JobId} {p q r : Point E} {m n : Nat}

theorem Path.trans (first : Path settings loader id p m q) (second : Path settings loader id q n r) :
    Path settings loader id p (m + n) r := by
  induction first with
  | here => rwa [Nat.zero_add]
  | goes takes _ ih => exact .goes takes (ih second)
  | waits takes open_ _ ih =>
    rw [Nat.add_right_comm]
    exact .waits takes open_ (ih second)

/-- One step more at the end. -/
theorem Path.then (first : Path settings loader id p m q) (takes : q.Takes settings loader id none r) :
    Path settings loader id p m r :=
  first.trans (.goes takes .here)

namespace Point.Takes

variable {wake : Option Wake}

theorem id_eq (takes : p.Takes settings loader id wake q) : q.slot.id = p.slot.id := by
  rw [← (takes 0).1]
  exact (Job.step_rule ..).id_eq

theorem orderly (takes : p.Takes settings loader id wake q) (orderly : p.job.Orderly) : q.job.Orderly := by
  rw [← (takes 0).2.1]
  exact (Job.step_rule ..).orderly orderly

theorem lighter (takes : p.Takes settings loader id none q) (orderly : p.job.Orderly) :
    q.job.weight q.slot < p.job.weight p.slot := by
  obtain ⟨slot, job, awake, -⟩ := takes 0
  rw [← slot, ← job]
  exact (Job.step_rule ..).lighter orderly awake

end Point.Takes

theorem Path.id_eq (path : Path settings loader id p n r) : r.slot.id = p.slot.id := by
  induction path with
  | here => rfl
  | goes takes _ ih | waits takes _ _ ih => exact ih.trans takes.id_eq

/-! ## Turn after turn -/

/-- Where a turn leads that begins at a point, and what the job waits for then. -/
def Point.Turns (settings : Settings) (loader : Loader) (id : JobId) (steps : Nat) (p q : Point E) (wake : Wake) :
    Prop :=
  ∀ sc : Scene E, sc.slot = p.slot →
    let a := Job.steps { settings := settings, loader := loader, now := p.now } id steps sc p.job
    a.1.slot = q.slot ∧ a.2 = (q.job, wake)

/-- One step that is taken by one who has seen something before. -/
theorem Point.Takes.step {wake : Option Wake} (takes : p.Takes settings loader id wake q) {sc : Scene E}
    (slot : sc.slot = p.slot) :
    let a := Job.step { settings := settings, loader := loader, now := p.now } id sc p.job
    a.scene.slot = q.slot ∧ a.job = q.job ∧ a.wake = wake := by
  obtain ⟨there, job, awake, -⟩ := takes sc.asked
  rw [← slot] at there job awake
  dsimp only
  rw [Job.step_seen]
  exact ⟨there, job, awake⟩

theorem Point.Turns.goes {steps : Nat} {wake : Wake} (takes : p.Takes settings loader id none q)
    (rest : q.Turns settings loader id steps r wake) : p.Turns settings loader id (steps + 1) r wake := by
  intro sc slot
  obtain ⟨there, job, awake⟩ := takes.step slot
  have now : q.now = p.now := (takes 0).2.2.2
  have rest := rest _ there
  rw [now] at rest
  unfold Job.steps
  generalize Job.step _ id sc p.job = a at *
  obtain ⟨scene, made, wake'⟩ := a
  cases awake
  cases job
  exact rest

theorem Point.Turns.waits {steps : Nat} {wake : Wake} (takes : p.Takes settings loader id (some wake) q) :
    p.Turns settings loader id (steps + 1) q wake := by
  intro sc slot
  obtain ⟨there, job, awake⟩ := takes.step slot
  unfold Job.steps
  generalize Job.step _ id sc p.job = a at *
  obtain ⟨scene, made, wake'⟩ := a
  cases awake
  cases job
  exact ⟨there, rfl⟩

/-- Who is settled stays where it is. -/
theorem Point.Takes.settled {reply : Reply} (settled : p.job.stage = .settled reply) :
    p.Takes settings loader id (some .never) p := by
  intro asked
  simp only [Job.step, settled]
  exact ⟨trivial, trivial, trivial, rfl⟩

theorem Job.reply?_eq_some {job : Job E} {reply : Reply} : job.reply? = some reply ↔ job.stage = .settled reply := by
  unfold reply?
  split <;> simp_all

/-- A turn that is long enough leads to where the job waits next, or to its answer. -/
theorem Path.turn {reply : Reply} {steps : Nat} (path : Path settings loader id p n r)
    (answered : r.job.reply? = some reply) (orderly : p.job.Orderly) (enough : p.job.weight p.slot < steps) :
    ∃ q wake, p.Turns settings loader id steps q wake ∧
      (n = 0 ∧ q = r ∧ q.now = p.now ∨
        ∃ k, n = k + 1 ∧ q.now = wake.look p.now ∧ q.job.reply? = none ∧ q.job.Orderly ∧
          Path settings loader id q k r) := by
  induction path generalizing steps with
  | @here p =>
    obtain ⟨steps, rfl⟩ := Nat.exists_eq_succ_of_ne_zero (Nat.ne_zero_of_lt enough)
    exact ⟨p, .never, .waits (.settled (Job.reply?_eq_some.1 answered)), .inl ⟨rfl, rfl, rfl⟩⟩
  | @goes p q r n takes _ ih =>
    obtain ⟨steps, rfl⟩ := Nat.exists_eq_succ_of_ne_zero (Nat.ne_zero_of_lt enough)
    have now : q.now = p.now := (takes 0).2.2.2
    obtain ⟨stop, wake, turns, rest⟩ := ih answered (takes.orderly orderly)
      (Nat.lt_of_lt_of_le (takes.lighter orderly) (Nat.le_of_lt_succ enough))
    exact ⟨stop, wake, .goes takes turns, now ▸ rest⟩
  | @waits p q r wake k takes open_ rest =>
    obtain ⟨steps, rfl⟩ := Nat.exists_eq_succ_of_ne_zero (Nat.ne_zero_of_lt enough)
    exact ⟨q, wake, .waits takes, .inr ⟨k, rfl, (takes 0).2.2.2, open_, takes.orderly orderly, rest⟩⟩

namespace Hub

/-- A workspace of a hub, with nothing but this to be looked at. -/
structure Holds (hub : Hub E) (settings : Settings) (loader : Loader) (w : WorkspaceId) (slot : Slot E) : Prop where
  settings_eq : hub.settings = settings
  loader_eq : hub.loader = loader
  slot_eq : hub.slot w = .ok slot
  id_eq : slot.id = w

/-- A workspace of a hub and the job that is at work on it. -/
structure Shows (hub : Hub E) (settings : Settings) (loader : Loader) (w : WorkspaceId) (id : JobId)
    (slot : Slot E) (job : Job E) : Prop extends hub.Holds settings loader w slot where
  task_eq : hub.tasks.get? id = some { workspace := w, job := job }

variable {hub : Hub E} {w : WorkspaceId}

/-- A turn of the job. -/
theorem Shows.turn {wake : Wake} (shows : hub.Shows settings loader w id p.slot p.job) (same : q.slot.id = p.slot.id)
    (turns : p.Turns settings loader id (Job.reach p.slot p.job) q wake) :
    ∃ next effects, hub.turn p.now id = (next, effects, wake) ∧ next.Shows settings loader w id q.slot q.job := by
  obtain ⟨slot, last⟩ := turns { slot := p.slot, asked := hub.asked } rfl
  have name : q.slot.id = w := same.trans shows.id_eq
  unfold Hub.turn Job.turn
  simp only [shows.task_eq, shows.slot_eq, shows.settings_eq, shows.loader_eq]
  generalize Job.steps _ id _ _ p.job = a at slot last
  obtain ⟨sc, job, wake'⟩ := a
  cases last
  have there : sc.slot = q.slot := slot
  refine ⟨_, _, rfl, ⟨shows.settings_eq, shows.loader_eq, ?_, name⟩, by simp⟩
  simp [slot_eq_ok, withSlot, Registry.set, there, name]

/-- Where the path ends in the answer, and the job does not wait more often than it has turns, it is given the
answer. -/
theorem Shows.finish {reply : Reply} {turns : Nat} (shows : hub.Shows settings loader w id p.slot p.job)
    (path : Path settings loader id p n r) (answered : r.job.reply? = some reply) (orderly : p.job.Orderly)
    (enough : n < turns) :
    ∃ last : Hub E, finish id turns hub p.now = (last, r.now, some reply) ∧
      last.Shows settings loader w id r.slot r.job := by
  induction turns generalizing hub p n with
  | zero => exact absurd enough (Nat.not_lt_zero n)
  | succ turns ih =>
    obtain ⟨q, wake, turned, step⟩ := path.turn answered orderly (Job.weight_lt_reach p.slot p.job)
    have same : q.slot.id = p.slot.id := by
      rcases step with ⟨-, rfl, -⟩ | ⟨k, -, -, -, -, rest⟩
      · exact path.id_eq
      · exact rest.id_eq.symm.trans path.id_eq
    obtain ⟨next, effects, turn, there⟩ := shows.turn same turned
    have told : next.reply? id = q.job.reply? := by
      rw [Hub.reply?, there.task_eq]
      rfl
    unfold Hub.finish
    rw [turn]
    dsimp only
    rcases step with ⟨-, rfl, now⟩ | ⟨k, rfl, now, open_, orderly, rest⟩
    · rw [told, answered, now]
      exact ⟨next, rfl, there⟩
    · rw [told, open_]
      dsimp only
      obtain ⟨last, finished, there⟩ := ih there rest orderly (Nat.lt_of_succ_lt_succ enough)
      refine ⟨last, ?_, there⟩
      rw [now] at finished
      unfold Wake.look at finished
      exact finished

/-- An operation whose path ends in an answer is carried out to that answer. -/
theorem Holds.perform {slot : Slot E} {operation : Operation} {now : Nat} {reply : Reply}
    (holds : hub.Holds settings loader w slot)
    (path : Path settings loader 0 ⟨now, slot, { operation := operation }⟩ n r)
    (answered : r.job.reply? = some reply) (enough : n < effort settings slot operation) :
    ∃ last : Hub E, hub.perform now w operation = (last, r.now, some reply) ∧
      last.Holds settings loader w r.slot := by
  have shows : (hub.submit 0 w operation).Shows settings loader w 0 slot { operation := operation } :=
    ⟨⟨holds.settings_eq, holds.loader_eq, holds.slot_eq, holds.id_eq⟩, by simp [submit]⟩
  obtain ⟨last, finished, there⟩ := shows.finish (p := ⟨now, slot, _⟩) path answered
    (.of_untouched ⟨rfl, rfl, .inl rfl⟩) enough
  refine ⟨last, ?_, there.toHolds⟩
  unfold Hub.perform
  rw [holds.slot_eq, holds.settings_eq]
  exact finished

end Hub

end Workbench
