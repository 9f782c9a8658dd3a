/-
The way of a job that has its workspace to itself.

It is given the permit as soon as it asks for it, nothing is delivered to its
listener, and the libraries are there whenever they are asked for. So it waits for
nothing but its own runs: each is polled when it wants to be until it ends
(`Script.Path.races`), and what it has told by then is what it tells on its own.
-/
import Workbench.Proofs.Run.Alone
import Workbench.Proofs.Run.Brief
import Workbench.Proofs.Run.Attribution
import Workbench.Proofs.Run.Debugging
import Workbench.Proofs.Script.Transparency

namespace Workbench

variable {E : Engine} {settings : Settings} {loader : Loader} {id : JobId} {slot : Slot E} {job : Job E} {now : Nat}

namespace Job

/-! ## The workspace to itself -/

/-- A job that has the permit, for which nobody else waits, and a listener to which nothing was delivered. -/
structure Engaged (id : JobId) (slot : Slot E) (job : Job E) : Prop where
  permit : slot.permit = { holder := some id }
  armed : ∃ number, job.receiver = some number ∧ slot.mailbox.queue number = [] ∧
    slot.mailbox.listens number = true

namespace Engaged

variable (engaged : job.Engaged id slot)

include engaged

/-- What else is in the slot does not matter, nor how far the job has come. -/
theorem of_same {later : Slot E} {other : Job E} (permit : later.permit = slot.permit)
    (mailbox : later.mailbox = slot.mailbox) (receiver : other.receiver = job.receiver) : other.Engaged id later :=
  ⟨permit.trans engaged.permit, by rw [receiver, mailbox]; exact engaged.armed⟩

theorem receive {sc : Scene E} (mailbox : sc.slot.mailbox = slot.mailbox) :
    Job.receive sc job = (sc, .pending) := by
  obtain ⟨number, receiver, empty, listens⟩ := engaged.armed
  rw [← mailbox] at empty listens
  rcases receive_cases sc job with ⟨_, s, rest, own, signal, -⟩ | ⟨_, -, -, -, found⟩ | ⟨deaf, -⟩
  · cases receiver.symm.trans own
    cases empty.symm.trans signal
  · exact found
  · cases listens.symm.trans (deaf number receiver).2

theorem hear {sc : Scene E} (mailbox : sc.slot.mailbox = slot.mailbox) (wake : Wake) :
    Job.hear sc job wake = (sc, .pending) := by
  unfold Job.hear
  split
  · rfl
  · exact engaged.receive mailbox

theorem quiet {sc : Scene E} (mailbox : sc.slot.mailbox = slot.mailbox) : Quiet sc job := by
  obtain ⟨number, receiver, empty, -⟩ := engaged.armed
  rintro _ own
  cases receiver.symm.trans own
  rw [mailbox]
  exact empty

end Engaged

/-- Whoever has just armed a listener, with the permit to itself, is engaged. -/
theorem engaged_of_arm {sc : Scene E} (permit : sc.slot.permit = { holder := some id }) (accepts : Bool)
    (stage : Stage E) : ((arm sc job accepts).2.at_ stage).Engaged id (arm sc job accepts).1.slot where
  permit := permit
  armed := ⟨_, rfl, by simp [arm, Mailbox.arm, Mailbox.queue], by simp [arm, Mailbox.arm, Mailbox.listens]⟩

end Job

/-! ## To the permit and back -/

/-- Whoever asks for the permit when it is free is given it at once. -/
theorem Path.admitted {operation : Operation} (free : slot.permit = {})
    (allowed : ∀ mode, operation = .evaluate mode → Job.refusal? slot mode = none) :
    ∃ mailbox, Path settings loader id ⟨now, slot, { operation := operation }⟩ 0
      ⟨now, { slot with permit := { holder := some id }, mailbox := mailbox },
        { operation := operation, stage := .admitted }⟩ := by
  let mailbox := if Job.interrupts operation then (slot.mailbox.fire .interrupt).1 else slot.mailbox
  let given : Slot E := { slot with permit := { holder := some id }, mailbox := mailbox }
  have asks : Point.Takes settings loader id ⟨now, slot, { operation := operation }⟩ none
      ⟨now, given, { operation := operation, stage := .queued }⟩ := by
    intro asked
    have enqueues : Job.step { settings := settings, loader := loader, now := now } id
        { slot := slot, asked := asked } { operation := operation } =
        Job.enqueue id { slot := slot, asked := asked } { operation := operation } := by
      simp only [Job.step, Job.submit]
      split
      · next mode => simp only [allowed mode rfl]
      · rfl
    simp only [enqueues, Job.enqueue_slot]
    refine ⟨?_, rfl, rfl, rfl⟩
    simp only [free, Permit.request]
    rfl
  have given : Point.Takes settings loader id ⟨now, given, { operation := operation, stage := .queued }⟩ none
      ⟨now, given, { operation := operation, stage := .admitted }⟩ := by
    intro asked
    have held : given.permit.isHeldBy id = true := decide_eq_true rfl
    simp only [Job.step, held, ↓reduceIte]
    exact ⟨trivial, rfl, trivial, rfl⟩
  exact ⟨mailbox, .goes asks (.goes given .here)⟩

/-- A run that is asked for, and not refused, is about to be prepared. -/
theorem Path.enters {mode : Mode} (free : slot.permit = {}) (allowed : Job.refusal? slot mode = none) :
    ∃ mailbox number,
      let working : Slot E := { slot with permit := { holder := some id }, mailbox := mailbox }
      let job : Job E := { operation := .evaluate mode, receiver := some number, stage := .preparing mode }
      job.Engaged id working ∧
        Path settings loader id ⟨now, slot, { operation := .evaluate mode }⟩ 0 ⟨now, working, job⟩ := by
  have allowed : ∀ m, Operation.evaluate mode = .evaluate m → Job.refusal? slot m = none := by
    rintro _ ⟨⟩
    exact allowed
  obtain ⟨mailbox, path⟩ : ∃ mailbox, Path settings loader id ⟨now, slot, { operation := .evaluate mode }⟩ 0 _ :=
    Path.admitted free allowed
  let given : Scene E := { slot := { slot with permit := { holder := some id }, mailbox := mailbox }, asked := 0 }
  let job : Job E := { operation := .evaluate mode, stage := .admitted }
  have engaged : ((Job.arm given job mode.acceptsPause).2.at_ (.preparing mode)).Engaged id _ :=
    Job.engaged_of_arm rfl mode.acceptsPause _
  exact ⟨_, _, engaged, path.then fun asked => ⟨rfl, rfl, rfl, rfl⟩⟩

/-- Listener and permit are given up, and the permit is free again. -/
theorem Path.leaves {reply : Reply} (stage : job.stage = .leaving reply)
    (permit : slot.permit = { holder := some id }) :
    ∃ mailbox, Path settings loader id ⟨now, slot, job⟩ 0
      ⟨now, { slot with permit := {}, mailbox := mailbox },
        { job with receiver := none, stage := .settled reply }⟩ := by
  have released : ({ holder := some id } : Permit JobId).release id = {} := by simp [Permit.release]
  cases receiver : job.receiver with
  | none =>
    refine ⟨slot.mailbox, .goes (fun asked => ?_) .here⟩
    simp only [Job.step, stage, Job.leave_slot, receiver, permit, released]
    exact ⟨trivial, rfl, rfl, rfl⟩
  | some number =>
    refine ⟨slot.mailbox.drop number, .goes (fun asked => ?_) .here⟩
    simp only [Job.step, stage, Job.leave_slot, receiver, permit, released]
    exact ⟨trivial, rfl, rfl, rfl⟩

/-! ## The libraries -/

/-- Whether a loader is ready whenever it is asked. -/
def Loader.Prompt (loader : Loader) : Prop := ∀ now asked, loader.isReady now asked = true

theorem Loader.bundled_prompt : Loader.bundled.Prompt := fun _ _ => rfl

/-- Where the loader is ready there is nothing to wait for. -/
theorem Point.Takes.loaded (prompt : loader.Prompt) {purpose : Purpose} {interval timeout : Nat}
    (stage : job.stage = .loading purpose (.start now interval timeout)) :
    let a := Job.proceed { settings := settings, loader := loader, now := now } { slot := slot, asked := 0 } job purpose
    Point.Takes settings loader id ⟨now, slot, job⟩ none ⟨now, a.scene.slot, a.job⟩ := by
  intro a asked
  have polled : (Wait.start now interval timeout).poll loader now asked = (asked + 1, .ready) := by
    simp [Wait.poll, Wait.inARow, Wait.ask, Wait.start, prompt now asked]
  simp only [Job.step, stage, Job.await, polled]
  cases purpose <;> exact ⟨rfl, rfl, rfl, rfl⟩

/-! ## Runs -/

theorem OutputLog.appendLines_append (o : OutputLog) (first second : List String) :
    o.appendLines (first ++ second) = (o.appendLines first).appendLines second :=
  List.foldl_append ..

namespace Job

/-- What a result makes of the workspace, and what the run comes to with it. -/
def closed (settings : Settings) (loader : Loader) (l : Live E) (slot : Slot E) (result : RunResult E.Snapshot) :
    Slot E × Outcome :=
  let ended := finish { settings := settings, loader := loader, now := 0 } { slot := slot, asked := 0 } l result
  (ended.1.slot, ended.2)

/-- It does not depend on the time, nor on what has been seen before or what became of the run. -/
theorem finish_closed (settings : Settings) (loader : Loader) (h : House) {sc : Scene E} {l other : Live E}
    (same : sc.slot = slot) (mode : other.mode = l.mode) (context : other.context = l.context)
    (lines : other.prependLines = l.prependLines) (paused : other.paused = l.paused) (result : RunResult E.Snapshot) :
    (finish h sc other result).1.slot = (closed settings loader l slot result).1 ∧
      (finish h sc other result).2 = (closed settings loader l slot result).2 := by
  obtain ⟨own, run, made, pre, asked, listening⟩ := other
  dsimp only at mode context lines paused
  subst same mode context lines paused
  unfold closed finish
  cases result with
  | finished value => cases l.mode <;> exact ⟨rfl, rfl⟩
  | failed faults => cases l.mode <;> exact ⟨rfl, rfl⟩
  | suspended snapshot location => cases l.mode <;> cases l.paused <;> exact ⟨rfl, rfl⟩

/-- A run that is launched, in the engine's hands. -/
def launched (mode : Mode) (p : Prepared E) (options : RunOptions) : Live E where
  mode := mode
  run := runOf p options
  context := p.context
  prependLines := p.prependLines
  paused := false

end Job

/-- The engine is started when a run is launched: nothing has been delivered. -/
theorem Path.launches {mode : Mode} {p : Prepared E} (engaged : job.Engaged id slot)
    (stage : job.stage = .launching mode p) :
    Path settings loader id ⟨now, slot, job⟩ 0
      ⟨now, { slot with state := slot.state.onOutput (·.beginRun) },
        job.at_ (.running (Job.launched mode p (Job.optionsFor settings slot.state mode p)))⟩ := by
  let begun : Slot E := { slot with state := slot.state.onOutput (·.beginRun) }
  let l : Launch E := { mode := mode, prepared := p, options := Job.optionsFor settings slot.state mode p }
  have launches : Point.Takes settings loader id ⟨now, slot, job⟩ none ⟨now, begun, job.at_ (.starting l)⟩ := by
    intro asked
    simp only [Job.step, stage, Job.launch_slot, Job.launch_job]
    exact ⟨rfl, rfl, by unfold Job.launch; rfl, rfl⟩
  have starts : Point.Takes settings loader id ⟨now, begun, job.at_ (.starting l)⟩ none
      ⟨now, begun, job.at_ (.running (Job.launched mode p l.options))⟩ := by
    intro asked
    have still : (job.at_ (.starting l)).Engaged id begun := engaged.of_same rfl rfl rfl
    have quiet : Job.Quiet ({ slot := begun, asked := asked } : Scene E) (job.at_ (.starting l)) := still.quiet rfl
    have starting : (job.at_ (.starting l)).stage = .starting l := rfl
    simp only [Job.step, starting]
    rw [Job.start_quiet quiet]
    exact ⟨rfl, rfl, rfl, rfl⟩
  exact .goes launches (.goes starts .here)

/-- A poll after which the run wants to be polled again. -/
theorem Point.Takes.polled {l : Live E} {lines : List String} {next : E.Run} {wake : Wake}
    (engaged : job.Engaged id slot) (stage : job.stage = .running l) (listening : l.listening = true)
    (polled : E.poll l.run now { paused := l.paused } = (lines, .pending next wake)) :
    Point.Takes settings loader id ⟨now, slot, job⟩ (some wake)
      ⟨wake.look now, { slot with state := slot.state.onOutput (·.appendLines lines) },
        job.at_ (.running { l with run := next })⟩ := by
  intro asked
  simp only [Job.step, stage]
  unfold Job.race
  rw [polled]
  dsimp only
  rw [if_pos listening, engaged.hear rfl]
  exact ⟨rfl, rfl, rfl, rfl⟩

/-- A poll with which the run comes to its end. -/
theorem Point.Takes.ended {l : Live E} {lines : List String} {result : RunResult E.Snapshot}
    (stage : job.stage = .running l)
    (polled : E.poll l.run now { paused := l.paused } = (lines, .ended result)) :
    let ended := Job.closed settings loader l { slot with state := slot.state.onOutput (·.appendLines lines) } result
    Point.Takes settings loader id ⟨now, slot, job⟩ none ⟨now, ended.1, job.at_ (.concluded l.mode ended.2)⟩ := by
  intro ended asked
  let heard : Scene E := (Scene.heard { slot := slot, asked := asked } lines).add (.engine .release)
  have written : heard.slot = { slot with state := slot.state.onOutput (·.appendLines lines) } := rfl
  obtain ⟨same, outcome⟩ := Job.finish_closed settings loader
    { settings := settings, loader := loader, now := now } written (l := l) rfl rfl rfl rfl result
  simp only [Job.step, stage]
  rw [Job.race_ended polled, Job.conclude_slot]
  exact ⟨same, congrArg (fun o => job.at_ (.concluded l.mode o)) outcome, rfl, rfl⟩

namespace Script

variable (settings loader) in
/-- A run that is polled when it wants to be comes to its end. -/
theorem Path.races (polls : Nat) {slot : Slot engine} {job : Job engine} {now : Nat} {l : Live engine}
    (engaged : job.Engaged id slot) (stage : job.stage = .running l) (unasked : l.paused = false)
    (listening : l.listening = true) (timely : (l.run : Run).Timely now)
    (enough : (l.run : Run).pollsAt now < polls) :
    ∃ lines slept result time waits, Ride false l.run now lines slept result ∧ waits < polls ∧
      let ended := Job.closed settings loader l { slot with state := slot.state.onOutput (·.appendLines lines) } result
      Path settings loader id ⟨now, slot, job⟩ waits ⟨time, ended.1, job.at_ (.concluded l.mode ended.2)⟩ := by
  induction polls generalizing slot job now l with
  | zero => cases enough
  | succ polls ih =>
    have leads := Run.poll_leads (rfl : ({} : Tokens).cancelled = false) timely
    have tokens : ({ paused := l.paused } : Tokens) = {} := by rw [unasked]
    rcases polled : (l.run : Run).poll now {} with ⟨lines, result | ⟨next, wake⟩⟩
    · exact ⟨lines, 0, result, now, 0, .ended (fun asked => asked) polled, Nat.succ_pos _,
        .goes (.ended stage (tokens ▸ polled)) .here⟩
    · rw [polled] at leads
      cases leads with
      | @pending _ f _ same still options context asks fewer =>
        obtain ⟨time, in_time, few, wakes⟩ := Flight.next_poll still asks
        have time_eq : time = wake.look now := by
          rcases wakes with ⟨rfl | rfl, rfl⟩ | rfl
          · rfl
          · rfl
          · exact (Nat.max_eq_right in_time.1).symm
        subst time_eq
        let later : Live engine := { l with run := .flying f }
        let written : Slot engine := { slot with state := slot.state.onOutput (·.appendLines lines) }
        have waits : Point.Takes settings loader id ⟨now, slot, job⟩ (some wake)
            ⟨wake.look now, written, job.at_ (.running later)⟩ :=
          .polled engaged stage listening (tokens ▸ polled)
        have engaged : (job.at_ (.running later)).Engaged id written := engaged.of_same rfl rfl rfl
        have enough : (later.run : Run).pollsAt (wake.look now) < polls := by
          have same : (later.run : Run) = .flying f := rfl
          rw [same]
          omega
        obtain ⟨more, slept, result, last, turns, ride, short, path⟩ := ih engaged (l := later) rfl unasked listening
          (still.later (still.admits asks in_time)).1 enough
        refine ⟨lines ++ more, _, result, last, turns + 1, .waited (fun asked => asked) polled in_time ride,
          Nat.succ_lt_succ short, .waits waits rfl ?_⟩
        simp only [OutputLog.appendLines_append]
        exact path

variable (settings loader now) in
/-- A run that is launched comes to its end, and waits less often than is reckoned with. -/
theorem Path.runs {slot : Slot engine} {job : Job engine} {mode : Mode} {p : Prepared engine}
    (engaged : job.Engaged id slot) (stage : job.stage = .launching mode p) :
    let options := Job.optionsFor settings slot.state mode p
    ∃ lines slept result time waits, Ride false (begin p.context options p.origin) now lines slept result ∧
      waits < Hub.runEffort settings slot.state mode p ∧
      let ended := Job.closed settings loader (Job.launched mode p options)
        { slot with state := slot.state.onOutput (·.beginRun.appendLines lines) } result
      Path settings loader id ⟨now, slot, job⟩ waits ⟨time, ended.1, job.at_ (.concluded mode ended.2)⟩ := by
  intro options
  have begins : (Job.runOf p options : Run) = begin p.context options p.origin := by
    unfold Job.runOf begin
    cases p.origin <;> rfl
  obtain ⟨timely, effort⟩ := Run.timely_of_begins (r := Job.runOf p options) (begins ▸ begin_begins) now
  let begun : Slot engine := { slot with state := slot.state.onOutput (·.beginRun) }
  let live : Live engine := Job.launched mode p options
  have running : (job.at_ (.running live)).Engaged id begun := engaged.of_same rfl rfl rfl
  obtain ⟨lines, slept, result, time, waits, ride, few, path⟩ := Path.races settings loader
    _ running (l := live) rfl rfl rfl timely (Nat.lt_succ_of_le effort)
  refine ⟨lines, slept, result, time, waits, begins ▸ ride, few, ?_⟩
  exact Nat.zero_add waits ▸ (Path.launches engaged stage).trans path

end Script

/-! ## Runs of the user's own -/

/-- The state in which an editor's program is launched: in a new context, with nothing in the output. -/
def WorkspaceState.renewed (makeContext : Selection → Context) (state : WorkspaceState) : WorkspaceState :=
  { state with context := makeContext state.selection, output := .cleared }

/-- The editor's program is ready to be launched. -/
theorem Path.composes (prompt : loader.Prompt) (free : slot.permit = {}) :
    ∃ mailbox number,
      let ready : Slot E :=
        { slot with
          permit := { holder := some id }, mailbox := mailbox, suspended := none
          state := slot.state.renewed E.makeContext }
      let job : Job E :=
        { operation := .evaluate .editorRun, receiver := some number
          stage := .launching .editorRun (Job.composed ready none) }
      job.Engaged id ready ∧
        Path settings loader id ⟨now, slot, { operation := .evaluate .editorRun }⟩ 0 ⟨now, ready, job⟩ := by
  obtain ⟨mailbox, number, engaged, path⟩ : ∃ mailbox number, _ ∧
      Path settings loader id ⟨now, slot, { operation := .evaluate .editorRun }⟩ 0 _ := Path.enters free rfl
  refine ⟨mailbox, number, engaged.of_same rfl rfl rfl, ?_⟩
  let forgot : Slot E := { slot with permit := { holder := some id }, mailbox := mailbox, suspended := none }
  let loading : Job E :=
    Job.load { settings := settings, loader := loader, now := now }
      { operation := .evaluate .editorRun, receiver := some number } .editorRun
  have loads := path.then (r := ⟨now, forgot, loading⟩) fun asked => ⟨rfl, rfl, rfl, rfl⟩
  have waits : loading.stage = .loading .editorRun (.start now _ _) := rfl
  have loaded : Point.Takes settings loader id ⟨now, forgot, loading⟩ none _ := .loaded prompt waits
  exact loads.then loaded

/-- The suspended run is ready to be taken up again. -/
theorem Path.resumes {s : Suspension E.Snapshot} (suspended : slot.suspended = some s) (free : slot.permit = {}) :
    ∃ mailbox number,
      let ready : Slot E :=
        { slot with
          permit := { holder := some id }, mailbox := mailbox, suspended := none
          state := { slot.state with output := .cleared, highlighted := none } }
      let job : Job E :=
        { operation := .evaluate .debugResume, receiver := some number
          stage := .launching .debugResume
            { origin := .snapshot s.snapshot, context := s.context, prependLines := s.prependLines } }
      job.Engaged id ready ∧
        Path settings loader id ⟨now, slot, { operation := .evaluate .debugResume }⟩ 0 ⟨now, ready, job⟩ := by
  obtain ⟨mailbox, number, engaged, path⟩ : ∃ mailbox number, _ ∧
      Path settings loader id ⟨now, slot, { operation := .evaluate .debugResume }⟩ 0 _ :=
    Path.enters free (by simp [Job.refusal?, suspended])
  refine ⟨mailbox, number, engaged.of_same rfl rfl rfl, path.then fun asked => ?_⟩
  simp only [Job.step, Job.prepare, suspended]
  exact ⟨rfl, rfl, trivial, rfl⟩

/-- A run after which no testcases are run is answered with its outcome. -/
theorem Path.answers {mode : Mode} {o : Outcome} (stage : job.stage = .concluded mode o) (alone : job.batch = none)
    (permit : slot.permit = { holder := some id })
    (ungraded : mode = .editorRun → (∃ value, o = .finished value) → Job.graded slot = false) :
    ∃ mailbox, Path settings loader id ⟨now, slot, job⟩ 0
      ⟨now, { slot with permit := {}, mailbox := mailbox },
        { job with receiver := none, stage := .settled (.outcome o) }⟩ := by
  have follows : Point.Takes settings loader id ⟨now, slot, job⟩ none
      ⟨now, slot, job.at_ (.leaving (.outcome o))⟩ := by
    intro asked
    simp only [Job.step, stage, Job.follow, alone]
    split
    · next value =>
      simp only [ungraded rfl ⟨value, rfl⟩, Bool.false_eq_true, ↓reduceIte]
      exact ⟨trivial, trivial, trivial, rfl⟩
    · exact ⟨rfl, rfl, rfl, rfl⟩
  obtain ⟨mailbox, path⟩ : ∃ mailbox, Path settings loader id ⟨now, slot, job.at_ (.leaving (.outcome o))⟩ 0 _ :=
    Path.leaves rfl permit
  exact ⟨mailbox, .goes follows path⟩

/-- What a result means for a run of the user's own that was not asked to pause. -/
def RunResult.own {Snapshot : Type} (prependLines : Int32) : RunResult Snapshot → Outcome
  | .finished value => .finished value
  | .failed faults => .errored (faults.map (·.remapped prependLines))
  | .suspended _ _ => .breakpointHit

theorem RunResult.own_finished {Snapshot : Type} {result : RunResult Snapshot} {prependLines : Int32} {value : Json} :
    result.own prependLines = .finished value ↔ result = .finished value := by
  cases result <;> simp [own]

/-- What a run of the user's own leaves behind in a workspace, which has written lines and come to a result. -/
structure Prepared.Leaves (p : Prepared E) (before : Slot E) (lines : List String) (result : RunResult E.Snapshot)
    (after : Slot E) : Prop where
  id_eq : after.id = before.id
  brief : after.state.brief = before.state.brief
  entries : after.state.output.entries = (result.own p.prependLines).closing lines
  stopped : ∀ snapshot location, result = .suspended snapshot location →
    after.suspended =
        some { snapshot := snapshot, context := p.context, prependLines := p.prependLines, location := location } ∧
      after.state.highlighted = location.map (LineRange.ofLocation · p.prependLines)

namespace Job

variable {mode : Mode} {p : Prepared E} {options : RunOptions} {result : RunResult E.Snapshot}

theorem closed_door (l : Live E) (result : RunResult E.Snapshot) :
    (closed settings loader l slot result).1.id = slot.id ∧
      (closed settings loader l slot result).1.permit = slot.permit ∧
      (closed settings loader l slot result).1.mailbox = slot.mailbox :=
  finish_door ..

theorem closed_brief (l : Live E) (result : RunResult E.Snapshot) :
    (closed settings loader l slot result).1.state.brief = slot.state.brief :=
  finish_brief ..

variable (settings loader) in
/-- The outcome of a run of the user's own. -/
theorem closed_own (own : ∀ i, mode ≠ .testcaseRun i) :
    (closed settings loader (launched mode p options) slot result).2 = result.own p.prependLines := by
  unfold closed finish
  cases result with
  | finished value | failed faults => rfl
  | suspended snapshot location =>
    cases mode with
    | testcaseRun i => exact absurd rfl (own i)
    | _ => rfl

theorem closed_leaves (own : ∀ i, mode ≠ .testcaseRun i) {lines : List String}
    (fresh : slot.state.output.entries = []) :
    p.Leaves slot lines result
      (closed settings loader (launched mode p options)
        { slot with state := slot.state.onOutput (·.beginRun.appendLines lines) } result).1 where
  id_eq := (closed_door ..).1
  brief := closed_brief ..
  entries := by
    have during : (slot.state.output.beginRun.appendLines lines).During [] lines :=
      fresh ▸ (slot.state.output.beginRun_during).appendLines lines
    rw [← closed_own settings loader own]
    exact (congrArg OutputLog.entries (finish_output ..)).trans (Outcome.close_entries during _)
  stopped := by
    rintro snapshot location rfl
    unfold closed finish
    cases mode with
    | testcaseRun i => exact absurd rfl (own i)
    | _ => exact ⟨rfl, rfl⟩

end Job

theorem Prepared.Leaves.graded {p : Prepared E} {before after : Slot E} {lines : List String}
    {result : RunResult E.Snapshot} (leaves : p.Leaves before lines result after) :
    Job.graded after = Job.graded before := by
  have tab : after.state.activeTab = before.state.activeTab := congrArg Brief.activeTab leaves.brief
  simp only [Job.graded, leaves.id_eq, tab]

namespace Script

variable {p : Prepared engine} {mode : Mode}

variable (settings loader now) in
/-- A run of the user's own, after which no testcases are run, is answered with what it comes to. -/
theorem Path.own {slot : Slot engine} {job : Job engine} (own : ∀ i, mode ≠ .testcaseRun i)
    (engaged : job.Engaged id slot) (stage : job.stage = .launching mode p) (alone : job.batch = none)
    (ungraded : Job.graded slot = false) (fresh : slot.state.output.entries = []) :
    let options := Job.optionsFor settings slot.state mode p
    ∃ lines slept result waits last, Ride false (begin p.context options p.origin) now lines slept result ∧
      waits < Hub.runEffort settings slot.state mode p ∧ Path settings loader id ⟨now, slot, job⟩ waits last ∧
      last.job.reply? = some (.outcome (result.own p.prependLines)) ∧ last.slot.permit = {} ∧
      p.Leaves slot lines result last.slot := by
  intro options
  obtain ⟨lines, slept, result, time, waits, ride, few, path⟩ := Path.runs settings loader now engaged stage
  let ended := Job.closed settings loader (Job.launched mode p options)
    { slot with state := slot.state.onOutput (·.beginRun.appendLines lines) } result
  have leaves : p.Leaves slot lines result ended.1 := Job.closed_leaves own fresh
  have permit : ended.1.permit = { holder := some id } := (Job.closed_door ..).2.1.trans engaged.permit
  obtain ⟨mailbox, rest⟩ : ∃ mailbox, Path settings loader id ⟨time, ended.1, job.at_ (.concluded mode ended.2)⟩ 0 _ :=
    Workbench.Path.answers rfl alone permit fun _ _ => leaves.graded.trans ungraded
  refine ⟨lines, slept, result, waits, _, ride, few, path.trans rest, ?_, rfl, leaves.1, leaves.2, leaves.3, leaves.4⟩
  rw [← Job.closed_own settings loader own]
  rfl

/-- The editor's program as it is run in a workspace. -/
def editorProgram (state : WorkspaceState) : Prepared engine where
  origin := .source (Composition.ofState state none).text
  context := engine.makeContext state.selection
  prependLines := (Composition.ofState state none).prependLines

end Script

namespace Hub.Holds

open Script

variable {hub : Hub engine} {w : WorkspaceId} {slot : Slot engine}

/-- An editor's run, after which no testcases are run. -/
theorem evaluates_editor (holds : hub.Holds settings loader w slot) (prompt : loader.Prompt) (free : slot.permit = {})
    (ungraded : Job.graded slot = false) :
    let p := editorProgram slot.state
    ∃ lines slept result time last after,
      Ride false (begin p.context (Job.optionsFor settings slot.state .editorRun p) p.origin) now lines slept result ∧
      hub.perform now w (.evaluate .editorRun) = (last, time, some (.outcome (result.own p.prependLines))) ∧
      last.Holds settings loader w after ∧ after.permit = {} ∧ p.Leaves slot lines result after := by
  intro p
  obtain ⟨mailbox, number, engaged, begun⟩ : ∃ mailbox number, _ ∧
      Path settings loader 0 ⟨now, slot, { operation := .evaluate .editorRun }⟩ 0 _ :=
    Workbench.Path.composes prompt free
  obtain ⟨lines, slept, result, waits, last, ride, few, path, answered, rests, leaves⟩ :=
    Path.own settings loader now (by simp) engaged rfl rfl ungraded rfl
  have enough : 0 + waits < effort settings slot (.evaluate .editorRun) := by
    have few : waits < runEffort settings slot.state .editorRun p := few
    have least : runEffort settings slot.state .editorRun p ≤ composedEffort settings slot .editorRun none :=
      Nat.le_add_left _ _
    simp only [effort]
    omega
  obtain ⟨hub', performed, there⟩ := holds.perform (begun.trans path) answered enough
  exact ⟨lines, slept, result, _, hub', _, ride, performed, there, rests, leaves.1, leaves.2, leaves.3, leaves.4⟩

/-- A suspended run that is taken up again. -/
theorem evaluates_resumed {s : Suspension Machine} (holds : hub.Holds settings loader w slot)
    (free : slot.permit = {}) (suspended : slot.suspended = some s) (ungraded : Job.graded slot = false) :
    let p : Prepared engine := { origin := .snapshot s.snapshot, context := s.context, prependLines := s.prependLines }
    ∃ lines slept result time last after,
      Ride false (begin p.context (Job.optionsFor settings slot.state .debugResume p) p.origin) now lines slept result ∧
      hub.perform now w (.evaluate .debugResume) = (last, time, some (.outcome (result.own p.prependLines))) ∧
      last.Holds settings loader w after ∧ after.permit = {} ∧ p.Leaves slot lines result after := by
  intro p
  obtain ⟨mailbox, number, engaged, begun⟩ : ∃ mailbox number, _ ∧
      Path settings loader 0 ⟨now, slot, { operation := .evaluate .debugResume }⟩ 0 _ :=
    Workbench.Path.resumes suspended free
  obtain ⟨lines, slept, result, waits, last, ride, few, path, answered, rests, leaves⟩ :=
    Path.own settings loader now (by simp) engaged rfl rfl ungraded rfl
  have enough : 0 + waits < effort settings slot (.evaluate .debugResume) := by
    have few : waits < runEffort settings slot.state .debugResume p := few
    simp only [effort, suspended, Nat.zero_add]
    exact Nat.lt_succ_of_lt few
  obtain ⟨hub', performed, there⟩ := holds.perform (begun.trans path) answered enough
  exact ⟨lines, slept, result, _, hub', _, ride, performed, there, rests, leaves.1, leaves.2, leaves.3, leaves.4⟩

end Hub.Holds

/-! ## Another library -/

/-- A library that is selected is the one of the workspace then. -/
theorem Path.selects (prompt : loader.Prompt) (free : slot.permit = {}) (library : LibraryName) :
    ∃ last changed, Path settings loader id ⟨now, slot, { operation := .selectLibrary library }⟩ 0 last ∧
      last.job.reply? = some (.switched changed) ∧ last.slot.permit = {} ∧
      last.slot.state.brief = { slot.state.brief with library := library } := by
  obtain ⟨mailbox, admitted⟩ : ∃ mailbox,
      Path settings loader id ⟨now, slot, { operation := .selectLibrary library }⟩ 0 _ := Path.admitted free (by simp)
  let h : House := { settings := settings, loader := loader, now := now }
  let sc : Scene E := { slot := { slot with permit := { holder := some id }, mailbox := mailbox }, asked := 0 }
  let job : Job E := { operation := .selectLibrary library, stage := .admitted }
  by_cases same : slot.state.library = library
  · have stays : Point.Takes settings loader id ⟨now, sc.slot, job⟩ none
        ⟨now, sc.slot, job.at_ (.leaving (.switched false))⟩ := by
      intro asked
      simp only [Job.step, job, Job.begin, sc, same, ↓reduceIte]
      exact ⟨trivial, trivial, trivial, rfl⟩
    obtain ⟨after, left⟩ : ∃ mailbox,
        Path settings loader id ⟨now, sc.slot, job.at_ (.leaving (.switched false))⟩ 0 _ := Path.leaves rfl rfl
    refine ⟨_, false, (admitted.then stays).trans left, rfl, rfl, ?_⟩
    rw [← same]
    rfl
  · let chosen := ((sc.onState ({ · with library := library })).forgetShown).slot
    let loading := job.load h (.selection ("Switched to " ++ library.text ++ " library"))
    have chooses : Point.Takes settings loader id ⟨now, sc.slot, job⟩ none ⟨now, chosen, loading⟩ := by
      intro asked
      simp only [Job.step, job, Job.begin, same, sc, ↓reduceIte, Job.select, chosen, Scene.forgetShown_slot]
      exact ⟨rfl, rfl, trivial, rfl⟩
    have brief : chosen.state.brief = { slot.state.brief with library := library } := by
      simp only [chosen, Scene.forgetShown_slot]
      split <;> rfl
    let renewed : Slot E := { chosen with state := chosen.state.renewed E.makeContext }
    let done := loading.at_ (.leaving (.switched true))
    have waits : loading.stage = .loading _ (.start now _ _) := rfl
    have loaded : Point.Takes settings loader id ⟨now, chosen, loading⟩ none ⟨now, renewed, done⟩ :=
      .loaded prompt waits
    have permit : renewed.permit = { holder := some id } := (Scene.forgetShown_door _).2.1
    obtain ⟨after, left⟩ : ∃ mailbox, Path settings loader id ⟨now, renewed, done⟩ 0 _ := Path.leaves rfl permit
    exact ⟨_, true, ((admitted.then chooses).then loaded).trans left, rfl, rfl, brief⟩

/-- Another library, or the same. -/
theorem Hub.Holds.selects {hub : Hub E} {w : WorkspaceId} (holds : hub.Holds settings loader w slot)
    (prompt : loader.Prompt) (free : slot.permit = {}) (library : LibraryName) :
    ∃ last time after changed,
      hub.perform now w (.selectLibrary library) = (last, time, some (.switched changed)) ∧
      last.Holds settings loader w after ∧ after.permit = {} ∧
      after.state.brief = { slot.state.brief with library := library } := by
  obtain ⟨last, changed, path, answered, permit, brief⟩ : ∃ last changed,
      Path settings loader 0 ⟨now, slot, { operation := .selectLibrary library }⟩ 0 last ∧ _ :=
    Path.selects prompt free library
  obtain ⟨hub', performed, there⟩ := holds.perform path answered (Nat.succ_pos _)
  exact ⟨hub', _, _, changed, performed, there, permit, brief⟩

end Workbench
