/-
The user's lines, from the call to its answer.

A program is composed of fragments, and an editor's run and the resumptions of it go
on with the lines of that composition, while the fragments and the breakpoints are
edited in between. What a call begins with is an errand (`Errand`): the program that
was composed once, where it was suspended, and the breakpoints as they are now. What
it comes to is told in the user's lines again (`Comes`).

The stages that a call goes through are looked at one by one (`Phase.step`). A
session is an editor's run and any number of resumptions, each of which was stopped
at a breakpoint (`Session`).
-/
import Workbench.Proofs.Run.Answer
import Workbench.Proofs.Script.Numbering
import Workbench.Proofs.Script.Stop

namespace Workbench

/-! ## Lines there and back -/

namespace LineSet

theorem contains_iff {s : LineSet} {n : Int32} : s.contains n = true ↔ n ∈ s.lines := List.contains_iff_mem

/-- A breakpoint in the lines of the composed program is one in the user's lines. -/
theorem contains_shifted (s : LineSet) (by_ line : Int32) :
    (s.shifted by_).contains line = s.contains (line - by_) := by
  rw [Bool.eq_iff_iff, contains_iff, contains_iff, shifted, map, mem_ofList, List.mem_map]
  constructor
  · rintro ⟨user, here, rfl⟩
    rwa [Int32.add_sub_cancel]
  · exact fun here => ⟨_, here, Int32.sub_add_cancel ..⟩

end LineSet

/-! ## Runs that nobody signals -/

namespace Job

variable {E : Engine} {h : House} {sc : Scene E} {job : Job E}

theorem start_quiet (quiet : Quiet sc job) (l : Launch E) :
    start h sc job l =
      { scene := sc.add (.engine (call l))
        job := job.at_ (.running
          { mode := l.mode
            run := runOf l.prepared l.options
            context := l.prepared.context
            prependLines := l.prepared.prependLines
            paused := l.paused }) } := by
  unfold start
  rcases receive_cases sc job with ⟨number, s, rest, receiver, signal, -⟩ | ⟨number, -, -, -, found⟩ | ⟨-, found⟩
  · cases (quiet number receiver).symm.trans signal
  · rw [found]
  · rw [found]

theorem race_ended {l : Live E} {lines : List String} {result : RunResult E.Snapshot}
    (polled : E.poll l.run h.now { paused := l.paused } = (lines, .ended result)) :
    race h sc job l = conclude job l.mode (finish h ((sc.heard lines).add (.engine .release)) l result) := by
  unfold race
  rw [polled]
  rfl

theorem race_quiet (quiet : Quiet sc job) {l : Live E} {lines : List String} {run : E.Run} {wake : Wake}
    (polled : E.poll l.run h.now { paused := l.paused } = (lines, .pending run wake)) :
    (race h sc job l).scene.slot = (sc.heard lines).slot ∧
      ∃ listening, (race h sc job l).job = job.at_ (.running { l with run := run, listening := listening }) := by
  unfold race
  rw [polled]
  dsimp only
  split
  · by_cases spent : wake = .spent
    · subst spent
      exact ⟨rfl, _, rfl⟩
    rw [hear_unspent spent]
    rcases receive_cases (sc.heard lines) job with ⟨number, s, rest, receiver, signal, -⟩ | ⟨number, -, -, -, found⟩ |
      ⟨-, found⟩
    · cases (quiet number receiver).symm.trans signal
    · unfold Scene.heard at found
      rw [found]
      exact ⟨rfl, _, rfl⟩
    · unfold Scene.heard at found
      rw [found]
      exact ⟨rfl, _, rfl⟩
  · exact ⟨rfl, _, rfl⟩

theorem finish_kept {l : Live E} (own : ∀ i, l.mode ≠ .testcaseRun i) (snapshot : E.Snapshot)
    (location : Option Location) :
    finish h sc l (.suspended snapshot location) =
      sc.finishSuspended h
        { snapshot := snapshot, context := l.context, prependLines := l.prependLines, location := location }
        l.paused := by
  unfold finish
  cases mode : l.mode with
  | testcaseRun i => exact absurd mode (own i)
  | _ => rfl

/-- Once an editor's run has finished and the testcases are graded, its outcome is the answer, whatever comes of
them. -/
inductive Grading (o : Outcome) (job : Job E) : Prop
  | under {b : Batch} (batch : job.batch = some b) (after : b.after = some o) (run : job.stage.mode?.isSome = true)
  | past (stage : job.stage = .leaving (.outcome o) ∨ job.stage = .settled (.outcome o))

theorem endBatch_grading {b : Batch} {o : Outcome} (after : b.after = some o) (aborted : Bool) :
    Grading o (endBatch h sc job b aborted).job := by
  refine .past (.inl ?_)
  simp only [endBatch, at_, after]

theorem Grading.step {o : Outcome} (grading : Grading o job) {id : JobId} {a : Advance E} (rule : Rule h id sc job a) :
    Grading o a.job := by
  cases grading with
  | @under b batch after run =>
    cases rule with
    | refused stage | enqueued stage | waiting stage | admitted stage | armed stage | allEmpty stage | allBegun stage
    | reset stage | unchanged stage | chapter stage | library stage | left stage | settled stage =>
      simp [stage, Stage.mode?] at run
    | deprived _ _ alone | gradedEmpty _ alone | gradedBegun _ alone | answered _ alone => cases alone.symm.trans batch
    | cutShort _ _ under | aborted _ under | completed _ under =>
      cases under.symm.trans batch
      exact endBatch_grading after _
    | next _ under =>
      cases under.symm.trans batch
      exact .under rfl after rfl
    | @loaded purpose _ next stage =>
      rw [stage] at run
      cases purpose with
      | selection => cases run
      | _ => exact .under batch after rfl
    | loading stage =>
      rw [stage] at run
      exact .under batch after run
    | _ => exact .under batch after rfl
  | past stage =>
    cases rule with
    | @left reply here =>
      rcases stage with there | there <;> cases here.symm.trans there
      exact .past (.inr rfl)
    | settled => exact .past stage
    | _ => simp_all

end Job

namespace Script

/-! ## Errands -/

/-- What a call is about: the program, where it begins or goes on, and what it is to stop at. -/
structure Errand where
  mode : Mode
  prepared : Prepared engine
  program : List Statement
  /-- as the user numbers lines -/
  breakpoints : LineSet
  budgetMs : Nat

namespace Errand

/-- What the script begins with. -/
def outset (e : Errand) : Outset where
  context := e.prepared.context
  program := e.program
  resumed := match e.prepared.origin with
    | .source _ => none
    | .snapshot m => some m.position
  halts line := e.breakpoints.contains (line - e.prepared.prependLines)
  budgetMs := e.budgetMs

/-- The program is that of the text, or the one that was suspended. -/
def Originates (e : Errand) : Prop :=
  match e.prepared.origin with
  | .source text => parse text = .ok e.program
  | .snapshot m => m.Stands e.prepared.context e.program ∧ m.suspendedAt = some m.position

/-- An editor's run or the resumption of one, in a chapter in which breakpoints count. -/
structure Sound (settings : Settings) (e : Errand) : Prop where
  mode : e.mode = .editorRun ∨ e.mode = .debugResume
  debuggable : Job.debuggable settings e.prepared.context = true
  origin : e.Originates

theorem Sound.accepts {settings : Settings} {e : Errand} (sound : e.Sound settings) : e.mode.acceptsPause = true := by
  rcases sound.mode with mode | mode <;> rw [mode] <;> rfl

/-- The run, as the engine begins it. -/
theorem Sound.along {settings : Settings} {e : Errand} (sound : e.Sound settings) {options : RunOptions}
    (debugged : options.debuggerOn = true)
    (breakpoints : options.breakpoints = e.breakpoints.shifted e.prepared.prependLines)
    (budget : options.budgetMs = e.budgetMs) : (Job.runOf e.prepared options : Run).Along e.outset := by
  have origin := sound.origin
  have halts : ∀ line, options.breakpoints.contains line = e.outset.halts line := by
    intro line
    rw [breakpoints, LineSet.contains_shifted]
    rfl
  unfold Originates at origin
  unfold Job.runOf
  split at origin
  · next text from_ =>
    rw [from_]
    refine ⟨e.program, origin, ⟨rfl, rfl⟩, rfl, debugged, halts, budget, ?_, ?_⟩
    · simp [outset, from_]
    · simp [outset, from_]
  · next m from_ =>
    rw [from_]
    refine ⟨origin.1, rfl, debugged, halts, budget, ?_, ?_⟩
    · simp [outset, from_]
    · simpa [outset, from_] using origin.2

end Errand

/-! ## What a call comes to -/

/-- What a call has come to, and what it leaves in its workspace. -/
inductive Comes (e : Errand) (timely : Prop) (slot : Slot engine) : Outcome → Prop
  | halted {m : Machine} {s : Statement} (stands : m.Stands e.prepared.context e.program)
    (current : e.program[m.position]? = some s) (armed : e.outset.Armed m.position) (clear : e.outset.Clear m.position)
    (highlighted : slot.state.highlighted =
      some ⟨s.line - e.prepared.prependLines, s.line - e.prepared.prependLines⟩)
    (suspended : slot.suspended = some
      { snapshot := { m with suspendedAt := some m.position }
        context := e.prepared.context
        prependLines := e.prepared.prependLines
        location := some (.line s.line) })
    (context : slot.state.context = e.prepared.context) : Comes e timely slot .breakpointHit
  | finished {m : Machine} (stands : m.Stands e.prepared.context e.program) (done : e.program[m.position]? = none)
    (clear : e.outset.Clear m.position) : Comes e timely slot (.finished m.lastValue)
  | failed {j : Nat} {s : Statement} {kind : FaultKind} {message : String} (lines : List String)
    (reaches : Reaches e.prepared.context e.program j) (ahead : e.outset.resumed.getD 0 ≤ j)
    (current : e.program[j]? = some s) (clear : e.outset.Clear j) (fails : Falters e.outset timely j s kind message)
    (logged : slot.state.output.entries.getLast? =
      some (.faults [⟨kind, message, .line (s.line - e.prepared.prependLines)⟩] lines))
    (recorded : slot.state.context.faults = e.prepared.context.faults ++ [⟨kind, message, .line s.line⟩]) :
    Comes e timely slot (.errored [⟨kind, message, .line (s.line - e.prepared.prependLines)⟩])

theorem Falters.imp {o : Outset} {timely earlier : Prop} {j : Nat} {s : Statement} {kind : FaultKind} {message : String}
    (fails : Falters o timely j s kind message) (imp : earlier → timely) : Falters o earlier j s kind message := by
  cases fails with
  | runtime before fails unarmed => exact .runtime before fails unarmed
  | timeout spins => exact .timeout fun early => spins (imp early)

namespace Comes

variable {e : Errand} {timely : Prop} {slot : Slot engine} {o : Outcome}

/-- It stays so when the job leaves. -/
theorem kept {earlier : Prop} {later : Slot engine} (comes : Comes e timely slot o) (imp : earlier → timely)
    (state : later.state = slot.state) (suspended : later.suspended = slot.suspended) : Comes e earlier later o := by
  cases comes with
  | halted stands current armed clear highlighted stored context =>
    exact .halted stands current armed clear (state ▸ highlighted) (suspended ▸ stored) (state ▸ context)
  | finished stands done clear => exact .finished stands done clear
  | failed lines reaches ahead current clear fails logged recorded =>
    exact .failed lines reaches ahead current clear (fails.imp imp) (state ▸ logged) (state ▸ recorded)

end Comes

theorem appendFaults_last (o : OutputLog) (faults : List Fault) :
    ∃ lines, (o.appendFaults faults).entries.getLast? = some (.faults faults lines) := by
  unfold OutputLog.appendFaults
  exact ⟨_, List.getLast?_concat ..⟩

/-- The end of a run is told in the user's lines. -/
theorem Stopped.comes {settings : Settings} {e : Errand} {timely : Prop} {result : RunResult Machine}
    (stopped : Stopped e.outset timely result) (sound : e.Sound settings) {l : Live engine} (mode : l.mode = e.mode)
    (context : l.context = e.prepared.context) (prependLines : l.prependLines = e.prepared.prependLines)
    (unpaused : l.paused = false) (h : House) {sc : Scene engine}
    (current : sc.slot.state.context = e.prepared.context) :
    Comes e timely (Job.finish h sc l result).1.slot (Job.finish h sc l result).2 := by
  cases stopped with
  | halted stands at_ armed clear =>
    have own : ∀ i, l.mode ≠ .testcaseRun i := by rcases sound.mode with same | same <;> rw [mode, same] <;> nofun
    rw [Job.finish_kept own, unpaused, context, prependLines]
    exact .halted stands at_ armed clear rfl rfl current
  | finished stands done clear => exact .finished stands done clear
  | @failed j s kind message reaches ahead at_ clear fails =>
    obtain ⟨lines, last⟩ := appendFaults_last sc.slot.state.output
      [⟨kind, message, .line (s.line - e.prepared.prependLines)⟩]
    unfold Job.finish
    dsimp only
    rw [prependLines]
    refine .failed lines reaches ahead at_ clear fails ?_ ?_
    · rw [Scene.finishFaults_slot, Scene.settleMode_slot]
      rcases sound.mode with same | same <;> rw [mode, same] <;> exact last
    · rw [Scene.finishFaults_slot, Scene.settleMode_slot]
      have report := congrArg (fun c : Context => c.faults ++ [⟨kind, message, .line s.line⟩]) current
      rcases sound.mode with same | same <;> rw [mode, same] <;> exact report

/-! ## The stages of a call -/

/-- What a call finds in its workspace until its run is launched. -/
structure Awaits (e : Errand) (slot : Slot engine) : Prop where
  breakpoints : slot.state.breakpoints = e.breakpoints
  budget : slot.state.execTimeMs = e.budgetMs
  /-- the program will be composed as the errand has it -/
  composed : e.mode = .editorRun →
    Job.composed
      { slot with state := { slot.state with context := engine.makeContext slot.state.selection } } none = e.prepared
  /-- the run will be taken up as the errand has it -/
  resumed : e.mode = .debugResume → ∃ x, slot.suspended = some x ∧ slot.state.context = x.context ∧
    e.prepared = { origin := .snapshot x.snapshot, context := x.context, prependLines := x.prependLines }

/-- How far a call has come, with the moments at which its next step is in time if it was so in the past. -/
inductive Phase (settings : Settings) (e : Errand) (past : Prop) (due : Nat → Prop) (slot : Slot engine)
    (job : Job engine) : Prop
  | waiting (stage : job.stage = .submitted ∨ job.stage = .queued ∨ job.stage = .admitted)
    (operation : job.operation = .evaluate e.mode) (alone : job.batch = none) (awaits : Awaits e slot)
  | preparing (stage : job.stage = .preparing e.mode) (alone : job.batch = none)
    (quiet : Job.Quiet { slot := slot, asked := 0 } job) (awaits : Awaits e slot)
  | loading {wait : Wait} (stage : job.stage = .loading .editorRun wait) (mode : e.mode = .editorRun)
    (alone : job.batch = none) (quiet : Job.Quiet { slot := slot, asked := 0 } job) (awaits : Awaits e slot)
  | launching (stage : job.stage = .launching e.mode e.prepared) (alone : job.batch = none)
    (quiet : Job.Quiet { slot := slot, asked := 0 } job) (breakpoints : slot.state.breakpoints = e.breakpoints)
    (budget : slot.state.execTimeMs = e.budgetMs) (context : slot.state.context = e.prepared.context)
  | starting {options : RunOptions}
    (stage : job.stage = .starting { mode := e.mode, prepared := e.prepared, options := options })
    (alone : job.batch = none) (quiet : Job.Quiet { slot := slot, asked := 0 } job)
    (debugged : options.debuggerOn = true)
    (breakpoints : options.breakpoints = e.breakpoints.shifted e.prepared.prependLines)
    (budget : options.budgetMs = e.budgetMs) (context : slot.state.context = e.prepared.context)
  | running {l : Live engine} (stage : job.stage = .running l) (alone : job.batch = none)
    (quiet : Job.Quiet { slot := slot, asked := 0 } job) (mode : l.mode = e.mode)
    (run_context : l.context = e.prepared.context) (prependLines : l.prependLines = e.prepared.prependLines)
    (unpaused : l.paused = false) (along : (l.run : Run).Along e.outset)
    (prompt : past → ∀ now, due now → (l.run : Run).Prompt now) (context : slot.state.context = e.prepared.context)
  | ended {o : Outcome} (stage : (∃ mode, job.stage = .concluded mode o) ∨ job.stage = .leaving (.outcome o) ∨
      job.stage = .settled (.outcome o))
    (alone : job.batch = none) (comes : Comes e past slot o)
  | grading {m : Machine} (grading : Job.Grading (.finished m.lastValue) job)
    (stands : m.Stands e.prepared.context e.program) (done : e.program[m.position]? = none)
    (clear : e.outset.Clear m.position)

namespace Phase

variable {settings : Settings} {e : Errand} {past : Prop} {due : Nat → Prop} {h : House} {id : JobId} {asked : Nat}
  {slot : Slot engine} {job : Job engine}

/-- The step of a call, as it is carried on. -/
def Goes (settings : Settings) (e : Errand) (past : Prop) (due : Nat → Prop) (h : House) (slot : Slot engine)
    (job : Job engine) (a : Advance engine) : Prop :=
  Phase settings e (past ∧ due h.now) (Stride.due ⟨h.now, slot, job, a⟩) a.scene.slot a.job

theorem waiting_goes (sound : e.Sound settings)
    (stage : job.stage = .submitted ∨ job.stage = .queued ∨ job.stage = .admitted)
    (operation : job.operation = .evaluate e.mode) (alone : job.batch = none) (awaits : Awaits e slot) :
    Goes settings e past due h slot job (Job.step h id { slot := slot, asked := asked } job) := by
  unfold Goes
  rcases stage with stage | stage | stage
  · have allowed : Job.refusal? slot e.mode = none := by
      rcases sound.mode with mode | mode
      · rw [mode]
        rfl
      · obtain ⟨x, stored, -⟩ := awaits.resumed mode
        simp [Job.refusal?, mode, stored]
    have enqueues : Job.step h id { slot := slot, asked := asked } job =
        Job.enqueue id { slot := slot, asked := asked } job := by
      simp only [Job.step, stage, Job.submit, operation, allowed]
    rw [enqueues, Job.enqueue_slot]
    exact .waiting (.inr (.inl rfl)) operation alone
      ⟨awaits.breakpoints, awaits.budget, awaits.composed, awaits.resumed⟩
  · simp only [Job.step, stage]
    split
    · exact .waiting (.inr (.inr rfl)) operation alone awaits
    · exact .waiting (.inr (.inl stage)) operation alone awaits
  · simp only [Job.step, stage, Job.begin, operation]
    refine .preparing rfl alone ?_ ⟨awaits.breakpoints, awaits.budget, awaits.composed, awaits.resumed⟩
    rintro number ⟨⟩
    simp [Job.arm, Mailbox.arm, Mailbox.queue]

theorem preparing_goes (sound : e.Sound settings) (stage : job.stage = .preparing e.mode) (alone : job.batch = none)
    (quiet : Job.Quiet { slot := slot, asked := 0 } job) (awaits : Awaits e slot) :
    Goes settings e past due h slot job (Job.step h id { slot := slot, asked := asked } job) := by
  unfold Goes
  rcases sound.mode with mode | mode
  · rw [mode] at stage
    simp only [Job.step, stage, Job.prepare]
    refine .loading rfl mode alone quiet ⟨awaits.breakpoints, awaits.budget, awaits.composed, fun other => ?_⟩
    cases mode.symm.trans other
  · obtain ⟨x, stored, context, prepared⟩ := awaits.resumed mode
    rw [mode] at stage
    simp only [Job.step, stage, Job.prepare, stored]
    refine .launching ?_ alone quiet awaits.breakpoints awaits.budget ?_
    · rw [mode, prepared]
      rfl
    · rw [prepared]
      exact context

theorem loading_goes {wait : Wait} (stage : job.stage = .loading .editorRun wait) (mode : e.mode = .editorRun)
    (alone : job.batch = none) (quiet : Job.Quiet { slot := slot, asked := 0 } job) (awaits : Awaits e slot) :
    Goes settings e past due h slot job (Job.step h id { slot := slot, asked := asked } job) := by
  unfold Goes
  have composed := awaits.composed mode
  have launches : ∀ sc : Scene engine, sc.slot = slot →
      Phase settings e (past ∧ due h.now)
        (Stride.due ⟨h.now, slot, job, Job.step h id { slot := slot, asked := asked } job⟩)
        (Job.proceed h sc job .editorRun).scene.slot (Job.proceed h sc job .editorRun).job := by
    rintro sc rfl
    refine .launching ?_ alone quiet awaits.breakpoints awaits.budget ?_
    · rw [mode, ← composed]
      rfl
    · rw [← composed]
      rfl
  simp only [Job.step, stage] at launches ⊢
  unfold Job.await at launches ⊢
  rcases polled : wait.poll h.loader h.now asked with ⟨count, status⟩
  cases status with
  | pending later wake => exact .loading rfl mode alone quiet awaits
  | ready =>
    rw [polled] at launches
    exact launches _ rfl
  | timedOut =>
    rw [polled] at launches
    exact launches _ rfl

theorem launching_goes (sound : e.Sound settings) (same : h.settings = settings)
    (stage : job.stage = .launching e.mode e.prepared) (alone : job.batch = none)
    (quiet : Job.Quiet { slot := slot, asked := 0 } job) (breakpoints : slot.state.breakpoints = e.breakpoints)
    (budget : slot.state.execTimeMs = e.budgetMs) (context : slot.state.context = e.prepared.context) :
    Goes settings e past due h slot job (Job.step h id { slot := slot, asked := asked } job) := by
  unfold Goes
  simp only [Job.step, stage, Job.launch_slot]
  refine .starting rfl alone quiet ?_ ?_ ?_ context
  · simp only [Job.optionsFor, sound.accepts, same, sound.debuggable, Bool.and_self]
  · simp only [Job.optionsFor, Scene.occur_slot, Scene.onState_slot, sound.accepts]
    exact congrArg (LineSet.shifted · _) breakpoints
  · simp only [Job.optionsFor, Scene.occur_slot, Scene.onState_slot, sound.accepts]
    exact budget

theorem starting_goes (sound : e.Sound settings) {options : RunOptions}
    (stage : job.stage = .starting { mode := e.mode, prepared := e.prepared, options := options })
    (alone : job.batch = none) (quiet : Job.Quiet { slot := slot, asked := 0 } job)
    (debugged : options.debuggerOn = true)
    (breakpoints : options.breakpoints = e.breakpoints.shifted e.prepared.prependLines)
    (budget : options.budgetMs = e.budgetMs) (context : slot.state.context = e.prepared.context) :
    Goes settings e past due h slot job (Job.step h id { slot := slot, asked := asked } job) := by
  unfold Goes
  have quiet' : Job.Quiet { slot := slot, asked := asked } job := quiet
  simp only [Job.step, stage, Job.start_quiet quiet']
  refine .running rfl alone quiet rfl rfl rfl rfl (sound.along debugged breakpoints budget) (fun _ now _ => ?_) context
  unfold Job.runOf
  split <;> trivial

theorem running_goes (sound : e.Sound settings) {l : Live engine} (stage : job.stage = .running l)
    (alone : job.batch = none) (quiet : Job.Quiet { slot := slot, asked := 0 } job) (mode : l.mode = e.mode)
    (run_context : l.context = e.prepared.context) (prependLines : l.prependLines = e.prepared.prependLines)
    (unpaused : l.paused = false) (along : (l.run : Run).Along e.outset)
    (prompt : past → ∀ now, due now → (l.run : Run).Prompt now) (context : slot.state.context = e.prepared.context) :
    Goes settings e past due h slot job (Job.step h id { slot := slot, asked := asked } job) := by
  unfold Goes
  have quiet' : Job.Quiet { slot := slot, asked := asked } job := quiet
  have goes := Run.poll_goes along fun timely : past ∧ due h.now => prompt timely.1 h.now timely.2
  have tokens : ({ paused := l.paused } : Tokens) = {} := by rw [unpaused]
  rcases polled : Run.poll l.run h.now {} with ⟨lines, result | ⟨run, wake⟩⟩
  · rw [polled] at goes
    cases goes with
    | ended stopped =>
      have polled' : engine.poll l.run h.now { paused := l.paused } = (lines, .ended result) := by
        rw [tokens]
        exact polled
      simp only [Job.step, stage, Job.race_ended polled']
      exact .ended (.inl ⟨_, rfl⟩) alone (stopped.comes sound mode run_context prependLines unpaused h context)
  · rw [polled] at goes
    cases goes with
    | @pending lines next wake along prompt asks =>
      have polled' : engine.poll l.run h.now { paused := l.paused } = (lines, .pending (.flying next) wake) := by
        rw [tokens]
        exact polled
      obtain ⟨slot', listening, job'⟩ := Job.race_quiet quiet' polled'
      simp only [Job.step, stage]
      rw [slot', job']
      refine .running rfl alone quiet mode run_context prependLines unpaused along (fun timely now due => ?_) context
      exact Flight.Prompt.later (prompt timely) asks (due l lines (.flying next) _ stage polled')

theorem ended_goes {o : Outcome}
    (stage : (∃ mode, job.stage = .concluded mode o) ∨ job.stage = .leaving (.outcome o) ∨
      job.stage = .settled (.outcome o))
    (alone : job.batch = none) (comes : Comes e past slot o) :
    Goes settings e past due h slot job (Job.step h id { slot := slot, asked := asked } job) := by
  unfold Goes
  rcases stage with ⟨mode, stage⟩ | stage | stage
  · -- a finished run may be followed by the testcases
    have answers : ∀ sc : Scene engine, sc.slot.state = slot.state → sc.slot.suspended = slot.suspended →
        Phase settings e (past ∧ due h.now)
          (Stride.due ⟨h.now, slot, job, Job.step h id { slot := slot, asked := asked } job⟩) sc.slot
          (job.at_ (.leaving (.outcome o))) :=
      fun sc state suspended => .ended (.inr (.inl rfl)) alone (comes.kept And.left state suspended)
    have rule := Job.follow_rule h id { slot := slot, asked := asked } job stage
    simp only [Job.step, stage] at answers ⊢
    generalize Job.follow h { slot := slot, asked := asked } job mode o = a at rule answers ⊢
    cases rule with
    | aborted _ under | next _ under | completed _ under => cases alone.symm.trans under
    | gradedEmpty at_ =>
      cases stage.symm.trans at_
      refine answers _ ?_ ?_ <;> rw [Job.refusePause_slot]
    | gradedBegun at_ =>
      cases stage.symm.trans at_
      cases comes with
      | finished stands done clear => exact .grading (.under rfl rfl rfl) stands done clear
    | answered at_ =>
      cases stage.symm.trans at_
      exact answers _ rfl rfl
    | _ => simp_all
  · simp only [Job.step, stage, Job.leave_slot]
    exact .ended (.inr (.inr rfl)) alone (comes.kept And.left rfl rfl)
  · simp only [Job.step, stage]
    exact .ended (.inr (.inr stage)) alone (comes.kept And.left rfl rfl)

/-- Each step of a call leads to the next stage. -/
theorem step (phase : Phase settings e past due slot job) (sound : e.Sound settings) (same : h.settings = settings) :
    Goes settings e past due h slot job (Job.step h id { slot := slot, asked := asked } job) := by
  cases phase with
  | waiting stage operation alone awaits => exact waiting_goes sound stage operation alone awaits
  | preparing stage alone quiet awaits => exact preparing_goes sound stage alone quiet awaits
  | loading stage mode alone quiet awaits => exact loading_goes stage mode alone quiet awaits
  | launching stage alone quiet breakpoints budget context =>
    exact launching_goes sound same stage alone quiet breakpoints budget context
  | starting stage alone quiet debugged breakpoints budget context =>
    exact starting_goes sound stage alone quiet debugged breakpoints budget context
  | running stage alone quiet mode run_context prependLines unpaused along prompt context =>
    exact running_goes sound stage alone quiet mode run_context prependLines unpaused along prompt context
  | ended stage alone comes => exact ended_goes stage alone comes
  | grading grading stands done clear =>
    exact .grading (grading.step (Job.step_rule h id { slot := slot, asked := asked } job)) stands done clear

end Phase

/-! ## Calls -/

/-- What comes of a call that finds what it is about. -/
theorem Errand.comes {hub : Hub engine} (reached : hub.Reachable) {e : Errand} (sound : e.Sound hub.settings)
    {w : WorkspaceId} {slot : Slot engine} (open_ : hub.slot w = .ok slot) (awaits : Awaits e slot) {id : JobId}
    {moves : List Move} {reply : Reply} (call : hub.Calls w id e.mode moves reply) :
    ∃ last o, (hub.after (.submit id w (.evaluate e.mode) :: moves)).slot w = .ok last ∧ reply = .outcome o ∧
      Comes e (hub.Timely w id e.mode moves) last o := by
  have here : hub.site? w = some ⟨slot, hub.jobOn? w⟩ := Hub.site?_eq_some.2 ⟨open_, rfl⟩
  have there := Hub.handed_in here call.free (.evaluate e.mode)
  have begins : Phase hub.settings e True (fun _ => True) slot { operation := .evaluate e.mode } :=
    .waiting (.inl rfl) rfl rfl awaits
  obtain ⟨past, due, last, job, end_, known, phase, timely⟩ := (reached.move _).carried
    (P := Phase hub.settings e) (fun _ _ _ _ _ _ same phase => phase.step sound same)
    (Hub.move_fixed hub _).1 there (if_pos rfl) begins moves call.only
  obtain ⟨open_', jobs⟩ := Hub.site?_eq_some.1 end_
  have settled : job.stage = .settled reply := by
    have answered := call.answered
    rw [Hub.after_cons, Hub.reply?, Hub.jobOn?_eq_some.1 (jobs ▸ known), Option.bind_some] at answered
    unfold Job.reply? at answered
    split at answered
    · next stage => rw [stage, Option.some.inj answered]
    · cases answered
  refine ⟨last.slot, ?_⟩
  rw [Hub.after_cons]
  cases phase with
  | waiting stage => rcases stage with stage | stage | stage <;> cases settled.symm.trans stage
  | preparing stage | loading stage | launching stage | starting stage | running stage => cases settled.symm.trans stage
  | ended stage _ comes =>
    rcases stage with ⟨_, stage⟩ | stage | stage <;> cases settled.symm.trans stage
    exact ⟨_, open_', rfl, comes.kept (timely trivial) rfl rfl⟩
  | grading grading stands done clear =>
    cases grading with
    | under _ _ run => simp [settled, Stage.mode?] at run
    | past stage =>
      rcases stage with stage | stage <;> cases settled.symm.trans stage
      exact ⟨_, open_', rfl, .finished stands done clear⟩

/-! ## Sessions -/

/-- What is called: an editor's run, or the resumption of one that stands at a statement. -/
def callMode : Option Nat → Mode
  | none => .editorRun
  | some _ => .debugResume

/-- A session up to the next call: an editor's run in a workspace that was in a certain state, then resumptions, each
of a run that was stopped at a breakpoint. Between two calls there may be any edits. The number is that of the
statement at which the next call goes on. -/
inductive Session (w : WorkspaceId) (start : WorkspaceState) : Option Nat → Hub engine → Prop
  | begins {hub : Hub engine} {slot : Slot engine} (reached : hub.Reachable) (open_ : hub.slot w = .ok slot)
    (state : slot.state = start) : Session w start none hub
  | goesOn {resumed : Option Nat} {hub : Hub engine} {id : JobId} {moves edits : List Move}
    {last : Slot engine} {x : Suspension Machine} (session : Session w start resumed hub)
    (halted : hub.Calls w id (callMode resumed) moves (.outcome .breakpointHit))
    (edited :
      (hub.after (.submit id w (.evaluate (callMode resumed)) :: moves)).Only w (fun m => ∃ e, m = .edit w e) edits)
    (open_ : ((hub.after (.submit id w (.evaluate (callMode resumed)) :: moves)).after edits).slot w = .ok last)
    (stored : last.suspended = some x) :
    Session w start (some x.snapshot.position)
      ((hub.after (.submit id w (.evaluate (callMode resumed)) :: moves)).after edits)

/-- What the next call of a session begins with: the program and the context of the editor's run, and the
breakpoints as they are now. -/
def Session.outset (start now : WorkspaceState) (program : List Statement) (resumed : Option Nat) : Outset where
  context := engine.makeContext start.selection
  program := program
  resumed := resumed
  halts line := now.breakpoints.contains (line - Composition.lineCount start.editorPrepend)
  budgetMs := now.execTimeMs

/-- What the next call of a session is about. -/
structure Session.About (start : WorkspaceState) (program : List Statement) (resumed : Option Nat)
    (settings : Settings) (slot : Slot engine) (e : Errand) : Prop where
  awaits : Awaits e slot
  sound : e.Sound settings
  mode : e.mode = callMode resumed
  prependLines : e.prepared.prependLines = Composition.lineCount start.editorPrepend
  context : e.prepared.context = engine.makeContext start.selection
  program_eq : e.program = program
  resumed_eq : e.outset.resumed = resumed

theorem Session.About.outset {start : WorkspaceState} {program : List Statement} {resumed : Option Nat}
    {settings : Settings} {slot : Slot engine} {e : Errand} (about : About start program resumed settings slot e) :
    e.outset = Session.outset start slot.state program resumed := by
  refine Outset.ext about.context about.program_eq about.resumed_eq (funext fun line => ?_) about.awaits.budget.symm
  simp only [Errand.outset, Session.outset, about.prependLines, about.awaits.breakpoints]

/-- The errand of an editor's run. -/
def Errand.run (start : WorkspaceState) (program : List Statement) : Errand where
  mode := .editorRun
  prepared :=
    { origin := .source (Composition.ofState start none).text
      context := engine.makeContext start.selection
      prependLines := Composition.lineCount start.editorPrepend }
  program := program
  breakpoints := start.breakpoints
  budgetMs := start.execTimeMs

/-- The errand of a resumption. -/
def Errand.resumption (x : Suspension Machine) (now : WorkspaceState) (program : List Statement) : Errand where
  mode := .debugResume
  prepared := { origin := .snapshot x.snapshot, context := x.context, prependLines := x.prependLines }
  program := program
  breakpoints := now.breakpoints
  budgetMs := now.execTimeMs

theorem Awaits.run {start : WorkspaceState} {slot : Slot engine} (state : slot.state = start)
    (program : List Statement) : Awaits (.run start program) slot where
  breakpoints := by rw [state]; rfl
  budget := by rw [state]; rfl
  composed := fun _ => by rw [state]; rfl
  resumed := nofun

theorem Awaits.resumption {slot : Slot engine} {x : Suspension Machine} (stored : slot.suspended = some x)
    (context : slot.state.context = x.context) (program : List Statement) :
    Awaits (.resumption x slot.state program) slot where
  breakpoints := rfl
  budget := rfl
  composed := nofun
  resumed := fun _ => ⟨x, stored, context, rfl⟩

theorem Session.about {w : WorkspaceId} {start : WorkspaceState} {resumed : Option Nat} {hub : Hub engine}
    (session : Session w start resumed hub) {program : List Statement}
    (parses : parse (Composition.ofState start none).text = .ok program)
    (debuggable : hub.settings.execution.debuggerChapter ≤ start.chapter) :
    hub.Reachable ∧ ∃ slot e, hub.slot w = .ok slot ∧ About start program resumed hub.settings slot e := by
  induction session with
  | @begins hub slot reached open_ state =>
    refine ⟨reached, slot, .run start program, open_, .run state program, ⟨.inl rfl, ?_, parses⟩, rfl, rfl, rfl, rfl,
      rfl⟩
    exact decide_eq_true debuggable
  | @goesOn resumed hub id moves edits last x session halted edited open_ stored ih =>
    rw [(Hub.after_fixed ..).1, (Hub.after_fixed ..).1] at debuggable ⊢
    obtain ⟨reached, slot, e, before, about⟩ := ih debuggable
    have call : hub.Calls w id e.mode moves (.outcome .breakpointHit) := about.mode ▸ halted
    obtain ⟨end_, o, open_', same, comes⟩ := e.comes reached about.sound before about.awaits call
    rw [about.mode] at open_' comes
    have later := (reached.after (.submit id w (.evaluate (callMode resumed)) :: moves))
    obtain ⟨end', open', suspended', context'⟩ := later.edited
      (P := fun slot => slot.suspended = end_.suspended ∧ slot.state.context = end_.state.context)
      (fun slot e holds => ⟨holds.1, by cases e <;> exact holds.2⟩) open_' ⟨rfl, rfl⟩ edits edited
    cases open'.symm.trans open_
    cases same
    cases comes with
    | @halted m s stands current armed clear highlighted suspended context =>
      have same_run := stored.symm.trans (suspended'.trans suspended)
      cases same_run
      refine ⟨later.after edits, last, .resumption
        { snapshot := { m with suspendedAt := some m.position }
          context := e.prepared.context
          prependLines := e.prepared.prependLines
          location := some (.line s.line) } last.state e.program, open_, ?_⟩
      exact {
        awaits := .resumption stored (context'.trans context) e.program
        sound := ⟨.inr rfl, about.sound.debuggable, ⟨stands.program_eq, stands.executed_eq⟩, rfl⟩
        mode := rfl
        prependLines := about.prependLines
        context := about.context
        program_eq := about.program_eq
        resumed_eq := rfl }

/-! ## In the user's lines -/

/-- Whether a run ran out of time. -/
def TimedOut (outcome : Outcome) : Prop := ∃ message at_, outcome = .errored [⟨.timeout, message, at_⟩]

/-- What a call has come to, as the user sees it. -/
structure Lands (o : Outset) (prependLines : Int32) (timely : Prop) (slot : Slot engine) (outcome : Outcome) :
    Prop where
  /-- it stops at a breakpoint just if it gets to one, unless it ran out of time while nobody looked after it -/
  hits : timely ∨ ¬ TimedOut outcome → (outcome = .breakpointHit ↔ ∃ j, o.Armed j ∧ Reaches o.context o.program j)
  /-- it is stopped at the first one, which is highlighted -/
  halted : outcome = .breakpointHit → ∃ j s, o.program[j]? = some s ∧ o.Armed j ∧ o.Clear j ∧
    Reaches o.context o.program j ∧ slot.state.highlighted = some ⟨s.line - prependLines, s.line - prependLines⟩ ∧
    ∃ x, slot.suspended = some x ∧ x.snapshot.position = j
  /-- a fault is answered and told in the user's lines, and recorded in those of the program -/
  failed : ∀ faults, outcome = .errored faults → ∃ j s kind message lines, o.program[j]? = some s ∧ o.Clear j ∧
    Reaches o.context o.program j ∧ Falters o timely j s kind message ∧
    faults = [⟨kind, message, .line (s.line - prependLines)⟩] ∧
    slot.state.output.entries.getLast? = some (.faults faults lines) ∧
    slot.state.context.faults = [⟨kind, message, .line s.line⟩]
  /-- otherwise all statements have been executed -/
  finished : outcome = .breakpointHit ∨ (∃ faults, outcome = .errored faults) ∨
    (∃ value, outcome = .finished value) ∧ Reaches o.context o.program o.program.length

theorem Comes.lands {e : Errand} {timely : Prop} {slot : Slot engine} {outcome : Outcome}
    (comes : Comes e timely slot outcome) (fresh : e.prepared.context.faults = []) :
    Lands e.outset e.prepared.prependLines timely slot outcome := by
  cases comes with
  | @halted m s stands current armed clear highlighted suspended context =>
    refine ⟨fun _ => ⟨fun _ => ⟨_, armed, stands.reaches⟩, fun _ => rfl⟩, fun _ => ?_, nofun, .inl rfl⟩
    exact ⟨_, s, current, armed, clear, stands.reaches, highlighted, _, suspended, rfl⟩
  | @finished m stands done clear =>
    have all : m.position = e.program.length :=
      Nat.le_antisymm stands.reaches.within (List.getElem?_eq_none_iff.1 done)
    refine ⟨fun _ => ⟨nofun, ?_⟩, nofun, nofun, .inr (.inr ⟨⟨_, rfl⟩, all ▸ stands.reaches⟩)⟩
    rintro ⟨i, armed, -⟩
    have ⟨_, _, s, there, _⟩ := armed
    have before : i < e.program.length := (List.getElem?_eq_some_iff.1 there).1
    exact absurd armed (clear i (all ▸ before))
  | @failed j s kind message lines reaches ahead current clear fails logged recorded =>
    refine ⟨fun inTime => ⟨nofun, ?_⟩, nofun, ?_, .inr (.inl ⟨_, rfl⟩)⟩
    · rintro ⟨i, armed, beyond⟩
      refine (fails.unreached current reaches clear (inTime.imp_right fun other same => ?_) armed beyond).elim
      exact other (same ▸ ⟨_, _, rfl⟩)
    · rintro _ ⟨⟩
      rw [fresh] at recorded
      exact ⟨j, s, kind, message, lines, current, clear, reaches, fails, rfl, logged, recorded⟩

/-- All calls of a session speak of the user's lines, however the texts were edited since the editor's run. What
runs is the program that was composed then. Where nobody else is at work a call is answered. It stops at a breakpoint
exactly if it gets to a statement that was not executed before, other than the one that it goes on with, with a
breakpoint on the line it has for the user, which is then highlighted. A fault is answered and told with the line that
its statement has for the user, and recorded in the context with the one it has in the program. For a statement of the
editor's text that line is its line there, and for one in front of it none of the user's. -/
theorem Session.user_lines {w : WorkspaceId} {start : WorkspaceState} {resumed : Option Nat} {hub : Hub engine}
    (session : Session w start resumed hub) {before editor behind : List Statement}
    (before_parses : parse start.editorPrepend = .ok before) (editor_parses : parse start.editorValue = .ok editor)
    (behind_parses : parse start.editorPostpend = .ok behind) (short : Text.lineCount start.editorPrepend < 2 ^ 31)
    (debuggable : hub.settings.execution.debuggerChapter ≤ start.chapter) :
    ∃ program slot,
      parse (Composition.ofState start none).text = .ok program ∧
      Numbered before editor program (Composition.lineCount start.editorPrepend) ∧
      hub.slot w = .ok slot ∧
      (slot.permit.holder = none → ∀ id, hub.tasks.contains id = false →
        ∃ moves reply, hub.Calls w id (callMode resumed) moves reply ∧ hub.Timely w id (callMode resumed) moves) ∧
      ∀ id moves reply, hub.Calls w id (callMode resumed) moves reply →
        ∃ last outcome,
          (hub.after (.submit id w (.evaluate (callMode resumed)) :: moves)).slot w = .ok last ∧
          reply = .outcome outcome ∧
          Lands (outset start slot.state program resumed) (Composition.lineCount start.editorPrepend)
            (hub.Timely w id (callMode resumed) moves) last outcome := by
  obtain ⟨program, parses, lines⟩ := numbered before_parses editor_parses behind_parses short
  obtain ⟨reached, slot, e, open_, about⟩ := session.about parses debuggable
  refine ⟨program, slot, parses, lines, open_, fun idle id free => ?_, ?_⟩
  · obtain ⟨times, reply, call, timely, -⟩ := calls_answered reached open_ idle free (callMode resumed) 0
    exact ⟨_, reply, call, timely⟩
  intro id moves reply call
  obtain ⟨last, outcome, end_, same, comes⟩ := e.comes reached about.sound open_ about.awaits (about.mode ▸ call)
  rw [about.mode] at end_ comes
  refine ⟨last, outcome, end_, same, ?_⟩
  have fresh : e.prepared.context.faults = [] := by rw [about.context]; rfl
  rw [← about.outset, ← about.prependLines]
  exact comes.lands fresh

/-! ### A line in front that is gone -/

/-- A script with a line in front of it, and a breakpoint on its first line. -/
def faltering : Hub engine :=
  (Hub.create { execution := { chapter := 3 } } .bundled).1.after
    [.edit .playground (.editorPrepend "display \"p\""), .edit .playground (.editorValue "display \"a\"\nerror \"b\""),
      .edit .playground (.breakpoints (.ofList [1]))]

/-- It runs to the breakpoint. -/
def falteringRun : List Move := List.replicate 11 (.step 0 0)

/-- Then the line in front is taken away, and the breakpoint. -/
def falteringEdits : List Move := [.edit .playground (.editorPrepend ""), .edit .playground (.breakpoints .empty)]

/-- It is taken up again. -/
def falteringRest : List Move := List.replicate 10 (.step 1 0)

/-- The hub when it is about to be taken up again. -/
def falteringHalted : Hub engine :=
  (faltering.after (.submit 0 .playground (.evaluate .editorRun) :: falteringRun)).after falteringEdits

/-- The texts of a workspace, and its chapter. -/
def texts (state : WorkspaceState) : String × String × String × UInt8 :=
  (state.editorPrepend, state.editorValue, state.editorPostpend, state.chapter)

/-- Whether a job stopped at a breakpoint. -/
def isHit : Reply → Bool
  | .outcome .breakpointHit => true
  | _ => false

theorem eq_of_isHit {reply : Reply} (hit : isHit reply = true) : reply = .outcome .breakpointHit := by
  unfold isHit at hit
  split at hit
  · rfl
  · cases hit

/-- Whether a job failed with these faults. -/
def isErrored (faults : List Fault) : Reply → Bool
  | .outcome (.errored others) => others = faults
  | _ => false

theorem eq_of_isErrored {faults : List Fault} {reply : Reply} (errored : isErrored faults reply = true) :
    reply = .outcome (.errored faults) := by
  unfold isErrored at errored
  split at errored
  · rw [of_decide_eq_true errored]
  · cases errored

theorem faltering_calls : faltering.Calls .playground 0 .editorRun falteringRun (.outcome .breakpointHit) where
  free := by decide +kernel
  only := Hub.only_of fun _ here => ⟨0, List.eq_of_mem_replicate here⟩
  answered := by
    have hit : ((faltering.after (.submit 0 .playground (.evaluate .editorRun) :: falteringRun)).reply? 0).any isHit =
        true := by
      decide +kernel
    obtain ⟨reply, answered, hit⟩ := (Option.any_eq_true _ _).1 hit
    rw [answered, eq_of_isHit hit]

theorem faltering_calls_again : falteringHalted.Calls .playground 1 .debugResume falteringRest
    (.outcome (.errored [⟨.runtime, "b", .line 2⟩])) where
  free := by decide +kernel
  only := Hub.only_of fun _ here => ⟨0, List.eq_of_mem_replicate here⟩
  answered := by
    have fails : ((falteringHalted.after (.submit 1 .playground (.evaluate .debugResume) :: falteringRest)).reply? 1).any
        (isErrored [⟨.runtime, "b", .line 2⟩]) = true := by
      decide +kernel
    obtain ⟨reply, answered, fails⟩ := (Option.any_eq_true _ _).1 fails
    rw [answered, eq_of_isErrored fails]

/-- A fault on the second line of the editor's text is on the third of the program, of which the line in front was
a part. -/
theorem user_lines_of_faltering :
    ∃ start x last, Session .playground start (some x) falteringHalted ∧
      falteringHalted.Calls .playground 1 .debugResume falteringRest
        (.outcome (.errored [⟨.runtime, "b", .line 2⟩])) ∧
      (falteringHalted.after (.submit 1 .playground (.evaluate .debugResume) :: falteringRest)).slot .playground =
        .ok last ∧
      last.state.context.faults = [⟨.runtime, "b", .line 3⟩] := by
  have reached : faltering.Reachable := by
    unfold faltering
    exact (Hub.Reachable.create { execution := { chapter := 3 } } .bundled).after _
  have begun : (faltering.slot .playground).toOption.map (texts ·.state) =
      some ("display \"p\"", "display \"a\"\nerror \"b\"", "", 3) := by
    decide +kernel
  have suspended : (falteringHalted.slot .playground).toOption.any (·.suspended.isSome) = true := by decide +kernel
  cases open_ : faltering.slot .playground with
  | error r => simp [open_, Except.toOption] at begun
  | ok slot =>
    cases halted : falteringHalted.slot .playground with
    | error r => simp [halted, Except.toOption] at suspended
    | ok last =>
      rw [open_] at begun
      rw [halted] at suspended
      obtain ⟨x, stored⟩ := Option.isSome_iff_exists.1 suspended
      simp only [texts, Except.toOption, Option.map_some, Option.some.injEq, Prod.mk.injEq] at begun
      obtain ⟨prepend, value, postpend, chapter⟩ := begun
      have session : Session .playground slot.state (some x.snapshot.position) falteringHalted := by
        unfold falteringHalted at halted ⊢
        exact @Session.goesOn .playground slot.state none faltering 0 falteringRun falteringEdits last x
          (.begins reached open_ rfl) faltering_calls
          (Hub.only_of fun m here => by rcases List.mem_pair.1 here with rfl | rfl <;> exact ⟨_, rfl⟩) halted stored
      have before_parses : parse slot.state.editorPrepend = .ok [⟨1, .display (.text "p")⟩] := by
        rw [prepend]
        exact parse_eq_ok (by decide +kernel)
      have editor_parses : parse slot.state.editorValue = .ok [⟨1, .display (.text "a")⟩, ⟨2, .fail "b"⟩] := by
        rw [value]
        exact parse_eq_ok (by decide +kernel)
      have behind_parses : parse slot.state.editorPostpend = .ok [] := by
        rw [postpend]
        exact parse_eq_ok (by decide +kernel)
      have counted : Text.lineCount slot.state.editorPrepend = 1 := by
        rw [prepend]
        decide +kernel
      have short : Text.lineCount slot.state.editorPrepend < 2 ^ 31 := by rw [counted]; decide
      have again : falteringHalted.Calls .playground 1 (callMode (some x.snapshot.position)) falteringRest
          (.outcome (.errored [⟨.runtime, "b", .line 2⟩])) := faltering_calls_again
      have debuggable : falteringHalted.settings.execution.debuggerChapter ≤ slot.state.chapter := by
        rw [chapter]
        decide +kernel
      obtain ⟨_, _, -, -, -, -, calls⟩ :=
        session.user_lines before_parses editor_parses behind_parses short debuggable
      obtain ⟨last, outcome, end_, same, lands⟩ := calls 1 falteringRest _ again
      obtain ⟨j, s, kind, message, lines, -, -, -, -, faults, -, recorded⟩ :=
        lands.failed _ (Reply.outcome.inj same).symm
      simp only [List.cons.injEq, Fault.mk.injEq, and_true] at faults
      obtain ⟨rfl, rfl, line⟩ := faults
      refine ⟨_, _, last, session, faltering_calls_again, end_, recorded.trans ?_⟩
      have second : s.line - 1 = 2 := by
        rw [Composition.lineCount, counted] at line
        exact (congrArg (·.start.line) line).symm
      have third : s.line = 3 := by
        rw [← Int32.sub_add_cancel s.line 1, second]
        rfl
      rw [third]

end Script

end Workbench
