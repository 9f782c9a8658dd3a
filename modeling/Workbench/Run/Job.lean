/-
Jobs: what is asked of a workspace, carried out step by step.

A job waits for the permit, arms a listener, prepares its run, waits for the
libraries, launches the engine and races it against the signals that arrive;
a batch does so for each testcase in order. Between two places where it waits,
a job has the workspace to itself: `turn` carries a job from one such place to
the next, and `step` is what it does in between.

A program panics when it moves a line out of the lines that there are. A job does
not: it takes the line that comes around, and `turnFits` says of a turn that it
needs none.
-/
import Workbench.Run.Slot

namespace Workbench

/-- What is asked of a workspace. -/
inductive Operation where
  | evaluate (mode : Mode)
  /-- run all testcases -/
  | runAll
  /-- abort, and forget the suspended run -/
  | reset
  | selectChapter (chapter : UInt8)
  | selectLibrary (library : LibraryName)
  deriving DecidableEq, Repr

/-- What an operation comes to. -/
inductive Reply where
  | outcome (o : Outcome)
  | summary (s : BatchSummary)
  | done
  /-- whether the selection changed -/
  | switched (changed : Bool)
  | refused (r : Refusal)

/-- Where a run begins. -/
inductive Origin (E : Engine) where
  | source (text : String)
  | snapshot (s : E.Snapshot)

/-- A run that is ready to be launched. -/
structure Prepared (E : Engine) where
  origin : Origin E
  context : Context
  prependLines : Int32

/-- A run that is being launched: the signals that arrived while it was prepared are looked at first. -/
structure Launch (E : Engine) where
  mode : Mode
  prepared : Prepared E
  options : RunOptions
  /-- whether it has been asked to pause -/
  paused : Bool := false

/-- A run in the engine's hands. -/
structure Live (E : Engine) where
  mode : Mode
  run : E.Run
  context : Context
  prependLines : Int32
  /-- whether it has been asked to pause -/
  paused : Bool
  /-- whether signals are still expected -/
  listening : Bool := true

/-- What a new context is needed for. -/
inductive Purpose where
  | editorRun
  /-- a testcase's run, with the program it had when the run began -/
  | testcaseRun (index : Nat) (program : String)
  /-- a selection that changed, and what is said about it then -/
  | selection (message : String)
  deriving DecidableEq, Repr

/-- A batch under way. -/
structure Batch where
  total : Nat
  index : Nat := 0
  /-- the outcome of the editor's run that brought the batch about -/
  after : Option Outcome := none

/-- How far a job has come. -/
inductive Stage (E : Engine) where
  | submitted
  /-- it waits for the permit -/
  | queued
  /-- it holds the permit -/
  | admitted
  | preparing (mode : Mode)
  /-- it waits for the libraries -/
  | loading (purpose : Purpose) (wait : Wait)
  | launching (mode : Mode) (prepared : Prepared E)
  | starting (launch : Launch E)
  /-- it waits for the engine and for signals -/
  | running (live : Live E)
  | concluded (mode : Mode) (outcome : Outcome)
  /-- it gives up its listener and the permit -/
  | leaving (reply : Reply)
  | settled (reply : Reply)

/-- A job. -/
structure Job (E : Engine) where
  operation : Operation
  /-- the number of its listener, once it is armed -/
  receiver : Option Nat := none
  batch : Option Batch := none
  stage : Stage E := .submitted

/-- A job after a step, and what it waits for if it cannot go on by itself. -/
structure Advance (E : Engine) where
  scene : Scene E
  job : Job E
  wake : Option Wake := none

namespace Job

variable {E : Engine}

/-- What a settled job came to. -/
def reply? (job : Job E) : Option Reply :=
  match job.stage with
  | .settled r => some r
  | _ => none

/-- The job at another stage. -/
def at_ (job : Job E) (stage : Stage E) : Job E := { job with stage := stage }

/-- The libraries are waited for, from now on. -/
def load (h : House) (job : Job E) (purpose : Purpose) : Job E :=
  job.at_ (.loading purpose (.start h.now h.settings.libraries.pollIntervalMs h.settings.libraries.readyTimeoutMs))

/-! ## Admission -/

/-- Why a run is refused before it is even queued. -/
def refusal? (slot : Slot E) : Mode → Option Refusal
  | .debugResume =>
    match slot.suspended with
    | some _ => none
    | none => some (.noSuspendedExecution slot.id)
  | .testcaseRun index =>
    if index < slot.state.testcases.length then none
    else some (.testcaseOutOfRange slot.id index slot.state.testcases.length)
  | _ => none

/-- Whether an operation stops the run that owns the workspace. -/
def interrupts : Operation → Bool
  | .evaluate mode => mode.isTopLevel
  | .reset => true
  | _ => false

/-- The job asks for the permit, after stopping the owner if it is one that does. -/
def enqueue (id : JobId) (sc : Scene E) (job : Job E) : Advance E :=
  let sc := if interrupts job.operation then sc.withMailbox (sc.slot.mailbox.fire .interrupt).1 else sc
  { scene := sc.onPermit (·.request id), job := job.at_ .queued }

/-- A job begins. -/
def submit (id : JobId) (sc : Scene E) (job : Job E) : Advance E :=
  match job.operation with
  | .evaluate mode =>
    match refusal? sc.slot mode with
    | some r => { scene := sc, job := job.at_ (.settled (.refused r)) }
    | none => enqueue id sc job
  | _ => enqueue id sc job

/-- A batch begins, unless there is no testcase: then nothing is run and nothing said. -/
def beginBatch (h : House) (sc : Scene E) (job : Job E) (after : Option Outcome) : Advance E :=
  let total := sc.slot.state.testcases.length
  if total = 0 then
    { scene := sc
      job := job.at_ (.leaving (match after with | some o => .outcome o | none => .summary {})) }
  else
    { scene := (sc.sayBriefly h "Running all testcases!" .success).occur (.batchStarted total)
      job := { job with batch := some { total := total, after := after }, stage := .preparing (.testcaseRun 0) } }

/-- A batch ends: its summary is told, and is the answer unless an editor's run brought it about. -/
def endBatch (h : House) (sc : Scene E) (job : Job E) (batch : Batch) (aborted : Bool) : Advance E :=
  let summary := BatchSummary.ofTestcases sc.slot.state.testcases aborted
  let sc :=
    if aborted then sc.warn h "Batch aborted"
    else sc.sayBriefly h summary.text (if summary.failed = 0 then .success else .warning)
  { scene := sc.occur (.batchFinished summary)
    job := job.at_ (.leaving (match batch.after with | some o => .outcome o | none => .summary summary)) }

/-- The selection changes: the suspended run belongs to the old context. -/
def select (h : House) (sc : Scene E) (job : Job E) (change : WorkspaceState → WorkspaceState)
    (message : String) : Advance E :=
  { scene := (sc.onState change).forgetShown, job := job.load h (.selection message) }

/-- A listener is armed for as long as the permit is held. -/
def arm (sc : Scene E) (job : Job E) (acceptsPause : Bool) : Scene E × Job E :=
  let (mailbox, number) := sc.slot.mailbox.arm acceptsPause
  (sc.withMailbox mailbox, { job with receiver := some number })

/-- A job that has been given the permit sets to work. -/
def begin (h : House) (sc : Scene E) (job : Job E) : Advance E :=
  match job.operation with
  | .evaluate mode =>
    let (sc, job) := arm sc job mode.acceptsPause
    { scene := sc, job := job.at_ (.preparing mode) }
  | .runAll =>
    let (sc, job) := arm sc job false
    beginBatch h sc job none
  | .reset =>
    { scene := ((sc.forget.clearHighlight.draw (.inspect none)).clearOutput).occur .debuggerReset
      job := job.at_ (.leaving .done) }
  | .selectChapter chapter =>
    if sc.slot.state.chapter = chapter then { scene := sc, job := job.at_ (.leaving (.switched false)) }
    else
      select h sc job ({ · with chapter := chapter }) ("Switched to Source §" ++ toString chapter.toNat)
  | .selectLibrary library =>
    if sc.slot.state.library = library then { scene := sc, job := job.at_ (.leaving (.switched false)) }
    else select h sc job ({ · with library := library }) ("Switched to " ++ library.text ++ " library")

/-! ## Preparation -/

/-- A run cannot be prepared. A batch ends there; another job is refused. -/
def giveUp (h : House) (sc : Scene E) (job : Job E) (r : Refusal) : Advance E :=
  match job.batch with
  | some batch => endBatch h sc job batch false
  | none => { scene := sc, job := job.at_ (.leaving (.refused r)) }

/-- A run is prepared: output, context and program, according to its mode. -/
def prepare (h : House) (sc : Scene E) (job : Job E) : Mode → Advance E
  | .editorRun => { scene := sc.forget, job := job.load h .editorRun }
  | .replRun =>
    let input := sc.slot.state.replValue
    let sc := sc.onState fun s => { s.onOutput (·.pushCode input) with replValue := "" }
    let composed := Composition.ofInput input
    { scene := sc
      job := job.at_ (.launching .replRun
        { origin := .source composed.text, context := sc.slot.state.context, prependLines := composed.prependLines }) }
  | .debugResume =>
    match sc.slot.suspended with
    | none => giveUp h sc job (.noSuspendedExecution sc.slot.id)
    | some s =>
      { scene := sc.forget.clearOutput.clearHighlight
        job := job.at_ (.launching .debugResume
          { origin := .snapshot s.snapshot, context := s.context, prependLines := s.prependLines }) }
  | .testcaseRun index =>
    match sc.slot.state.testcases[index]? with
    | none => giveUp h sc job (.testcaseOutOfRange sc.slot.id index sc.slot.state.testcases.length)
    | some t =>
      { scene := (sc.onState (·.resetTestcase index)).occur (.testcaseReset index)
        job := job.load h (.testcaseRun index t.program) }

/-- The editor's program, with a testcase's after it if one is given, in the workspace's context. -/
def composed (slot : Slot E) (testcase : Option String) : Prepared E :=
  let c := Composition.ofState slot.state testcase
  { origin := .source c.text, context := slot.state.context, prependLines := c.prependLines }

/-- The libraries have been waited for: a new context is made, and the job goes on with it. -/
def proceed (h : House) (sc : Scene E) (job : Job E) (purpose : Purpose) : Advance E :=
  let sc := sc.renewContext
  match purpose with
  | .editorRun =>
    let sc := sc.clearOutput
    { scene := sc, job := job.at_ (.launching .editorRun (composed sc.slot none)) }
  | .testcaseRun index program =>
    { scene := sc, job := job.at_ (.launching (.testcaseRun index) (composed sc.slot (some program))) }
  | .selection message =>
    { scene := sc.clearOutput.sayLong h message .success, job := job.at_ (.leaving (.switched true)) }

/-- The wait for the libraries is looked after. -/
def await (h : House) (sc : Scene E) (job : Job E) (purpose : Purpose) (wait : Wait) : Advance E :=
  let (asked, status) := wait.poll h.loader h.now sc.asked
  let sc := { sc with asked := asked, effects := sc.effects ++ List.replicate (asked - sc.asked) .asked }
  match status with
  | .pending wait wake => { scene := sc, job := job.at_ (.loading purpose wait), wake := some wake }
  | .ready => proceed h sc job purpose
  | .timedOut => proceed h (sc.warn h "Error loading libraries") job purpose

/-! ## The run -/

/-- Whether a context is of a chapter in which runs can be paused. -/
def debuggable (settings : Settings) (context : Context) : Bool :=
  decide (settings.execution.debuggerChapter ≤ context.chapter)

/-- What the engine is told when a run begins. -/
def optionsFor (settings : Settings) (state : WorkspaceState) (mode : Mode) (p : Prepared E) : RunOptions where
  budgetMs := state.execTimeMs
  debuggerOn := mode.acceptsPause && debuggable settings p.context
  breakpoints := state.breakpoints.shifted p.prependLines

/-- A run is launched: from here on its lines are its own. -/
def launch (h : House) (sc : Scene E) (job : Job E) (mode : Mode) (p : Prepared E) : Advance E :=
  let sc := if !mode.acceptsPause && debuggable h.settings p.context then sc.draw (.inspect none) else sc
  let sc := (sc.onState (·.onOutput (·.beginRun))).occur (.runStarted mode)
  { scene := sc
    job := job.at_ (.starting { mode := mode, prepared := p, options := optionsFor h.settings sc.slot.state mode p }) }

/-- A run is over: its end is told. -/
def conclude (job : Job E) (mode : Mode) (end_ : Scene E × Outcome) : Advance E :=
  { scene := end_.1.occur (.runCompleted mode end_.2.kind), job := job.at_ (.concluded mode end_.2) }

/-- The next signal for the job, or whether there will be one. -/
def receive (sc : Scene E) (job : Job E) : Scene E × Received :=
  match job.receiver with
  | none => (sc, .disarmed)
  | some number =>
    let (mailbox, r) := sc.slot.mailbox.receive number
    (sc.withMailbox mailbox, r)

/-- A run as the engine begins it. -/
def runOf (p : Prepared E) (options : RunOptions) : E.Run :=
  match p.origin with
  | .source text => E.start text p.context options
  | .snapshot s => E.resume s p.context options

/-- What the engine is asked for when a run begins. -/
def call (l : Launch E) : EngineCall E :=
  match l.prepared.origin with
  | .source text => .start text l.prepared.context l.options
  | .snapshot s => .resume s l.prepared.context l.options

/-- The signals that have arrived are looked at one by one; then the engine starts. -/
def start (h : House) (sc : Scene E) (job : Job E) (l : Launch E) : Advance E :=
  match receive sc job with
  | (sc, .signal .interrupt) => conclude job l.mode (sc.finishInterrupted h l.mode)
  | (sc, .signal .pause) => { scene := sc, job := job.at_ (.starting { l with paused := true }) }
  | (sc, _) =>
    { scene := sc.add (.engine (call l))
      job := job.at_ (.running
        { mode := l.mode
          run := runOf l.prepared l.options
          context := l.prepared.context
          prependLines := l.prepared.prependLines
          paused := l.paused }) }

/-- What the engine's result means for the workspace. A testcase cannot be suspended: that is a failure. -/
def finish (h : House) (sc : Scene E) (l : Live E) : RunResult E.Snapshot → Scene E × Outcome
  | .finished value => sc.finishValue l.mode value
  | .failed faults => sc.finishFaults l.mode faults l.prependLines
  | .suspended snapshot location =>
    match l.mode with
    | .testcaseRun _ => sc.finishFaults l.mode [] l.prependLines
    | _ =>
      sc.finishSuspended h
        { snapshot := snapshot, context := l.context, prependLines := l.prependLines, location := location } l.paused

/-- The next signal for the job behind a poll of the engine. None is to be had where the engine has left
nothing of the turn, even if some have arrived. -/
def hear (sc : Scene E) (job : Job E) (wake : Wake) : Scene E × Received :=
  if wake = .spent then (sc, .pending) else receive sc job

/-- The engine is polled, then the next signal is looked at. A result of the engine comes first; an
interrupt ends the run; after a pause, and when no signal can come any more, the engine is polled again. -/
def race (h : House) (sc : Scene E) (job : Job E) (l : Live E) : Advance E :=
  let (lines, polled) := E.poll l.run h.now { paused := l.paused }
  let sc := (sc.onState (·.onOutput (·.appendLines lines))).add (.engine (.poll lines))
  match polled with
  | .ended result => conclude job l.mode (finish h (sc.add (.engine .release)) l result)
  | .pending run wake =>
    let l := { l with run := run }
    if l.listening then
      match hear sc job wake with
      | (sc, .signal .interrupt) =>
        conclude job l.mode
          (((sc.add (.engine (.interrupt l.context))).add (.engine .release)).finishInterrupted h l.mode)
      | (sc, .signal .pause) => { scene := sc, job := job.at_ (.running { l with paused := true }) }
      | (sc, .disarmed) => { scene := sc, job := job.at_ (.running { l with listening := false }) }
      | (sc, .pending) => { scene := sc, job := job.at_ (.running l), wake := some wake }
    else { scene := sc, job := job.at_ (.running l), wake := some wake }

/-! ## Afterwards -/

/-- Whether an editor's run that finishes is followed by the testcases. -/
def graded (slot : Slot E) : Bool := slot.id.isGraded && decide (slot.state.activeTab = .autograder)

/-- Pauses no longer reach the job. -/
def refusePause (sc : Scene E) (job : Job E) : Scene E :=
  match job.receiver with
  | some number => sc.withMailbox (sc.slot.mailbox.acceptPause number false)
  | none => sc

/-- After a run: the next testcase of the batch, the batch that follows an editor's run, or nothing more. -/
def follow (h : House) (sc : Scene E) (job : Job E) (mode : Mode) (outcome : Outcome) : Advance E :=
  match job.batch with
  | some batch =>
    match outcome with
    | .interrupted => endBatch h sc job batch true
    | _ =>
      if batch.index + 1 < batch.total then
        { scene := sc
          job := { job with
            batch := some { batch with index := batch.index + 1 }
            stage := .preparing (.testcaseRun (batch.index + 1)) } }
      else endBatch h sc job batch false
  | none =>
    match mode, outcome with
    | .editorRun, .finished _ =>
      if graded sc.slot then beginBatch h (refusePause sc job) job (some outcome)
      else { scene := sc, job := job.at_ (.leaving (.outcome outcome)) }
    | _, _ => { scene := sc, job := job.at_ (.leaving (.outcome outcome)) }

/-- The job gives up its listener, then the permit. -/
def leave (id : JobId) (sc : Scene E) (job : Job E) (reply : Reply) : Advance E :=
  let sc := match job.receiver with
    | some number => sc.withMailbox (sc.slot.mailbox.drop number)
    | none => sc
  { scene := sc.onPermit (·.release id), job := { job with receiver := none, stage := .settled reply } }

/-! ## Steps and turns -/

/-- One step of a job. -/
def step (h : House) (id : JobId) (sc : Scene E) (job : Job E) : Advance E :=
  match job.stage with
  | .submitted => submit id sc job
  | .queued =>
    if sc.slot.permit.isHeldBy id then { scene := sc, job := job.at_ .admitted }
    else { scene := sc, job := job, wake := some .never }
  | .admitted => begin h sc job
  | .preparing mode => prepare h sc job mode
  | .loading purpose wait => await h sc job purpose wait
  | .launching mode prepared => launch h sc job mode prepared
  | .starting l => start h sc job l
  | .running l => race h sc job l
  | .concluded mode outcome => follow h sc job mode outcome
  | .leaving reply => leave id sc job reply
  | .settled _ => { scene := sc, job := job, wake := some .never }

/-- At most so many steps of a job, until it waits for something or is settled. -/
def steps (h : House) (id : JobId) : Nat → Scene E → Job E → Scene E × Job E × Wake
  | 0, sc, job => (sc, job, .soon)
  | n + 1, sc, job =>
    match step h id sc job with
    | { scene, job, wake := some wake } => (scene, job, wake)
    | { scene, job, wake := none } => steps h id n scene job

/-- How many steps a job takes at most until it waits or is settled: eight for each testcase, one for each
signal, and some for itself. -/
def reach (slot : Slot E) (job : Job E) : Nat :=
  let signals := match job.receiver with | some number => (slot.mailbox.queue number).length | none => 0
  let cases := match job.batch with
    | some batch => batch.total - batch.index
    | none => slot.state.testcases.length
  8 * cases + signals + 24

/-- A turn of a job: it goes on until it waits for something or is settled. -/
def turn (h : House) (id : JobId) (sc : Scene E) (job : Job E) : Scene E × Job E × Wake :=
  steps h id (reach sc.slot job) sc job

/-! ## Lines that fit -/

/-- Whether the places that a result names can be told with the user's lines. Where a testcase's run is suspended is
not told. -/
def resultFits (l : Live E) : RunResult E.Snapshot → Bool
  | .finished _ => true
  | .failed faults => faults.all fun f => (f.remapped? l.prependLines).isSome
  | .suspended _ location =>
    match l.mode with
    | .testcaseRun _ => true
    | _ => location.all fun place => (LineRange.ofLocation? place l.prependLines).isSome

/-- Whether a step moves lines only to where there are some: breakpoints when a run is launched, and places when
it ends. -/
def stepFits (h : House) (sc : Scene E) (job : Job E) : Bool :=
  match job.stage with
  | .launching _ prepared => (sc.slot.state.breakpoints.shifted? prepared.prependLines).isSome
  | .running l =>
    match (E.poll l.run h.now { paused := l.paused }).2 with
    | .ended result => resultFits l result
    | .pending _ _ => true
  | _ => true

/-- Whether at most so many steps do, until the job waits for something or is settled. -/
def stepsFit (h : House) (id : JobId) : Nat → Scene E → Job E → Bool
  | 0, _, _ => true
  | n + 1, sc, job =>
    stepFits h sc job &&
      match step h id sc job with
      | { wake := some _, .. } => true
      | { scene, job, wake := none } => stepsFit h id n scene job

/-- Whether a turn does. -/
def turnFits (h : House) (id : JobId) (sc : Scene E) (job : Job E) : Bool := stepsFit h id (reach sc.slot job) sc job

/-- Whether a job that waits can go on because of what another one did: it has been given the permit, or a
signal has arrived. -/
def isStirred (id : JobId) (slot : Slot E) (job : Job E) : Bool :=
  match job.stage with
  | .queued => slot.permit.isHeldBy id
  | .running l =>
    match job.receiver with
    | some number => l.listening && slot.mailbox.stirs number
    | none => l.listening
  | _ => false

end Job

end Workbench
