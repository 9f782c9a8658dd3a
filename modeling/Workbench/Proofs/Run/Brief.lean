/-
What a run of the editor's program goes by, and what it makes afresh.

What it goes by is the brief of its workspace (`Brief`), which no run changes
(`Job.Rule.brief`), and what its own number receives (`Mailbox.Alike`). Where two
workspaces have the same brief, context and output are the same from the launch on,
what is shown and stored is the same once the run has ended, and of the results of
the testcases those that have come out are (`Slot.Under`, `Slot.Past`).
-/
import Workbench.Proofs.Run.Attention

namespace Workbench

variable {E : Engine}

/-! ## Briefs -/

/-- What a run of the editor's program goes by. -/
structure Brief where
  editorPrepend : String
  editorValue : String
  editorPostpend : String
  chapter : UInt8
  library : LibraryName
  globals : List (String × Json)
  execTimeMs : Nat
  breakpoints : LineSet
  activeTab : Tab
  /-- the programs of the testcases, and the texts that are expected -/
  testcases : List (String × Option String)

namespace WorkspaceState

/-- What a run of the editor's program goes by in this state. -/
def brief (s : WorkspaceState) : Brief where
  editorPrepend := s.editorPrepend
  editorValue := s.editorValue
  editorPostpend := s.editorPostpend
  chapter := s.chapter
  library := s.library
  globals := s.globals
  execTimeMs := s.execTimeMs
  breakpoints := s.breakpoints
  activeTab := s.activeTab
  testcases := s.testcases.map fun t => (t.program, t.expected)

variable {a b : WorkspaceState}

theorem selection_of_brief (same : a.brief = b.brief) : a.selection = b.selection := by
  show (⟨a.brief.chapter, .named a.brief.library, a.brief.globals⟩ : Selection) =
    ⟨b.brief.chapter, .named b.brief.library, b.brief.globals⟩
  rw [same]

theorem composition_of_brief (same : a.brief = b.brief) (testcase : Option String) :
    Composition.ofState a testcase = Composition.ofState b testcase := by
  show Composition.ofFragments a.brief.editorPrepend a.brief.editorValue a.brief.editorPostpend testcase =
    Composition.ofFragments b.brief.editorPrepend b.brief.editorValue b.brief.editorPostpend testcase
  rw [same]

theorem testcases_of_brief (same : a.brief = b.brief) (i : Nat) :
    a.testcases[i]?.map (fun t => (t.program, t.expected)) = b.testcases[i]?.map fun t => (t.program, t.expected) := by
  have same := congrArg (·.testcases[i]?) same
  simpa only [brief, List.getElem?_map] using same

theorem length_of_brief (same : a.brief = b.brief) : a.testcases.length = b.testcases.length := by
  have same := congrArg (·.testcases.length) same
  simpa only [brief, List.length_map] using same

@[simp] theorem setResult_brief (s : WorkspaceState) (i : Nat) (verdict : Verdict) :
    (s.setResult i verdict).brief = s.brief := by
  have tasks : (s.testcases.modify i fun t => { t with result := verdict }).map (fun t => (t.program, t.expected)) =
      s.testcases.map fun t => (t.program, t.expected) := by
    refine List.ext_getElem? fun j => ?_
    simp only [List.getElem?_map, List.getElem?_modify]
    split <;> cases s.testcases[j]? <;> rfl
  exact congrArg (fun ts => { s.brief with testcases := ts }) tasks

end WorkspaceState

namespace Job

variable {h : House} {id : JobId} {sc : Scene E} {job : Job E} {a : Advance E}

theorem settleMode_brief (sc : Scene E) (mode : Mode) (verdict : Verdict) (occurrence : Nat → Occurrence) :
    (sc.settleMode mode verdict occurrence).slot.state.brief = sc.slot.state.brief := by
  cases mode with
  | testcaseRun i => exact WorkspaceState.setResult_brief ..
  | _ => rfl

theorem finishInterrupted_brief (mode : Mode) :
    (sc.finishInterrupted h mode).1.slot.state.brief = sc.slot.state.brief := by
  cases mode with
  | testcaseRun i => exact WorkspaceState.setResult_brief ..
  | _ => rfl

theorem finish_brief (l : Live E) (result : RunResult E.Snapshot) :
    (finish h sc l result).1.slot.state.brief = sc.slot.state.brief := by
  unfold finish
  split
  · exact settleMode_brief ..
  · exact settleMode_brief ..
  · split
    · exact settleMode_brief ..
    · rw [Scene.finishSuspended_slot]
      dsimp only
      split <;> rfl

/-- No step changes the brief, unless another chapter or library is selected in it. -/
theorem Rule.brief_or (rule : Rule h id sc job a) :
    a.scene.slot.state.brief = sc.slot.state.brief ∨
      job.stage = .admitted ∧ (∃ message wait, a.job.stage = .loading (.selection message) wait) ∧
        ((∃ chapter, job.operation = .selectChapter chapter) ∨ ∃ library, job.operation = .selectLibrary library) := by
  cases rule with
  | chapter stage operation => exact .inr ⟨stage, ⟨_, _, rfl⟩, .inl ⟨_, operation⟩⟩
  | library stage operation => exact .inr ⟨stage, ⟨_, _, rfl⟩, .inr ⟨_, operation⟩⟩
  | enqueued => left; rw [enqueue_slot]
  | left => left; rw [leave_slot]
  | cutShort | aborted | completed => left; rw [endBatch_slot]
  | launched => left; rw [launch_slot]; rfl
  | gradedEmpty | gradedBegun => left; simp only [Scene.occur_slot, Scene.sayBriefly_slot, refusePause_slot]
  | @loaded purpose wait next stage waited =>
    left
    rw [← waited.slot]
    cases purpose <;> rfl
  | ended => exact .inl (finish_brief ..)
  | testcase => exact .inl (WorkspaceState.setResult_brief ..)
  | stopped | stoppedEarly => exact .inl (finishInterrupted_brief ..)
  | _ => exact .inl rfl

/-- No run changes the brief. -/
theorem Rule.brief (rule : Rule h id sc job a) {mode : Mode} (operation : job.operation = .evaluate mode) :
    a.scene.slot.state.brief = sc.slot.state.brief := by
  rcases rule.brief_or with same | ⟨-, -, ⟨chapter, other⟩ | ⟨library, other⟩⟩
  · exact same
  all_goals cases operation.symm.trans other

end Job

/-! ## Mailboxes -/

/-- Two numbers have received the same and hear the same. -/
structure Mailbox.Alike (a : Mailbox) (m : Nat) (b : Mailbox) (n : Nat) : Prop where
  queue : a.queue m = b.queue n
  listener : a.listener = none ∧ b.listener = none ∨
    ∃ accepts delivered, a.listener = some ⟨m, accepts, delivered⟩ ∧ b.listener = some ⟨n, accepts, delivered⟩

namespace Mailbox

variable {a b : Mailbox} {m n : Nat}

theorem arm_alike (a b : Mailbox) (accepts : Bool) : (a.arm accepts).1.Alike a.next (b.arm accepts).1 b.next where
  queue := by simp [arm, queue]
  listener := .inr ⟨accepts, false, rfl, rfl⟩

namespace Alike

theorem fire (alike : a.Alike m b n) (s : Signal) : (a.fire s).1.Alike m (b.fire s).1 n := by
  rcases alike.listener with ⟨here, there⟩ | ⟨accepts, delivered, here, there⟩
  · rw [fire_refused (by simp [here]), fire_refused (by simp [there])]
    exact alike
  · by_cases takes : Listener.takes ⟨m, accepts, delivered⟩ s = true
    · have takes' : Listener.takes ⟨n, accepts, delivered⟩ s = true := takes
      have queues := congrArg (· ++ [s]) alike.queue
      refine ⟨(fire_queue_taken here takes).trans (queues.trans (fire_queue_taken there takes').symm), ?_⟩
      simp only [Mailbox.fire, here, there, takes, takes', ↓reduceIte]
      cases s with
      | interrupt => exact .inl ⟨rfl, rfl⟩
      | pause => exact .inr ⟨accepts, true, rfl, rfl⟩
    · have refused : ∀ i, Listener.takes ⟨i, accepts, delivered⟩ s = false := fun _ => eq_false_of_ne_true takes
      rw [fire_refused (by simp [here, refused]), fire_refused (by simp [there, refused])]
      exact alike

theorem took (alike : a.Alike m b n) (rest : List Signal) :
    Alike { a with queues := a.queues.set m rest } m { b with queues := b.queues.set n rest } n where
  queue := by simp only [queue_set]
  listener := alike.listener

theorem acceptPause (alike : a.Alike m b n) (accepts : Bool) :
    (a.acceptPause m accepts).Alike m (b.acceptPause n accepts) n where
  queue := alike.queue
  listener := by
    rcases alike.listener with ⟨here, there⟩ | ⟨_, delivered, here, there⟩
    · exact .inl (by simp [Mailbox.acceptPause, here, there])
    · exact .inr ⟨accepts, delivered, by simp [Mailbox.acceptPause, here], by simp [Mailbox.acceptPause, there]⟩

theorem listens (alike : a.Alike m b n) : a.listens m = b.listens n := by
  rcases alike.listener with ⟨here, there⟩ | ⟨_, _, here, there⟩ <;> simp [Mailbox.listens, here, there]

theorem receive (alike : a.Alike m b n) :
    ∃ a' b' r, a.receive m = (a', r) ∧ b.receive n = (b', r) ∧ a'.Alike m b' n := by
  unfold Mailbox.receive tryReceive
  rw [alike.queue]
  cases b.queue n with
  | nil => exact ⟨a, b, _, rfl, by rw [alike.listens], alike⟩
  | cons s rest => exact ⟨_, _, .signal s, rfl, rfl, alike.took rest⟩

end Alike

end Mailbox

/-! ## What a run has made afresh -/

namespace WorkspaceState

variable {a b : WorkspaceState} {i : Nat}

/-- A testcase that comes out leaves those before it as they are. -/
theorem setResult_take (s : WorkspaceState) (i : Nat) (verdict : Verdict) :
    (s.setResult i verdict).testcases.take i = s.testcases.take i := by
  refine List.ext_getElem? fun j => ?_
  simp only [setResult, List.getElem?_take, List.getElem?_modify]
  split
  · next before =>
    simp only [Nat.ne_of_gt before, ↓reduceIte]
    cases s.testcases[j]? <;> rfl
  · rfl

/-- A testcase comes out alike where those before it have done so. -/
theorem setResult_take_succ (same : a.brief = b.brief) (before : a.testcases.take i = b.testcases.take i)
    (verdict : Verdict) :
    (a.setResult i verdict).testcases.take (i + 1) = (b.setResult i verdict).testcases.take (i + 1) := by
  have own : ∀ s : WorkspaceState, (s.setResult i verdict).testcases[i]? =
      (s.testcases[i]?.map fun t => (t.program, t.expected)).map fun t => ⟨t.1, t.2, verdict⟩ := by
    intro s
    simp only [setResult, List.getElem?_modify, ↓reduceIte]
    cases s.testcases[i]? <;> rfl
  rw [List.take_add_one, List.take_add_one, setResult_take, setResult_take, before, own, own, testcases_of_brief same]

end WorkspaceState

theorem Mode.testcaseRun_ne (i : Nat) : Mode.testcaseRun i ≠ .editorRun := nofun

namespace Slot

/-- What two workspaces have in common while a run of a mode is under way in each. A testcase's follows others of
its batch, and a run of the editor's program. -/
structure Under (mode : Mode) (a b : Slot E) : Prop where
  context : a.state.context = b.state.context
  output : a.state.output = b.state.output
  highlighted : mode ≠ .editorRun → a.state.highlighted = b.state.highlighted
  suspended : mode ≠ .editorRun → a.suspended = b.suspended
  decided : ∀ i, mode = .testcaseRun i → a.state.testcases.take i = b.state.testcases.take i

/-- What they have in common when it has ended. -/
structure Past (mode : Mode) (a b : Slot E) : Prop where
  context : a.state.context = b.state.context
  output : a.state.output = b.state.output
  highlighted : a.state.highlighted = b.state.highlighted
  suspended : a.suspended = b.suspended
  decided : ∀ i, mode = .testcaseRun i → a.state.testcases.take (i + 1) = b.state.testcases.take (i + 1)

variable {mode : Mode} {a b a' b' : Slot E}

/-- Only context and output have been made afresh when a run of the editor's program is launched. -/
theorem Under.launched (context : a.state.context = b.state.context) (output : a.state.output = b.state.output) :
    a.Under .editorRun b where
  context := context
  output := output
  highlighted := fun other => absurd rfl other
  suspended := fun other => absurd rfl other
  decided := nofun

/-- Permit and mailbox make no difference. -/
theorem Under.kept (under : a.Under mode b) (state : a'.state = a.state) (suspended : a'.suspended = a.suspended)
    (state' : b'.state = b.state) (suspended' : b'.suspended = b.suspended) : a'.Under mode b' := by
  obtain ⟨context, output, highlighted, stored, decided⟩ := under
  constructor <;> simpa only [state, state', suspended, suspended']

/-- What a testcase has left is left of the whole as well. -/
theorem Past.overall (past : a.Past mode b) : a.Past .editorRun b where
  context := past.context
  output := past.output
  highlighted := past.highlighted
  suspended := past.suspended
  decided := nofun

theorem Past.kept (past : a.Past mode b) (state : a'.state = a.state) (suspended : a'.suspended = a.suspended)
    (state' : b'.state = b.state) (suspended' : b'.suspended = b.suspended) : a'.Past mode b' := by
  obtain ⟨context, output, highlighted, stored, decided⟩ := past
  constructor <;> simpa only [state, state', suspended, suspended']

end Slot

namespace Job

variable {h₁ h₂ : House} {sc₁ sc₂ : Scene E} {mode : Mode}

theorem settleMode_past (single : mode = .editorRun ∨ ∃ i, mode = .testcaseRun i)
    (same : sc₁.slot.state.brief = sc₂.slot.state.brief) (under : sc₁.slot.Under mode sc₂.slot) (verdict : Verdict)
    (occurrence : Nat → Occurrence) :
    (sc₁.settleMode mode verdict occurrence).slot.Past mode (sc₂.settleMode mode verdict occurrence).slot := by
  rcases single with rfl | ⟨i, rfl⟩
  · exact ⟨under.context, under.output, rfl, rfl, nofun⟩
  · refine ⟨under.context, under.output, under.highlighted nofun, under.suspended nofun, ?_⟩
    rintro _ ⟨⟩
    exact WorkspaceState.setResult_take_succ same (under.decided i rfl) verdict

theorem finishFaults_past (single : mode = .editorRun ∨ ∃ i, mode = .testcaseRun i)
    (same : sc₁.slot.state.brief = sc₂.slot.state.brief) (under : sc₁.slot.Under mode sc₂.slot) (faults : List Fault)
    (prependLines : Int32) :
    (sc₁.finishFaults mode faults prependLines).1.slot.Past mode
      (sc₂.finishFaults mode faults prependLines).1.slot := by
  have context := congrArg (·.report faults) under.context
  have output := congrArg (·.appendFaults (faults.map (·.remapped prependLines))) under.output
  rw [Scene.finishFaults_slot, Scene.finishFaults_slot]
  refine settleMode_past single ?_ ?_ ..
  · exact same
  · exact ⟨context, output, under.highlighted, under.suspended, under.decided⟩

/-- Ends of runs that are the same mean the same. -/
theorem finish_past (h₁ h₂ : House) {sc₁ sc₂ : Scene E} {l : Live E}
    (single : l.mode = .editorRun ∨ ∃ i, l.mode = .testcaseRun i)
    (same : sc₁.slot.state.brief = sc₂.slot.state.brief) (under : sc₁.slot.Under l.mode sc₂.slot)
    (result : RunResult E.Snapshot) :
    (finish h₁ sc₁ l result).2 = (finish h₂ sc₂ l result).2 ∧
      (finish h₁ sc₁ l result).1.slot.Past l.mode (finish h₂ sc₂ l result).1.slot := by
  cases result with
  | finished value =>
    have output := congrArg (·.appendResult value) under.output
    refine ⟨rfl, ?_⟩
    unfold finish
    rw [Scene.finishValue_slot, Scene.finishValue_slot]
    refine settleMode_past single ?_ ?_ ..
    · exact same
    · exact ⟨under.context, output, under.highlighted, under.suspended, under.decided⟩
  | failed faults => exact ⟨rfl, finishFaults_past single same under faults l.prependLines⟩
  | suspended snapshot location =>
    unfold finish
    rcases single with mode | ⟨i, mode⟩
    · rw [mode]
      refine ⟨?_, ?_⟩
      · unfold Scene.finishSuspended
        dsimp only
        split <;> rfl
      · have output := congrArg (·.appendResult (.str Scene.breakpointSentinel)) under.output
        rw [Scene.finishSuspended_slot, Scene.finishSuspended_slot]
        cases l.paused with
        | true => exact ⟨under.context, under.output, rfl, rfl, nofun⟩
        | false => exact ⟨under.context, output, rfl, rfl, nofun⟩
    · rw [mode] at under ⊢
      exact ⟨rfl, finishFaults_past (.inr ⟨i, rfl⟩) same under [] l.prependLines⟩

theorem finishInterrupted_past (single : mode = .editorRun ∨ ∃ i, mode = .testcaseRun i)
    (same : sc₁.slot.state.brief = sc₂.slot.state.brief) (under : sc₁.slot.Under mode sc₂.slot) :
    (sc₁.finishInterrupted h₁ mode).1.slot.Past mode (sc₂.finishInterrupted h₂ mode).1.slot := by
  have context := congrArg (·.report [Scene.stopped]) under.context
  rcases single with rfl | ⟨i, rfl⟩
  · exact ⟨context, under.output, rfl, rfl, nofun⟩
  · refine ⟨context, under.output, under.highlighted nofun, under.suspended nofun, ?_⟩
    rintro _ ⟨⟩
    exact WorkspaceState.setResult_take_succ same (under.decided i rfl) _

end Job

end Workbench
