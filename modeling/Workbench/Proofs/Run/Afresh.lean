/-
Runs of the editor's program that do not depend on what was before.

Two workspaces with the same brief, in which nobody is at work, may have any past. If
the editor's program is run in each, and the same signals come at the same times, each
counted from a moment of its own, the two runs go alike: at each step they are at the
same stage and wait for the same (`Underway.step`), so they are answered alike and
leave the same (`Hub.Abreast.together`, `Accord.answered`).
-/
import Workbench.Proofs.Run.Answer
import Workbench.Proofs.Run.Brief
import Workbench.Proofs.Script.Clock

namespace Workbench

variable {E : Engine}

/-! ## Batches that come to their end -/

/-- It is told that a batch has ended, and was not aborted. -/
def Scene.Completes (sc : Scene E) : Prop :=
  ∃ w summary, .event ⟨w, .batchFinished summary⟩ ∈ sc.news ∧ summary.aborted = false

theorem Scene.completes_iff {sc : Scene E} :
    sc.Completes ↔ ∃ w summary, ⟨w, .batchFinished summary⟩ ∈ sc.told ∧ summary.aborted = false := by
  simp only [Completes, mem_news, mem_told]

theorem Scene.silent {sc : Scene E} (fresh : sc.told = []) : ¬ sc.Completes := by
  intro completes
  obtain ⟨w, summary, told, -⟩ := completes_iff.1 completes
  rw [fresh] at told
  cases told

namespace Job

variable {h : House} {id : JobId} {sc : Scene E} {job : Job E} {a : Advance E}

theorem endBatch_completes (fresh : sc.told = []) {batch : Batch} {aborted : Bool}
    (completes : (endBatch h sc job batch aborted).scene.Completes) : aborted = false := by
  obtain ⟨w, summary, told, unaborted⟩ := Scene.completes_iff.1 completes
  rw [endBatch_told, fresh, List.nil_append, List.mem_singleton] at told
  cases told
  rwa [BatchSummary.ofTestcases_aborted] at unaborted

/-- Only the end of a job's work tells so. -/
theorem Rule.leaving_of_completes (rule : Rule h id sc job a) (fresh : sc.effects = [])
    (completes : a.scene.Completes) : ∃ reply, a.job.stage = .leaving reply := by
  obtain ⟨w, summary, told, -⟩ := Scene.completes_iff.1 completes
  obtain ⟨-, speaks⟩ := rule.speaks_of_told fresh (Scene.mem_told.1 told)
  cases speaks with
  | batchFinished ended =>
    subst ended
    exact ⟨_, rfl⟩

theorem reply?_eq_none (unsettled : ∀ reply, job.stage ≠ .settled reply) : job.reply? = none := by
  unfold reply?
  split
  · next settled => exact absurd settled (unsettled _)
  · rfl

end Job

/-! ## Two runs -/

/-- Which runs two jobs are at: those of the editor's program, or those of a testcase, in batches that have come as
far. -/
inductive Turn (count : Nat) (first second : Option Batch) : Mode → Prop
  | editor (here : first = none) (there : second = none) : Turn count first second .editorRun
  | testcase {b : Batch} {o : Outcome} (here : first = some b) (there : second = some b) (after : b.after = some o)
    (within : b.index < b.total) (all : b.total = count) : Turn count first second (.testcaseRun b.index)

theorem Turn.single {count : Nat} {first second : Option Batch} {mode : Mode} (turn : Turn count first second mode) :
    mode = .editorRun ∨ ∃ i, mode = .testcaseRun i := by
  cases turn with
  | editor => exact .inl rfl
  | testcase => exact .inr ⟨_, rfl⟩

/-- Two jobs hear the same. -/
def Hears (a : Mailbox) (first : Option Nat) (b : Mailbox) (second : Option Nat) : Prop :=
  ∃ m n, first = some m ∧ second = some n ∧ a.Alike m b n

/-- Two runs of a mode stand at the same stage, each with its own times. The slots have in common what has been made
afresh by then. -/
inductive Stand (since : Nat → E.Run → E.Run) (t₁ t₂ : Nat) (a b : Slot E) : Mode → Stage E → Stage E → Prop
  | preparing {mode : Mode} (under : mode ≠ .editorRun → a.Under mode b) :
    Stand since t₁ t₂ a b mode (.preparing mode) (.preparing mode)
  | loading {purpose : Purpose} {mode : Mode} {wait : Wait} (kind : purpose.mode? = some mode)
    (under : mode ≠ .editorRun → a.Under mode b) :
    Stand since t₁ t₂ a b mode (.loading purpose (wait.since t₁)) (.loading purpose (wait.since t₂))
  | launching {mode : Mode} {p : Prepared E} (under : a.Under mode b) :
    Stand since t₁ t₂ a b mode (.launching mode p) (.launching mode p)
  | starting {l : Launch E} (under : a.Under l.mode b) : Stand since t₁ t₂ a b l.mode (.starting l) (.starting l)
  | running {l : Live E} {r : E.Run} (under : a.Under l.mode b) :
    Stand since t₁ t₂ a b l.mode (.running { l with run := since t₁ r }) (.running { l with run := since t₂ r })
  | concluded {mode : Mode} {o : Outcome} (past : a.Past mode b) :
    Stand since t₁ t₂ a b mode (.concluded mode o) (.concluded mode o)

/-- Permit and mailbox make no difference. -/
theorem Stand.kept {since : Nat → E.Run → E.Run} {t₁ t₂ : Nat} {a b a' b' : Slot E} {mode : Mode}
    {first second : Stage E} (stand : Stand since t₁ t₂ a b mode first second) (state : a'.state = a.state)
    (suspended : a'.suspended = a.suspended) (state' : b'.state = b.state) (suspended' : b'.suspended = b.suspended) :
    Stand since t₁ t₂ a' b' mode first second := by
  cases stand with
  | preparing under => exact .preparing fun other => (under other).kept state suspended state' suspended'
  | loading kind under => exact .loading kind fun other => (under other).kept state suspended state' suspended'
  | launching under => exact .launching (under.kept state suspended state' suspended')
  | starting under => exact .starting (under.kept state suspended state' suspended')
  | running under => exact .running (under.kept state suspended state' suspended')
  | concluded past => exact .concluded (past.kept state suspended state' suspended')

/-- Two runs of the editor's program are under way, or runs of the testcases afterwards. Until the permit is granted
nobody listens to them, and then they hear the same. -/
inductive Underway (since : Nat → E.Run → E.Run) (t₁ t₂ : Nat) (id₁ id₂ : JobId) (count : Nat) (a : Slot E) (j : Job E)
    (b : Slot E) (k : Job E) : Prop
  | entering {stage : Stage E} (here : j.stage = stage) (there : k.stage = stage)
    (early : stage = .submitted ∧ a.permit.holder = none ∧ b.permit.holder = none ∨
      (stage = .queued ∨ stage = .admitted) ∧ a.permit.holder = some id₁ ∧ b.permit.holder = some id₂)
    (unheard : a.mailbox.listener = none ∧ b.mailbox.listener = none) (turn : Turn count j.batch k.batch .editorRun)
  | attentive {mode : Mode} (turn : Turn count j.batch k.batch mode)
    (hears : Hears a.mailbox j.receiver b.mailbox k.receiver) (stand : Stand since t₁ t₂ a b mode j.stage k.stage)

/-- Two runs are over, and are answered alike. -/
structure Over (reply : Reply) (a : Slot E) (j : Job E) (b : Slot E) (k : Job E) : Prop where
  stages : j.stage = .leaving reply ∧ k.stage = .leaving reply ∨ j.stage = .settled reply ∧ k.stage = .settled reply
  past : a.Past .editorRun b

/-- The surroundings of two steps at one time, each counted from a moment. -/
structure House.Alike (t₁ t₂ x n₁ n₂ : Nat) (h₁ h₂ : House) : Prop where
  settings : h₁.settings = h₂.settings
  here : h₁.now = t₁ + x
  there : h₂.now = t₂ + x
  loader : h₁.loader.Alike h₂.loader t₁ t₂ n₁ n₂

/-- Steps that lead on alike. -/
inductive Goes (since : Nat → E.Run → E.Run) (t₁ t₂ : Nat) (id₁ id₂ : JobId) (count : Nat) (first second : Advance E) :
    Prop
  | on (way : Underway since t₁ t₂ id₁ id₂ count first.scene.slot first.job second.scene.slot second.job)
  | ended {reply : Reply} (ending : Over reply first.scene.slot first.job second.scene.slot second.job)
    (all : first.scene.Completes →
      first.scene.slot.state.testcases = second.scene.slot.state.testcases)

/-- What is waited for is the same. -/
def WaitsAlike (t₁ t₂ : Nat) (first second : Option Wake) : Prop :=
  ∃ wake : Option Wake, first = wake.map (.since t₁) ∧ second = wake.map (.since t₂)

theorem WaitsAlike.none {t₁ t₂ : Nat} : WaitsAlike t₁ t₂ none none := ⟨Option.none, rfl, rfl⟩

namespace Underway

variable {since : Nat → E.Run → E.Run} {t₁ t₂ x n₁ n₂ : Nat} {id₁ id₂ : JobId} {count : Nat} {h₁ h₂ : House}
  {a b : Slot E} {j k : Job E}

/-- The steps of the two jobs. -/
def Steps (since : Nat → E.Run → E.Run) (t₁ t₂ n₁ n₂ : Nat) (id₁ id₂ : JobId) (count : Nat) (h₁ h₂ : House) (a : Slot E)
    (j : Job E) (b : Slot E) (k : Job E) : Prop :=
  let first := Job.step h₁ id₁ { slot := a, asked := n₁ } j
  let second := Job.step h₂ id₂ { slot := b, asked := n₂ } k
  Goes since t₁ t₂ id₁ id₂ count first second ∧ WaitsAlike t₁ t₂ first.wake second.wake

theorem entering_goes {stage : Stage E} (here : j.stage = stage) (there : k.stage = stage)
    (early : stage = .submitted ∧ a.permit.holder = none ∧ b.permit.holder = none ∨
      (stage = .queued ∨ stage = .admitted) ∧ a.permit.holder = some id₁ ∧ b.permit.holder = some id₂)
    (unheard : a.mailbox.listener = none ∧ b.mailbox.listener = none) (turn : Turn count j.batch k.batch .editorRun)
    (own : j.operation = .evaluate .editorRun) (other : k.operation = .evaluate .editorRun) :
    Steps since t₁ t₂ n₁ n₂ id₁ id₂ count h₁ h₂ a j b k := by
  unfold Steps
  rcases early with ⟨rfl, free, free'⟩ | ⟨rfl | rfl, held, held'⟩
  · simp only [Job.step, here, there, Job.submit, own, other, Job.refusal?]
    refine ⟨.on ?_, .none⟩
    rw [Job.enqueue_slot, Job.enqueue_slot]
    have still : ∀ m : Mailbox, m.listener = none → (m.fire .interrupt).1 = m := by
      intro m unarmed
      exact Mailbox.fire_refused (by simp [unarmed])
    refine .entering rfl rfl (.inr ⟨.inl rfl, ?_, ?_⟩) ?_ ?_
    · simp [Permit.request, free]
    · simp [Permit.request, free']
    · simp [own, other, Job.interrupts, Mode.isTopLevel, still, unheard]
    · exact turn
  · have mine : a.permit.isHeldBy id₁ = true := Permit.isHeldBy_iff.2 held
    have theirs : b.permit.isHeldBy id₂ = true := Permit.isHeldBy_iff.2 held'
    simp only [Job.step, here, there, mine, theirs, ↓reduceIte]
    exact ⟨.on (.entering rfl rfl (.inr ⟨.inr rfl, held, held'⟩) unheard turn), .none⟩
  · simp only [Job.step, here, there, Job.begin, own, other]
    exact ⟨.on (.attentive turn ⟨_, _, rfl, rfl, Mailbox.arm_alike ..⟩ (.preparing fun no => absurd rfl no)), .none⟩

theorem preparing_goes {mode : Mode} (alike : House.Alike t₁ t₂ x n₁ n₂ h₁ h₂) (same : a.state.brief = b.state.brief)
    (counted : count = a.state.testcases.length) (here : j.stage = .preparing mode) (there : k.stage = .preparing mode)
    (turn : Turn count j.batch k.batch mode) (hears : Hears a.mailbox j.receiver b.mailbox k.receiver)
    (under : mode ≠ .editorRun → a.Under mode b) : Steps since t₁ t₂ n₁ n₂ id₁ id₂ count h₁ h₂ a j b k := by
  have starts : ∀ interval timeout, Wait.start h₁.now interval timeout = (Wait.start x interval timeout).since t₁ ∧
      Wait.start h₂.now interval timeout = (Wait.start x interval timeout).since t₂ := by
    intro interval timeout
    rw [alike.here, alike.there]
    exact ⟨Wait.start_since .., Wait.start_since ..⟩
  unfold Steps
  cases turn with
  | editor alone alone' =>
    simp only [Job.step, here, there, Job.prepare, Job.load, starts, alike.settings]
    exact ⟨.on (.attentive (.editor alone alone') hears (.loading rfl fun no => absurd rfl no)), .none⟩
  | @testcase batch o under₁ under₂ after within all =>
    have common := under (Mode.testcaseRun_ne _)
    have first : batch.index < a.state.testcases.length := by omega
    have second : batch.index < b.state.testcases.length := WorkspaceState.length_of_brief same ▸ first
    have tasks := WorkspaceState.testcases_of_brief same batch.index
    rw [List.getElem?_eq_getElem first, List.getElem?_eq_getElem second] at tasks
    have program : a.state.testcases[batch.index].program = b.state.testcases[batch.index].program :=
      congrArg Prod.fst (Option.some.inj tasks)
    simp only [Job.step, here, there, Job.prepare, Job.load, List.getElem?_eq_getElem first,
      List.getElem?_eq_getElem second, starts, alike.settings, program]
    refine ⟨.on (.attentive (.testcase under₁ under₂ after within all) hears (.loading rfl fun _ => ?_)), .none⟩
    refine ⟨common.context, common.output, common.highlighted, common.suspended, ?_⟩
    rintro _ ⟨⟩
    exact (WorkspaceState.setResult_take ..).trans
      ((common.decided _ rfl).trans (WorkspaceState.setResult_take ..).symm)

theorem composed_alike (same : a.state.brief = b.state.brief) (context : a.state.context = b.state.context)
    (testcase : Option String) : Job.composed a testcase = Job.composed b testcase := by
  simp only [Job.composed, WorkspaceState.composition_of_brief same, context]

/-- With a new context the run is ready to be launched. -/
theorem proceed_goes {purpose : Purpose} {mode : Mode} (kind : purpose.mode? = some mode)
    (same : a.state.brief = b.state.brief) (turn : Turn count j.batch k.batch mode)
    (hears : Hears a.mailbox j.receiver b.mailbox k.receiver) (under : mode ≠ .editorRun → a.Under mode b)
    {sc₁ sc₂ : Scene E} (first : sc₁.slot = a) (second : sc₂.slot = b) :
    Goes since t₁ t₂ id₁ id₂ count (Job.proceed h₁ sc₁ j purpose) (Job.proceed h₂ sc₂ k purpose) := by
  subst first second
  have context := congrArg E.makeContext (WorkspaceState.selection_of_brief same)
  cases purpose with
  | editorRun =>
    cases kind
    have ready := composed_alike (a := sc₁.renewContext.clearOutput.slot) (b := sc₂.renewContext.clearOutput.slot) same
      context none
    simp only [Job.proceed, ready]
    exact .on (.attentive turn hears
      (.launching (.launched context rfl)))
  | testcaseRun i program =>
    cases kind
    have common := under (Mode.testcaseRun_ne _)
    have ready := composed_alike (a := sc₁.renewContext.slot) (b := sc₂.renewContext.slot) same context (some program)
    simp only [Job.proceed, ready]
    exact .on (.attentive turn hears
      (.launching ⟨context, common.output, common.highlighted, common.suspended, common.decided⟩))
  | selection => cases kind

theorem loading_goes {purpose : Purpose} {mode : Mode} {wait : Wait} (alike : House.Alike t₁ t₂ x n₁ n₂ h₁ h₂)
    (same : a.state.brief = b.state.brief) (here : j.stage = .loading purpose (wait.since t₁))
    (there : k.stage = .loading purpose (wait.since t₂)) (kind : purpose.mode? = some mode)
    (turn : Turn count j.batch k.batch mode) (hears : Hears a.mailbox j.receiver b.mailbox k.receiver)
    (under : mode ≠ .editorRun → a.Under mode b) : Steps since t₁ t₂ n₁ n₂ id₁ id₂ count h₁ h₂ a j b k := by
  obtain ⟨more, status, first, second⟩ := Wait.poll_alike alike.loader x 0 wait
  rw [← alike.here] at first
  rw [← alike.there] at second
  unfold Steps
  simp only [Job.step, here, there]
  unfold Job.await
  simp only [Nat.add_zero] at first second
  rw [first, second]
  cases status with
  | pending later wake => exact ⟨.on (.attentive turn hears (.loading kind under)), some wake, rfl, rfl⟩
  | ready => exact ⟨proceed_goes kind same turn hears under rfl rfl, by cases purpose <;> exact .none⟩
  | timedOut => exact ⟨proceed_goes kind same turn hears under rfl rfl, by cases purpose <;> exact .none⟩

theorem launching_goes {mode : Mode} {p : Prepared E} (alike : House.Alike t₁ t₂ x n₁ n₂ h₁ h₂)
    (same : a.state.brief = b.state.brief) (here : j.stage = .launching mode p) (there : k.stage = .launching mode p)
    (turn : Turn count j.batch k.batch mode) (hears : Hears a.mailbox j.receiver b.mailbox k.receiver)
    (under : a.Under mode b) : Steps since t₁ t₂ n₁ n₂ id₁ id₂ count h₁ h₂ a j b k := by
  have output := congrArg (·.beginRun) under.output
  have options : Job.optionsFor h₁.settings a.state mode p = Job.optionsFor h₂.settings b.state mode p := by
    have budget : a.state.execTimeMs = b.state.execTimeMs := congrArg (·.execTimeMs) same
    have breakpoints : a.state.breakpoints = b.state.breakpoints := congrArg (·.breakpoints) same
    simp only [Job.optionsFor, budget, breakpoints, alike.settings]
  unfold Steps
  simp only [Job.step, here, there]
  have hears' : Hears (Job.launch h₁ { slot := a, asked := n₁ } j mode p).scene.slot.mailbox j.receiver
      (Job.launch h₂ { slot := b, asked := n₂ } k mode p).scene.slot.mailbox k.receiver := by
    rw [Job.launch_slot, Job.launch_slot]
    exact hears
  refine ⟨.on (.attentive turn hears' ?_), .none⟩
  rw [Job.launch_job, Job.launch_job, ← options, Job.launch_slot, Job.launch_slot]
  exact .starting (l := { mode := mode, prepared := p, options := _ })
    ⟨under.context, output, under.highlighted, under.suspended, under.decided⟩

theorem runOf_since (timeless : E.Timeless since) (t : Nat) (p : Prepared E) (options : RunOptions) :
    since t (Job.runOf p options) = Job.runOf p options := by
  unfold Job.runOf
  split
  · exact timeless.start ..
  · exact timeless.resume ..

/-- A run that has ended alike is concluded alike. -/
theorem conclude_goes {mode : Mode} {end₁ end₂ : Scene E × Outcome} (turn : Turn count j.batch k.batch mode)
    (answer : end₁.2 = end₂.2) (hears : Hears end₁.1.slot.mailbox j.receiver end₂.1.slot.mailbox k.receiver)
    (past : end₁.1.slot.Past mode end₂.1.slot) :
    Goes since t₁ t₂ id₁ id₂ count (Job.conclude j mode end₁) (Job.conclude k mode end₂) := by
  refine .on (.attentive turn hears ?_)
  simp only [Job.conclude, Job.at_, answer]
  exact .concluded past

theorem stopped_goes {mode : Mode} {sc₁ sc₂ : Scene E} (turn : Turn count j.batch k.batch mode)
    (same : sc₁.slot.state.brief = sc₂.slot.state.brief)
    (hears : Hears sc₁.slot.mailbox j.receiver sc₂.slot.mailbox k.receiver) (under : sc₁.slot.Under mode sc₂.slot) :
    Goes since t₁ t₂ id₁ id₂ count (Job.conclude j mode (sc₁.finishInterrupted h₁ mode))
      (Job.conclude k mode (sc₂.finishInterrupted h₂ mode)) := by
  refine conclude_goes turn rfl ?_ (Job.finishInterrupted_past turn.single same under)
  simpa using hears

theorem receive_alike (sc₁ sc₂ : Scene E) (hears : Hears sc₁.slot.mailbox j.receiver sc₂.slot.mailbox k.receiver) :
    ∃ m₁ m₂ r, Job.receive sc₁ j = (sc₁.withMailbox m₁, r) ∧ Job.receive sc₂ k = (sc₂.withMailbox m₂, r) ∧
      Hears m₁ j.receiver m₂ k.receiver := by
  obtain ⟨m, n, here, there, alike⟩ := hears
  obtain ⟨m₁, m₂, r, first, second, alike⟩ := alike.receive
  refine ⟨m₁, m₂, r, ?_, ?_, m, n, here, there, alike⟩ <;> unfold Job.receive
  · rw [here]
    simp only [first]
  · rw [there]
    simp only [second]

theorem hear_alike (sc₁ sc₂ : Scene E) (hears : Hears sc₁.slot.mailbox j.receiver sc₂.slot.mailbox k.receiver)
    (wake : Wake) :
    ∃ m₁ m₂ r, Job.hear sc₁ j (wake.since t₁) = (sc₁.withMailbox m₁, r) ∧
      Job.hear sc₂ k (wake.since t₂) = (sc₂.withMailbox m₂, r) ∧ Hears m₁ j.receiver m₂ k.receiver := by
  simp only [Job.hear, Wake.since_eq_spent]
  split
  · exact ⟨sc₁.slot.mailbox, sc₂.slot.mailbox, .pending, rfl, rfl, hears⟩
  · exact receive_alike sc₁ sc₂ hears

theorem starting_goes {l : Launch E} (timeless : E.Timeless since) (same : a.state.brief = b.state.brief)
    (here : j.stage = .starting l) (there : k.stage = .starting l) (turn : Turn count j.batch k.batch l.mode)
    (hears : Hears a.mailbox j.receiver b.mailbox k.receiver) (under : a.Under l.mode b) :
    Steps since t₁ t₂ n₁ n₂ id₁ id₂ count h₁ h₂ a j b k := by
  obtain ⟨m₁, m₂, r, first, second, hears⟩ := receive_alike { slot := a, asked := n₁ } { slot := b, asked := n₂ } hears
  have under : Slot.Under l.mode { a with mailbox := m₁ } { b with mailbox := m₂ } := under.kept rfl rfl rfl rfl
  unfold Steps
  simp only [Job.step, here, there]
  unfold Job.start
  rw [first, second]
  cases r with
  | signal s =>
    cases s with
    | interrupt => exact ⟨stopped_goes turn same hears under, .none⟩
    | pause => exact ⟨.on (.attentive turn hears (.starting (l := { l with paused := true }) under)), .none⟩
  | pending | disarmed =>
    let live : Live E :=
      { mode := l.mode
        run := Job.runOf l.prepared l.options
        context := l.prepared.context
        prependLines := l.prepared.prependLines
        paused := l.paused }
    have stand := @Stand.running E since t₁ t₂ _ _ live live.run under
    rw [runOf_since timeless, runOf_since timeless] at stand
    exact ⟨.on (.attentive turn hears stand), .none⟩

/-- What a run has written is in both outputs. -/
theorem under_heard {mode : Mode} (under : a.Under mode b) (lines : List String) :
    Slot.Under mode { a with state := a.state.onOutput (·.appendLines lines) }
      { b with state := b.state.onOutput (·.appendLines lines) } where
  context := under.context
  output := congrArg (·.appendLines lines) under.output
  highlighted := under.highlighted
  suspended := under.suspended
  decided := under.decided

theorem running_goes {l : Live E} {r : E.Run} (timeless : E.Timeless since)
    (alike : House.Alike t₁ t₂ x n₁ n₂ h₁ h₂) (same : a.state.brief = b.state.brief)
    (here : j.stage = .running { l with run := since t₁ r }) (there : k.stage = .running { l with run := since t₂ r })
    (turn : Turn count j.batch k.batch l.mode) (hears : Hears a.mailbox j.receiver b.mailbox k.receiver)
    (under : a.Under l.mode b) : Steps since t₁ t₂ n₁ n₂ id₁ id₂ count h₁ h₂ a j b k := by
  have first := timeless.poll t₁ r x { paused := l.paused }
  have second := timeless.poll t₂ r x { paused := l.paused }
  rcases answer : E.poll r x { paused := l.paused } with ⟨lines, polled⟩
  rw [← alike.here, answer] at first
  rw [← alike.there, answer] at second
  have heard := under_heard under lines
  unfold Steps
  simp only [Job.step, here, there]
  unfold Job.race
  rw [first, second]
  cases polled with
  | ended result =>
    have both (sc₁ sc₂ : Scene E) (brief : sc₁.slot.state.brief = sc₂.slot.state.brief)
        (under : sc₁.slot.Under l.mode sc₂.slot) := Job.finish_past h₁ h₂ turn.single brief under result
    obtain ⟨answer, past⟩ := both ((Scene.heard { slot := a, asked := n₁ } lines).add (.engine .release))
      ((Scene.heard { slot := b, asked := n₂ } lines).add (.engine .release)) same heard
    refine ⟨conclude_goes turn answer ?_ past, .none⟩
    simpa using hears
  | pending later wake =>
    simp only [Polled.since]
    split
    · obtain ⟨m₁, m₂, received, took, took', hears⟩ := hear_alike (Scene.heard { slot := a, asked := n₁ } lines)
        (Scene.heard { slot := b, asked := n₂ } lines) hears wake
      unfold Scene.heard at took took'
      rw [took, took']
      have under : Slot.Under l.mode { a with state := a.state.onOutput (·.appendLines lines), mailbox := m₁ }
          { b with state := b.state.onOutput (·.appendLines lines), mailbox := m₂ } := heard.kept rfl rfl rfl rfl
      cases received with
      | signal s =>
        cases s with
        | interrupt => exact ⟨stopped_goes turn same hears under, .none⟩
        | pause =>
          exact ⟨.on (.attentive turn hears (.running (l := { l with paused := true }) (r := later) under)), .none⟩
      | pending => exact ⟨.on (.attentive turn hears (.running (l := l) (r := later) under)), some wake, rfl, rfl⟩
      | disarmed =>
        exact ⟨.on (.attentive turn hears (.running (l := { l with listening := false }) (r := later) under)), .none⟩
    · exact ⟨.on (.attentive turn hears (.running (l := l) (r := later) heard)), some wake, rfl, rfl⟩

/-- After a run the next may begin. -/
theorem under_next {mode : Mode} (past : a.Past mode b) {next : Nat}
    (first : ∀ i, next = i + 1 → mode = .testcaseRun i) : a.Under (.testcaseRun next) b where
  context := past.context
  output := past.output
  highlighted := fun _ => past.highlighted
  suspended := fun _ => past.suspended
  decided := by
    rintro _ ⟨⟩
    cases next with
    | zero => rfl
    | succ i => exact past.decided i (first i rfl)

/-- A batch ends alike, and if it was not aborted all testcases have come out alike. -/
theorem endBatch_goes {batch : Batch} {o : Outcome} {aborted : Bool} (after : batch.after = some o)
    (counted : batch.total = a.state.testcases.length) (same : a.state.brief = b.state.brief)
    (past : a.Past (.testcaseRun batch.index) b) (last : aborted = false → batch.total ≤ batch.index + 1) :
    Goes since t₁ t₂ id₁ id₂ count (Job.endBatch h₁ { slot := a, asked := n₁ } j batch aborted)
      (Job.endBatch h₂ { slot := b, asked := n₂ } k batch aborted) := by
  have reply : ∀ (h : House) (sc : Scene E) (job : Job E),
      (Job.endBatch h sc job batch aborted).job.stage = .leaving (.outcome o) := by
    intro h sc job
    simp only [Job.endBatch, Job.at_, after]
  refine .ended ⟨.inl ⟨reply .., reply ..⟩, ?_⟩ fun completes => ?_ <;>
    rw [Job.endBatch_slot, Job.endBatch_slot]
  · exact past.overall
  · have all := last (Job.endBatch_completes rfl completes)
    have decided := past.decided _ rfl
    have length := WorkspaceState.length_of_brief same
    rwa [List.take_of_length_le (by omega), List.take_of_length_le (by omega)] at decided

/-- A run that is answered at once. -/
theorem answer_goes {mode : Mode} {reply : Reply} {sc₁ sc₂ : Scene E} (past : sc₁.slot.Past mode sc₂.slot)
    (fresh : sc₁.told = []) :
    Goes since t₁ t₂ id₁ id₂ count { scene := sc₁, job := j.at_ (.leaving reply) }
      { scene := sc₂, job := k.at_ (.leaving reply) } :=
  .ended ⟨.inl ⟨rfl, rfl⟩, past.overall⟩
    fun completes => absurd completes (Scene.silent fresh)

/-- The testcases follow a run that has come to a value. -/
theorem beginBatch_goes {o : Outcome} (same : a.state.brief = b.state.brief)
    (counted : count = a.state.testcases.length) (hears : Hears a.mailbox j.receiver b.mailbox k.receiver)
    (past : a.Past .editorRun b) :
    Goes since t₁ t₂ id₁ id₂ count
        (Job.beginBatch h₁ (Job.refusePause { slot := a, asked := n₁ } j) j (some o))
        (Job.beginBatch h₂ (Job.refusePause { slot := b, asked := n₂ } k) k (some o)) ∧
      WaitsAlike t₁ t₂ (Job.beginBatch h₁ (Job.refusePause { slot := a, asked := n₁ } j) j (some o)).wake
        (Job.beginBatch h₂ (Job.refusePause { slot := b, asked := n₂ } k) k (some o)).wake := by
  obtain ⟨m, n, mine, theirs, alike⟩ := hears
  have length := WorkspaceState.length_of_brief same
  simp only [Job.refusePause, mine, theirs, Job.beginBatch, Scene.withMailbox_slot, ← length]
  split
  · exact ⟨answer_goes (past.kept rfl rfl rfl rfl) rfl, .none⟩
  · next some_left =>
    have under : a.Under (.testcaseRun 0) b := under_next past fun i no => absurd no (Nat.succ_ne_zero i).symm
    have turn : Turn count (some { total := a.state.testcases.length, after := some o })
        (some { total := a.state.testcases.length, after := some o }) (.testcaseRun 0) :=
      .testcase rfl rfl rfl (Nat.pos_of_ne_zero some_left) counted.symm
    exact ⟨.on (.attentive turn ⟨m, n, rfl, rfl, alike.acceptPause false⟩
      (.preparing fun _ => under.kept rfl rfl rfl rfl)), .none⟩

theorem concluded_goes {mode : Mode} {o : Outcome} (same : a.state.brief = b.state.brief)
    (graded : a.id.isGraded = b.id.isGraded) (counted : count = a.state.testcases.length)
    (here : j.stage = .concluded mode o) (there : k.stage = .concluded mode o)
    (turn : Turn count j.batch k.batch mode) (hears : Hears a.mailbox j.receiver b.mailbox k.receiver)
    (past : a.Past mode b) : Steps since t₁ t₂ n₁ n₂ id₁ id₂ count h₁ h₂ a j b k := by
  unfold Steps
  simp only [Job.step, here, there]
  unfold Job.follow
  cases turn with
  | editor alone alone' =>
    have tab : a.state.activeTab = b.state.activeTab := congrArg (·.activeTab) same
    have both : Job.graded a = Job.graded b := by rw [Job.graded, Job.graded, graded, tab]
    simp only [alone, alone', both]
    cases o with
    | finished value =>
      dsimp only
      split
      · exact beginBatch_goes same counted hears past
      · exact ⟨answer_goes past rfl, .none⟩
    | _ => exact ⟨answer_goes past rfl, .none⟩
  | @testcase batch o' under₁ under₂ after within all =>
    simp only [under₁, under₂]
    have counted' := all.trans counted
    cases o with
    | interrupted => exact ⟨endBatch_goes after counted' same past (by simp), .none⟩
    | _ =>
      dsimp only
      split
      · next more =>
        refine ⟨.on (.attentive (.testcase rfl rfl after more all) hears (.preparing fun _ => ?_)), .none⟩
        exact under_next past fun i next => by rw [Nat.succ.inj next]
      · next last => exact ⟨endBatch_goes after counted' same past fun _ => Nat.not_lt.1 last, .none⟩

/-- Two runs that are under way take their steps alike. -/
theorem step (timeless : E.Timeless since) (alike : House.Alike t₁ t₂ x n₁ n₂ h₁ h₂)
    (same : a.state.brief = b.state.brief) (graded : a.id.isGraded = b.id.isGraded)
    (counted : count = a.state.testcases.length) (own : j.operation = .evaluate .editorRun)
    (other : k.operation = .evaluate .editorRun) (way : Underway since t₁ t₂ id₁ id₂ count a j b k) :
    Steps since t₁ t₂ n₁ n₂ id₁ id₂ count h₁ h₂ a j b k := by
  cases way with
  | entering here there early unheard turn => exact entering_goes here there early unheard turn own other
  | attentive turn hears stand =>
    generalize here : j.stage = first at stand
    generalize there : k.stage = second at stand
    cases stand with
    | preparing under => exact preparing_goes alike same counted here there turn hears under
    | loading kind under => exact loading_goes alike same here there kind turn hears under
    | launching under => exact launching_goes alike same here there turn hears under
    | starting under => exact starting_goes timeless same here there turn hears under
    | running under => exact running_goes timeless alike same here there turn hears under
    | concluded past => exact concluded_goes same graded counted here there turn hears past

/-- Who is under way is neither leaving nor settled. -/
theorem working (way : Underway since t₁ t₂ id₁ id₂ count a j b k) (reply : Reply) :
    j.stage ≠ .leaving reply ∧ j.stage ≠ .settled reply ∧ k.stage ≠ .settled reply := by
  cases way with
  | entering here there early =>
    rw [here, there]
    rcases early with ⟨rfl, -⟩ | ⟨rfl | rfl, -⟩ <;> simp
  | attentive turn hears stand =>
    generalize j.stage = first at stand ⊢
    generalize k.stage = second at stand ⊢
    cases stand <;> simp

/-- A signal is heard by both or by neither. -/
theorem fire (way : Underway since t₁ t₂ id₁ id₂ count a j b k) (s : Signal) :
    Underway since t₁ t₂ id₁ id₂ count { a with mailbox := (a.mailbox.fire s).1 } j
      { b with mailbox := (b.mailbox.fire s).1 } k := by
  cases way with
  | entering here there early unheard turn =>
    rw [Mailbox.fire_refused (by simp [unheard]), Mailbox.fire_refused (by simp [unheard])]
    exact .entering here there early unheard turn
  | attentive turn hears stand =>
    obtain ⟨m, n, mine, theirs, alike⟩ := hears
    exact .attentive turn ⟨m, n, mine, theirs, alike.fire s⟩ (stand.kept rfl rfl rfl rfl)

end Underway

/-! ## From the call to the answer, and after it -/

/-- Runs that are over are answered, and tell nothing more. -/
theorem Over.step {t₁ t₂ : Nat} {reply : Reply} {a b : Slot E} {j k : Job E} (ending : Over reply a j b k)
    (h₁ h₂ : House) (n₁ n₂ : Nat) (id₁ id₂ : JobId) :
    let first := Job.step h₁ id₁ { slot := a, asked := n₁ } j
    let second := Job.step h₂ id₂ { slot := b, asked := n₂ } k
    Over reply first.scene.slot first.job second.scene.slot second.job ∧ ¬ first.scene.Completes ∧
      first.scene.slot.state = a.state ∧ second.scene.slot.state = b.state ∧
      WaitsAlike t₁ t₂ first.wake second.wake := by
  obtain ⟨⟨here, there⟩ | ⟨here, there⟩, past⟩ := ending
  · simp only [Job.step, here, there, Job.leave_slot]
    exact ⟨⟨.inr ⟨rfl, rfl⟩, past.kept rfl rfl rfl rfl⟩, Scene.silent (by simp [Scene.told]), trivial, trivial, .none⟩
  · simp only [Job.step, here, there]
    exact ⟨⟨.inr ⟨here, there⟩, past⟩, Scene.silent rfl, trivial, trivial, some .never, rfl, rfl⟩

/-- Two jobs that run the editor's program in accord: they are under way, or over. Whether it has been told that the
testcases have all come out is carried along. -/
structure Accord (since : Nat → E.Run → E.Run) (t₁ t₂ : Nat) (id₁ id₂ : JobId) (told : Prop) (a : Slot E) (j : Job E)
    (b : Slot E) (k : Job E) : Prop where
  same : a.state.brief = b.state.brief
  graded : a.id.isGraded = b.id.isGraded
  own : j.operation = .evaluate .editorRun
  other : k.operation = .evaluate .editorRun
  phase : ¬ told ∧ Underway since t₁ t₂ id₁ id₂ a.state.testcases.length a j b k ∨
    ∃ reply, Over reply a j b k ∧ (told → a.state.testcases = b.state.testcases)

namespace Accord

variable {since : Nat → E.Run → E.Run} {t₁ t₂ x n₁ n₂ : Nat} {id₁ id₂ : JobId} {told : Prop} {h₁ h₂ : House}
  {a b : Slot E} {j k : Job E}

theorem fire (accord : Accord since t₁ t₂ id₁ id₂ told a j b k) (s : Signal) :
    Accord since t₁ t₂ id₁ id₂ told { a with mailbox := (a.mailbox.fire s).1 } j
      { b with mailbox := (b.mailbox.fire s).1 } k where
  same := accord.same
  graded := accord.graded
  own := accord.own
  other := accord.other
  phase := accord.phase.imp (.imp_right (·.fire s)) fun ⟨reply, ending, all⟩ =>
    ⟨reply, ⟨ending.stages, ending.past.kept rfl rfl rfl rfl⟩, all⟩

/-- The steps of jobs in accord. -/
theorem step (timeless : E.Timeless since) (alike : House.Alike t₁ t₂ x n₁ n₂ h₁ h₂)
    (accord : Accord since t₁ t₂ id₁ id₂ told a j b k) :
    let first := Job.step h₁ id₁ { slot := a, asked := n₁ } j
    let second := Job.step h₂ id₂ { slot := b, asked := n₂ } k
    Accord since t₁ t₂ id₁ id₂ (told ∨ first.scene.Completes) first.scene.slot first.job second.scene.slot
        second.job ∧
      WaitsAlike t₁ t₂ first.wake second.wake := by
  intro first second
  obtain ⟨same, graded, own, other, phase⟩ := accord
  have rule : Job.Rule h₁ id₁ { slot := a, asked := n₁ } j first := Job.step_rule ..
  have rule' : Job.Rule h₂ id₂ { slot := b, asked := n₂ } k second := Job.step_rule ..
  have brief := rule.brief own
  have same' : first.scene.slot.state.brief = second.scene.slot.state.brief :=
    brief.trans (same.trans (rule'.brief other).symm)
  have graded' : first.scene.slot.id.isGraded = second.scene.slot.id.isGraded := by
    rw [rule.id_eq, rule'.id_eq]
    exact graded
  have accord phase := (⟨same', graded', rule.operation_eq.trans own, rule'.operation_eq.trans other, phase⟩ :
    Accord since t₁ t₂ id₁ id₂ (told ∨ first.scene.Completes) _ _ _ _)
  rcases phase with ⟨untold, way⟩ | ⟨reply, ending, all⟩
  · obtain ⟨goes, waits⟩ := way.step timeless alike same graded rfl own other
    refine ⟨accord ?_, waits⟩
    cases goes with
    | on way =>
      rw [← WorkspaceState.length_of_brief brief] at way
      refine .inl ⟨?_, way⟩
      rintro (told | completes)
      · exact untold told
      · obtain ⟨reply, leaves⟩ := rule.leaving_of_completes rfl completes
        exact (way.working reply).1 leaves
    | ended ending all => exact .inr ⟨_, ending, fun told => all (told.resolve_left untold)⟩
  · obtain ⟨ending, silent, here, there, waits⟩ := ending.step h₁ h₂ n₁ n₂ id₁ id₂
    refine ⟨accord (.inr ⟨reply, ending, fun told => ?_⟩), waits⟩
    rw [here, there]
    exact all (told.resolve_right silent)

/-- Neither job is answered, or both are, and alike. -/
theorem reply?_eq (accord : Accord since t₁ t₂ id₁ id₂ told a j b k) : j.reply? = k.reply? := by
  rcases accord.phase with ⟨-, way⟩ | ⟨reply, ⟨⟨here, there⟩ | ⟨here, there⟩, -⟩, -⟩
  · rw [Job.reply?_eq_none fun r => (way.working r).2.1, Job.reply?_eq_none fun r => (way.working r).2.2]
  · simp only [Job.reply?, here, there]
  · simp only [Job.reply?, here, there]

/-- An answered job has left the same as the other. -/
theorem answered (accord : Accord since t₁ t₂ id₁ id₂ told a j b k) (answered : j.reply? ≠ none) :
    a.Past .editorRun b ∧ (told → a.state.testcases = b.state.testcases) := by
  rcases accord.phase with ⟨-, way⟩ | ⟨reply, ending, all⟩
  · exact absurd (Job.reply?_eq_none fun r => (way.working r).2.1) answered
  · exact ⟨ending.past, all⟩

end Accord

/-! ## Two courses of moves -/

/-- A job that is handed in at a workspace, at a moment from which its times are counted. -/
structure Submission where
  workspace : WorkspaceId
  id : JobId
  moment : Nat

/-- The editor's program is to be run. -/
def Submission.run (p : Submission) : Move := .submit p.id p.workspace (.evaluate .editorRun)

namespace Hub

/-- Two courses of moves that do the same to two jobs: the same signals are fired in their workspaces and each takes
its steps at the same times, counted from its own moment. Seen from there the loaders answer alike. What is about other
workspaces may come in between. -/
inductive Abreast (p q : Submission) : Hub E → Hub E → List Move → List Move → Prop
  | done {hub₁ hub₂ : Hub E} : Abreast p q hub₁ hub₂ [] []
  | first {hub₁ hub₂ : Hub E} {m : Move} {moves₁ moves₂ : List Move} (elsewhere : hub₁.about? m ≠ some p.workspace)
    (rest : Abreast p q (hub₁.move m) hub₂ moves₁ moves₂) : Abreast p q hub₁ hub₂ (m :: moves₁) moves₂
  | second {hub₁ hub₂ : Hub E} {m : Move} {moves₁ moves₂ : List Move} (elsewhere : hub₂.about? m ≠ some q.workspace)
    (rest : Abreast p q hub₁ (hub₂.move m) moves₁ moves₂) : Abreast p q hub₁ hub₂ moves₁ (m :: moves₂)
  | signal {hub₁ hub₂ : Hub E} {moves₁ moves₂ : List Move} (s : Signal)
    (rest : Abreast p q (hub₁.move (.signal p.workspace s)) (hub₂.move (.signal q.workspace s)) moves₁ moves₂) :
    Abreast p q hub₁ hub₂ (.signal p.workspace s :: moves₁) (.signal q.workspace s :: moves₂)
  | step {hub₁ hub₂ : Hub E} {moves₁ moves₂ : List Move} (x : Nat)
    (loaders : hub₁.loader.Alike hub₂.loader p.moment q.moment hub₁.asked hub₂.asked)
    (rest : Abreast p q (hub₁.move (.step p.id (p.moment + x))) (hub₂.move (.step q.id (q.moment + x))) moves₁ moves₂) :
    Abreast p q hub₁ hub₂ (.step p.id (p.moment + x) :: moves₁) (.step q.id (q.moment + x) :: moves₂)

/-- In a course of moves it is told that a batch in a workspace has ended, and was not aborted. -/
def Completes (hub : Hub E) (w : WorkspaceId) (moves : List Move) : Prop :=
  ∃ summary, ⟨w, .batchFinished summary⟩ ∈ hub.events moves ∧ summary.aborted = false

variable {p q : Submission} {hub hub₁ hub₂ : Hub E} {w : WorkspaceId} {m : Move} {moves moves₁ moves₂ : List Move}

theorem Completes.cons (completes : hub.Completes w (m :: moves)) :
    (∃ summary, .event ⟨w, .batchFinished summary⟩ ∈ (hub.respond m).2 ∧ summary.aborted = false) ∨
      (hub.move m).Completes w moves := by
  obtain ⟨summary, told, unaborted⟩ := completes
  rcases List.mem_append.1 told with now | later
  · exact .inl ⟨summary, mem_of_event now, unaborted⟩
  · exact .inr ⟨summary, later, unaborted⟩

/-- What is about another workspace tells nothing of this one. -/
theorem Completes.elsewhere (sound : hub.Sound) (elsewhere : hub.about? m ≠ some w)
    (completes : hub.Completes w (m :: moves)) : (hub.move m).Completes w moves := by
  rcases completes.cons with ⟨summary, told, -⟩ | later
  · cases about : hub.about? m with
    | none =>
      rw [(about?_none about).2] at told
      cases told
    | some v =>
      have named := respond_names sound about _ told _ rfl
      exact absurd (about.trans (congrArg some named.symm)) elsewhere
  · exact later

/-- Two jobs in accord, each in its hub. -/
inductive Together (since : Nat → E.Run → E.Run) (p q : Submission) (told : Prop) (hub₁ hub₂ : Hub E) : Prop
  | intro {s₁ s₂ : Site E} {j k : Job E} (here : hub₁.site? p.workspace = some s₁)
    (there : hub₂.site? q.workspace = some s₂) (mine : s₁.job? p.id = some j) (theirs : s₂.job? q.id = some k)
    (settings : hub₁.settings = hub₂.settings)
    (accord : Accord since p.moment q.moment p.id q.id told s₁.slot j s₂.slot k)

variable {since : Nat → E.Run → E.Run} {told : Prop}

theorem house_alike {t₁ t₂ : Nat} (settings : hub₁.settings = hub₂.settings)
    (loaders : hub₁.loader.Alike hub₂.loader t₁ t₂ hub₁.asked hub₂.asked) (x : Nat) :
    House.Alike t₁ t₂ x hub₁.asked hub₂.asked (hub₁.house (t₁ + x)) (hub₂.house (t₂ + x)) :=
  ⟨settings, rfl, rfl, loaders⟩

theorem Abreast.together (timeless : E.Timeless since) (abreast : Abreast p q hub₁ hub₂ moves₁ moves₂)
    (reached₁ : hub₁.Reachable) (reached₂ : hub₂.Reachable) (together : Together since p q told hub₁ hub₂) :
    ∃ told' : Prop, Together since p q told' (hub₁.after moves₁) (hub₂.after moves₂) ∧
      (told ∨ hub₁.Completes p.workspace moves₁ → told') := by
  induction abreast generalizing told with
  | done => exact ⟨told, together, fun completes => completes.resolve_right (by rintro ⟨_, told, -⟩; cases told)⟩
  | @first hub₁ hub₂ m moves₁ moves₂ elsewhere rest ih =>
    obtain ⟨here, there, mine, theirs, settings, accord⟩ := together
    have here := (site?_elsewhere reached₁.sound elsewhere).trans here
    obtain ⟨told', together, all⟩ := ih (reached₁.move m) reached₂
      (.intro here there mine theirs ((move_fixed hub₁ m).1.trans settings) accord)
    exact ⟨told', together, fun told => all (told.imp_right (·.elsewhere reached₁.sound elsewhere))⟩
  | @second hub₁ hub₂ m moves₁ moves₂ elsewhere rest ih =>
    obtain ⟨here, there, mine, theirs, settings, accord⟩ := together
    have there := (site?_elsewhere reached₂.sound elsewhere).trans there
    exact ih reached₁ (reached₂.move m)
      (.intro here there mine theirs (settings.trans (move_fixed hub₂ m).1.symm) accord)
  | @signal hub₁ hub₂ moves₁ moves₂ s rest ih =>
    obtain ⟨here, there, mine, theirs, settings, accord⟩ := together
    have here := onSlot_site reached₁.sound (v := p.workspace)
      (f := fun slot => { slot with mailbox := (slot.mailbox.fire s).1 }) (by exact fun _ => rfl) here
    have there := onSlot_site reached₂.sound (v := q.workspace)
      (f := fun slot => { slot with mailbox := (slot.mailbox.fire s).1 }) (by exact fun _ => rfl) there
    rw [if_pos rfl, ← move_signal] at here there
    have settings' := (move_fixed hub₁ (.signal p.workspace s)).1.trans
      (settings.trans (move_fixed hub₂ (.signal q.workspace s)).1.symm)
    obtain ⟨told', together, all⟩ := ih (reached₁.move _) (reached₂.move _)
      (.intro here there mine theirs settings' (accord.fire s))
    refine ⟨told', together, fun told => all (told.imp_right fun completes => ?_)⟩
    rcases completes.cons with ⟨_, told, -⟩ | later
    · cases told
    · exact later
  | @step hub₁ hub₂ moves₁ moves₂ x loaders rest ih =>
    obtain ⟨here, there, mine, theirs, settings, accord⟩ := together
    have alike := house_alike settings loaders x
    obtain ⟨own, seen⟩ := step_own reached₁.sound here mine (p.moment + x)
    obtain ⟨other, -⟩ := step_own reached₂.sound there theirs (q.moment + x)
    obtain ⟨accord, -⟩ := accord.step timeless alike
    have settings' := (move_fixed hub₁ (.step p.id (p.moment + x))).1.trans
      (settings.trans (move_fixed hub₂ (.step q.id (q.moment + x))).1.symm)
    obtain ⟨told', together, all⟩ := ih (reached₁.move _) (reached₂.move _)
      (.intro own other (Site.take_own ..) (Site.take_own ..) settings' accord)
    refine ⟨told', together, fun told => all ?_⟩
    rcases told with told | completes
    · exact .inl (.inl told)
    · rcases completes.cons with ⟨summary, told, unaborted⟩ | later
      · exact .inl (.inr ⟨_, summary, List.mem_filter.2 ⟨seen ▸ told, rfl⟩, unaborted⟩)
      · exact .inr later

/-- Steps of the two jobs at the same times, where the loaders answer alike. -/
theorem Abreast.steps {hub₁ hub₂ : Hub E}
    (alike : ∀ n₁ n₂, hub₁.loader.Alike hub₂.loader p.moment q.moment n₁ n₂) (times : List Nat) :
    Abreast p q hub₁ hub₂ (times.map fun x => .step p.id (p.moment + x))
      (times.map fun x => .step q.id (q.moment + x)) := by
  induction times generalizing hub₁ hub₂ with
  | nil => exact .done
  | cons x times ih =>
    refine .step x (alike _ _) (ih fun n₁ n₂ => ?_)
    rw [(move_fixed hub₁ _).2, (move_fixed hub₂ _).2]
    exact alike n₁ n₂

/-- Nobody is at work in a workspace, and a job can be handed in there. -/
structure Free (hub : Hub E) (p : Submission) (slot : Slot E) : Prop where
  reached : hub.Reachable
  open_ : hub.slot p.workspace = .ok slot
  idle : slot.permit.holder = none
  unused : hub.tasks.contains p.id = false

variable {slot slot₁ slot₂ : Slot E}

theorem Free.site? (free : hub.Free p slot) :
    hub.site? p.workspace = some ⟨slot, hub.jobOn? p.workspace⟩ := site?_eq_some.2 ⟨free.open_, rfl⟩

/-- Where nobody is at work nobody listens. -/
theorem Free.unheard (free : hub.Free p slot) : slot.mailbox.listener = none := by
  cases armed : slot.mailbox.listener with
  | none => rfl
  | some l =>
    have owned := free.reached.owned free.site?
    obtain ⟨id, job, known, receiver⟩ := owned.listener l armed
    cases free.idle.symm.trans (owned.holder known receiver)

theorem Free.handed_in (free : hub.Free p slot) :
    (hub.move p.run).site? p.workspace = some
      { slot := slot
        job? := fun j =>
          if j = p.id then some { operation := .evaluate .editorRun } else hub.jobOn? p.workspace j } :=
  Hub.handed_in free.site? free.unused _

/-- Two jobs that have just been handed in are in accord. -/
theorem Free.together (free₁ : hub₁.Free p slot₁) (free₂ : hub₂.Free q slot₂) (settings : hub₁.settings = hub₂.settings)
    (kind : p.workspace.kind = q.workspace.kind) (same : slot₁.state.brief = slot₂.state.brief) :
    Together since p q False (hub₁.move p.run) (hub₂.move q.run) := by
  refine .intro free₁.handed_in free₂.handed_in (if_pos rfl) (if_pos rfl) ?_ ?_
  · exact (move_fixed hub₁ _).1.trans (settings.trans (move_fixed hub₂ _).1.symm)
  · refine ⟨same, ?_, rfl, rfl, .inl ⟨id, ?_⟩⟩
    · rw [free₁.reached.sound.keyed free₁.open_, free₂.reached.sound.keyed free₂.open_, WorkspaceId.isGraded,
        WorkspaceId.isGraded, kind]
    · exact .entering rfl rfl (.inl ⟨rfl, free₁.idle, free₂.idle⟩) ⟨free₁.unheard, free₂.unheard⟩ (.editor rfl rfl)

/-- What a job waits for after a step at a time, counted from its moment. -/
def wake? (hub : Hub E) (p : Submission) (x : Nat) : Option Wake :=
  (hub.stride? p.workspace p.id (.step p.id (p.moment + x))).bind (·.made.wake)

end Hub

/-- A run of the editor's program does not depend on what was before. In two workspaces of one kind with the same brief,
in which nobody is at work, let it be run, and the same happen to the runs. At any time they are either both answered,
and in the same way, or neither is, and wait for the same. Once they are answered, output, context, highlighted lines
and the suspended run are the same, and if the testcases followed, and were not aborted, so are their results. Where
the loaders answer alike all the time both can be answered. -/
theorem Script.runs_afresh {hub₁ hub₂ : Hub engine} {p q : Submission} {slot₁ slot₂ : Slot engine}
    (free₁ : hub₁.Free p slot₁) (free₂ : hub₂.Free q slot₂) (settings : hub₁.settings = hub₂.settings)
    (kind : p.workspace.kind = q.workspace.kind) (same : slot₁.state.brief = slot₂.state.brief) :
    (∀ moves₁ moves₂, Hub.Abreast p q (hub₁.move p.run) (hub₂.move q.run) moves₁ moves₂ →
      let end₁ := hub₁.after (p.run :: moves₁)
      let end₂ := hub₂.after (q.run :: moves₂)
      ∃ last₁ last₂, end₁.slot p.workspace = .ok last₁ ∧ end₂.slot q.workspace = .ok last₂ ∧
        end₁.reply? p.id = end₂.reply? q.id ∧
        (end₁.reply? p.id ≠ none →
          last₁.state.output = last₂.state.output ∧ last₁.state.context = last₂.state.context ∧
          last₁.state.highlighted = last₂.state.highlighted ∧ last₁.suspended = last₂.suspended ∧
          (hub₁.Completes p.workspace (p.run :: moves₁) → last₁.state.testcases = last₂.state.testcases)) ∧
        ∀ x, end₁.loader.Alike end₂.loader p.moment q.moment end₁.asked end₂.asked →
          WaitsAlike p.moment q.moment (end₁.wake? p x) (end₂.wake? q x)) ∧
    ((∀ n₁ n₂, hub₁.loader.Alike hub₂.loader p.moment q.moment n₁ n₂) →
      ∃ moves₁ moves₂, Hub.Abreast p q (hub₁.move p.run) (hub₂.move q.run) moves₁ moves₂ ∧
        (hub₁.after (p.run :: moves₁)).reply? p.id ≠ none) := by
  constructor
  · intro moves₁ moves₂ abreast end₁ end₂
    obtain ⟨told, together, completes⟩ := abreast.together timeless (free₁.reached.move _) (free₂.reached.move _)
      (free₁.together free₂ settings kind same)
    have later (completes' : hub₁.Completes p.workspace (p.run :: moves₁)) :
        (hub₁.move p.run).Completes p.workspace moves₁ := by
      refine completes'.cons.resolve_left ?_
      rintro ⟨_, ⟨⟩, -⟩
    obtain ⟨here, there, mine, theirs, settings, accord⟩ := together
    obtain ⟨open₁, jobs₁⟩ := Hub.site?_eq_some.1 here
    obtain ⟨open₂, jobs₂⟩ := Hub.site?_eq_some.1 there
    have known₁ : end₁.tasks.get? p.id = _ := Hub.jobOn?_eq_some.1 (jobs₁ ▸ mine)
    have known₂ : end₂.tasks.get? q.id = _ := Hub.jobOn?_eq_some.1 (jobs₂ ▸ theirs)
    rw [Hub.reply?, Hub.reply?, known₁, known₂]
    refine ⟨_, _, open₁, open₂, accord.reply?_eq, fun answered => ?_, fun x loaders => ?_⟩
    · obtain ⟨past, all⟩ := accord.answered answered
      exact ⟨past.output, past.context, past.highlighted, past.suspended,
        fun told => all (completes (.inr (later told)))⟩
    · have waits := (accord.step timeless (Hub.house_alike settings loaders x)).2
      simpa only [Hub.wake?, Hub.stride?, end₁, end₂, Hub.after_cons, here, there, mine, theirs, ↓reduceIte,
        Option.bind_eq_bind, Option.bind_some, Option.pure_def] using waits
  · intro alike
    obtain ⟨times, reply, call, -, ordered⟩ :=
      calls_answered free₁.reached free₁.open_ free₁.idle free₁.unused .editorRun p.moment
    have counted : times.map (.step p.id) =
        (times.map (· - p.moment)).map fun x => Move.step p.id (p.moment + x) := by
      rw [List.map_map]
      refine List.map_congr_left fun time among => ?_
      rw [Function.comp_apply, Nat.add_sub_cancel' (ordered time among)]
    refine ⟨_, _, Hub.Abreast.steps (fun n₁ n₂ => ?_) (times.map (· - p.moment)), ?_⟩
    · rw [(Hub.move_fixed hub₁ _).2, (Hub.move_fixed hub₂ _).2]
      exact alike n₁ n₂
    · rw [← counted, Submission.run, call.answered]
      exact Option.some_ne_none reply

namespace Script

/-! ### A run after others -/

/-- A script and a testcase, which follows it. -/
def graded : Hub engine :=
  (Hub.create { execution := { chapter := 3 } } .bundled).1.after
    [.edit .assessment (.activeTab .autograder), .edit .assessment (.editorValue "display \"a\""),
      .edit .assessment (.testcases [{ program := "display \"b\"" }])]

/-- Another script was there for a while, and was run. -/
def regraded : Hub engine :=
  graded.after ([.edit .assessment (.editorValue "error \"c\""), .submit 0 .assessment (.evaluate .editorRun)] ++
    List.replicate 10 (.step 0 0) ++ [.edit .assessment (.editorValue "display \"a\"")])

/-- The script is handed in at one moment, or at another. -/
def gradedAt (moment : Nat) : Submission := { workspace := .assessment, id := 1, moment := moment }

/-- It takes all its steps at that moment. -/
def gradedSteps (moment : Nat) : List Move := (List.replicate 20 0).map fun x => .step 1 (moment + x)

/-- Whether two briefs are the same, and without globals. -/
def sameBrief (a b : Brief) : Bool :=
  a.editorPrepend = b.editorPrepend && a.editorValue = b.editorValue && a.editorPostpend = b.editorPostpend &&
    a.chapter = b.chapter && a.library = b.library && a.globals.isEmpty && b.globals.isEmpty &&
    a.execTimeMs = b.execTimeMs && a.breakpoints.lines = b.breakpoints.lines && a.activeTab = b.activeTab &&
    a.testcases = b.testcases

theorem eq_of_sameBrief {a b : Brief} (same : sameBrief a b = true) : a = b := by
  obtain ⟨_, _, _, _, _, _, _, ⟨_, _⟩, _, _⟩ := a
  obtain ⟨_, _, _, _, _, _, _, ⟨_, _⟩, _, _⟩ := b
  simp only [sameBrief, Bool.and_eq_true, decide_eq_true_eq, List.isEmpty_iff] at same
  obtain ⟨⟨⟨⟨⟨⟨⟨⟨⟨⟨rfl, rfl⟩, rfl⟩, rfl⟩, rfl⟩, rfl⟩, rfl⟩, rfl⟩, rfl⟩, rfl⟩, rfl⟩ := same
  rfl

/-- The runs of the other script have left faults behind. -/
theorem graded_slots : ∃ slot₁ slot₂, graded.slot .assessment = .ok slot₁ ∧ regraded.slot .assessment = .ok slot₂ ∧
    slot₁.permit.holder = none ∧ slot₂.permit.holder = none ∧ slot₁.state.brief = slot₂.state.brief ∧
    slot₁.state.context.faults = [] ∧ slot₂.state.context.faults ≠ [] := by
  have both : (graded.slot .assessment).toOption.any (fun slot₁ => (regraded.slot .assessment).toOption.any fun slot₂ =>
      slot₁.permit.holder = none && slot₂.permit.holder = none && sameBrief slot₁.state.brief slot₂.state.brief &&
        slot₁.state.context.faults = [] && slot₂.state.context.faults ≠ []) = true := by
    decide +kernel
  cases first : graded.slot .assessment with
  | error r => simp [first, Except.toOption] at both
  | ok slot₁ =>
    cases second : regraded.slot .assessment with
    | error r => simp [first, second, Except.toOption] at both
    | ok slot₂ =>
      simp only [first, second, Except.toOption, Option.any_some, Bool.and_eq_true, decide_eq_true_eq] at both
      obtain ⟨⟨⟨⟨idle₁, idle₂⟩, same⟩, clean⟩, faulty⟩ := both
      exact ⟨slot₁, slot₂, rfl, rfl, idle₁, idle₂, eq_of_sameBrief same, clean, faulty⟩

/-- In the run that follows there is no trace of them. -/
theorem runs_afresh_of_graded :
    ∃ slot₁ slot₂ last₁ last₂,
      graded.Free (gradedAt 0) slot₁ ∧ regraded.Free (gradedAt 7) slot₂ ∧
      slot₁.state.brief = slot₂.state.brief ∧ slot₁.state.context.faults = [] ∧ slot₂.state.context.faults ≠ [] ∧
      (graded.after ((gradedAt 0).run :: gradedSteps 0)).slot .assessment = .ok last₁ ∧
      (regraded.after ((gradedAt 7).run :: gradedSteps 7)).slot .assessment = .ok last₂ ∧
      last₁.state.output = last₂.state.output ∧ last₁.state.context = last₂.state.context ∧
      last₁.state.testcases = last₂.state.testcases := by
  have reached : graded.Reachable := by
    unfold graded
    exact (Hub.Reachable.create { execution := { chapter := 3 } } .bundled).after _
  obtain ⟨slot₁, slot₂, open₁, open₂, idle₁, idle₂, same, clean, faulty⟩ := graded_slots
  have free₁ : graded.Free (gradedAt 0) slot₁ := ⟨reached, open₁, idle₁, by decide +kernel⟩
  have free₂ : regraded.Free (gradedAt 7) slot₂ := ⟨reached.after _, open₂, idle₂, by decide +kernel⟩
  have settings : graded.settings = regraded.settings := (Hub.after_fixed ..).1.symm
  have loader : graded.loader = .bundled := (Hub.after_fixed ..).2
  have loader' : regraded.loader = .bundled := (Hub.after_fixed ..).2.trans loader
  have alike : ∀ n₁ n₂,
      (graded.move (gradedAt 0).run).loader.Alike (regraded.move (gradedAt 7).run).loader 0 7 n₁ n₂ := by
    rw [(Hub.move_fixed ..).2, (Hub.move_fixed ..).2, loader, loader']
    exact fun _ _ _ _ => rfl
  obtain ⟨last₁, last₂, end₁, end₂, -, left, -⟩ :=
    (runs_afresh free₁ free₂ settings rfl same).1 _ _ (Hub.Abreast.steps alike (List.replicate 20 0))
  have answered : ((graded.after ((gradedAt 0).run :: gradedSteps 0)).reply? 1).isSome = true := by decide +kernel
  have completes : graded.Completes .assessment ((gradedAt 0).run :: gradedSteps 0) :=
    ⟨{ total := 1, passed := 1, failed := 0, aborted := false }, by decide +kernel, rfl⟩
  obtain ⟨output, context, -, -, testcases⟩ := left (Option.isSome_iff_ne_none.1 answered)
  exact ⟨slot₁, slot₂, last₁, last₂, free₁, free₂, same, clean, faulty, end₁, end₂, output, context,
    testcases completes⟩

end Script

end Workbench
