/-
Whose a testcase's result is.

A testcase is known by its place. Its program is read when it is reset, and its result is
put on whatever stands at its place when its run has come to its end (`Hub.Records`). The
testcases can be exchanged at any time. So a result belongs to the testcase it stands in
exactly if they were not exchanged in between, or for one with the same program.
-/
import Workbench.Proofs.Run.Attribution
import Workbench.Proofs.Run.Protocol

namespace Workbench

variable {E : Engine}

/-! ## Testcases that are exchanged -/

/-- The testcases that a move sets in a workspace. -/
def Move.exchanged? (w : WorkspaceId) : Move → Option (List Testcase)
  | .edit v (.testcases ts) => if v = w then some ts else none
  | _ => none

/-- The testcases that are set last in a course of moves. -/
def exchanged? (w : WorkspaceId) : List Move → Option (List Testcase)
  | [] => none
  | m :: moves => (exchanged? w moves).or (m.exchanged? w)

section

variable {w : WorkspaceId}

theorem exchanged?_append (first second : List Move) :
    exchanged? w (first ++ second) = (exchanged? w second).or (exchanged? w first) := by
  induction first with
  | nil => simp [exchanged?]
  | cons m moves ih => rw [List.cons_append, exchanged?, ih, exchanged?, Option.or_assoc]

@[simp] theorem exchanged?_singleton (m : Move) : exchanged? w [m] = m.exchanged? w := by simp [exchanged?]

theorem Move.exchanged?_eq_some {m : Move} {ts : List Testcase} (exchanged : m.exchanged? w = some ts) :
    m = .edit w (.testcases ts) := by
  unfold Move.exchanged? at exchanged
  split at exchanged
  · split at exchanged
    · next same =>
      cases exchanged
      rw [same]
    · cases exchanged
  · cases exchanged

/-- After the result of one testcase has been replaced. -/
theorem modify_known {ts : List Testcase} {k i : Nat} {v : Verdict} {t : Testcase}
    (known : (ts.modify k ({ · with result := v }))[i]? = some t) :
    ∃ stood, ts[i]? = some stood ∧ (k ≠ i ∧ t = stood ∨ k = i ∧ t = { stood with result := v }) := by
  rw [List.getElem?_modify] at known
  obtain ⟨stood, there, rfl⟩ := Option.map_eq_some_iff.1 known
  refine ⟨stood, there, ?_⟩
  by_cases own : k = i
  · exact .inr ⟨own, if_pos own⟩
  · exact .inl ⟨own, if_neg own⟩

end

/-! ## What a step does to the testcases -/

namespace Job

variable {h : House} {id : JobId} {sc : Scene E} {job : Job E} {a : Advance E}

/-- A testcase's run is begun by a reset, and goes on. -/
theorem Rule.handles {i : Nat} (rule : Rule h id sc job a) (handles : a.job.stage.Handles i) :
    job.stage.Handles i ∨ ∃ own, Resets h sc job a i own := by
  cases rule with
  | testcase stage known =>
    obtain ⟨_, same⟩ := handles
    cases same
    exact .inr ⟨_, stage, known, rfl⟩
  | @loaded purpose wait next stage waited =>
    cases purpose with
    | testcaseRun index program =>
      cases (handles : Mode.testcaseRun index = _)
      exact .inl (by rw [stage]; exact ⟨_, rfl⟩)
    | editorRun | selection => cases handles
  | launched stage =>
    rw [launch_job] at handles
    exact .inl (by rw [stage]; exact handles)
  | loading stage | pausedEarly stage | started stage | paused stage | unheard stage | running stage =>
    exact .inl (by rw [stage]; exact handles)
  | waiting | settled => exact .inl handles
  | repl => cases (handles : Mode.replRun = Mode.testcaseRun i)
  | _ => simp_all [Stage.Handles, at_, enqueue, load, endBatch, conclude, leave]

/-- Only a testcase's run that is under way comes to its end. -/
theorem Rule.handled {i : Nat} {o : Outcome} (rule : Rule h id sc job a)
    (ended : a.job.stage.ended? = some (.testcaseRun i, o)) : job.stage.Handles i := by
  cases rule with
  | ended stage | stopped stage | stoppedEarly stage =>
    rw [stage]
    simp only [conclude, at_, Stage.ended?, Option.some.injEq, Prod.mk.injEq] at ended
    exact ended.1
  | waiting stage | settled stage => simp [stage, Stage.ended?] at ended
  | @loaded purpose => cases purpose <;> cases ended
  | _ => cases ended

end Job

/-- Whether a testcase waits for the libraries, with the program it had when it was reset. -/
def Stage.Awaits (i : Nat) (program : String) (stage : Stage E) : Prop :=
  ∃ wait, stage = .loading (.testcaseRun i program) wait

/-- Whether the run of a testcase is composed. -/
def Stage.Carries (i : Nat) (stage : Stage E) : Prop := stage.Handles i ∧ stage.isLoading = false

/-- Whether a run is composed, and not launched yet. -/
def Stage.isLaunching : Stage E → Bool
  | .launching .. => true
  | _ => false

/-- A step that composes a testcase's run, from this program. -/
def Stride.Composes (s : Stride E) (i : Nat) (program : String) : Prop :=
  ∃ p, s.made.job.stage = .launching (.testcaseRun i) p ∧
    p.origin = .source (Composition.ofState s.slot.state (some program)).text

theorem Stage.Handles.unended {i : Nat} {stage : Stage E} (handles : stage.Handles i) : stage.ended? = none := by
  cases stage with
  | loading | launching | starting | running => rfl
  | _ => cases handles

namespace Job

variable {h : House} {id : JobId} {sc : Scene E} {job : Job E} {a : Advance E} {i : Nat} {program : String}

/-- When the libraries have been waited for the run is composed, from the program that was read. -/
theorem Rule.awaits (rule : Rule h id sc job a) (awaits : job.stage.Awaits i program) :
    a.job.stage.Awaits i program ∨ Stride.Composes ⟨h.now, sc.slot, job, a⟩ i program := by
  obtain ⟨wait, stage⟩ := awaits
  cases rule with
  | @loading purpose _ later _ here =>
    cases stage.symm.trans here
    exact .inl ⟨later, rfl⟩
  | @loaded purpose _ next here waited =>
    cases stage.symm.trans here
    refine .inr ⟨_, rfl, ?_⟩
    rw [← waited.slot]
    rfl
  | waiting other | settled other => cases stage.symm.trans other
  | _ => simp_all

/-- A run that is composed is not composed again, until it has come to its end. -/
theorem Rule.carries (rule : Rule h id sc job a) (carries : job.stage.Carries i) :
    (a.job.stage.Carries i ∧ a.job.stage.isLaunching = false) ∨ ∃ o, a.job.stage.ended? = some (.testcaseRun i, o) := by
  obtain ⟨handles, composed⟩ := carries
  cases rule with
  | launched stage =>
    rw [stage] at handles
    rw [launch_job]
    exact .inl ⟨⟨handles, rfl⟩, rfl⟩
  | pausedEarly stage | started stage | paused stage | unheard stage | running stage =>
    rw [stage] at handles
    exact .inl ⟨⟨handles, rfl⟩, rfl⟩
  | @ended l lines result stage =>
    rw [stage] at handles
    exact .inr ⟨_, congrArg (fun mode => some (mode, (finish h _ l result).2)) handles⟩
  | stoppedEarly stage | stopped stage =>
    rw [stage] at handles
    exact .inr ⟨.interrupted, congrArg (fun mode => some (mode, Outcome.interrupted)) handles⟩
  | waiting stage | settled stage =>
    rw [stage] at handles
    cases handles
  | _ => simp_all [Stage.Handles, Stage.isLoading]

end Job

/-! ## Tales -/

/-- The run of a testcase in a course of moves. -/
structure Tale where
  id : JobId
  index : Nat
  /-- the testcase when it is reset -/
  own : Testcase
  /-- the moves before that -/
  early : List Move
  /-- when it is reset -/
  now : Nat
  /-- the moves behind that -/
  mid : List Move

namespace Tale

/-- All moves so far. -/
def moves (t : Tale) : List Move := t.early ++ .step t.id t.now :: t.mid

/-- There is one more move. -/
def goOn (t : Tale) (m : Move) : Tale := { t with mid := t.mid ++ [m] }

@[simp] theorem goOn_moves (t : Tale) (m : Move) : (t.goOn m).moves = t.moves ++ [m] := by simp [moves, goOn]

end Tale

namespace Hub

variable {hub : Hub E} {w : WorkspaceId} {s next : Site E} {first : WorkspaceState} {past : List Move} {m : Move}
  {id : JobId} {job : Job E} {t : Tale}

/-- The steps of the job behind the reset. -/
def trail (hub : Hub E) (w : WorkspaceId) (t : Tale) : List (Stride E) :=
  ((hub.after t.early).move (.step t.id t.now)).strides w t.id t.mid

theorem trail_goOn : hub.trail w (t.goOn m) = hub.trail w t ++ ((hub.after t.moves).stride? w t.id m).toList := by
  have here : hub.after t.moves = ((hub.after t.early).move (.step t.id t.now)).after t.mid := by
    rw [Tale.moves, after_append]
    rfl
  unfold trail Tale.goOn
  rw [strides_append, here]
  simp [strides]

/-- A testcase is reset, and its run has not come to its end. -/
structure Tells (hub : Hub E) (w : WorkspaceId) (t : Tale) : Prop where
  reset : .event ⟨w, .testcaseReset t.index⟩ ∈ ((hub.after t.early).step t.now t.id).2
  known : ∃ before, (hub.after t.early).state w = .ok before ∧ before.testcases[t.index]? = some t.own
  unended : ∀ step ∈ hub.trail w t, step.ended? = none

/-- Its run is composed once, from the program it had when it was reset. -/
def ComposedOf (hub : Hub E) (w : WorkspaceId) (t : Tale) : Prop :=
  ∃ step, (hub.trail w t).filter (·.made.job.stage.isLaunching) = [step] ∧ step.Composes t.index t.own.program

/-- How far a run has come. -/
def Comes (hub : Hub E) (w : WorkspaceId) (t : Tale) (stage : Stage E) : Prop :=
  stage.Awaits t.index t.own.program ∧ (hub.trail w t).filter (·.made.job.stage.isLaunching) = [] ∨
    stage.Carries t.index ∧ hub.ComposedOf w t

/-- The result of a testcase is recorded. -/
structure Records (hub : Hub E) (w : WorkspaceId) (t : Tale) (later : Nat) (o : Outcome) : Prop
    extends hub.Tells w t where
  composed : hub.ComposedOf w t
  ended : ∃ last, (hub.after t.moves).stride? w t.id (.step t.id later) = some last ∧
    last.ended? = some (.testcaseRun t.index, o)

theorem Comes.unended {stage : Stage E} (comes : hub.Comes w t stage) : stage.ended? = none := by
  rcases comes with ⟨⟨wait, rfl⟩, -⟩ | ⟨⟨handles, -⟩, -⟩
  · rfl
  · exact handles.unended

/-- A move that is no step of the job leaves its tale as it is. -/
theorem Tells.still (tells : hub.Tells w t) (still : (hub.after t.moves).stride? w t.id m = none) :
    hub.Tells w (t.goOn m) ∧ hub.trail w (t.goOn m) = hub.trail w t := by
  have same : hub.trail w (t.goOn m) = hub.trail w t := by simp [trail_goOn, still]
  exact ⟨⟨tells.reset, tells.known, same ▸ tells.unended⟩, same⟩

theorem Comes.still {stage : Stage E} (comes : hub.Comes w t stage)
    (same : hub.trail w (t.goOn m) = hub.trail w t) : hub.Comes w (t.goOn m) stage := by
  unfold Comes ComposedOf at *
  rw [same]
  exact comes

/-- A step of the job goes on with its tale, or ends it. -/
theorem Tells.step {step : Stride E} (tells : hub.Tells w t) (comes : hub.Comes w t step.job.stage)
    (took : (hub.after t.moves).stride? w t.id m = some step) :
    (∃ o, step.ended? = some (.testcaseRun t.index, o) ∧ hub.ComposedOf w t) ∨
      hub.Tells w (t.goOn m) ∧ hub.Comes w (t.goOn m) step.made.job.stage := by
  obtain ⟨-, -, -, -, made⟩ := stride?_eq_some took
  obtain ⟨h, id, asked, now, made⟩ := made
  have rule := Job.step_rule h id { slot := step.slot, asked := asked } step.job
  rw [← made] at rule
  have trail : hub.trail w (t.goOn m) = hub.trail w t ++ [step] := by simp [trail_goOn, took]
  have goOn (unended : step.ended? = none) : hub.Tells w (t.goOn m) := by
    refine ⟨tells.reset, tells.known, fun other among => ?_⟩
    rw [trail, List.mem_append, List.mem_singleton] at among
    rcases among with before | rfl
    · exact tells.unended other before
    · exact unended
  rcases comes with ⟨awaits, fresh⟩ | ⟨carries, composed⟩
  · rcases rule.awaits awaits with ⟨wait, stage⟩ | composes
    · refine .inr ⟨goOn ?_, .inl ⟨⟨wait, stage⟩, ?_⟩⟩
      · rw [Stride.ended?, stage]
        rfl
      · rw [trail, List.filter_append, fresh]
        simp [stage, Stage.isLaunching]
    · obtain ⟨p, stage, origin⟩ : step.Composes t.index t.own.program := composes
      refine .inr ⟨goOn ?_, .inr ⟨?_, step, ?_, p, stage, origin⟩⟩
      · rw [Stride.ended?, stage]
        rfl
      · rw [stage]
        exact ⟨rfl, rfl⟩
      · rw [trail, List.filter_append, fresh]
        simp [stage, Stage.isLaunching]
  · rcases rule.carries carries with ⟨carries, launched⟩ | ⟨o, ended⟩
    · refine .inr ⟨goOn ?_, .inr ⟨carries, ?_⟩⟩
      · exact carries.1.unended
      · obtain ⟨composing, one, composes⟩ := composed
        refine ⟨composing, ?_, composes⟩
        rw [trail, List.filter_append, one]
        simp [launched]
    · exact .inl ⟨o, ended, composed⟩

/-! ## Where a result comes from -/

/-- How a testcase has come to the result it has: it was given so, or is reset, or its run was recorded where it stood
and the testcases have not been exchanged since. -/
inductive Accounts (hub : Hub E) (w : WorkspaceId) (first : WorkspaceState) (past : List Move) (i : Nat)
    (t : Testcase) : Prop
  | given (there : ((exchanged? w past).getD first.testcases)[i]? = some t)
  | reset (pending : t.result = .pending)
  | recorded {tale : Tale} {later : Nat} {late : List Move} {o : Outcome} {during : WorkspaceState} {stood : Testcase}
    (split : past = tale.moves ++ .step tale.id later :: late) (index : tale.index = i)
    (records : hub.Records w tale later o) (kept : exchanged? w late = none)
    (opened : (hub.after tale.moves).state w = .ok during) (there : during.testcases[i]? = some stood)
    (made : t = { stood with result := o.verdict })

theorem Accounts.later {i : Nat} {own : Testcase} (accounts : hub.Accounts w first past i own)
    (other : m.exchanged? w = none) : hub.Accounts w first (past ++ [m]) i own := by
  cases accounts with
  | given there =>
    refine .given ?_
    rw [exchanged?_append, exchanged?_singleton, other, Option.none_or]
    exact there
  | reset pending => exact .reset pending
  | @recorded tale later late o during stood split index records kept opened there made =>
    have split : past ++ [m] = tale.moves ++ .step tale.id later :: (late ++ [m]) := by
      rw [split, List.append_assoc, List.cons_append]
    refine .recorded split index records ?_ opened there made
    rw [exchanged?_append, exchanged?_singleton, other, kept]
    rfl

/-- What is known after a course of moves: whose runs are under way, and where the results come from. -/
structure Books (hub : Hub E) (w : WorkspaceId) (first : WorkspaceState) (past : List Move) (s : Site E) : Prop where
  here : (hub.after past).site? w = some s
  jobs : ∀ id job i, s.job? id = some job → job.stage.Handles i →
    ∃ t : Tale, t.moves = past ∧ t.id = id ∧ t.index = i ∧ hub.Tells w t ∧ hub.Comes w t job.stage
  results : ∀ i t, s.slot.state.testcases[i]? = some t → hub.Accounts w first past i t

/-- A job of a workspace is left as it is, or has been handed in, or takes a step. -/
theorem Happens.jobs (happens : hub.Happens w s m next) (known : next.job? id = some job) :
    (s.job? id = some job ∧ hub.stride? w id m = none) ∨ job.stage = .submitted ∨
      ∃ now own a, m = .step id now ∧ s.job? id = some own ∧
        a = Job.step (hub.house now) id { slot := s.slot, asked := hub.asked } own ∧
        hub.stride? w id m = some ⟨now, s.slot, own, a⟩ ∧ job = a.job := by
  cases happens with
  | still still => exact .inl ⟨known, stride?_of_strideAt? still⟩
  | edit | clearOutput | signal => exact .inl ⟨known, rfl⟩
  | submit j operation free =>
    dsimp only at known
    by_cases own : id = j
    · rw [if_pos own] at known
      cases known
      exact .inr (.inl rfl)
    · rw [if_neg own] at known
      exact .inl ⟨known, rfl⟩
  | @step j other a now theirs made took =>
    by_cases own : j = id
    · subst own
      rw [s.take_own] at known
      cases known
      exact .inr (.inr ⟨now, other, a, rfl, theirs, made, took, rfl⟩)
    · rw [s.take_other a (Ne.symm own)] at known
      exact .inl ⟨known, by simp [stride?, own]⟩

/-- A step that resets a testcase begins a tale. -/
theorem tells_of_resets (reached : hub.Reachable) (here : (hub.after past).site? w = some s)
    (known : s.job? id = some job) {now i : Nat} {own : Testcase} {a : Advance E}
    (made : a = Job.step ((hub.after past).house now) id { slot := s.slot, asked := (hub.after past).asked } job)
    (resets : Job.Resets ((hub.after past).house now) { slot := s.slot, asked := (hub.after past).asked } job a i own) :
    hub.Tells w ⟨id, i, own, past, now, []⟩ ∧ hub.Comes w ⟨id, i, own, past, now, []⟩ a.job.stage := by
  have sound := (reached.after past).sound
  refine ⟨⟨?_, ⟨s.slot.state, site?_state here, resets.known⟩, fun _ among => nomatch (among : _ ∈ [])⟩,
    .inl ⟨?_, rfl⟩⟩
  · rw [(step_own sound here known now).2, ← made, resets.made, ← sound.keyed (site?_eq_some.1 here).1]
    exact List.mem_append_right _ (.head _)
  · rw [resets.made]
    exact ⟨_, rfl⟩

/-- Whoever runs a testcase goes on with its tale, or begins one. -/
theorem Books.jobs_move (reached : hub.Reachable) (books : hub.Books w first past s)
    (happens : (hub.after past).Happens w s m next) (known : next.job? id = some job) {i : Nat}
    (handles : job.stage.Handles i) :
    ∃ t : Tale, t.moves = past ++ [m] ∧ t.id = id ∧ t.index = i ∧ hub.Tells w t ∧ hub.Comes w t job.stage := by
  rcases happens.jobs known with ⟨before, still⟩ | stage | ⟨now, own, a, rfl, before, made, took, rfl⟩
  · obtain ⟨t, rfl, rfl, rfl, tells, comes⟩ := books.jobs id job i before handles
    obtain ⟨tells, same⟩ := tells.still still
    exact ⟨t.goOn m, t.goOn_moves m, rfl, rfl, tells, comes.still same⟩
  · rw [stage] at handles
    cases handles
  · have rule := made ▸ Job.step_rule ((hub.after past).house now) id
      { slot := s.slot, asked := (hub.after past).asked } own
    rcases rule.handles handles with ongoing | ⟨testcase, resets⟩
    · obtain ⟨t, rfl, rfl, rfl, tells, comes⟩ := books.jobs id own i before ongoing
      rcases tells.step comes took with ⟨o, ended, -⟩ | ⟨tells, comes⟩
      · cases handles.unended.symm.trans ended
      · exact ⟨t.goOn _, t.goOn_moves _, rfl, rfl, tells, comes⟩
    · obtain ⟨tells, comes⟩ := tells_of_resets reached books.here before made resets
      exact ⟨_, rfl, rfl, rfl, tells, comes⟩

/-- A testcase's run that comes to its end is recorded. -/
theorem Books.records (books : hub.Books w first past s) {now i : Nat} {o : Outcome} {step : Stride E}
    (took : (hub.after past).stride? w id (.step id now) = some step) (known : s.job? id = some step.job)
    (handles : step.job.stage.Handles i) (ended : step.ended? = some (.testcaseRun i, o)) :
    ∃ t : Tale, t.moves = past ∧ t.id = id ∧ t.index = i ∧ hub.Records w t now o := by
  obtain ⟨t, rfl, rfl, rfl, tells, comes⟩ := books.jobs id step.job i known handles
  rcases tells.step comes took with ⟨-, -, composed⟩ | ⟨-, comes⟩
  · exact ⟨t, rfl, rfl, rfl, tells, composed, _, took, ended⟩
  · cases comes.unended.symm.trans ended

/-- Where the results come from after one more move. -/
theorem Books.results_move (books : hub.Books w first past s) (happens : (hub.after past).Happens w s m next)
    (other : m.exchanged? w = none) {i : Nat} {t : Testcase} (known : next.slot.state.testcases[i]? = some t) :
    hub.Accounts w first (past ++ [m]) i t := by
  have kept (same : next.slot.state.testcases = s.slot.state.testcases) : hub.Accounts w first (past ++ [m]) i t :=
    (books.results i t (same ▸ known)).later other
  cases happens with
  | still => exact kept rfl
  | edit e =>
    refine kept (Edit.apply_testcases (fun ts same => ?_) _)
    subst same
    simp [Move.exchanged?] at other
  | clearOutput | signal | submit => exact kept rfl
  | @step id job a now theirs made took =>
    have rule := made ▸ Job.step_rule ((hub.after past).house now) id
      { slot := s.slot, asked := (hub.after past).asked } job
    rw [Site.take_slot] at known
    rcases rule.testcases with same | ⟨k, own, resets⟩ | ⟨k, o, handles, ended, recorded⟩
    · exact kept same
    · rw [resets.made] at known
      obtain ⟨stood, there, ⟨-, rfl⟩ | ⟨-, rfl⟩⟩ := modify_known known
      · exact (books.results i _ there).later other
      · exact .reset rfl
    · rw [recorded] at known
      obtain ⟨stood, there, ⟨-, rfl⟩ | ⟨rfl, rfl⟩⟩ := modify_known known
      · exact (books.results i _ there).later other
      · obtain ⟨tale, rfl, rfl, rfl, records⟩ := books.records took theirs handles ended
        exact .recorded rfl rfl records rfl (site?_state books.here) there rfl

/-- After a move that sets the testcases. -/
theorem Reachable.exchanges (reached : hub.Reachable) (here : hub.site? w = some s) {ts : List Testcase}
    (exchanged : m.exchanged? w = some ts) :
    (hub.move m).site? w = some { s with slot := { s.slot with state := { s.slot.state with testcases := ts } } } := by
  obtain rfl := Move.exchanged?_eq_some exchanged
  have set := onSlot_site reached.sound (v := w)
    (f := fun slot => { slot with state := (Edit.testcases ts).apply slot.state }) (by exact fun _ => rfl) here
  rwa [if_pos rfl, ← move_edit] at set

theorem Books.move (reached : hub.Reachable) (books : hub.Books w first past s) (m : Move) :
    ∃ next, hub.Books w first (past ++ [m]) next := by
  obtain ⟨next, there, happens⟩ := (reached.after past).happens books.here m
  refine ⟨next, (after_concat ..).symm ▸ there, fun id job i known => books.jobs_move reached happens known, ?_⟩
  intro i t known
  cases exchanged : m.exchanged? w with
  | none => exact books.results_move happens exchanged known
  | some ts =>
    cases ((reached.after past).exchanges books.here exchanged).symm.trans there
    refine .given ?_
    rw [exchanged?_append, exchanged?_singleton, exchanged]
    exact known

theorem Books.after (reached : hub.Reachable) (books : hub.Books w first past s) (moves : List Move) :
    ∃ last, hub.Books w first (past ++ moves) last := by
  induction moves generalizing past s with
  | nil => exact ⟨s, (List.append_nil past).symm ▸ books⟩
  | cons m moves ih =>
    obtain ⟨next, later⟩ := books.move reached m
    obtain ⟨last, books⟩ := ih later
    exact ⟨last, by rwa [List.append_assoc] at books⟩

/-- Where no job works the testcases are as they were given. -/
theorem Idle.books (idle : hub.Idle w) (opened : hub.state w = .ok first) : ∃ s, hub.Books w first [] s := by
  obtain ⟨s, here, rfl⟩ := site?_of_state opened
  refine ⟨s, here, fun id job i known handles => ?_, fun i t known => .given known⟩
  exact absurd handles.owning (idle id job ((site?_eq_some.1 here).2 ▸ known))

theorem Happens.programs (happens : hub.Happens w s m next) (other : m.exchanged? w = none) :
    next.slot.state.testcases.map (·.program) = s.slot.state.testcases.map (·.program) := by
  cases happens with
  | still | clearOutput | signal | submit => rfl
  | edit e =>
    refine congrArg _ (Edit.apply_testcases (fun ts same => ?_) _)
    subst same
    simp [Move.exchanged?] at other
  | @step id job a now theirs made took =>
    rw [Site.take_slot]
    exact (made ▸ Job.step_rule (hub.house now) id { slot := s.slot, asked := hub.asked } job).programs

/-- The programs are those of the testcases that were set last. -/
theorem Reachable.programs (reached : hub.Reachable) {last : WorkspaceState} (opened : hub.state w = .ok first)
    {moves : List Move} (closed : (hub.after moves).state w = .ok last) :
    last.testcases.map (·.program) = ((exchanged? w moves).getD first.testcases).map (·.program) := by
  induction moves generalizing hub first with
  | nil => cases opened.symm.trans closed; rfl
  | cons m moves ih =>
    obtain ⟨s, here, rfl⟩ := site?_of_state opened
    obtain ⟨next, there, happens⟩ := reached.happens here m
    have rest := ih (reached.move m) (site?_state there) closed
    rw [exchanged?]
    cases later : exchanged? w moves with
    | some ts =>
      rw [later] at rest
      exact rest
    | none =>
      rw [later] at rest
      refine rest.trans ?_
      rw [Option.none_or]
      cases exchanged : m.exchanged? w with
      | none => exact happens.programs exchanged
      | some ts =>
        cases (reached.exchanges here exchanged).symm.trans there
        rfl

/-- What stands at the place of a testcase when its run comes to its end: the testcase itself, or what was set there
meanwhile. -/
theorem Tells.programs (reached : hub.Reachable) (tells : hub.Tells w t) {during : WorkspaceState}
    (opened : (hub.after t.moves).state w = .ok during) :
    (exchanged? w t.mid = none → during.testcases[t.index]?.map (·.program) = some t.own.program) ∧
      ∀ ts, exchanged? w t.mid = some ts →
        during.testcases[t.index]?.map (·.program) = ts[t.index]?.map (·.program) := by
  obtain ⟨before, opened', known⟩ := tells.known
  rw [Tale.moves, after_append] at opened
  have programs := (reached.after t.early).programs opened' opened
  have same : exchanged? w (.step t.id t.now :: t.mid) = exchanged? w t.mid := by
    rw [exchanged?]
    exact Option.or_none
  have place := congrArg (·[t.index]?) programs
  simp only [List.getElem?_map, same] at place
  refine ⟨fun kept => ?_, fun ts set => ?_⟩
  · rw [place, kept, Option.getD_none, known, Option.map_some]
  · rw [place, set, Option.getD_some]

/-- Whose the results of testcases are, in a course of moves that begins where no job works.

When a testcase's run comes to its end it was composed from the program that the testcase had when it was reset; and
its result is put on what stands at its place then, which has that program, or the one that was set there meanwhile.
So a result that is found later was given with its testcase, or comes from a run that was recorded where it stands; and
the testcase has the program of that run, or the one that was set there while the run was under way. -/
theorem Reachable.belonging (reached : hub.Reachable) (idle : hub.Idle w) (opened : hub.state w = .ok first)
    (moves : List Move) :
    (∀ (past late : List Move) (id : JobId) (now i : Nat) (step : Stride E) (o : Outcome),
      moves = past ++ .step id now :: late → (hub.after past).stride? w id (.step id now) = some step →
      step.ended? = some (.testcaseRun i, o) →
      ∃ t : Tale, t.moves = past ∧ t.id = id ∧ t.index = i ∧ hub.Records w t now o ∧
        step.made.scene.slot.state.testcases = step.slot.state.testcases.modify i ({ · with result := o.verdict }) ∧
        (exchanged? w t.mid = none → step.slot.state.testcases[i]?.map (·.program) = some t.own.program) ∧
        ∀ ts, exchanged? w t.mid = some ts →
          step.slot.state.testcases[i]?.map (·.program) = ts[i]?.map (·.program)) ∧
    ∀ (last : WorkspaceState) (i : Nat) (own : Testcase), (hub.after moves).state w = .ok last →
      last.testcases[i]? = some own → own.result ≠ .pending →
      ((exchanged? w moves).getD first.testcases)[i]? = some own ∨
        ∃ (t : Tale) (later : Nat) (late : List Move) (o : Outcome), moves = t.moves ++ .step t.id later :: late ∧
          t.index = i ∧ hub.Records w t later o ∧ exchanged? w late = none ∧ own.result = o.verdict ∧
          (exchanged? w t.mid = none → own.program = t.own.program) ∧
          ∀ ts, exchanged? w t.mid = some ts → ts[i]?.map (·.program) = some own.program := by
  obtain ⟨s, books⟩ := idle.books opened
  constructor
  · intro past late id now i step o split took ended
    obtain ⟨here, books⟩ := books.after reached past
    rw [List.nil_append] at books
    obtain ⟨s', there, slot, known, made⟩ := stride?_eq_some took
    cases books.here.symm.trans there
    have records := made.records ended
    obtain ⟨h, j, asked, time, stepped⟩ := made
    have rule := stepped ▸ Job.step_rule h j { slot := step.slot, asked := asked } step.job
    obtain ⟨t, rfl, rfl, rfl, recorded⟩ := books.records took known (rule.handled ended) ended
    obtain ⟨same, set⟩ := recorded.toTells.programs reached (slot ▸ site?_state books.here)
    exact ⟨t, rfl, rfl, rfl, recorded, records, same, set⟩
  · intro last i own closed known came
    obtain ⟨here, books⟩ := books.after reached moves
    rw [List.nil_append] at books
    cases (site?_state books.here).symm.trans closed
    cases books.results i own known with
    | given there => exact .inl there
    | reset pending => exact absurd pending came
    | @recorded t later late o during stood split index records kept opened there made =>
      subst index made
      obtain ⟨same, set⟩ := records.toTells.programs reached opened
      rw [there] at same set
      exact .inr ⟨t, later, late, o, split, rfl, records, kept, rfl, fun kept => Option.some.inj (same kept),
        fun ts exchanged => (set ts exchanged).symm⟩

end Hub

/-! ### A testcase that is exchanged while it runs -/

/-- A testcase that takes its time. -/
def swapping : Hub Directive.engine :=
  (Hub.create {} .bundled).1.move (.edit .assessment (.testcases [{ program := "sleep 10\nfinish 1" }]))

/-- While it runs another is set in its place. -/
def swapped : Tale where
  id := 0
  index := 0
  own := { program := "sleep 10\nfinish 1" }
  early := .submit 0 .assessment (.evaluate (.testcaseRun 0)) :: List.replicate 3 (.step 0 0)
  now := 0
  mid := List.replicate 5 (.step 0 0) ++ [.edit .assessment (.testcases [{ program := "finish 2" }])]

/-- Then its run comes to its end, and the job is answered. -/
def swappedMoves : List Move := swapped.moves ++ .step 0 10 :: [.step 0 10, .step 0 10]

theorem swapping_reachable : swapping.Reachable := by
  unfold swapping
  exact (Hub.Reachable.create {} .bundled).move _

theorem swapping_idle : swapping.Idle .assessment := fun id job known => of_decide_eq_true
  (Hub.jobs_of_all (fun job => decide (job.stage.place ≠ .owning)) (by decide +kernel) known)

/-- Whether a testcase has this program, expects nothing and has not come out. -/
def Testcase.isFresh (t : Testcase) (program : String) : Bool :=
  t.program = program && t.expected = none && t.result.isPending

theorem Testcase.eq_of_isFresh {t : Testcase} {program : String} (fresh : t.isFresh program = true) :
    t = { program := program } := by
  obtain ⟨_, _, result⟩ := t
  simp only [isFresh, Bool.and_eq_true, decide_eq_true_eq] at fresh
  obtain ⟨⟨rfl, rfl⟩, pending⟩ := fresh
  cases result <;> first | rfl | cases pending

/-- Whether a testcase's run has come to this number. -/
def Verdict.isInt : Verdict → Int → Bool
  | .success (.int m), n => m = n
  | _, _ => false

theorem Verdict.eq_of_isInt {v : Verdict} {n : Int} (came : v.isInt n = true) : v = .success (.int n) := by
  unfold isInt at came
  split at came
  · rw [of_decide_eq_true came]
  · cases came

/-- Whether a step composes a testcase's run from a program. -/
def Stride.composes (s : Stride E) (i : Nat) (program : String) : Bool :=
  match s.made.job.stage with
  | .launching (.testcaseRun k) p =>
    k = i && match p.origin with
      | .source text => text = (Composition.ofState s.slot.state (some program)).text
      | .snapshot _ => false
  | _ => false

theorem Stride.composes_iff {s : Stride E} {i : Nat} {program : String} (composes : s.composes i program = true) :
    s.Composes i program := by
  unfold Stride.composes at composes
  split at composes
  · next k p stage =>
    simp only [Bool.and_eq_true, decide_eq_true_eq] at composes
    obtain ⟨rfl, origin⟩ := composes
    split at origin
    · next text same => exact ⟨p, stage, same.trans (congrArg Origin.source (of_decide_eq_true origin))⟩
    · cases origin
  · cases composes

/-- Whether a testcase's run comes to this number with a step. -/
def Stride.finishes (s : Stride E) (i : Nat) (n : Int) : Bool :=
  match s.ended? with
  | some (.testcaseRun k, .finished (.int m)) => k = i && m = n
  | _ => false

theorem Stride.ended_of_finishes {s : Stride E} {i : Nat} {n : Int} (finishes : s.finishes i n = true) :
    s.ended? = some (.testcaseRun i, .finished (.int n)) := by
  unfold Stride.finishes at finishes
  split at finishes
  · next k m ended =>
    simp only [Bool.and_eq_true, decide_eq_true_eq] at finishes
    obtain ⟨rfl, rfl⟩ := finishes
    exact ended
  · cases finishes

theorem Hub.state_of_any {hub : Hub E} {w : WorkspaceId} {p : WorkspaceState → Bool}
    (any : (hub.state w).toOption.any p = true) : ∃ s, hub.state w = .ok s ∧ p s = true := by
  cases opened : hub.state w with
  | error r => simp [opened, Except.toOption] at any
  | ok s => exact ⟨s, rfl, by simpa [opened, Except.toOption] using any⟩

/-- The run has come to the value of the first program. -/
theorem swapped_records : swapping.Records .assessment swapped 10 (.finished (.int 1)) where
  reset := mem_of_event (by decide +kernel)
  known := by
    have fresh : ((swapping.after swapped.early).state .assessment).toOption.any
        (fun s => s.testcases[0]?.any (·.isFresh "sleep 10\nfinish 1")) = true := by
      decide +kernel
    obtain ⟨before, opened, fresh⟩ := Hub.state_of_any fresh
    obtain ⟨own, known, fresh⟩ := (Option.any_eq_true _ _).1 fresh
    exact ⟨before, opened, known.trans (congrArg some (Testcase.eq_of_isFresh fresh))⟩
  unended := by
    have none : (swapping.trail .assessment swapped).all (·.ended?.isNone) = true := by decide +kernel
    exact fun step among => Option.isNone_iff_eq_none.1 (List.all_eq_true.1 none step among)
  composed := by
    have one : ((swapping.trail .assessment swapped).filter (·.made.job.stage.isLaunching)).length = 1 := by
      decide +kernel
    have composes : ((swapping.trail .assessment swapped).filter (·.made.job.stage.isLaunching)).all
        (·.composes 0 "sleep 10\nfinish 1") = true := by
      decide +kernel
    obtain ⟨step, single⟩ := List.length_eq_one_iff.1 one
    rw [single, List.all_cons, List.all_nil, Bool.and_true] at composes
    exact ⟨step, single, Stride.composes_iff composes⟩
  ended := by
    have finishes : ((swapping.after swapped.moves).stride? .assessment 0 (.step 0 10)).any
        (·.finishes 0 1) = true := by
      decide +kernel
    obtain ⟨last, took, finishes⟩ := (Option.any_eq_true _ _).1 finishes
    exact ⟨last, took, Stride.ended_of_finishes finishes⟩

/-- The other testcase passes with that value, which its own program does not have. -/
theorem swapped_result : ∃ last own, (swapping.after swappedMoves).state .assessment = .ok last ∧
    last.testcases[0]? = some own ∧ own.program = "finish 2" ∧ own.result = .success (.int 1) := by
  have strays : ((swapping.after swappedMoves).state .assessment).toOption.any (fun s => s.testcases[0]?.any fun t =>
      t.program = "finish 2" && t.result.isInt 1) = true := by
    decide +kernel
  obtain ⟨last, closed, strays⟩ := Hub.state_of_any strays
  obtain ⟨own, known, strays⟩ := (Option.any_eq_true _ _).1 strays
  simp only [Bool.and_eq_true, decide_eq_true_eq] at strays
  exact ⟨last, own, closed, known, strays.1, Verdict.eq_of_isInt strays.2⟩

/-- It comes from the run that was recorded there; its program is the one that was set while that was under way. -/
theorem belonging_of_swapping :
    swapping.Reachable ∧ swapping.Idle .assessment ∧
      ∃ (last : WorkspaceState) (own : Testcase) (t : Tale) (later : Nat) (late : List Move) (o : Outcome),
        (swapping.after swappedMoves).state .assessment = .ok last ∧ last.testcases[0]? = some own ∧
        own.program = "finish 2" ∧ own.result = .success (.int 1) ∧
        swappedMoves = t.moves ++ .step t.id later :: late ∧ swapping.Records .assessment t later o ∧
        own.result = o.verdict ∧ (exchanged? .assessment t.mid = none → own.program = t.own.program) ∧
        ∀ ts, exchanged? .assessment t.mid = some ts → ts[0]?.map (·.program) = some own.program := by
  obtain ⟨last, own, closed, known, program, result⟩ := swapped_result
  have opened : (swapping.state .assessment).toOption.any (fun _ => true) = true := by decide +kernel
  obtain ⟨first, opened, -⟩ := Hub.state_of_any opened
  have came : own.result ≠ .pending := by
    rw [result]
    exact Verdict.noConfusion
  refine ⟨swapping_reachable, swapping_idle, last, own, ?_⟩
  rcases (swapping_reachable.belonging swapping_idle opened swappedMoves).2 last 0 own closed known came with
    given | ⟨t, later, late, o, split, -, records, -, worth, same, set⟩
  · -- the one that was set had not come out
    have set : exchanged? .assessment swappedMoves = some [{ program := "finish 2" }] := rfl
    rw [set] at given
    cases given
    exact absurd rfl came
  · exact ⟨t, later, late, o, closed, known, program, result, split, records, worth, same, set⟩

/-- A result does not always belong to the testcase it stands in. -/
theorem swapped_strays :
    ¬ ∀ (hub : Hub Directive.engine) (w : WorkspaceId) (t : Tale) (later : Nat) (late : List Move) (o : Outcome)
        (last : WorkspaceState) (own : Testcase), hub.Reachable → hub.Idle w → hub.Records w t later o →
      exchanged? w late = none → (hub.after (t.moves ++ .step t.id later :: late)).state w = .ok last →
      last.testcases[t.index]? = some own → own.result = o.verdict → own.program = t.own.program := by
  intro claim
  obtain ⟨last, own, closed, known, program, result⟩ := swapped_result
  have same := claim swapping .assessment swapped 10 [.step 0 10, .step 0 10] (.finished (.int 1)) last own
    swapping_reachable swapping_idle swapped_records rfl closed known result
  rw [program] at same
  exact absurd same (by decide)

end Workbench
