/-
Testcases that know nothing of each other.

Each testcase of a batch comes out as it does by itself, whatever was there before it, and
its entry is added to the output behind those of the ones before it (`Script.Marking.step`).
-/
import Workbench.Proofs.Run.Afresh
import Workbench.Proofs.Run.Stretch
import Workbench.Proofs.Run.Trial

namespace Workbench

variable {E : Engine}

namespace Script

/-! ## Batches -/

/-- What a batch has come to when the first of its testcases have been run: their results take the place of the ones
before, and each has added its entry to the output. Unless one was out of time because it was not looked after, it
came out as it does by itself. -/
structure Marked (first : WorkspaceState) (past : Prop) (grades : List Grade) (state : WorkspaceState) : Prop where
  brief : state.brief = first.brief
  testcases : state.testcases = withVerdicts (grades.map Grade.verdict) first.testcases
  entries : state.output.entries = first.output.entries ++ grades.flatMap Grade.entries
  decided : ∀ g ∈ grades, g.verdict.isPending = false
  fair : ∀ (i : Nat) (t : Testcase) (g : Grade), first.testcases[i]? = some t → grades[i]? = some g →
    past ∨ ¬ TimedOut g.outcome → g = grade first.basis t.program

namespace Marked

variable {first state : WorkspaceState} {past earlier : Prop} {grades : List Grade}

theorem nil (first : WorkspaceState) (past : Prop) : Marked first past [] first where
  brief := rfl
  testcases := (withVerdicts_nil _).symm
  entries := (List.append_nil _).symm
  decided := nofun
  fair := nofun

theorem imp (marked : Marked first past grades state) (imp : earlier → past) : Marked first earlier grades state where
  brief := marked.brief
  testcases := marked.testcases
  entries := marked.entries
  decided := marked.decided
  fair := fun i t g known own inTime => marked.fair i t g known own (inTime.imp_left imp)

/-- The testcases that have not been run yet are what they were. -/
theorem ahead (marked : Marked first past grades state) :
    state.testcases[grades.length]? = first.testcases[grades.length]? := by
  rw [marked.testcases]
  exact withVerdicts_getElem?_ge _ _ (Nat.le_of_eq (List.length_map ..))

/-- One more testcase has been run. -/
theorem concat {t : Trial} {own : Testcase} {g : Grade} (marked : Marked first past grades t.start)
    (at_ : t.index = grades.length) (known : first.testcases[grades.length]? = some own)
    (program : t.program = own.program) (imp : earlier → past) (decided : t.Decided earlier state g) :
    Marked first earlier (grades ++ [g]) state where
  brief := decided.brief.trans marked.brief
  testcases := by
    have next := withVerdicts_next (grades.map Grade.verdict) first.testcases g.verdict
    rw [List.length_map, ← marked.testcases, ← at_] at next
    rw [decided.testcases, List.map_append, List.map_singleton, ← next]
    rfl
  entries := by
    rw [decided.entries, marked.entries, List.flatMap_append, List.flatMap_singleton, List.append_assoc]
  decided := by
    intro other among
    rcases List.mem_append.1 among with before | last
    · exact marked.decided other before
    · exact List.mem_singleton.1 last ▸ decided.decided
  fair := by
    intro i u other there out inTime
    rcases Nat.lt_trichotomy i grades.length with before | rfl | beyond
    · rw [List.getElem?_append_left before] at out
      exact marked.fair i u other there out (inTime.imp_left imp)
    · rw [List.getElem?_concat_length] at out
      cases out
      cases known.symm.trans there
      rw [decided.fair inTime, Trial.grade, program, WorkspaceState.basis_of_brief marked.brief]
    · rw [List.getElem?_eq_none (by simp; omega)] at out
      cases out

/-- When all testcases have been run, and in time, each came out as it does by itself. -/
theorem whole (marked : Marked first past grades state) (all : grades.length = first.testcases.length) (timely : past) :
    grades = first.testcases.map fun t => grade first.basis t.program := by
  apply List.ext_getElem?
  intro i
  rw [List.getElem?_map]
  cases known : first.testcases[i]? with
  | none =>
    rw [Option.map_none, List.getElem?_eq_none_iff, all]
    exact List.getElem?_eq_none_iff.1 known
  | some t =>
    have out := List.getElem?_eq_getElem (all ▸ (List.getElem?_eq_some_iff.1 known).1)
    rw [out, marked.fair i t _ known out (.inl timely), Option.map_some]

/-- The results are then what they are by themselves. -/
theorem results (marked : Marked first past grades state) (all : grades.length = first.testcases.length)
    (timely : past) (i : Nat) :
    state.testcases[i]?.map (·.result) =
      first.testcases[i]?.map fun t => (Script.grade first.basis t.program).verdict := by
  rw [marked.testcases, withVerdicts_getElem?, Option.map_map, marked.whole all timely, List.map_map]
  cases known : first.testcases[i]? with
  | none => rfl
  | some t => simp [known]

/-- When all testcases have been run each has passed or failed. -/
theorem summed (marked : Marked first past grades state) (all : grades.length = first.testcases.length) :
    let summary := BatchSummary.ofTestcases state.testcases false
    summary.total = first.testcases.length ∧ summary.pending = 0 ∧ summary.passed + summary.failed = summary.total := by
  have length : state.testcases.length = first.testcases.length := by rw [marked.testcases, withVerdicts_length]
  have decided : state.testcases.countP (!·.result.isPending) = state.testcases.length := by
    rw [length, marked.testcases, withVerdicts_decided _ _ ?_ ?_, List.length_map, all, List.drop_length,
      List.countP_nil]
    · rfl
    · rw [List.forall_mem_map]
      exact marked.decided
    · rw [List.length_map, all]
  have none_pending : state.testcases.countP (·.result.isPending) = 0 :=
    List.countP_eq_zero.2 fun t among => by simpa using List.countP_eq_length.1 decided t among
  refine ⟨(BatchSummary.ofTestcases_total ..).trans length, ?_, ?_⟩
  · rw [BatchSummary.ofTestcases_pending, none_pending]
  · rw [BatchSummary.ofTestcases_decided, BatchSummary.ofTestcases_total, decided]

end Marked

/-- A batch under way: it is about to run its next testcase, runs it, or has run it. -/
inductive Marking (first : WorkspaceState) (past : Prop) (due : Nat → Prop) (state : WorkspaceState)
    (job : Job engine) : Prop
  | next {batch : Batch} {grades : List Grade} (under : job.batch = some batch)
    (total : batch.total = first.testcases.length) (index : batch.index = grades.length)
    (within : batch.index < batch.total) (stage : job.stage = .preparing (.testcaseRun batch.index))
    (marked : Marked first past grades state)
  | runs {batch : Batch} {grades : List Grade} {t : Trial} {own : Testcase} (under : t.batch = some batch)
    (total : batch.total = first.testcases.length) (index : batch.index = grades.length)
    (within : batch.index < batch.total) (at_ : t.index = batch.index)
    (known : first.testcases[batch.index]? = some own) (program : t.program = own.program)
    (marked : Marked first past grades t.start) (way : t.Underway past due state job)
  | ran {batch : Batch} {grades : List Grade} {mode : Mode} {o : Outcome} (under : job.batch = some batch)
    (total : batch.total = first.testcases.length) (index : batch.index + 1 = grades.length)
    (within : batch.index < batch.total) (stage : job.stage = .concluded mode o) (whole : o ≠ .interrupted)
    (marked : Marked first past grades state)

namespace Marking

variable {first state : WorkspaceState} {past : Prop} {due : Nat → Prop} {h : House} {id : JobId} {sc : Scene engine}
  {job : Job engine}

theorem owning (marking : Marking first past due state job) : job.stage.place = .owning := by
  cases marking with
  | next _ _ _ _ stage | ran _ _ _ _ stage => rw [stage]; rfl
  | runs _ _ _ _ _ _ _ _ way => exact way.owning

theorem going (marking : Marking first past due state job) : ¬ job.Over := by
  rintro ⟨reply, past | past⟩ <;> cases marking with
  | next _ _ _ _ stage | ran _ _ _ _ stage => cases stage.symm.trans past
  | runs _ _ _ _ _ _ _ _ way => cases way.stands <;> simp_all

/-- A batch goes on, or has run all its testcases. -/
theorem step (marking : Marking first past due sc.slot.state job) (quiet : Job.Quiet sc job) :
    let a := Job.step h id sc job
    Marking first (past ∧ due h.now) (Stride.due ⟨h.now, sc.slot, job, a⟩) a.scene.slot.state a.job ∨
      ∃ batch grades, a = Job.endBatch h sc job batch false ∧ grades.length = first.testcases.length ∧
        Marked first (past ∧ due h.now) grades sc.slot.state := by
  intro a
  cases marking with
  | @next batch grades under total index within stage marked =>
    have here : sc.slot.state.testcases[batch.index]? = first.testcases[batch.index]? := index ▸ marked.ahead
    have known := List.getElem?_eq_getElem (total ▸ within)
    have way : Trial.Underway _ (past ∧ due h.now) (Stride.due ⟨h.now, sc.slot, job, a⟩) a.scene.slot.state a.job :=
      Trial.begins stage (here.trans known)
    exact .inl (.runs under total index within rfl known rfl (marked.imp And.left) way)
  | @runs batch grades t own under total index within at_ known program marked way =>
    have goes : t.Goes (past ∧ due h.now) (Stride.due ⟨h.now, sc.slot, job, a⟩) a := way.step quiet
    rcases goes with way | ⟨g, stage, batch', decided⟩
    · exact .inl (.runs under total index within at_ known program (marked.imp And.left) way)
    · have more : batch.index + 1 = (grades ++ [g]).length := by rw [index, List.length_append, List.length_singleton]
      refine .inl (.ran (batch'.trans under) total more within stage decided.whole ?_)
      exact marked.concat (at_.trans index) (index ▸ known) program And.left decided
  | @ran batch grades mode o under total index within stage whole marked =>
    have rule := Job.follow_rule h id sc job stage
    have made : a = Job.follow h sc job mode o := by simp only [a, Job.step, stage]
    rw [← made] at rule
    clear_value a
    cases rule with
    | aborted there =>
      cases stage.symm.trans there
      exact absurd rfl whole
    | next there under' _ more =>
      cases under.symm.trans under'
      exact .inl (.next rfl total index more rfl (marked.imp And.left))
    | completed there under' _ last =>
      cases under.symm.trans under'
      refine .inr ⟨_, grades, rfl, ?_, marked.imp And.left⟩
      omega
    | gradedEmpty _ alone | gradedBegun _ alone | answered _ alone => cases alone.symm.trans under
    | _ => simp_all

end Marking

end Script

/-! ## Stretches in which testcases are run -/

namespace Hub

variable {hub : Hub E} {p : Stretch} {before after : WorkspaceState} {w : WorkspaceId} {id : JobId} {now : Nat}

/-- A testcase is run, from the step in which it is reset to the one in which its run comes to its end. -/
structure Tries (hub : Hub E) (p : Stretch) (i : Nat) (before after : WorkspaceState) : Prop
    extends hub.Undergoes p before after where
  reset : .event ⟨p.workspace, .testcaseReset i⟩ ∈ (hub.step p.now p.id).2
  unended : ∀ step ∈ (hub.begun p).strides p.workspace p.id p.moves, step.ended? = none
  ended : ∃ last, (hub.during p).stride? p.workspace p.id (.step p.id p.later) = some last ∧ last.ended?.isSome = true

/-- A batch is run, from the step in which it is said to begin to the one in which it is said to be over. -/
structure Grades (hub : Hub E) (p : Stretch) (summary : BatchSummary) (before after : WorkspaceState) : Prop
    extends hub.Undergoes p before after where
  begins : ∃ total, .event ⟨p.workspace, .batchStarted total⟩ ∈ (hub.step p.now p.id).2
  finishes : .event ⟨p.workspace, .batchFinished summary⟩ ∈ ((hub.during p).step p.later p.id).2

end Hub

namespace Script

variable {hub : Hub engine} {p : Stretch} {before after : WorkspaceState} {w : WorkspaceId} {id : JobId} {now : Nat}

/-- A testcase that is reset is about to be run. -/
theorem reset_begins (reached : hub.Reachable) {i : Nat}
    (told : .event ⟨w, .testcaseReset i⟩ ∈ (hub.step now id).2) :
    ∃ (t : Trial) (own : Testcase) (next : Site engine) (job : Job engine),
      hub.state w = .ok t.start ∧ t.start.testcases[i]? = some own ∧ t.index = i ∧ t.program = own.program ∧
      (hub.move (.step id now)).site? w = some next ∧ next.job? id = some job ∧ job.isRunning = false ∧
      t.Underway True (fun _ => True) next.slot.state job := by
  obtain ⟨s, job, here, known, there, -, speaks⟩ := reached.speaks told
  cases speaks with
  | testcaseReset stage own =>
    refine ⟨⟨s.slot.state, i, _, job.batch⟩, _, _, _, Hub.site?_state here, own, rfl, rfl, there, s.take_own .., ?_,
      Trial.begins stage own⟩
    simp only [Job.step, stage, Job.prepare, own]
    rfl

/-- A batch that is said to begin is under way, and no testcase has been run. -/
theorem batch_begins (reached : hub.Reachable) {total : Nat}
    (told : .event ⟨w, .batchStarted total⟩ ∈ (hub.step now id).2) :
    ∃ (first : WorkspaceState) (next : Site engine) (job : Job engine), hub.state w = .ok first ∧
      (hub.move (.step id now)).site? w = some next ∧ next.job? id = some job ∧ job.isRunning = false ∧
      Marking first True (fun _ => True) next.slot.state job := by
  obtain ⟨s, job, here, known, there, -, speaks⟩ := reached.speaks told
  have orderly := ((reached.move _).attentive there).orderly (s.take_own ..)
  cases speaks with
  | @batchStarted batch under first total stage state =>
    refine ⟨s.slot.state, _, _, Hub.site?_state here, there, s.take_own .., Job.isRunning_of stage (by simp), ?_⟩
    rw [Site.take_slot, state]
    refine .next under total ?_ (orderly.batch batch under).2.1 ?_ (Marked.nil s.slot.state True)
    · exact first
    · rw [first]
      exact stage

/-- A testcase's run is under way for as long as it has not ended. -/
theorem Trial.kept (t : Trial) (id : JobId) : Hub.Kept id t.Underway (fun step => step.ended? = none) where
  owning := Trial.Underway.owning
  step := by
    intro past due h sc job way quiet a unended
    refine (way.step quiet).resolve_right ?_
    rintro ⟨g, stage, -⟩
    rw [Stride.ended?, stage] at unended
    cases unended

/-- What comes of a testcase that is run. -/
theorem tries_decided {i : Nat} (tries : hub.Tries p i before after) :
    ∃ (t : Trial) (own : Testcase) (g : Grade), t.start = before ∧ t.index = i ∧ before.testcases[i]? = some own ∧
      t.program = own.program ∧ t.Decided (hub.Prompt p) after g := by
  obtain ⟨t, own, next, job, opened, here, rfl, program, there, known, -, way⟩ := reset_begins tries.reached tries.reset
  cases opened.symm.trans tries.opened
  obtain ⟨h, sc, job', past, due, time, -, -, way', quiet, took, -, rfl, timely⟩ :=
    tries.last (t.kept p.id) there known way tries.unended
  obtain ⟨last, same, ended⟩ := tries.ended
  cases took.symm.trans same
  have goes : t.Goes (past ∧ due h.now) _ (Job.step h p.id sc job') := way'.step quiet
  rcases goes with goes | ⟨g, -, -, decided⟩
  · rw [Stride.ended?, goes.unended] at ended
    cases ended
  · exact ⟨t, own, g, rfl, rfl, here, program, decided.imp (time ▸ timely)⟩

theorem over_of_endBatch {h : House} {sc : Scene E} {job : Job E} {batch : Batch} {aborted : Bool} :
    (Job.endBatch h sc job batch aborted).job.Over := ⟨_, .inl rfl⟩

/-- A batch is under way for as long as its job is not over. -/
theorem Marking.kept (first : WorkspaceState) (id : JobId) :
    Hub.Kept id (Marking first) (fun step => ¬ step.made.job.Over) where
  owning := Marking.owning
  step := by
    intro past due h sc job marking quiet a going
    refine (marking.step quiet).resolve_right ?_
    rintro ⟨batch, grades, made, -⟩
    refine going ?_
    rw [show a = _ from made]
    exact over_of_endBatch

/-- What comes of a batch that is run. -/
theorem grades_marked {summary : BatchSummary} (run : hub.Grades p summary before after) :
    ∃ grades : List Grade, grades.length = before.testcases.length ∧ Marked before (hub.Prompt p) grades after ∧
      summary = .ofTestcases after.testcases false := by
  obtain ⟨total, begins⟩ := run.begins
  obtain ⟨first, next, job, opened, there, known, -, marking⟩ := batch_begins run.reached begins
  cases opened.symm.trans run.opened
  have reached : (hub.begun p).Reachable := run.reached.move _
  have going : ∀ step ∈ (hub.begun p).strides p.workspace p.id p.moves, ¬ step.made.job.Over := by
    intro step among finished
    obtain ⟨last, job', end_, known', past⟩ := reached.over_of_strides there known among finished
    have seen := (Hub.step_own (reached.after p.moves).sound end_ known' p.later).2
    have finishes := run.finishes
    rw [Hub.during, seen, Job.step_over past] at finishes
    cases finishes
  obtain ⟨h, sc, job', past, due, time, -, fresh, marking', quiet, -, seen, rfl, timely⟩ :=
    run.last (Marking.kept before p.id) there known marking going
  have finishes := run.finishes
  rw [seen] at finishes
  have goes : Marking before (past ∧ due h.now) _ (Job.step h p.id sc job').scene.slot.state
      (Job.step h p.id sc job').job ∨ _ := marking'.step quiet
  rcases goes with goes | ⟨batch, grades, made, length, marked⟩
  · obtain ⟨-, speaks⟩ := (Job.step_rule h p.id sc job').speaks_of_told fresh finishes
    generalize Job.step h p.id sc job' = a at *
    cases speaks with
    | batchFinished ended => exact absurd (ended ▸ over_of_endBatch) goes.going
  · rw [made] at finishes ⊢
    have told : _ ∈ (Job.endBatch h sc job' batch false).scene.told := List.mem_filterMap.2 ⟨_, finishes, rfl⟩
    rw [Job.endBatch_told, Scene.told, fresh, List.filterMap_nil, List.nil_append, List.mem_singleton] at told
    rw [Job.endBatch_slot]
    exact ⟨grades, length, marked.imp (time ▸ timely), Occurrence.batchFinished.inj (congrArg Event.occurrence told)⟩

/-! ## How testcases come to be run -/

theorem ripe_of_still {job : Job engine} (still : job.isRunning = false) : ∃ now, Ripe now job := by
  unfold Ripe
  cases stage : job.stage with
  | loading _ wait => exact ⟨wait.deadline, Nat.le_refl _⟩
  | running l => simp [Job.isRunning, stage] at still
  | _ => exact ⟨0, trivial⟩

/-- Whoever is at work and not signalled can be carried, by its own steps and in time, to the first of them that is
not as it is wanted, if it is at work for as long as they are. -/
theorem carried_until {P : Prop → (Nat → Prop) → WorkspaceState → Job engine → Prop} {Q : Stride engine → Prop}
    (kept : Hub.Kept id P Q)
    (reached : hub.Reachable) (opened : hub.state w = .ok before) {s : Site engine} {job : Job engine}
    (there : (hub.move (.step id now)).site? w = some s) (known : s.job? id = some job) (still : job.isRunning = false)
    (unsignalled : (hub.move (.step id now)).Unsignalled w id) (holds : P True (fun _ => True) s.slot.state job) :
    ∃ (p : Stretch) (after : WorkspaceState) (last : Stride engine), p.workspace = w ∧ p.id = id ∧ p.now = now ∧
      hub.Undergoes p before after ∧ hub.Prompt p ∧
      (∀ step ∈ (hub.begun p).strides p.workspace p.id p.moves, Q step) ∧
      (hub.during p).stride? p.workspace p.id (.step p.id p.later) = some last ∧ ¬ Q last := by
  have reached' : (hub.move (.step id now)).Reachable := reached.move _
  obtain ⟨first, ripe⟩ := ripe_of_still still
  have owner := (reached'.owned there).owner known (kept.owning holds)
  obtain ⟨times, reply, replied, inTime, -⟩ :=
    @settles _ reached' w s id job there known (.inl owner) (fun _ => True) first ripe trivial
  have own : ∀ m ∈ times.map (Move.step id), ∃ now, m = .step id now := by
    intro m among
    obtain ⟨time, -, rfl⟩ := List.mem_map.1 among
    exact ⟨time, rfl⟩
  have not_all : ¬ ∀ step ∈ (hub.move (.step id now)).strides w id (times.map (Move.step id)), Q step := by
    intro all
    obtain ⟨_, _, last, job', end_, known', -, holds', -⟩ :=
      reached'.undisturbed kept there known (unsignalled s job there known) holds (Hub.undisturbed_of_own own) all
    rw [Hub.reply?, Hub.jobOn?_eq_some.1 ((Hub.site?_eq_some.1 end_).2 ▸ known'), Option.bind_some] at replied
    have place := kept.owning holds'
    unfold Job.reply? at replied
    cases stage : job'.stage <;> simp_all [Stage.place]
  obtain ⟨early, m, rest, last, split, all, took, unlike⟩ := Hub.first_stride not_all
  obtain ⟨later, rfl⟩ := own m (split ▸ List.mem_append_right _ (.head _))
  obtain ⟨s', end_, -, known', -⟩ := Hub.stride?_eq_some took
  have closed := (Hub.step_own (reached'.after early).sound end_ known' later).1
  refine ⟨⟨w, id, now, early, later⟩, _, last, rfl, rfl, rfl,
    ⟨reached, opened, unsignalled, ?_, Hub.site?_state closed⟩, ?_, all, took, unlike⟩
  · exact Hub.undisturbed_of_own fun m among => own m (split ▸ List.mem_append_left _ among)
  · rw [split, List.append_cons, Hub.strides_append] at inTime
    exact inTime.of_append

/-- A testcase that is reset, with no signal waiting, can be run to its end, and in time. -/
theorem tries_from (reached : hub.Reachable) {i : Nat} (told : .event ⟨w, .testcaseReset i⟩ ∈ (hub.step now id).2)
    (unsignalled : (hub.move (.step id now)).Unsignalled w id) :
    ∃ (p : Stretch) (before after : WorkspaceState), p.workspace = w ∧ p.id = id ∧ p.now = now ∧
      hub.Tries p i before after ∧ hub.Prompt p := by
  obtain ⟨t, own, next, job, opened, -, -, -, there, known, still, way⟩ := reset_begins reached told
  obtain ⟨p, after, last, rfl, rfl, rfl, undergoes, prompt, unended, took, ended⟩ :=
    carried_until (t.kept id) reached opened there known still unsignalled way
  have finished : last.ended?.isSome = true := Option.isSome_iff_ne_none.2 ended
  exact ⟨p, t.start, after, rfl, rfl, rfl, ⟨undergoes, told, unended, last, took, finished⟩, prompt⟩

/-- A batch that begins, with no signal waiting, can be run to its end, and in time. -/
theorem grades_from (reached : hub.Reachable) {total : Nat}
    (told : .event ⟨w, .batchStarted total⟩ ∈ (hub.step now id).2)
    (unsignalled : (hub.move (.step id now)).Unsignalled w id) :
    ∃ (p : Stretch) (summary : BatchSummary) (before after : WorkspaceState), p.workspace = w ∧ p.id = id ∧
      p.now = now ∧ hub.Grades p summary before after ∧ hub.Prompt p := by
  obtain ⟨first, next, job, opened, there, known, still, marking⟩ := batch_begins reached told
  obtain ⟨p, after, last, rfl, rfl, rfl, undergoes, prompt, all, took, finished⟩ :=
    carried_until (Marking.kept first id) reached opened there known still unsignalled marking
  obtain ⟨h, sc, job', past, due, -, name, -, marking', quiet, same, seen, -, -⟩ :=
    undergoes.last (Marking.kept first p.id) there known marking all
  cases took.symm.trans same
  obtain ⟨batch, -, made, -⟩ := (marking'.step quiet).resolve_left fun goes => finished goes.going
  refine ⟨p, .ofTestcases sc.slot.state.testcases false, first, after, rfl, rfl, rfl, ⟨undergoes, ⟨total, told⟩, ?_⟩,
    prompt⟩
  rw [seen, made]
  refine mem_of_event ?_
  change _ ∈ (Job.endBatch h sc job' batch false).scene.told
  rw [Job.endBatch_told, name]
  exact List.mem_append_right _ (.head _)

/-- Where there is nothing to run, nothing is run: the summary is empty. -/
theorem nothing_graded (reached : hub.Reachable) {s : Site engine} {job : Job engine} (here : hub.site? w = some s)
    (known : s.job? id = some job) (stage : job.stage = .admitted) (operation : job.operation = .runAll)
    (nothing : s.slot.state.testcases = []) (now : Nat) :
    ∃ next job', (hub.move (.step id now)).site? w = some next ∧ next.job? id = some job' ∧
      job'.stage = .leaving (.summary {}) ∧ next.slot.state = s.slot.state ∧
      (hub.step now id).2.filterMap Effect.event? = [] := by
  obtain ⟨there, seen⟩ := Hub.step_own reached.sound here known now
  have made : Job.step (hub.house now) id { slot := s.slot, asked := hub.asked } job =
      { scene := (Job.arm { slot := s.slot, asked := hub.asked } job false).1
        job := (Job.arm { slot := s.slot, asked := hub.asked } job false).2.at_ (.leaving (.summary {})) } := by
    simp only [Job.step, stage, Job.begin, operation]
    exact if_pos (congrArg List.length nothing)
  refine ⟨_, _, there, s.take_own .., ?_, ?_, ?_⟩
  · rw [made]
    rfl
  · rw [Site.take_slot, made]
    rfl
  · rw [seen, made]
    rfl

/-! ## The theorem -/

/-- Two batches on one basis whose lists differ in their order only, and in how often a testcase stands there: so do
their results, and what they add to the output. -/
theorem rearranged {hub' : Hub engine} {p' : Stretch} {before' after' : WorkspaceState}
    {summary summary' : BatchSummary} (run : hub.Grades p summary before after) (prompt : hub.Prompt p)
    (run' : hub'.Grades p' summary' before' after') (prompt' : hub'.Prompt p') (basis : before'.basis = before.basis) {σ : Nat → Nat}
    (order : ∀ i, before'.testcases[i]?.map (·.program) = before.testcases[σ i]?.map (·.program)) :
    (∀ i, after'.testcases[i]?.map (·.result) = after.testcases[σ i]?.map (·.result)) ∧
      ∃ added added' : List (List OutputEntry), added.length = before.testcases.length ∧
        added'.length = before'.testcases.length ∧ after.output.entries = before.output.entries ++ added.flatten ∧
        after'.output.entries = before'.output.entries ++ added'.flatten ∧ ∀ i, added'[i]? = added[σ i]? := by
  obtain ⟨grades, all, marked, -⟩ := grades_marked run
  obtain ⟨grades', all', marked', -⟩ := grades_marked run'
  -- what depends on the program only is in the same order
  have alike {α : Type} (f : String → α) (i : Nat) :
      before'.testcases[i]?.map (fun t => f t.program) = before.testcases[σ i]?.map (fun t => f t.program) := by
    simpa only [Option.map_map, Function.comp_def] using congrArg (Option.map f) (order i)
  refine ⟨fun i => ?_, grades.map Grade.entries, grades'.map Grade.entries, ?_, ?_, marked.entries, marked'.entries,
    fun i => ?_⟩
  · rw [marked.results all prompt, marked'.results all' prompt', basis]
    exact alike (fun program => (grade before.basis program).verdict) i
  · rw [List.length_map, all]
  · rw [List.length_map, all']
  · rw [marked.whole all prompt, marked'.whole all' prompt', basis]
    simpa only [List.getElem?_map, Option.map_map, Function.comp_def] using
      alike (fun program => (grade before.basis program).entries) i

/-- A testcase that is run alone has the result that the same program has in a batch. -/
theorem alone_as_in_batch {hub' : Hub engine} {p' : Stretch} {before' after' : WorkspaceState} {summary : BatchSummary}
    {i j : Nat} (tries : hub.Tries p i before after) (prompt : hub.Prompt p)
    (run : hub'.Grades p' summary before' after') (prompt' : hub'.Prompt p') (basis : before'.basis = before.basis)
    (same : before'.testcases[j]?.map (·.program) = before.testcases[i]?.map (·.program)) :
    after'.testcases[j]?.map (·.result) = after.testcases[i]?.map (·.result) := by
  obtain ⟨t, own, g, rfl, rfl, known, program, decided⟩ := tries_decided tries
  obtain ⟨grades, all, marked, -⟩ := grades_marked run
  obtain ⟨there, known', same⟩ := Option.map_eq_some_iff.1 (same.trans (congrArg _ known))
  rw [marked.results all prompt', known', decided.testcases]
  simp [WorkspaceState.setResult, known, decided.fair (.inl prompt), Trial.grade, program, basis, same]

/-- A testcase knows nothing of the others, nor of what was there before.

Nothing is edited, cleared or signalled meanwhile. Then what comes of a testcase, be it run alone or in a batch, is what
`grade` makes of its basis and its own program: the result, and what is added to the output, with the lines that were
written. Only the clock can come in between: a run that is not looked after in time may be out of time. A batch runs
all its testcases one after the other; where a list is arranged otherwise, or run again, results and output are
arranged likewise. And whatever is begun can be run to its end, in time. -/
theorem testcases_isolated :
    (∀ (hub : Hub engine) (p : Stretch) (i : Nat) (before after : WorkspaceState), hub.Tries p i before after →
      ∃ (own : Testcase) (g : Grade), before.testcases[i]? = some own ∧
        Trial.Decided ⟨before, i, own.program, none⟩ (hub.Prompt p) after g) ∧
    (∀ (hub : Hub engine) (p : Stretch) (summary : BatchSummary) (before after : WorkspaceState),
      hub.Grades p summary before after →
      (∃ grades : List Grade, grades.length = before.testcases.length ∧ Marked before (hub.Prompt p) grades after ∧
        (hub.Prompt p → grades = before.testcases.map fun t => grade before.basis t.program)) ∧
      summary = .ofTestcases after.testcases false ∧ summary.total = before.testcases.length ∧ summary.pending = 0 ∧
      summary.aborted = false ∧ summary.passed + summary.failed = summary.total) ∧
    (∀ (hub hub' : Hub engine) (p p' : Stretch) (summary summary' : BatchSummary)
      (before after before' after' : WorkspaceState), hub.Grades p summary before after → hub.Prompt p →
      hub'.Grades p' summary' before' after' → hub'.Prompt p' → before'.basis = before.basis → ∀ σ : Nat → Nat,
      (∀ i, before'.testcases[i]?.map (·.program) = before.testcases[σ i]?.map (·.program)) →
      (∀ i, after'.testcases[i]?.map (·.result) = after.testcases[σ i]?.map (·.result)) ∧
      ∃ added added' : List (List OutputEntry), added.length = before.testcases.length ∧
        added'.length = before'.testcases.length ∧ after.output.entries = before.output.entries ++ added.flatten ∧
        after'.output.entries = before'.output.entries ++ added'.flatten ∧ ∀ i, added'[i]? = added[σ i]?) ∧
    (∀ (hub hub' : Hub engine) (p p' : Stretch) (i j : Nat) (summary : BatchSummary)
      (before after before' after' : WorkspaceState), hub.Tries p i before after → hub.Prompt p →
      hub'.Grades p' summary before' after' → hub'.Prompt p' → before'.basis = before.basis →
      before'.testcases[j]?.map (·.program) = before.testcases[i]?.map (·.program) →
      after'.testcases[j]?.map (·.result) = after.testcases[i]?.map (·.result)) ∧
    (∀ (hub : Hub engine) (w : WorkspaceId) (id : JobId) (now i : Nat), hub.Reachable →
      .event ⟨w, .testcaseReset i⟩ ∈ (hub.step now id).2 → (hub.move (.step id now)).Unsignalled w id →
      ∃ (p : Stretch) (before after : WorkspaceState), p.workspace = w ∧ p.id = id ∧ p.now = now ∧
        hub.Tries p i before after ∧ hub.Prompt p) ∧
    (∀ (hub : Hub engine) (w : WorkspaceId) (id : JobId) (now total : Nat), hub.Reachable →
      .event ⟨w, .batchStarted total⟩ ∈ (hub.step now id).2 → (hub.move (.step id now)).Unsignalled w id →
      ∃ (p : Stretch) (summary : BatchSummary) (before after : WorkspaceState), p.workspace = w ∧ p.id = id ∧
        p.now = now ∧ hub.Grades p summary before after ∧ hub.Prompt p) ∧
    (∀ (hub : Hub engine) (w : WorkspaceId) (s : Site engine) (id : JobId) (job : Job engine) (now : Nat),
      hub.Reachable → hub.site? w = some s → s.job? id = some job → job.stage = .admitted → job.operation = .runAll →
      s.slot.state.testcases = [] →
      ∃ next job', (hub.move (.step id now)).site? w = some next ∧ next.job? id = some job' ∧
        job'.stage = .leaving (.summary {}) ∧ next.slot.state = s.slot.state ∧
        (hub.step now id).2.filterMap Effect.event? = []) := by
  refine ⟨?single, ?batch, ?order, ?alone, ?triable, ?gradable, ?empty⟩
  case single =>
    intro hub p i before after tries
    obtain ⟨t, own, g, rfl, rfl, known, program, decided⟩ := tries_decided tries
    refine ⟨own, g, known, decided.brief, decided.testcases, decided.entries, decided.decided, decided.whole, ?_⟩
    rw [Trial.grade, ← program]
    exact decided.fair
  case batch =>
    intro hub p summary before after run
    obtain ⟨grades, all, marked, rfl⟩ := grades_marked run
    obtain ⟨total, pending, sum⟩ := marked.summed all
    exact ⟨⟨grades, all, marked, marked.whole all⟩, rfl, total, pending, BatchSummary.ofTestcases_aborted .., sum⟩
  case order =>
    intro hub hub' p p' summary summary' before after before' after' run prompt run' prompt' basis σ order
    exact rearranged run prompt run' prompt' basis order
  case alone =>
    intro hub hub' p p' i j summary before after before' after' tries prompt run prompt' basis same
    exact alone_as_in_batch tries prompt run prompt' basis same
  case triable =>
    intro hub w id now i reached told unsignalled
    exact tries_from reached told unsignalled
  case gradable =>
    intro hub w id now total reached told unsignalled
    exact grades_from reached told unsignalled
  case empty =>
    intro hub w s id job now reached here known stage operation nothing
    exact nothing_graded reached here known stage operation nothing now

/-! ### A testcase that is run alone, and then with others -/

/-- Five testcases: the first binds a name that the second does not know, the third never ends, the fourth fails and
the last cannot be read. -/
def assorted : Hub engine :=
  let programs := ["let x = true\ndisplay \"a\"\nx", "x", "spin", "display \"b\"\nerror \"e\"", "true +"]
  (Hub.create {} .bundled).1.move (.edit .assessment (.testcases (programs.map fun p => { program := p })))

/-- The second is about to be run. -/
def assortedOnce : Hub engine :=
  assorted.after (.submit 0 .assessment (.evaluate (.testcaseRun 1)) :: List.replicate 3 (.step 0 0))

/-- It has been run, and now all of them are about to be. -/
def assortedAll : Hub engine :=
  assortedOnce.after (List.replicate 9 (.step 0 0) ++ .submit 1 .assessment .runAll :: List.replicate 2 (.step 1 0))

/-- What is to be seen of a batch on its basis: how the testcases come out, the lines that are added to the output, and
the summary. -/
def sheet (s : WorkspaceState) : List String × List String × BatchSummary :=
  let grades := s.testcases.map fun t => grade s.basis t.program
  let testcases := withVerdicts (grades.map Grade.verdict) s.testcases
  (testcases.map Testcase.label, (grades.flatMap Grade.entries).flatMap OutputEntry.lines,
    .ofTestcases testcases false)

theorem unsignalled_of_all {hub : Hub engine} {w : WorkspaceId} {id : JobId}
    (quiet : (hub.site? w).all (fun s => (s.job? id).all fun job =>
      job.receiver.all fun number => (s.slot.mailbox.queue number).isEmpty) = true) : hub.Unsignalled w id := by
  intro s job here known number receiver
  simpa [here, known, receiver] using quiet

/-- How the five come out. -/
def assortedSheet : List String × List String × BatchSummary :=
  (["passed", "error", "error", "error", "error"], ["a", "b"], { total := 5, passed := 1, failed := 4 })

theorem assorted_sheet {before before' : WorkspaceState} (opened : assortedOnce.state .assessment = .ok before)
    (opened' : assortedAll.state .assessment = .ok before') :
    before'.brief = before.brief ∧ before'.output.entries.length = 1 ∧ sheet before' = assortedSheet := by
  have both : (assortedOnce.state .assessment).toOption.any (fun s =>
      (assortedAll.state .assessment).toOption.any fun s' =>
        sameBrief s'.brief s.brief && s'.output.entries.length = 1 && decide (sheet s' = assortedSheet)) = true := by
    decide +kernel
  simp only [opened, opened', Except.toOption, Option.any_some, Bool.and_eq_true, decide_eq_true_eq] at both
  exact ⟨eq_of_sameBrief both.1.1, both.1.2, both.2⟩

/-- The second fails for the same reason whether it is run alone or behind the first, and the last two write and fail as
if the third had not used up all its time. -/
theorem testcases_isolated_of_assorted :
    ∃ (p p' : Stretch) (summary : BatchSummary) (before after before' after' : WorkspaceState),
      assortedOnce.Tries p 1 before after ∧ assortedOnce.Prompt p ∧
      assortedAll.Grades p' summary before' after' ∧ assortedAll.Prompt p' ∧ before'.output.entries.length = 1 ∧
      (after'.testcases.map Testcase.label, after'.output.lines, summary) =
        (["passed", "error", "error", "error", "error"], before'.output.lines ++ ["a", "b"],
          { total := 5, passed := 1, failed := 4 }) ∧
      after'.testcases[1]?.map (·.result) = after.testcases[1]?.map (·.result) := by
  have reached : assortedOnce.Reachable := by
    unfold assortedOnce assorted
    exact ((Hub.Reachable.create {} .bundled).move _).after _
  have reached' : assortedAll.Reachable := by
    unfold assortedAll
    exact reached.after _
  obtain ⟨single, batch, order, alone, triable, gradable, empty⟩ := testcases_isolated
  obtain ⟨p, before, after, name, -, -, tries, prompt⟩ := triable assortedOnce .assessment 0 0 1 reached
    (mem_of_event (by decide +kernel)) (unsignalled_of_all (by decide +kernel))
  obtain ⟨p', summary, before', after', name', -, -, run, prompt'⟩ := gradable assortedAll .assessment 1 0 5 reached'
    (mem_of_event (by decide +kernel)) (unsignalled_of_all (by decide +kernel))
  obtain ⟨same, entries, seen⟩ := assorted_sheet (name ▸ tries.opened) (name' ▸ run.opened)
  obtain ⟨⟨grades, -, marked, whole⟩, rfl, -⟩ := batch _ _ _ _ _ run
  rw [sheet, ← whole prompt', ← marked.testcases] at seen
  simp only [assortedSheet, Prod.mk.injEq] at seen
  obtain ⟨labels, lines, sum⟩ := seen
  refine ⟨p, p', _, before, after, before', after', tries, prompt, run, prompt', entries, ?_, ?_⟩
  · rw [labels, sum, OutputLog.lines, marked.entries, List.flatMap_append, lines]
    rfl
  · have programs : before'.testcases.map (·.program) = before.testcases.map (·.program) := by
      simpa [WorkspaceState.brief, Function.comp_def] using congrArg (fun b => b.testcases.map Prod.fst) same
    refine alone _ _ _ _ _ _ _ _ _ _ _ tries prompt run prompt' (WorkspaceState.basis_of_brief same) ?_
    rw [← List.getElem?_map, ← List.getElem?_map, programs]

end Script

end Workbench
