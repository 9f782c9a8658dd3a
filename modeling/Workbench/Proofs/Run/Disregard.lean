/-
What a step has no regard for.

A step adds to what has been seen and does not look at it, and only a loader that
counts cares how often it has been asked. So a scene goes on as it would for another
witness, who has seen something before and has counted otherwise
(`Job.step_witnessed`). In particular what a step adds does not depend on what has been
seen before (`Job.step_seen`): the steps of a turn can be looked at one by one.
-/
import Workbench.Proofs.Run.Loading
import Workbench.Run.Job

namespace Workbench

variable {E : Engine}

/-- The scene for one who has seen something before, and has another count of how often the loader was asked. -/
def Scene.witnessed (sc : Scene E) (past : List (Effect E)) (n : Nat) : Scene E :=
  { sc with effects := past ++ sc.effects, asked := n }

/-- A step, for another witness. -/
def Advance.witnessed (a : Advance E) (past : List (Effect E)) (n : Nat) : Advance E :=
  { a with scene := a.scene.witnessed past n }

namespace Scene

variable (h : House) (sc : Scene E) (past : List (Effect E)) (n : Nat)

/-- How a run ended, for another witness. -/
def witnessedEnd (end_ : Scene E × Outcome) : Scene E × Outcome := (end_.1.witnessed past n, end_.2)

@[simp] theorem witnessed_slot : (sc.witnessed past n).slot = sc.slot := rfl

@[simp] theorem add_witnessed (e : Effect E) : (sc.witnessed past n).add e = (sc.add e).witnessed past n := by
  simp [witnessed, add]

@[simp] theorem occur_witnessed (o : Occurrence) : (sc.witnessed past n).occur o = (sc.occur o).witnessed past n :=
  sc.add_witnessed ..

@[simp] theorem sayBriefly_witnessed (text : String) (kind : MessageKind) :
    (sc.witnessed past n).sayBriefly h text kind = (sc.sayBriefly h text kind).witnessed past n := sc.add_witnessed ..

@[simp] theorem sayLong_witnessed (text : String) (kind : MessageKind) :
    (sc.witnessed past n).sayLong h text kind = (sc.sayLong h text kind).witnessed past n := sc.add_witnessed ..

@[simp] theorem warn_witnessed (text : String) :
    (sc.witnessed past n).warn h text = (sc.warn h text).witnessed past n := sc.add_witnessed ..

@[simp] theorem draw_witnessed (d : Drawing) : (sc.witnessed past n).draw d = (sc.draw d).witnessed past n :=
  sc.add_witnessed ..

@[simp] theorem onState_witnessed (f : WorkspaceState → WorkspaceState) :
    (sc.witnessed past n).onState f = (sc.onState f).witnessed past n := rfl

@[simp] theorem withMailbox_witnessed (m : Mailbox) :
    (sc.witnessed past n).withMailbox m = (sc.withMailbox m).witnessed past n := rfl

@[simp] theorem withSuspended_witnessed (s : Option (Suspension E.Snapshot)) :
    (sc.witnessed past n).withSuspended s = (sc.withSuspended s).witnessed past n := rfl

@[simp] theorem forget_witnessed : (sc.witnessed past n).forget = sc.forget.witnessed past n := rfl

@[simp] theorem clearOutput_witnessed : (sc.witnessed past n).clearOutput = sc.clearOutput.witnessed past n := by
  simp [clearOutput]

@[simp] theorem clearHighlight_witnessed :
    (sc.witnessed past n).clearHighlight = sc.clearHighlight.witnessed past n := by
  simp [clearHighlight]

@[simp] theorem forgetShown_witnessed : (sc.witnessed past n).forgetShown = sc.forgetShown.witnessed past n := by
  unfold forgetShown
  cases found : sc.slot.suspended <;> simp [found]

@[simp] theorem renewContext_witnessed : (sc.witnessed past n).renewContext = sc.renewContext.witnessed past n := by
  simp [renewContext]

@[simp] theorem settleMode_witnessed (mode : Mode) (verdict : Verdict) (occurrence : Nat → Occurrence) :
    (sc.witnessed past n).settleMode mode verdict occurrence =
      (sc.settleMode mode verdict occurrence).witnessed past n := by
  cases mode <;> simp [settleMode]

@[simp] theorem finishInterrupted_witnessed (mode : Mode) :
    (sc.witnessed past n).finishInterrupted h mode = witnessedEnd past n (sc.finishInterrupted h mode) := by
  cases mode <;> simp [finishInterrupted, witnessedEnd]

@[simp] theorem finishValue_witnessed (mode : Mode) (value : Json) :
    (sc.witnessed past n).finishValue mode value = witnessedEnd past n (sc.finishValue mode value) := by
  simp [finishValue, witnessedEnd]

@[simp] theorem finishFaults_witnessed (mode : Mode) (faults : List Fault) (prependLines : Int32) :
    (sc.witnessed past n).finishFaults mode faults prependLines =
      witnessedEnd past n (sc.finishFaults mode faults prependLines) := by
  simp [finishFaults, witnessedEnd]

@[simp] theorem finishSuspended_witnessed (s : Suspension E.Snapshot) (paused : Bool) :
    (sc.witnessed past n).finishSuspended h s paused = witnessedEnd past n (sc.finishSuspended h s paused) := by
  cases paused <;> simp [finishSuspended, present, witnessedEnd]

end Scene

namespace Job

variable (h : House) (id : JobId) (sc : Scene E) (job : Job E) (past : List (Effect E)) (n : Nat)

theorem enqueue_witnessed : enqueue id (sc.witnessed past n) job = (enqueue id sc job).witnessed past n := by
  unfold enqueue
  split <;> rfl

theorem submit_witnessed : submit id (sc.witnessed past n) job = (submit id sc job).witnessed past n := by
  unfold submit
  split
  · simp only [Scene.witnessed_slot]
    split
    · rfl
    · exact enqueue_witnessed ..
  · exact enqueue_witnessed ..

theorem endBatch_witnessed (batch : Batch) (aborted : Bool) :
    endBatch h (sc.witnessed past n) job batch aborted = (endBatch h sc job batch aborted).witnessed past n := by
  cases aborted with
  | true => simp [endBatch, Advance.witnessed]
  | false =>
    simp only [endBatch, Scene.witnessed_slot, Bool.false_eq_true, if_false, Scene.sayBriefly_witnessed,
      Scene.occur_witnessed]
    rfl

theorem beginBatch_witnessed (result : Option Outcome) :
    beginBatch h (sc.witnessed past n) job result = (beginBatch h sc job result).witnessed past n := by
  by_cases empty : sc.slot.state.testcases.length = 0
  · simp only [beginBatch, Scene.witnessed_slot, empty, ↓reduceIte]
    rfl
  · simp only [beginBatch, Scene.witnessed_slot, empty, ↓reduceIte, Scene.sayBriefly_witnessed, Scene.occur_witnessed]
    rfl

theorem begin_witnessed : begin h (sc.witnessed past n) job = (begin h sc job).witnessed past n := by
  unfold begin select arm
  split
  · rfl
  · simpa using beginBatch_witnessed h _ _ past n none
  · simp [Advance.witnessed]
  · next chapter _ =>
    by_cases same : sc.slot.state.chapter = chapter <;> simp [same, Advance.witnessed]
  · next library _ =>
    by_cases same : sc.slot.state.library = library <;> simp [same, Advance.witnessed]

theorem giveUp_witnessed (r : Refusal) :
    giveUp h (sc.witnessed past n) job r = (giveUp h sc job r).witnessed past n := by
  unfold giveUp
  split
  · exact endBatch_witnessed ..
  · rfl

theorem prepare_witnessed (mode : Mode) :
    prepare h (sc.witnessed past n) job mode = (prepare h sc job mode).witnessed past n := by
  cases mode with
  | editorRun => rfl
  | replRun => rfl
  | debugResume =>
    simp only [prepare, Scene.witnessed_slot]
    split
    · exact giveUp_witnessed ..
    · simp [Advance.witnessed]
  | testcaseRun index =>
    simp only [prepare, Scene.witnessed_slot]
    split
    · exact giveUp_witnessed ..
    · simp [Advance.witnessed]

theorem proceed_witnessed (purpose : Purpose) :
    proceed h (sc.witnessed past n) job purpose = (proceed h sc job purpose).witnessed past n := by
  cases purpose <;> simp [proceed, Advance.witnessed]

/-- If the loader answers alike at both counts, the libraries are waited for alike. -/
theorem await_witnessed (alike : h.loader.Alike h.loader 0 0 sc.asked n) (purpose : Purpose) (wait : Wait) :
    ∃ m, ∀ past, await h (sc.witnessed past n) job purpose wait = (await h sc job purpose wait).witnessed past m := by
  obtain ⟨more, status, one, two⟩ := wait.poll_alike alike h.now 0
  simp only [Wait.since_zero, WaitStatus.since_zero, Nat.zero_add, Nat.add_zero] at one two
  refine ⟨n + more, fun past => ?_⟩
  let next : Scene E := { sc with asked := sc.asked + more, effects := sc.effects ++ List.replicate more .asked }
  have asking : ({ sc with
        effects := past ++ sc.effects ++ List.replicate more .asked
        asked := n + more } : Scene E) = next.witnessed past (n + more) := by
    simp [Scene.witnessed, next]
  unfold await
  simp only [Scene.witnessed, one, two, Nat.add_sub_cancel_left, asking]
  cases status with
  | ready => exact proceed_witnessed ..
  | timedOut =>
    have warned := next.warn_witnessed h past (n + more) "Error loading libraries"
    exact (congrArg (proceed h · job purpose) warned).trans (proceed_witnessed ..)
  | pending => rfl

theorem launch_witnessed (mode : Mode) (p : Prepared E) :
    launch h (sc.witnessed past n) job mode p = (launch h sc job mode p).witnessed past n := by
  unfold launch
  split <;> simp [Advance.witnessed]

theorem receive_witnessed :
    receive (sc.witnessed past n) job = ((receive sc job).1.witnessed past n, (receive sc job).2) := by
  unfold receive
  split <;> rfl

theorem hear_witnessed (wake : Wake) :
    hear (sc.witnessed past n) job wake = ((hear sc job wake).1.witnessed past n, (hear sc job wake).2) := by
  unfold hear
  split
  · rfl
  · exact receive_witnessed ..

theorem conclude_witnessed (mode : Mode) (end_ : Scene E × Outcome) :
    conclude job mode (Scene.witnessedEnd past n end_) = (conclude job mode end_).witnessed past n := by
  simp [conclude, Scene.witnessedEnd, Advance.witnessed]

theorem start_witnessed (l : Launch E) : start h (sc.witnessed past n) job l = (start h sc job l).witnessed past n := by
  unfold start
  rw [receive_witnessed]
  rcases receive sc job with ⟨sc, r⟩
  cases r with
  | signal s =>
    cases s with
    | interrupt => simp [conclude_witnessed]
    | pause => rfl
  | pending => simp [Advance.witnessed]
  | disarmed => simp [Advance.witnessed]

theorem finish_witnessed (l : Live E) (result : RunResult E.Snapshot) :
    finish h (sc.witnessed past n) l result = Scene.witnessedEnd past n (finish h sc l result) := by
  unfold finish
  split
  · simp
  · simp
  · split <;> simp

theorem race_witnessed (l : Live E) : race h (sc.witnessed past n) job l = (race h sc job l).witnessed past n := by
  unfold race
  rcases E.poll l.run h.now { paused := l.paused } with ⟨lines, polled⟩
  cases polled with
  | ended result => simp [finish_witnessed, conclude_witnessed]
  | pending run wake =>
    simp only [Scene.onState_witnessed, Scene.add_witnessed, hear_witnessed]
    split
    · rcases hear _ job wake with ⟨sc, r⟩
      cases r with
      | signal s =>
        cases s with
        | interrupt => simp [conclude_witnessed]
        | pause => rfl
      | pending => rfl
      | disarmed => rfl
    · rfl

theorem refusePause_witnessed : refusePause (sc.witnessed past n) job = (refusePause sc job).witnessed past n := by
  unfold refusePause
  split <;> rfl

theorem follow_witnessed (mode : Mode) (outcome : Outcome) :
    follow h (sc.witnessed past n) job mode outcome = (follow h sc job mode outcome).witnessed past n := by
  unfold follow
  split
  · split
    · exact endBatch_witnessed ..
    · split
      · rfl
      · exact endBatch_witnessed ..
  · split
    · by_cases wanted : graded sc.slot
      · simp only [Scene.witnessed_slot, wanted, ↓reduceIte, refusePause_witnessed, beginBatch_witnessed]
      · simp only [Scene.witnessed_slot, wanted, Bool.false_eq_true, ↓reduceIte]
        rfl
    · rfl

theorem leave_witnessed (reply : Reply) :
    leave id (sc.witnessed past n) job reply = (leave id sc job reply).witnessed past n := by
  unfold leave
  split <;> rfl

/-- A step is the same for another witness, if the loader answers alike at both counts. -/
theorem step_witnessed (alike : h.loader.Alike h.loader 0 0 sc.asked n) :
    ∃ m, ∀ past, step h id (sc.witnessed past n) job = (step h id sc job).witnessed past m := by
  unfold step
  split
  · exact ⟨n, fun past => submit_witnessed ..⟩
  · refine ⟨n, fun past => ?_⟩
    by_cases held : sc.slot.permit.isHeldBy id
    · simp only [Scene.witnessed_slot, held, ↓reduceIte]
      rfl
    · simp only [Scene.witnessed_slot, held, Bool.false_eq_true, ↓reduceIte]
      rfl
  · exact ⟨n, fun past => begin_witnessed ..⟩
  · exact ⟨n, fun past => prepare_witnessed ..⟩
  · exact await_witnessed _ _ _ _ alike ..
  · exact ⟨n, fun past => launch_witnessed ..⟩
  · exact ⟨n, fun past => start_witnessed ..⟩
  · exact ⟨n, fun past => race_witnessed ..⟩
  · exact ⟨n, fun past => follow_witnessed ..⟩
  · exact ⟨n, fun past => leave_witnessed ..⟩
  · exact ⟨n, fun past => rfl⟩

/-- What a step adds to what has been seen, and all else that it does, is what it does where nothing has been
seen before. -/
theorem step_seen :
    step h id sc job =
      let a := step h id { slot := sc.slot, asked := sc.asked } job
      { a with scene := { a.scene with effects := sc.effects ++ a.scene.effects } } := by
  let bare : Scene E := { slot := sc.slot, asked := sc.asked }
  obtain ⟨m, same⟩ := step_witnessed h id bare job sc.asked fun _ _ => rfl
  have nothing : bare.witnessed [] sc.asked = bare := rfl
  have all : bare.witnessed sc.effects sc.asked = sc := by simp [Scene.witnessed, bare]
  -- without a past the count is that of the step itself
  have count := congrArg (·.scene.asked) (same [])
  rw [nothing] at count
  have seen := same sc.effects
  rw [all] at seen
  rw [seen]
  exact congrArg (fun m => Advance.witnessed _ sc.effects m) count.symm

end Job

end Workbench
