/-
What the operations on a scene do to its slot, and what is seen of them.

Each operation has one equation that says what the slot is afterwards, and one that says
what it adds to what has been seen; nothing unfolds an operation after that.
-/
import Workbench.Run.Job

namespace Workbench

/-- Whether something is done with the engine. -/
def Effect.isCall {E : Engine} : Effect E → Bool
  | .engine _ => true
  | _ => false

namespace Scene

variable {E : Engine} (h : House) (sc : Scene E)

/-! ## The slot after an operation -/

@[simp] theorem add_slot (e : Effect E) : (sc.add e).slot = sc.slot := rfl

@[simp] theorem occur_slot (o : Occurrence) : (sc.occur o).slot = sc.slot := rfl

@[simp] theorem sayBriefly_slot (text : String) (kind : MessageKind) :
    (sc.sayBriefly h text kind).slot = sc.slot := rfl

@[simp] theorem sayLong_slot (text : String) (kind : MessageKind) : (sc.sayLong h text kind).slot = sc.slot := rfl

@[simp] theorem warn_slot (text : String) : (sc.warn h text).slot = sc.slot := rfl

@[simp] theorem draw_slot (d : Drawing) : (sc.draw d).slot = sc.slot := rfl

@[simp] theorem onState_slot (f : WorkspaceState → WorkspaceState) :
    (sc.onState f).slot = { sc.slot with state := f sc.slot.state } := rfl

@[simp] theorem onPermit_slot (f : Permit JobId → Permit JobId) :
    (sc.onPermit f).slot = { sc.slot with permit := f sc.slot.permit } := rfl

@[simp] theorem withMailbox_slot (m : Mailbox) : (sc.withMailbox m).slot = { sc.slot with mailbox := m } := rfl

@[simp] theorem withSuspended_slot (s : Option (Suspension E.Snapshot)) :
    (sc.withSuspended s).slot = { sc.slot with suspended := s } := rfl

@[simp] theorem clearOutput_slot :
    sc.clearOutput.slot = { sc.slot with state := sc.slot.state.onOutput fun _ => .cleared } := rfl

@[simp] theorem clearHighlight_slot :
    sc.clearHighlight.slot = { sc.slot with state := { sc.slot.state with highlighted := none } } := rfl

@[simp] theorem forget_slot : sc.forget.slot = { sc.slot with suspended := none } := rfl

theorem forgetShown_slot :
    sc.forgetShown.slot =
      match sc.slot.suspended with
      | some _ => { sc.slot with suspended := none, state := { sc.slot.state with highlighted := none } }
      | none => sc.slot := by
  unfold forgetShown
  cases sc.slot.suspended <;> rfl

@[simp] theorem present_slot (context : Context) (location : Option Location) (prependLines : Int32) :
    (sc.present context location prependLines).slot =
      { sc.slot with
        state := { sc.slot.state with highlighted := location.map (LineRange.ofLocation · prependLines) } } := rfl

@[simp] theorem renewContext_slot :
    sc.renewContext.slot =
      { sc.slot with state := { sc.slot.state with context := E.makeContext sc.slot.state.selection } } := rfl

/-! ## The slot after a run -/

theorem settleMode_slot (mode : Mode) (verdict : Verdict) (occurrence : Nat → Occurrence) :
    (sc.settleMode mode verdict occurrence).slot =
      match mode with
      | .testcaseRun index => { sc.slot with state := sc.slot.state.setResult index verdict }
      | .editorRun => { sc.slot with suspended := none, state := { sc.slot.state with highlighted := none } }
      | _ => { sc.slot with state := { sc.slot.state with highlighted := none } } := by
  cases mode <;> rfl

theorem finishValue_slot (mode : Mode) (value : Json) :
    (sc.finishValue mode value).1.slot =
      ((sc.onState (·.onOutput (·.appendResult value))).settleMode mode (.success value)
        .testcaseSucceeded).slot := rfl

theorem finishFaults_slot (mode : Mode) (faults : List Fault) (prependLines : Int32) :
    (sc.finishFaults mode faults prependLines).1.slot =
      (((sc.onState fun s => { s with context := s.context.report faults }).onState
        (·.onOutput (·.appendFaults (faults.map (·.remapped prependLines))))).settleMode mode
          (.failure (faults.map (·.remapped prependLines))) .testcaseFailed).slot := rfl

theorem finishSuspended_slot (s : Suspension E.Snapshot) (paused : Bool) :
    (sc.finishSuspended h s paused).1.slot =
      let state :=
        { sc.slot.state with highlighted := s.location.map (LineRange.ofLocation · s.prependLines) }
      { sc.slot with
        suspended := some s
        state := if paused then state else state.onOutput (·.appendResult (.str breakpointSentinel)) } := by
  cases paused <;> rfl

/-! ## What is seen of an operation -/

@[simp] theorem add_effects (e : Effect E) : (sc.add e).effects = sc.effects ++ [e] := rfl

@[simp] theorem occur_effects (o : Occurrence) : (sc.occur o).effects = sc.effects ++ [.event ⟨sc.slot.id, o⟩] := rfl

@[simp] theorem sayBriefly_effects (text : String) (kind : MessageKind) :
    (sc.sayBriefly h text kind).effects = sc.effects ++ [.message ⟨text, h.settings.messages.shortMs, kind⟩] := rfl

@[simp] theorem sayLong_effects (text : String) (kind : MessageKind) :
    (sc.sayLong h text kind).effects = sc.effects ++ [.message ⟨text, h.settings.messages.longMs, kind⟩] := rfl

@[simp] theorem warn_effects (text : String) :
    (sc.warn h text).effects = sc.effects ++ [.message ⟨text, h.settings.messages.shortMs, .warning⟩] := rfl

@[simp] theorem draw_effects (d : Drawing) : (sc.draw d).effects = sc.effects ++ [.drawing d] := rfl

@[simp] theorem onState_effects (f : WorkspaceState → WorkspaceState) : (sc.onState f).effects = sc.effects := rfl

@[simp] theorem onPermit_effects (f : Permit JobId → Permit JobId) : (sc.onPermit f).effects = sc.effects := rfl

@[simp] theorem withMailbox_effects (m : Mailbox) : (sc.withMailbox m).effects = sc.effects := rfl

@[simp] theorem withSuspended_effects (s : Option (Suspension E.Snapshot)) :
    (sc.withSuspended s).effects = sc.effects := rfl

@[simp] theorem clearOutput_effects :
    sc.clearOutput.effects = sc.effects ++ [.event ⟨sc.slot.id, .outputCleared⟩] := rfl

@[simp] theorem clearHighlight_effects : sc.clearHighlight.effects = sc.effects ++ [.drawing (.highlight none)] := rfl

@[simp] theorem forget_effects : sc.forget.effects = sc.effects := rfl

@[simp] theorem forgetShown_effects :
    sc.forgetShown.effects = sc.effects ++ sc.slot.suspended.toList.map fun _ => .drawing (.highlight none) := by
  unfold forgetShown
  cases sc.slot.suspended <;> simp

@[simp] theorem renewContext_effects :
    sc.renewContext.effects = sc.effects ++ [.loaded sc.slot.state.selection.library.name,
      .engine (.makeContext sc.slot.state.selection),
      .event ⟨sc.slot.id, .contextReset (E.makeContext sc.slot.state.selection).chapter⟩] := by
  simp [renewContext]

/-- What is seen of how a run has ended: the verdict on a testcase, or that no line is highlighted any more. -/
def ended (sc : Scene E) (mode : Mode) (occurrence : Nat → Occurrence) : List (Effect E) :=
  match mode with
  | .testcaseRun index => [.event ⟨sc.slot.id, occurrence index⟩]
  | _ => [.drawing (.highlight none)]

/-- That is not done with the engine. -/
theorem isCall_ended (mode : Mode) (occurrence : Nat → Occurrence) :
    ∀ e ∈ sc.ended mode occurrence, e.isCall = false := by
  cases mode <;> simp [ended, Effect.isCall]

@[simp] theorem settleMode_effects (mode : Mode) (verdict : Verdict) (occurrence : Nat → Occurrence) :
    (sc.settleMode mode verdict occurrence).effects = sc.effects ++ sc.ended mode occurrence := by
  cases mode <;> rfl

@[simp] theorem finishInterrupted_effects (mode : Mode) :
    (sc.finishInterrupted h mode).1.effects =
      sc.effects ++ sc.ended mode .testcaseFailed ++ [.message
        { text := match mode with
            | .testcaseRun index => "Execution of testcase " ++ toString index ++ " aborted"
            | _ => "Execution aborted"
          shownMs := h.settings.messages.shortMs
          kind := .warning }] := by
  cases mode <;> rfl

@[simp] theorem finishValue_effects (mode : Mode) (value : Json) :
    (sc.finishValue mode value).1.effects = sc.effects ++ sc.ended mode .testcaseSucceeded :=
  settleMode_effects ..

@[simp] theorem finishFaults_effects (mode : Mode) (faults : List Fault) (prependLines : Int32) :
    (sc.finishFaults mode faults prependLines).1.effects = sc.effects ++ sc.ended mode .testcaseFailed :=
  settleMode_effects ..

@[simp] theorem finishSuspended_effects (s : Suspension E.Snapshot) (paused : Bool) :
    (sc.finishSuspended h s paused).1.effects =
      sc.effects ++ [.drawing (.highlight (s.location.map (LineRange.ofLocation · s.prependLines))),
        .drawing (.inspect (some s.context)), .drawing (.environment s.context s.location)] ++
        if paused then [.message ⟨"Execution paused", h.settings.messages.shortMs, .warning⟩] else [] := by
  cases paused <;> simp [finishSuspended, present]

end Scene

end Workbench
