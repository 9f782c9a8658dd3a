/-
A workspace at work, and the scene in which a job works on it.

A slot holds the state of a workspace and what the jobs on it share: the permit,
the mailbox and the suspended run. A scene is a slot together with what has been
seen from outside since the scene began. The operations below change the slot
and leave their traces, always in the same order.
-/
import Workbench.Run.Event
import Workbench.Run.Readiness
import Workbench.Source.Composition
import Workbench.Signal.Mailbox
import Workbench.Workspace.Permit
import Workbench.Workspace.State
import Workbench.Workspace.Suspension

namespace Workbench

/-- What identifies a job. -/
abbrev JobId := Nat

/-- A workspace and what the jobs on it share. -/
structure Slot (E : Engine) where
  id : WorkspaceId
  state : WorkspaceState
  permit : Permit JobId := {}
  mailbox : Mailbox := {}
  suspended : Option (Suspension E.Snapshot) := none

/-- What does not change while jobs take their turn. -/
structure House where
  settings : Settings
  loader : Loader
  now : Nat

/-- A slot, how often the loader has been asked by now, and what has been seen from outside. -/
structure Scene (E : Engine) where
  slot : Slot E
  asked : Nat
  effects : List (Effect E) := []

namespace Scene

variable {E : Engine}

/-! ## Traces -/

/-- One more thing is seen from outside. -/
def add (sc : Scene E) (e : Effect E) : Scene E := { sc with effects := sc.effects ++ [e] }

/-- A transition of the workspace. -/
def occur (sc : Scene E) (o : Occurrence) : Scene E := sc.add (.event ⟨sc.slot.id, o⟩)

/-- A message that is shown for a short time. -/
def sayBriefly (h : House) (sc : Scene E) (text : String) (kind : MessageKind) : Scene E :=
  sc.add (.message ⟨text, h.settings.messages.shortMs, kind⟩)

/-- A message that is shown for a long time. -/
def sayLong (h : House) (sc : Scene E) (text : String) (kind : MessageKind) : Scene E :=
  sc.add (.message ⟨text, h.settings.messages.longMs, kind⟩)

/-- A warning. -/
def warn (h : House) (sc : Scene E) (text : String) : Scene E := sc.sayBriefly h text .warning

/-- The visual debugger is asked for something. -/
def draw (sc : Scene E) (d : Drawing) : Scene E := sc.add (.drawing d)

/-! ## Parts of the slot -/

/-- The state changes. -/
def onState (sc : Scene E) (f : WorkspaceState → WorkspaceState) : Scene E :=
  { sc with slot := { sc.slot with state := f sc.slot.state } }

/-- The permit changes. -/
def onPermit (sc : Scene E) (f : Permit JobId → Permit JobId) : Scene E :=
  { sc with slot := { sc.slot with permit := f sc.slot.permit } }

/-- The mailbox is replaced. -/
def withMailbox (sc : Scene E) (m : Mailbox) : Scene E := { sc with slot := { sc.slot with mailbox := m } }

/-- The suspended run is replaced. -/
def withSuspended (sc : Scene E) (s : Option (Suspension E.Snapshot)) : Scene E :=
  { sc with slot := { sc.slot with suspended := s } }

/-! ## Output, highlight and suspended run -/

/-- The output is cleared. -/
def clearOutput (sc : Scene E) : Scene E :=
  (sc.onState (·.onOutput fun _ => .cleared)).occur .outputCleared

/-- No line is highlighted any more. -/
def clearHighlight (sc : Scene E) : Scene E :=
  (sc.onState ({ · with highlighted := none })).draw (.highlight none)

/-- The suspended run is forgotten. -/
def forget (sc : Scene E) : Scene E := sc.withSuspended none

/-- The suspended run is forgotten, and the lines where it stopped are no longer highlighted. -/
def forgetShown (sc : Scene E) : Scene E :=
  match sc.slot.suspended with
  | some _ => sc.forget.clearHighlight
  | none => sc

/-- Where a run stopped is shown. -/
def present (sc : Scene E) (context : Context) (location : Option Location) (prependLines : Int32) : Scene E :=
  let range := location.map (LineRange.ofLocation · prependLines)
  (((sc.onState ({ · with highlighted := range })).draw (.highlight range)).draw (.inspect (some context))).draw
    (.environment context location)

/-- A new context is made from what is selected; the library is loaded before. -/
def renewContext (sc : Scene E) : Scene E :=
  let selection := sc.slot.state.selection
  let context := E.makeContext selection
  (((sc.add (.loaded selection.library.name)).add (.engine (.makeContext selection))).onState
    ({ · with context := context })).occur (.contextReset context.chapter)

/-! ## Ends of runs -/

/-- The fault of a run that was stopped from outside. -/
def stopped : Fault := .interrupted {}

/-- A run is stopped from outside: recorded among the faults of the context, and as the testcase's. -/
def finishInterrupted (h : House) (sc : Scene E) (mode : Mode) : Scene E × Outcome :=
  let sc := sc.onState fun s => { s with context := s.context.report [stopped] }
  let sc := match mode with
    | .testcaseRun index =>
      ((sc.onState (·.setResult index (.failure [stopped]))).occur (.testcaseFailed index)).warn h
        ("Execution of testcase " ++ toString index ++ " aborted")
    | _ => sc.forget.clearHighlight.warn h "Execution aborted"
  (sc, .interrupted)

/-- After a run that closed the log: a testcase has come out; after any other run no line is highlighted,
and after an editor's no suspended run is left. -/
def settleMode (sc : Scene E) (mode : Mode) (verdict : Verdict) (occurrence : Nat → Occurrence) : Scene E :=
  match mode with
  | .testcaseRun index => (sc.onState (·.setResult index verdict)).occur (occurrence index)
  | .editorRun => sc.forget.clearHighlight
  | _ => sc.clearHighlight

/-- A run has come to a value. -/
def finishValue (sc : Scene E) (mode : Mode) (value : Json) : Scene E × Outcome :=
  let sc := sc.onState (·.onOutput (·.appendResult value))
  (sc.settleMode mode (.success value) .testcaseSucceeded, .finished value)

/-- A run has failed: its faults are recorded in the context as they are, and shown with the user's lines. -/
def finishFaults (sc : Scene E) (mode : Mode) (faults : List Fault) (prependLines : Int32) : Scene E × Outcome :=
  let shown := faults.map (·.remapped prependLines)
  let sc := sc.onState fun s => { s with context := s.context.report faults }
  let sc := sc.onState (·.onOutput (·.appendFaults shown))
  (sc.settleMode mode (.failure shown) .testcaseFailed, .errored shown)

/-- The value shown when a run stops at a breakpoint. -/
def breakpointSentinel : String := "Breakpoint hit!"

/-- A run is suspended, because it was asked to pause or at a breakpoint. -/
def finishSuspended (h : House) (sc : Scene E) (s : Suspension E.Snapshot) (paused : Bool) : Scene E × Outcome :=
  let sc := (sc.present s.context s.location s.prependLines).withSuspended (some s)
  if paused then (sc.warn h "Execution paused", .paused)
  else (sc.onState (·.onOutput (·.appendResult (.str breakpointSentinel))), .breakpointHit)

end Scene

end Workbench
