/-
What the steps of a command come to.

A command has its hub to itself, so between two steps the workspace it works on is
at rest (`Desk.Rests`): nobody has the permit, and what the slot holds decides what
the next step does. Each kind of step has one lemma that says what it comes to and
how the workspace rests behind it; what a command does is put together from these.
-/
import Workbench.CommandLine.Transcript
import Workbench.Proofs.Run.Course
import Workbench.Proofs.Run.Passage

namespace Workbench.CommandLine

open Script

/-- The text of an output log as it is printed. -/
def logText (asJson : Bool) (entries : List OutputEntry) : String :=
  if asJson then Text.line (encode entries).pretty else String.join (entries.map fun entry => Text.line entry.text)

/-! ## Steps in a row -/

namespace Desk

variable {α β : Type} {d : Desk}

/-- What a step comes to at a desk, and the desk behind it. -/
def does (d : Desk) (x : Doing α) : Except String α × Desk := x.run.run d

/-- The desk with more of output. -/
def printed (d : Desk) (text : String) : Desk := { d with output := d.output ++ text }

theorem does_bind (x : Doing α) (f : α → Doing β) :
    d.does (x >>= f) =
      match d.does x with
      | (.ok a, behind) => behind.does (f a)
      | (.error message, behind) => (.error message, behind) := by
  unfold does
  rw [ExceptT.run_bind, StateT.run_bind]
  generalize StateT.run x.run d = done
  obtain ⟨message | a, behind⟩ := done <;> rfl

/-- What follows a step that succeeds. -/
theorem does_then {x : Doing α} {a : α} {behind : Desk} (done : d.does x = (.ok a, behind)) (f : α → Doing β) :
    d.does (x >>= f) = behind.does (f a) := by
  rw [does_bind, done]

/-- A step that fails ends what it begins. -/
theorem does_fails {x : Doing α} {message : String} {behind : Desk} (failed : d.does x = (.error message, behind))
    (f : α → Doing β) : d.does (x >>= f) = (.error message, behind) := by
  rw [does_bind, failed]

@[simp] theorem does_printLine (s : String) : d.does (printLine s) = (.ok (), d.printed (Text.line s)) := rfl

@[simp] theorem does_noteLine (s : String) :
    d.does (noteLine s) = (.ok (), { d with notes := d.notes ++ Text.line s }) := rfl

@[simp] theorem printed_printed (first second : String) :
    (d.printed first).printed second = d.printed (first ++ second) := by
  simp [printed, String.append_assoc]

theorem printed_empty : d.printed "" = d := by simp [printed]

/-- Lines printed one after the other. -/
theorem does_lines (text : α → String) (items : List α) :
    d.does (items.forM fun item => printLine (text item)) =
      (.ok (), d.printed (String.join (items.map fun item => Text.line (text item)))) := by
  induction items generalizing d with
  | nil => rw [List.map_nil, String.join_nil, printed_empty]; rfl
  | cons item items ih =>
    rw [List.forM_eq_forM, List.forM_cons, does_then (does_printLine _), ← List.forM_eq_forM, ih, printed_printed,
      List.map_cons, String.join_cons]

/-- A file is there, or the step fails. -/
theorem does_sourceOf (folder : Folder) (path : String) :
    d.does (sourceOf folder path) =
      match folder.read? path with
      | some text => (.ok text, d)
      | none => (.error ("Failed to read " ++ path), d) := by
  unfold sourceOf
  cases folder.read? path <;> rfl

end Desk

/-! ## A workspace at rest -/

/-- A desk whose workspace is at rest: it is held in the hub, and nobody has its permit. -/
structure Desk.Rests (d : Desk) (settings : Settings) (w : WorkspaceId) (slot : Slot Script.engine) : Prop where
  holds : d.hub.Holds settings .bundled w slot
  free : slot.permit = {}

/-- The desk that a command begins at. -/
def Desk.fresh (settings : Settings) : Desk := { hub := (Hub.create settings .bundled).1 }

/-- The two workspaces of a hub that has just been created. -/
theorem Desk.fresh_rests (settings : Settings) {w : WorkspaceId} (there : w = .playground ∨ w = .assessment) :
    (Desk.fresh settings).Rests settings w (.fresh settings w) where
  holds := by
    refine ⟨?_, ?_, ?_, rfl⟩
    · rfl
    · rfl
    · rcases there with rfl | rfl <;> rfl
  free := rfl

namespace Desk.Rests

variable {d : Desk} {settings : Settings} {w : WorkspaceId} {slot : Slot Script.engine}
  (rests : d.Rests settings w slot)

include rests

/-- What is printed does not matter. -/
theorem printed (text : String) : (d.printed text).Rests settings w slot := ⟨rests.holds, rests.free⟩

/-- An edit changes the state and nothing else. -/
theorem edits (e : Edit) :
    ∃ hub, d.does (edit w e) = (.ok (), { d with hub := hub }) ∧
      ({ d with hub := hub } : Desk).Rests settings w { slot with state := e.apply slot.state } := by
  obtain ⟨settings_eq, loader_eq, slot_eq, id_eq⟩ := rests.holds
  let edited : Slot Script.engine := { slot with state := e.apply slot.state }
  have edits : d.hub.edit w e = .ok (d.hub.withSlot edited) := by
    unfold Hub.edit
    rw [slot_eq]
    rfl
  refine ⟨d.hub.withSlot edited, ?_, ⟨settings_eq, loader_eq, ?_, id_eq⟩, rests.free⟩
  · unfold CommandLine.edit
    rw [does_then (rfl : d.does get = (.ok d, d)), edits]
    rfl
  · simp [Hub.slot_eq_ok, Hub.withSlot, Registry.set, edited, id_eq]

/-- The state of the workspace. -/
theorem looks : d.does (stateOf w) = (.ok slot.state, d) := by
  have state : d.hub.state w = .ok slot.state := by
    unfold Hub.state
    rw [rests.holds.slot_eq]
    rfl
  unfold stateOf
  rw [does_then (rfl : d.does get = (.ok d, d)), state]
  rfl

/-- The output log is printed. -/
theorem prints (asJson : Bool) :
    d.does (printLog w asJson) = (.ok (), d.printed (logText asJson slot.state.output.entries)) := by
  unfold printLog
  rw [Desk.does_then rests.looks]
  cases asJson with
  | true => rfl
  | false => exact Desk.does_lines _ _

end Desk.Rests

/-! ## Operations -/

namespace Desk

variable {d : Desk} {settings : Settings} {w : WorkspaceId} {slot : Slot Script.engine}

/-- An operation that is not refused. -/
theorem does_perform {operation : Operation} {hub : Hub Script.engine} {now : Nat} {reply : Reply}
    (performed : d.hub.perform d.now w operation = (hub, now, some reply)) (taken : ∀ r, reply ≠ .refused r) :
    d.does (perform w operation) = (.ok reply, { d with hub := hub, now := now }) := by
  unfold perform
  rw [does_then (rfl : d.does get = (.ok d, d)), performed]
  cases reply with
  | refused r => exact absurd rfl (taken r)
  | _ => rfl

theorem does_evaluate {mode : Mode} {hub : Hub Script.engine} {now : Nat} {o : Outcome}
    (performed : d.hub.perform d.now w (.evaluate mode) = (hub, now, some (.outcome o))) :
    d.does (evaluate w mode) = (.ok o, { d with hub := hub, now := now }) := by
  unfold evaluate
  rw [does_then (does_perform performed nofun)]
  rfl

/-- Another library is selected, or the same. -/
theorem Rests.selects (rests : d.Rests settings w slot) (library : LibraryName) :
    ∃ hub now after,
      d.does (discard (perform w (.selectLibrary library))) = (.ok (), { d with hub := hub, now := now }) ∧
      ({ d with hub := hub, now := now } : Desk).Rests settings w after ∧
      after.state.brief = { slot.state.brief with library := library } := by
  obtain ⟨hub, now, after, changed, performed, holds, free, brief⟩ :
      ∃ hub now after changed,
        d.hub.perform d.now w (.selectLibrary library) = (hub, now, some (.switched changed)) ∧ _ :=
    rests.holds.selects Loader.bundled_prompt rests.free library
  refine ⟨hub, now, after, ?_, ⟨holds, free⟩, brief⟩
  have done := does_perform performed nofun
  show d.does (_ >>= fun _ => pure ()) = _
  rw [does_then done]
  rfl

end Desk

/-! ## Commands -/

/-- A command whose settings do not load does nothing. -/
theorem Invocation.transcript_unloaded {i : Invocation} {folder : Folder} {environment : List (String × String)}
    {e : SettingsError} (fails : Settings.load folder environment i.overrides = .error e) :
    i.transcript folder environment = { error := some e.message } := by
  unfold Invocation.transcript
  rw [fails]

/-- The error that ends a command, if one does. -/
def errorOf : Except String Unit → Option String
  | .ok _ => none
  | .error message => some message

/-- What a command whose settings have been loaded prints, and how it ends. -/
theorem Invocation.transcript_eq {i : Invocation} {folder : Folder} {environment : List (String × String)}
    {settings : Settings} {result : Except String Unit} {d : Desk}
    (loads : Settings.load folder environment i.overrides = .ok settings)
    (does : (Desk.fresh settings).does (i.command.perform folder) = (result, d)) :
    i.transcript folder environment = { output := d.output, notes := d.notes, error := errorOf result } := by
  have ran : (i.command.perform folder).run.run { hub := (Hub.create settings .bundled).1 } = (result, d) := does
  unfold Invocation.transcript
  simp only [loads, ran]
  cases result <;> rfl

end Workbench.CommandLine
