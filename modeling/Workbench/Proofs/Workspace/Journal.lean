/-
The output log of a workspace as a journal that is only ever added to.

A journal keeps apart what the output log keeps in one list: the entries that
are closed, and the lines that still collect (`Journal`). Nothing is ever taken
back from a journal. The output log has to find out each time whether its last
entry is one that still collects, from what the entry is and where the boundary
stands; it always finds what the journal says (`OutputLog.Follows.takeLines`),
whatever was written before and in whatever order.
-/
import Workbench.Workspace.State

namespace Workbench

/-! ## What is on the console -/

namespace OutputLog

/-- What has been written to the console, line by line. -/
def lines (o : OutputLog) : List String := o.entries.flatMap OutputEntry.lines

variable (o : OutputLog)

theorem takeLines_lines : o.takeLines.1.flatMap OutputEntry.lines ++ o.takeLines.2 = o.lines := by
  unfold takeLines lines
  split
  · split
    · next ls last =>
      obtain ⟨kept, entries⟩ := List.getLast?_eq_some_iff.1 last
      simp [entries, OutputEntry.lines]
    · exact List.append_nil _
  · exact List.append_nil _

@[simp] theorem appendLine_lines (line : String) : (o.appendLine line).lines = o.lines ++ [line] := by
  rw [← o.takeLines_lines]
  simp [appendLine, lines, OutputEntry.lines]

@[simp] theorem appendLines_lines (ls : List String) : (o.appendLines ls).lines = o.lines ++ ls := by
  unfold appendLines
  induction ls generalizing o with
  | nil => simp
  | cons l ls ih => rw [List.foldl_cons, ih]; simp

@[simp] theorem appendResult_lines (value : Json) : (o.appendResult value).lines = o.lines := by
  rw [← o.takeLines_lines]
  simp [appendResult, lines, OutputEntry.lines]

@[simp] theorem appendFaults_lines (faults : List Fault) : (o.appendFaults faults).lines = o.lines := by
  rw [← o.takeLines_lines]
  simp [appendFaults, lines, OutputEntry.lines]

@[simp] theorem beginRun_lines : o.beginRun.lines = o.lines := rfl

@[simp] theorem pushCode_lines (text : String) : (o.pushCode text).lines = o.lines := by
  simp [pushCode, lines, OutputEntry.lines]

@[simp] theorem cleared_lines : cleared.lines = [] := rfl

/-- The entry in which the lines of a run are collected, if it has written any. -/
def collected : List String → List OutputEntry
  | [] => []
  | ls => [.log ls]

end OutputLog

/-! ## What is written -/

/-- One thing that is written to the output of a workspace. -/
inductive Writing where
  | beginRun
  | line (text : String)
  | result (value : Json)
  | faults (faults : List Fault)
  | code (text : String)
  | clear

/-- The output once something is written to it. -/
def OutputLog.write (o : OutputLog) : Writing → OutputLog
  | .beginRun => o.beginRun
  | .line text => o.appendLine text
  | .result value => o.appendResult value
  | .faults faults => o.appendFaults faults
  | .code text => o.pushCode text
  | .clear => .cleared

/-- The workspace once all that is written to its output. -/
def WorkspaceState.written (s : WorkspaceState) (writings : List Writing) : WorkspaceState :=
  writings.foldl (fun s w => s.onOutput (·.write w)) s

/-- The lines logged since everything was cleared last, those from before the writing given. -/
def Writing.logged : Writing → List String → List String
  | .line text, earlier => earlier ++ [text]
  | .clear, _ => []
  | .beginRun, earlier | .result _, earlier | .faults _, earlier | .code _, earlier => earlier

/-- Entries that are closed and lines that still collect. -/
structure Journal where
  closed : List OutputEntry := []
  buffer : List String := []

namespace Journal

/-- All entries, with the lines that still collect as the last. -/
def shown (j : Journal) : List OutputEntry := j.closed ++ OutputLog.collected j.buffer

/-- The journal once something is written to it. A run that begins and a text to be run close the lines that still
collect as an entry of their own; what closes a run takes them over. -/
def write (j : Journal) : Writing → Journal
  | .beginRun => { closed := j.shown }
  | .line text => { j with buffer := j.buffer ++ [text] }
  | .result value => { closed := j.closed ++ [.result value j.buffer] }
  | .faults faults => { closed := j.closed ++ [.faults faults j.buffer] }
  | .code text => { closed := j.shown ++ [.code text] }
  | .clear => {}

/-- A closed entry is there until everything is cleared. -/
theorem closed_prefix (j : Journal) {w : Writing} (kept : w ≠ .clear) : j.closed <+: (j.write w).closed := by
  cases w with
  | beginRun => exact List.prefix_append ..
  | line => exact List.prefix_refl _
  | result => exact List.prefix_append ..
  | faults => exact List.prefix_append ..
  | code => exact (List.prefix_append ..).trans (List.prefix_append ..)
  | clear => exact absurd rfl kept

theorem closed_prefix_all (j : Journal) {writings : List Writing} (kept : .clear ∉ writings) :
    j.closed <+: (writings.foldl write j).closed := by
  induction writings generalizing j with
  | nil => exact List.prefix_refl _
  | cons w writings ih =>
    obtain ⟨here, later⟩ := not_or.1 (mt List.mem_cons.2 kept)
    exact (j.closed_prefix (Ne.symm here)).trans (ih (j.write w) later)

end Journal

/-! ## The output log and the journal -/

namespace OutputLog

/-- An output log that shows what a journal has. The boundary stands among the closed entries, and a log entry behind
it is not closed. -/
structure Follows (o : OutputLog) (j : Journal) : Prop where
  entries : o.entries = j.shown
  boundary : o.boundary ≤ j.closed.length
  closed : o.boundary < j.closed.length → ∀ ls, j.closed.getLast? ≠ some (.log ls)

variable {o : OutputLog} {j : Journal}

/-- What is taken off the end of the output is what still collects. -/
theorem Follows.takeLines (follows : o.Follows j) : o.takeLines = (j.closed, j.buffer) := by
  unfold OutputLog.takeLines
  rw [follows.entries, Journal.shown]
  cases buffer : j.buffer with
  | nil =>
    simp only [collected, List.append_nil]
    split
    · next behind =>
      split
      · next ls last => exact absurd last (follows.closed behind ls)
      · rfl
    · rfl
  | cons l ls =>
    have behind : o.boundary < (j.closed ++ collected (l :: ls)).length := by
      simpa [collected] using Nat.lt_succ_of_le follows.boundary
    rw [if_pos behind]
    simp [collected]

/-- An entry that closes what collects. -/
theorem Follows.close (follows : o.Follows j) {e : OutputEntry} (entry : ∀ ls, e ≠ .log ls) :
    Follows { o with entries := j.closed ++ [e] } { closed := j.closed ++ [e] } where
  entries := by simp [Journal.shown, collected]
  boundary := by simpa using Nat.le_succ_of_le follows.boundary
  closed _ ls := by simpa using entry ls

/-- All that is there lies before the boundary. -/
theorem Follows.of_closed (all : o.boundary = o.entries.length) : o.Follows { closed := o.entries } where
  entries := by simp [Journal.shown, collected]
  boundary := Nat.le_of_eq all
  closed behind := absurd behind (all ▸ Nat.lt_irrefl _)

/-- Whatever is written, the output goes on as the journal does. -/
theorem Follows.write (follows : o.Follows j) (w : Writing) : (o.write w).Follows (j.write w) := by
  cases w with
  | beginRun =>
    rw [Journal.write, ← follows.entries]
    exact of_closed rfl
  | line text =>
    refine ⟨?_, follows.boundary, follows.closed⟩
    simp only [OutputLog.write, appendLine, follows.takeLines, Journal.write, Journal.shown]
    cases j.buffer <;> rfl
  | result value =>
    simp only [OutputLog.write, appendResult, follows.takeLines]
    exact follows.close nofun
  | faults faults =>
    simp only [OutputLog.write, appendFaults, follows.takeLines]
    exact follows.close nofun
  | code text =>
    rw [Journal.write, ← follows.entries]
    exact of_closed (by simp [OutputLog.write, pushCode])
  | clear => exact of_closed rfl

/-- What is written to the console. -/
theorem write_lines (o : OutputLog) (w : Writing) : (o.write w).lines = w.logged o.lines := by
  cases w <;> simp [write, Writing.logged]

end OutputLog

/-! ## The workspace -/

namespace WorkspaceState

variable {s : WorkspaceState} {j : Journal}

theorem written_follows (follows : s.output.Follows j) (writings : List Writing) :
    (s.written writings).output.Follows (writings.foldl Journal.write j) := by
  induction writings generalizing s j with
  | nil => exact follows
  | cons w writings ih => exact ih (s := s.onOutput (·.write w)) (follows.write w)

theorem written_lines (s : WorkspaceState) (writings : List Writing) :
    (s.written writings).output.lines = writings.foldl (fun ls w => w.logged ls) s.output.lines := by
  induction writings generalizing s with
  | nil => rfl
  | cons w writings ih => rw [List.foldl_cons, ← s.output.write_lines w]; exact ih (s.onOutput (·.write w))

/-- Whatever is written to the output of a fresh workspace, in whatever order: the output shows what the journal has;
the boundary stands nowhere behind it; the entries before the boundary are there until everything is cleared; and the
lines on the console are those that were logged since then. -/
theorem written_as_journal (defaults : ExecutionSettings) (context : Context) (writings : List Writing) :
    ((ofContext defaults context).written writings).output.entries = (writings.foldl Journal.write {}).shown ∧
    ((ofContext defaults context).written writings).output.boundary ≤
      ((ofContext defaults context).written writings).output.entries.length ∧
    (∀ before after, writings = before ++ after → .clear ∉ after →
      ((ofContext defaults context).written before).output.entries.take
          ((ofContext defaults context).written before).output.boundary <+:
        ((ofContext defaults context).written writings).output.entries) ∧
    ((ofContext defaults context).written writings).output.entries.flatMap OutputEntry.lines =
      writings.foldl (fun earlier w => w.logged earlier) [] := by
  have fresh : (ofContext defaults context).output.Follows {} := .of_closed rfl
  have follows (ws : List Writing) := written_follows fresh ws
  refine ⟨(follows _).entries, ?_, ?_, written_lines _ _⟩
  · rw [(follows _).entries, Journal.shown, List.length_append]
    exact Nat.le_add_right_of_le (follows _).boundary
  · rintro before after rfl kept
    rw [(follows before).entries, (follows _).entries, Journal.shown, Journal.shown,
      List.take_append_of_le_length (follows before).boundary, List.foldl_append]
    have there := Journal.closed_prefix_all (before.foldl Journal.write {}) kept
    exact ((List.take_prefix ..).trans there).trans (List.prefix_append ..)

/-- A run that leaves its lines behind, and one that comes to something: the second does not take over the lines of
the first. -/
theorem written_as_journal_of_two_runs :
    ((ofContext {} ⟨1, {}, [], [], []⟩).written
        [.beginRun, .line "a", .beginRun, .line "b", .result (.int 1)]).output.entries =
      [.log ["a"], .result (.int 1) ["b"]] ∧
    ((ofContext {} ⟨1, {}, [], [], []⟩).written [.beginRun, .line "a", .beginRun]).output.entries.take 1 <+:
      ((ofContext {} ⟨1, {}, [], [], []⟩).written
        [.beginRun, .line "a", .beginRun, .line "b", .result (.int 1)]).output.entries := by
  obtain ⟨shown, -, kept, -⟩ := written_as_journal {} ⟨1, {}, [], [], []⟩
    [.beginRun, .line "a", .beginRun, .line "b", .result (.int 1)]
  exact ⟨shown, kept [.beginRun, .line "a", .beginRun] [.line "b", .result (.int 1)] rfl (by simp)⟩

end WorkspaceState

end Workbench
