/-
On which lines the statements of a composed program stand, as the user counts them.

Each statement of a text stands on one of the lines of the text (`parse_line`), and so
does the error of a text that is no program (`parse_error_line`). So,
less the lines in front of the editor's text, the statements in front stand on
lines that are none of the user's, and the editor's on their own (`numbered`).
-/
import Mathlib.Algebra.Ring.Nat
import Workbench.Proofs.Script.Seam

namespace Workbench.Script

open Grammar

/-! ## The lines of a text -/

/-- The text has a line of this number. -/
def HasLine (text : List Char) (n : Nat) : Prop := 1 ≤ n ∧ n ≤ 1 + Text.breaks text

theorem Cursor.At.hasLine {c : Cursor} {text : List Char} (lies : c.At text) : HasLine text c.line := by
  obtain ⟨before, same, -, line⟩ := lies
  rw [HasLine, line, same, Text.breaks_append]
  omega

theorem Furthest.note_hasLine {f : Furthest} {c : Cursor} {text : List Char} (part : Part) (before : Nat)
    (seen : HasLine text f.line) (lies : c.At text) : HasLine text (f.note part c before).line := by
  unfold note
  split
  · exact seen
  · split
    · exact seen
    · split
      · exact lies.hasLine
      · exact seen

/-- Places in a text, and its lines. -/
def onLines (text : List Char) : Likeness where
  place c c' := c' = c ∧ c.At text
  seen f f' := f' = f ∧ HasLine text f.line
  line n n' := n' = n ∧ HasLine text n
  rest := fun ⟨same, _⟩ => by rw [same]
  lines := by
    rintro c _ ⟨rfl, lies⟩
    exact ⟨rfl, lies.hasLine⟩
  after := fun ⟨same, lies⟩ within => ⟨by rw [same], lies.after within⟩
  count := fun ⟨same, _⟩ ⟨seen, _⟩ => by rw [same, seen]
  note := fun part before ⟨same, lies⟩ ⟨seen, within⟩ =>
    ⟨by rw [same, seen], Furthest.note_hasLine part before within lies⟩

theorem Grammar.Draft.statement_line {n : Nat} {d : Draft} {s : Statement} (made : d.statement n = .ok s) :
    s.line = Int32.ofNat n := by
  cases d with
  | command c =>
    cases made
    rfl
  | sleep duration line =>
    simp only [statement] at made
    split at made
    · cases made
    · cases made
      rfl

/-- A statement stands on the line of its draft. -/
theorem statements_line {drafts : List (Nat × Draft)} {program : List Statement}
    (made : statements drafts = .ok program) {s : Statement} (here : s ∈ program) :
    ∃ d ∈ drafts, s.line = Int32.ofNat d.1 := by
  induction drafts generalizing program with
  | nil =>
    cases made
    cases here
  | cons d rest ih =>
    obtain ⟨n, d⟩ := d
    rw [statements] at made
    cases first : d.statement n with
    | error e =>
      rw [first] at made
      cases made
    | ok own =>
      rw [first] at made
      dsimp only at made
      cases later : statements rest with
      | error e =>
        rw [later] at made
        cases made
      | ok more =>
        rw [later] at made
        cases made
        rcases List.mem_cons.1 here with rfl | here
        · exact ⟨_, .head _, d.statement_line first⟩
        · obtain ⟨d, there, line⟩ := ih later here
          exact ⟨d, .tail _ there, line⟩

/-- A statement that cannot be made is a sleep of negative length. -/
theorem statements_error {drafts : List (Nat × Draft)} {e : ParseError} (fails : statements drafts = .error e) :
    ∃ n x line, (n, Draft.sleep x line) ∈ drafts ∧ e = .negativeSleep line := by
  induction drafts with
  | nil => cases fails
  | cons d rest ih =>
    obtain ⟨n, d⟩ := d
    rw [statements] at fails
    cases first : d.statement n with
    | error own =>
      rw [first] at fails
      cases fails
      cases d with
      | command c => cases first
      | sleep x line =>
        simp only [Draft.statement] at first
        split at first
        · cases first
          exact ⟨n, x, line, .head _, rfl⟩
        · cases first
    | ok s =>
      rw [first] at fails
      dsimp only at fails
      cases later : statements rest with
      | error own =>
        rw [later] at fails
        cases fails
        obtain ⟨m, x, line, there, same⟩ := ih later
        exact ⟨m, x, line, .tail _ there, same⟩
      | ok more =>
        rw [later] at fails
        cases fails

/-- The command begins on a line of the text, and so does the duration of a sleep. -/
def Grammar.OnLines (text : List Char) (d : Nat × Draft) : Prop :=
  HasLine text d.1 ∧ ∀ x line, d.2 = .sleep x line → HasLine text line

theorem Grammar.CommandLike.onLines {text : List Char} {d d' : Nat × Draft}
    (like : CommandLike (Script.onLines text).line d d') : OnLines text d := by
  refine ⟨like.1.2, fun x line sleeps => ?_⟩
  obtain ⟨n, d⟩ := d
  obtain ⟨n', d'⟩ := d'
  cases sleeps
  cases like.2 with
  | sleep _ there => exact there.2

/-- What a text is read as stands on its lines. -/
theorem Grammar.Lines.onLines {text : String} {drafts : List (Nat × Draft)} {c₂ : Cursor} {f₂ : Furthest}
    (lines : Lines (.ofText text) {} drafts c₂ f₂) :
    (∀ d ∈ drafts, OnLines text.toList d) ∧ c₂.At text.toList ∧ HasLine text.toList f₂.line := by
  have first : HasLine text.toList ({} : Furthest).line := ⟨Nat.le_refl 1, Nat.le_add_right 1 _⟩
  obtain ⟨drafts', _, _, -, likes, place, seen⟩ :=
    lines.alike (L := Script.onLines text.toList) ⟨rfl, .ofText text⟩ ⟨rfl, first⟩
  have each := (List.forall₂_and_left (R := fun _ _ => True) drafts drafts').1
    (likes.imp fun _ _ like => ⟨like.onLines, trivial⟩)
  exact ⟨each.1, place.2, seen.2⟩

/-- A statement stands on a line of its text. -/
theorem parse_line {text : String} {program : List Statement} (parses : parse text = .ok program) {s : Statement}
    (here : s ∈ program) : ∃ n, s.line = Int32.ofNat n ∧ 1 ≤ n ∧ n ≤ 1 + Text.breaks text.toList := by
  obtain ⟨drafts, c₂, f₂, lines, -⟩ := program_reads (.ofText text) {}
  have reads := parse_of_lines lines
  rw [parses] at reads
  split at reads
  · obtain ⟨d, there, line⟩ := statements_line reads.symm here
    exact ⟨d.1, line, (lines.onLines.1 d there).1⟩
  · cases reads

/-- So does an error. -/
theorem parse_error_line {text : String} {e : ParseError} (fails : parse text = .error e) :
    ∃ n, e.line = Int32.ofNat n ∧ HasLine text.toList n := by
  obtain ⟨drafts, c₂, f₂, lines, -⟩ := program_reads (.ofText text) {}
  have reads := parse_of_lines lines
  obtain ⟨each, lies, seen⟩ := lines.onLines
  rw [fails] at reads
  split at reads
  · obtain ⟨n, x, line, there, rfl⟩ := statements_error reads.symm
    exact ⟨line, rfl, (each _ there).2 x line rfl⟩
  · cases reads
    exact ⟨_, rfl, Furthest.note_hasLine _ _ (Furthest.note_hasLine _ _ seen lies) (.ofText text)⟩

/-! ## Composed programs -/

/-- A program of the statements in front and the editor's, less so many lines in front: the first stand on lines that
are none of the user's, the others on the lines of the editor's text. -/
structure Numbered (before editor program : List Statement) (prependLines : Int32) : Prop where
  front : ∀ (j : Nat) (s : Statement), before[j]? = some s →
    program[j]? = some s ∧ (s.line - prependLines).toInt ≤ 0
  own : ∀ (j : Nat) (s : Statement), editor[j]? = some s →
    ∃ t, program[before.length + j]? = some t ∧ t.command = s.command ∧ t.line - prependLines = s.line

theorem front_line {front : String} {program : List Statement} (parses : parse front = .ok program)
    (short : Text.lineCount front < 2 ^ 31) {s : Statement} (here : s ∈ program) :
    (s.line - Composition.lineCount front).toInt ≤ 0 := by
  obtain ⟨n, line, some_line, within⟩ := parse_line parses here
  have some_text : front ≠ "" := by
    rintro rfl
    rw [parse_empty parses] at here
    cases here
  have count : Text.lineCount front = Text.breaks front.toList + 1 := by
    unfold Text.lineCount
    rw [if_neg fun none => some_text (String.toList_eq_nil_iff.1 none)]
  rw [line, Composition.lineCount, Int32.toInt_sub, Int32.toInt_ofNat_of_lt short,
    Int32.toInt_ofNat_of_lt (by omega), Int.bmod_eq_of_le] <;> omega

theorem numbered {s : WorkspaceState} {before editor behind : List Statement}
    (before_parses : parse s.editorPrepend = .ok before) (editor_parses : parse s.editorValue = .ok editor)
    (behind_parses : parse s.editorPostpend = .ok behind) (short : Text.lineCount s.editorPrepend < 2 ^ 31) :
    ∃ program, parse (Composition.ofState s none).text = .ok program ∧
      Numbered before editor program (Composition.ofState s none).prependLines := by
  refine ⟨_, parse_fragments before_parses editor_parses behind_parses rfl rfl, ?_, ?_⟩
  · intro j own here
    refine ⟨?_, front_line before_parses short (List.mem_of_getElem? here)⟩
    have within := (List.getElem?_eq_some_iff.1 here).1
    rw [List.append_assoc, List.append_assoc, List.getElem?_append_left within, here]
  · intro j own here
    have within := (List.getElem?_eq_some_iff.1 here).1
    refine ⟨own.below (Composition.lineCount s.editorPrepend), ?_, rfl, Int32.add_sub_cancel ..⟩
    rw [List.append_assoc, List.append_assoc, List.getElem?_append_right (Nat.le_add_right ..), Nat.add_sub_cancel_left,
      List.getElem?_append_left (by simpa using within), List.getElem?_map, here, Option.map_some]

end Workbench.Script
