/-
Two texts with a line feed between them.

If the first text is a program, the text of both is read as the first, and then as
the second further down: its statements stand on lines further down by the lines of
the first, and so does its error, if it is none. At the seam itself the line feed is
a line break of its own, unless the first text ends in a carriage return: then the
two are one line break, and the empty line behind the return is gone
(`Grammar.Lines.extend`). A composed program is its fragments in this way, one after
another.
-/
import Workbench.Proofs.Script.Locality
import Workbench.Script.Machine
import Workbench.Source.Composition

namespace Workbench.Script

namespace Grammar

open Reading

variable {c c₂ : Cursor} {f f₂ : Furthest} {drafts : List (Nat × Draft)}

/-! ## Lines in front of lines -/

theorem Lines.unique {drafts' : List (Nat × Draft)} {c₂' : Cursor} {f₂' : Furthest} (lines : Lines c f drafts c₂ f₂)
    (others : Lines c f drafts' c₂' f₂') : drafts' = drafts ∧ c₂' = c₂ ∧ f₂' = f₂ := by
  induction lines generalizing drafts' c₂' f₂' with
  | last read ends =>
    cases others with
    | last read' ends' =>
      cases read.symm.trans read'
      exact ⟨rfl, rfl, rfl⟩
    | next read' breaks' rest' =>
      cases read.symm.trans read'
      cases ends.symm.trans breaks'
  | next read breaks rest ih =>
    cases others with
    | last read' ends' =>
      cases read.symm.trans read'
      cases breaks.symm.trans ends'
    | next read' breaks' rest' =>
      cases read.symm.trans read'
      cases breaks.symm.trans breaks'
      obtain ⟨rfl, rfl, rfl⟩ := ih rest'
      exact ⟨rfl, rfl, rfl⟩

/-- Where nothing is left, the lines are one empty line. -/
theorem Lines.of_end (lines : Lines c f drafts c₂ f₂) (done : c.rest = []) : drafts = [] := by
  have behind_le := c.rest_behindGap_le
  rw [done] at behind_le
  have behind : c.behindGap.rest = [] := List.length_eq_zero_iff.1 (Nat.le_zero.1 behind_le)
  have ends : c.behindGap.EndsLine := by
    intro ch rest same
    rw [behind] at same
    cases same
  have none_read {l : Option (Nat × Draft)} {c₁ : Cursor} {f₁ : Furthest}
      (read : line c.behindGap f = (some (l, c₁), f₁)) : l = none ∧ c₁ = c.behindGap := by
    rw [line_eq, expecting_read, optional_read] at read
    obtain ⟨d, rfl, read⟩ | ⟨none, same, -⟩ := read
    · have fails : Fails [] sentence sentence c.behindGap := sentence_fails ends
      exact absurd read fails.not_read
    · exact ⟨none, same⟩
  cases lines with
  | last read ends =>
    obtain ⟨rfl, -⟩ := none_read read
    rfl
  | next read breaks rest =>
    obtain ⟨-, rfl⟩ := none_read read
    rw [Cursor.behindGap_behindGap, behind] at breaks
    cases breaks

/-- The place behind a text and a line feed. -/
def seam (text more : List Char) : Cursor := ⟨more, text.length + 1, 1 + Text.breaks text + 1⟩

theorem seam_of_end {text : List Char} (lies : c.At text) (done : c.rest = []) (more : List Char) :
    (c.inFront more).after 1 = seam text more := by
  obtain ⟨position, line⟩ := lies.end_ done
  unfold Cursor.inFront Cursor.after seam
  rw [done, ← position, ← line]
  rfl

theorem seam_of_return {text : List Char} (lies : c.At text) (single : c.rest = ['\r']) (more : List Char) :
    (c.inFront more).after 2 = seam text more := by
  obtain ⟨before, same, position, line⟩ := lies
  rw [single] at same
  have length : text.length = c.position + 1 := by rw [same, position, List.length_append, List.length_singleton]
  have breaks : Text.breaks text = Text.breaks before := by
    rw [same, Text.breaks_append]
    rfl
  unfold Cursor.inFront Cursor.after seam
  rw [single, length, breaks, ← line]
  rfl

/-- Lines that reach the end of their text are read in front of a line feed too, and then whatever lines
come behind it. -/
theorem Lines.extend {text : List Char} (lines : Lines c f drafts c₂ f₂) (done : c₂.rest = []) (lies : c.At text)
    (within : f.position ≤ text.length) (more : List Char) :
    ∃ f₁, f₁.position ≤ text.length ∧ ∀ {drafts' c₃ f₃}, Lines (seam text more) f₁ drafts' c₃ f₃ →
      Lines (c.inFront more) f (drafts ++ drafts') c₃ f₃ := by
  -- what a line comes to in front of the line feed, if it ends at all
  have line_there {c c₁ : Cursor} {f f₁ : Furthest} {l : Option (Nat × Draft)}
      (read : line c.behindGap f = (some (l, c₁), f₁)) (ends : c₁.behindGap.EndsLine) :
      line (c.inFront more).behindGap f = (some (l, c₁.inFront more), f₁) := by
    rw [Cursor.inFront_behindGap]
    exact line_kept c.behindGap_behindGap read ends
  induction lines with
  | @last c c₁ f f₁ l read ends =>
    obtain ⟨lies₁, within₁⟩ := line_located read (lies.after (gapFrom_le false _)) within
    have lies_end : c₁.behindGap.At text := lies₁.after (gapFrom_le false _)
    have line_ends : c₁.behindGap.EndsLine := by
      intro ch rest same
      rw [done] at same
      cases same
    have feed : breakLength? (c₁.inFront more).behindGap.rest = some 1 := by
      rw [Cursor.inFront_behindGap, Cursor.inFront, done]
      rfl
    refine ⟨f₁, within₁, fun behind => .next (line_there read line_ends) feed ?_⟩
    rwa [Cursor.inFront_behindGap, seam_of_end lies_end done]
  | @next c c₁ c₂ f f₁ f₂ l n drafts read breaks rest ih =>
    obtain ⟨lies₁, within₁⟩ := line_located read (lies.after (gapFrom_le false _)) within
    have lies_break : c₁.behindGap.At text := lies₁.after (gapFrom_le false _)
    have kept := line_there read (.of_break breaks)
    by_cases single : c₁.behindGap.rest = ['\r']
    · have one : n = 1 := by
        rw [single] at breaks
        cases breaks
        rfl
      have empty : drafts = [] := rest.of_end (by
        subst one
        rw [Cursor.after, single]
        rfl)
      have pair : breakLength? (c₁.inFront more).behindGap.rest = some 2 := by
        rw [Cursor.inFront_behindGap, Cursor.inFront, single]
        rfl
      refine ⟨f₁, within₁, fun behind => ?_⟩
      rw [empty, List.append_nil]
      refine .next kept pair ?_
      rwa [Cursor.inFront_behindGap, seam_of_return lies_break single]
    · obtain ⟨some_break, break_le⟩ := breakLength?_le breaks
      obtain ⟨f₀, within₀, further⟩ := ih done (lies_break.after break_le) within₁
      have same_break : breakLength? (c₁.inFront more).behindGap.rest = some n := by
        have some_text : c₁.behindGap.rest ≠ [] := by
          intro none_left
          rw [none_left] at breaks
          cases breaks
        rw [Cursor.inFront_behindGap, Cursor.inFront, breakLength?_append some_text single, breaks]
      refine ⟨f₀, within₀, fun behind => ?_⟩
      rw [List.append_assoc]
      refine .next kept same_break ?_
      rw [Cursor.inFront_behindGap, Cursor.inFront_after break_le]
      exact further behind

end Grammar

open Grammar

/-! ## Further down -/

/-- The statement so many lines further down. -/
def Statement.below (s : Statement) (by_ : Int32) : Statement := { s with line := s.line + by_ }

theorem Statement.below_below (s : Statement) (by_ more : Int32) : (s.below by_).below more = s.below (more + by_) := by
  unfold Statement.below
  rw [Int32.add_assoc, Int32.add_comm by_ more]

theorem Statement.below_zero (s : Statement) : s.below 0 = s := by
  unfold Statement.below
  rw [Int32.add_zero]

/-- An error of the same kind so many lines further down. -/
inductive ParseError.Below (by_ : Int32) : ParseError → ParseError → Prop
  | syntactic {f f' : Furthest} (line : (syntactic f').line = (syntactic f).line + by_) :
    Below by_ (.syntactic f) (.syntactic f')
  | negativeSleep {n n' : Nat} (line : (negativeSleep n').line = (negativeSleep n).line + by_) :
    Below by_ (.negativeSleep n) (.negativeSleep n')

/-- What a text comes to on its own, and what it comes to behind a program's lines. -/
inductive Continues (front : List Statement) (by_ : Int32) :
    Except ParseError (List Statement) → Except ParseError (List Statement) → Prop
  | program (more : List Statement) : Continues front by_ (.ok more) (.ok (front ++ more.map (·.below by_)))
  | error {e e' : ParseError} (below : e.Below by_ e') : Continues front by_ (.error e) (.error e')

theorem Continues.behind {by_ : Int32} {alone further : Except ParseError (List Statement)}
    (continues : Continues [] by_ alone further) (front : List Statement) :
    Continues front by_ alone (further.map (front ++ ·)) := by
  cases continues with
  | program more => exact .program more
  | error below => exact .error below

theorem statements_append {drafts drafts' : List (Nat × Draft)} {front : List Statement}
    (read : statements drafts = .ok front) :
    statements (drafts ++ drafts') = (statements drafts').map (front ++ ·) := by
  induction drafts generalizing front with
  | nil =>
    cases read
    rw [List.nil_append]
    cases statements drafts' <;> rfl
  | cons d rest ih =>
    obtain ⟨n, d⟩ := d
    rw [List.cons_append, statements]
    rw [statements] at read
    cases first : d.statement n with
    | error e =>
      rw [first] at read
      cases read
    | ok s =>
      rw [first] at read
      dsimp only at read ⊢
      cases later : statements rest with
      | error e =>
        rw [later] at read
        cases read
      | ok more =>
        rw [later] at read
        cases read
        rw [ih later]
        cases statements drafts' <;> rfl

/-- Commands further down make the same statements further down. -/
theorem statements_continue {down : Nat} {drafts drafts' : List (Nat × Draft)}
    (likes : List.Forall₂ (CommandLike fun n n' => n' = n + down) drafts drafts') :
    Continues [] (Int32.ofNat down) (statements drafts) (statements drafts') := by
  induction likes with
  | nil => exact .program []
  | @cons d d' rest rest' like likes ih =>
    obtain ⟨n, d⟩ := d
    obtain ⟨n', d'⟩ := d'
    obtain ⟨rfl, like⟩ : n' = n + down ∧ d.Like _ d' := like
    have one : (∃ e e', d.statement n = .error e ∧ d'.statement (n + down) = .error e' ∧
          e.Below (Int32.ofNat down) e') ∨
        ∃ s, d.statement n = .ok s ∧ d'.statement (n + down) = .ok (s.below (Int32.ofNat down)) := by
      cases like with
      | command command =>
        refine .inr ⟨_, rfl, ?_⟩
        simp only [Draft.statement, Statement.below, Int32.ofNat_add]
      | @sleep duration m m' there =>
        subst there
        simp only [Draft.statement]
        split
        · exact .inl ⟨_, _, rfl, rfl, .negativeSleep (Int32.ofNat_add m down)⟩
        · refine .inr ⟨_, rfl, ?_⟩
          simp only [Statement.below, Int32.ofNat_add]
    rw [statements, statements]
    obtain ⟨e, e', here, there, below⟩ | ⟨s, here, there⟩ := one
    · rw [here, there]
      exact .error below
    · rw [here, there]
      dsimp only
      generalize statements rest = alone at ih ⊢
      generalize statements rest' = further at ih ⊢
      cases ih with
      | program more => exact .program (s :: more)
      | error below => exact .error below

/-! ## Two texts -/

theorem parse_of_lines {text : String} {drafts : List (Nat × Draft)} {c₂ : Cursor} {f₂ : Furthest}
    (lines : Lines (.ofText text) {} drafts c₂ f₂) :
    parse text =
      if c₂.rest = [] then statements drafts
      else .error (.syntactic ((f₂.note .endOfInput c₂ (f₂.countAt c₂.position)).note .program (.ofText text) 0)) := by
  obtain ⟨drafts', c₂', f₂', lines', reads⟩ := program_reads (.ofText text) {}
  obtain ⟨rfl, rfl, rfl⟩ := lines.unique lines'
  unfold parse
  rw [reads]
  by_cases done : c₂'.rest = []
  · rw [if_pos done, if_pos done]
  · rw [if_neg done, if_neg done]
    rfl

theorem note_start (f : Furthest) (part : Part) (text : String) (before : Nat) :
    (f.note part (.ofText text) before).line = f.line := by
  unfold Furthest.note
  split
  · rfl
  · split
    · rfl
    · split
      · next behind => cases behind
      · rfl

/-- Behind a program and a line feed a text is read as on its own, further down. -/
theorem parse_joined {front : String} {program : List Statement} (parses : parse front = .ok program) (back : String) :
    Continues program (Int32.ofNat (Text.breaks front.toList + 1)) (parse back) (parse (front ++ "\n" ++ back)) := by
  obtain ⟨drafts, c₂, f₂, lines, -⟩ := program_reads (.ofText front) {}
  obtain ⟨drafts', c₃, f₃, lines', -⟩ := program_reads (.ofText back) {}
  have front_reads := parse_of_lines lines
  rw [parses] at front_reads
  have done : c₂.rest = [] := by
    by_contra left
    rw [if_neg left] at front_reads
    cases front_reads
  rw [if_pos done] at front_reads
  obtain ⟨f₁, within, extended⟩ := lines.extend done (.ofText front) (Nat.zero_le _) back.toList
  have place : (Cursor.ofText back).Moved (front.toList.length + 1) (Text.breaks front.toList + 1)
      (seam front.toList back.toList) :=
    ⟨rfl, (Nat.zero_add _).symm, Nat.add_assoc _ _ _, fun _ => rfl⟩
  have seen : ({} : Furthest).Moved (front.toList.length + 1) (Text.breaks front.toList + 1) f₁ :=
    .inl ⟨rfl, Nat.lt_succ_of_le within⟩
  obtain ⟨drafts'', c₃', f₃', lines'', likes, place', seen'⟩ := lines'.moved place seen
  have whole := extended lines''
  have text : (Cursor.ofText front).inFront back.toList = .ofText (front ++ "\n" ++ back) := by
    unfold Cursor.inFront Cursor.ofText
    rw [String.toList_append, String.toList_append, List.append_assoc]
    rfl
  rw [text] at whole
  rw [parse_of_lines lines', parse_of_lines whole, place'.rest]
  split
  · rw [statements_append front_reads.symm]
    exact (statements_continue likes).behind program
  · refine .error (.syntactic ?_)
    simp only [ParseError.line, note_start]
    rw [Likeness.moved_count place' seen', Likeness.moved_note _ _ place' seen']
    exact Int32.ofNat_add _ _

/-! ## Composed programs -/

theorem lineCount_of_text {fragment : String} (some_text : fragment ≠ "") :
    Composition.lineCount fragment = Int32.ofNat (Text.breaks fragment.toList + 1) := by
  have some_chars : fragment.toList ≠ [] := fun none => some_text (String.toList_eq_nil_iff.1 none)
  unfold Composition.lineCount Text.lineCount
  rw [if_neg some_chars]

theorem parse_empty {program : List Statement} (parses : parse "" = .ok program) : program = [] := by
  obtain ⟨drafts, c₂, f₂, lines, -⟩ := program_reads (.ofText "") {}
  rw [parse_of_lines lines, lines.of_end rfl] at parses
  split at parses
  · cases parses
    rfl
  · cases parses

/-- A fragment takes up lines of its own, at least one. -/
theorem parse_above {front back : String} {program more : List Statement} (front_parses : parse front = .ok program)
    (back_parses : parse back = .ok more) :
    parse (front ++ "\n" ++ back) =
      .ok (program ++ more.map (·.below (Int32.ofNat (Text.breaks front.toList + 1)))) := by
  have joined := parse_joined front_parses back
  rw [back_parses] at joined
  generalize parse (front ++ "\n" ++ back) = further at joined ⊢
  cases joined
  rfl

/-- A fragment takes up lines of its own, unless it is empty. -/
theorem parse_behind {front back : String} {program more : List Statement} (front_parses : parse front = .ok program)
    (back_parses : parse back = .ok more) :
    parse (front ++ (if front = "" then "" else "\n") ++ back) =
      .ok (program ++ more.map (·.below (Composition.lineCount front))) := by
  by_cases empty : front = ""
  · subst empty
    have none_moved : more.map (·.below (Composition.lineCount "")) = more := by
      show more.map (·.below 0) = more
      simp only [Statement.below_zero, List.map_id']
    rw [parse_empty front_parses, none_moved]
    exact back_parses
  · rw [if_neg empty, lineCount_of_text empty]
    exact parse_above front_parses back_parses

/-- A testcase's program, as it stands behind the fragment before it. -/
def testcaseText (post : String) : Option String → String
  | some program => (if post = "" then "" else "\n") ++ program
  | none => ""

/-- What stands behind the editor's text: the fragment there, and the testcase's program. -/
theorem parse_end {post : String} {testcase : Option String} {behind tests : List Statement}
    (post_parses : parse post = .ok behind) (tests_parse : testcase.elim (.ok []) parse = .ok tests) :
    parse (post ++ testcaseText post testcase) =
      .ok (behind ++ tests.map (·.below (Composition.lineCount post))) := by
  cases testcase with
  | none =>
    cases tests_parse
    rw [testcaseText, String.append_empty, List.map_nil, List.append_nil]
    exact post_parses
  | some program =>
    rw [Option.elim_some] at tests_parse
    rw [testcaseText, ← String.append_assoc]
    exact parse_behind post_parses tests_parse

theorem parse_fragments {pre value post : String} {testcase : Option String}
    {before editor behind tests : List Statement} (before_parses : parse pre = .ok before)
    (editor_parses : parse value = .ok editor) (behind_parses : parse post = .ok behind)
    (tests_parse : testcase.elim (.ok []) parse = .ok tests) {down : Int32}
    (lines : down = Composition.lineCount pre + Int32.ofNat (Text.breaks value.toList + 1)) :
    parse (Composition.ofFragments pre value post testcase).text =
      .ok (before ++ editor.map (·.below (Composition.lineCount pre)) ++ behind.map (·.below down) ++
        tests.map (·.below (down + Composition.lineCount post))) := by
  have whole := parse_behind before_parses (parse_above editor_parses (parse_end behind_parses tests_parse))
  simp only [← String.append_assoc] at whole
  have text : (Composition.ofFragments pre value post testcase).text =
      pre ++ (if pre = "" then "" else "\n") ++ value ++ "\n" ++ post ++ testcaseText post testcase := by
    cases testcase <;> rfl
  rw [text, whole]
  simp only [List.map_append, List.map_map, List.append_assoc, Function.comp_def, Statement.below_below, lines,
    Int32.add_assoc]

/-- A fragment that parses is continued by any text behind it as if it stood alone, each statement and each
error on a line further down by the lines of the fragment. So the statements of a composed program are those of
its fragments in order, the editor's further down by the lines in front. -/
theorem parse_composed :
    (∀ (front back : String) (program : List Statement), front ≠ "" → parse front = .ok program →
      (∀ more, parse back = .ok more →
        parse (front ++ "\n" ++ back) = .ok (program ++ more.map (·.below (Composition.lineCount front)))) ∧
      ∀ e, parse back = .error e →
        ∃ e', parse (front ++ "\n" ++ back) = .error e' ∧ e.Below (Composition.lineCount front) e') ∧
    ∀ (s : WorkspaceState) (testcase : Option String) (before editor behind tests : List Statement),
      parse s.editorPrepend = .ok before → parse s.editorValue = .ok editor →
      parse s.editorPostpend = .ok behind → testcase.elim (.ok []) parse = .ok tests →
      let composed := Composition.ofState s testcase
      let down := composed.prependLines + Int32.ofNat (Text.breaks s.editorValue.toList + 1)
      parse composed.text = .ok (before ++ editor.map (·.below composed.prependLines) ++
        behind.map (·.below down) ++ tests.map (·.below (down + Composition.lineCount s.editorPostpend))) := by
  refine ⟨?_, ?_⟩
  · intro front back program some_text parses
    have joined := parse_joined parses back
    rw [← lineCount_of_text some_text] at joined
    generalize parse (front ++ "\n" ++ back) = further at joined ⊢
    refine ⟨fun more back_parses => ?_, fun e back_fails => ?_⟩
    · rw [back_parses] at joined
      cases joined
      rfl
    · rw [back_fails] at joined
      cases joined with
      | error below => exact ⟨_, rfl, below⟩
  · intro s testcase before editor behind tests before_parses editor_parses behind_parses tests_parse composed down
    exact parse_fragments before_parses editor_parses behind_parses tests_parse rfl

/-! ### A carriage return in front of the line feed -/

/-- A quoted text over two lines, and a carriage return at the end. -/
def overTwoLines : String := "display \"a\nb\"\r"

/-- A workspace that has it in front of the editor's text. -/
def workspaceOverTwoLines : WorkspaceState :=
  { WorkspaceState.ofContext { execTimeMs := 1000 } (engine.makeContext { chapter := 3 }) with
    editorPrepend := overTwoLines
    editorValue := "x" }

theorem parse_eq_ok {text : String} {program : List Statement}
    (same : (parse text).toOption = some program) : parse text = .ok program := by
  cases read : parse text with
  | error e =>
    rw [read] at same
    cases same
  | ok others =>
    rw [read] at same
    cases same
    rfl

theorem parse_composed_of_return :
    parse (overTwoLines ++ "\n" ++ "x") =
        .ok ([⟨1, .display (.text "a\nb")⟩] ++ [(⟨1, .value (.name "x")⟩ : Statement)].map
          (·.below (Composition.lineCount overTwoLines))) ∧
      (∃ e, parse "x )" = .error e ∧ ∃ e', parse (overTwoLines ++ "\n" ++ "x )") = .error e' ∧
        e.Below (Composition.lineCount overTwoLines) e') ∧
      parse (Composition.ofState workspaceOverTwoLines (some "y")).text =
        .ok [⟨1, .display (.text "a\nb")⟩, ⟨3, .value (.name "x")⟩, ⟨4, .value (.name "y")⟩] := by
  have front : parse overTwoLines = .ok [⟨1, .display (.text "a\nb")⟩] := parse_eq_ok (by decide +kernel)
  have value : parse "x" = .ok [⟨1, .value (.name "x")⟩] := parse_eq_ok (by decide +kernel)
  have nothing : parse "" = .ok [] := parse_eq_ok (by decide +kernel)
  have program : parse "y" = .ok [⟨1, .value (.name "y")⟩] := parse_eq_ok (by decide +kernel)
  have lines := parse_composed.1 overTwoLines
  refine ⟨(lines "x" _ (by decide) front).1 _ value, ?_, ?_⟩
  · cases alone : parse "x )" with
    | ok read =>
      have fails : (parse "x )").toOption = none := by decide +kernel
      rw [alone] at fails
      cases fails
    | error e => exact ⟨e, rfl, (lines "x )" _ (by decide) front).2 e alone⟩
  · exact parse_composed.2 workspaceOverTwoLines (some "y") _ _ _ _ front value nothing program

end Workbench.Script
