/-
The places that runs of a text name, and the lines they are for the user.

Whatever a run is suspended at or fails at stands on a line of its text: it is the line
of a statement of its program, or that of the error if the text is no program
(`Reported.onLine`). Lines are numbers of 32 bits with sign, and a program that moves
one past their end panics. A place that a run names is never moved there, on its way
back to the user's lines, unless the text has as many lines; a breakpoint may be, on
its way to the engine's lines, since the user may set it on any line
(`line_arithmetic`).
-/
import Mathlib.Algebra.Ring.Int.Defs
import Workbench.Run.Job
import Workbench.Proofs.Script.Numbering
import Workbench.Proofs.Script.Snapshot

namespace Workbench.Script

/-! ## What a result names -/

/-- The result names the place. -/
inductive Names (l : Location) : RunResult Machine → Prop
  | suspended {m : Machine} : Names l (.suspended m (some l))
  | fault {faults : List Fault} {f : Fault} (there : f ∈ faults) (same : f.location = l) : Names l (.failed faults)

/-- Whatever is named is a line on which a statement of the program stands. -/
def NamesOnly (program : List Statement) (result : RunResult Machine) : Prop :=
  ∀ l, Names l result → ∃ s ∈ program, l = .line s.line

theorem Machine.suspend_names (m : Machine) : NamesOnly m.program m.suspend := by
  intro l names
  generalize result : m.suspend = r at names
  cases names with
  | fault => cases result
  | @suspended own =>
    have located : m.currentLine?.map Location.line = some l := by
      injection result
    obtain ⟨line, current, rfl⟩ := Option.map_eq_some_iff.1 located
    obtain ⟨s, next, rfl⟩ := Option.map_eq_some_iff.1 current
    refine ⟨s, ?_, rfl⟩
    obtain here | ⟨-, last⟩ := Option.or_eq_some_iff.1 next
    · exact List.mem_of_getElem? here
    · exact List.mem_of_getLast? last

theorem faultAt_names {program : List Statement} {s : Statement} (here : s ∈ program) (kind : FaultKind)
    (message : String) : NamesOnly program (Flight.faultAt kind message s.line) := by
  intro l names
  cases names with
  | fault there same =>
    obtain rfl := List.mem_singleton.1 there
    exact ⟨s, here, same.symm⟩

/-- When a run that is polled ends, it names lines of its program only. -/
def PollNames (program : List Statement) : Polled Run Machine → Prop
  | .ended result => NamesOnly program result
  | .pending _ _ => True

theorem Flight.proceed_names {now : Nat} {tokens : Tokens} {spare : Nat} {f : Flight} :
    PollNames f.machine.program (f.proceed now tokens spare).2 := by
  fun_induction proceed now tokens spare f with
  | case1 =>
    intro l names
    cases names with
    | fault there => cases there
  | case2 | case5 => exact Machine.suspend_names _
  | case3 =>
    intro l names
    cases names
  | case4 _ _ _ _ _ here => exact faultAt_names (List.mem_of_getElem? here) _ _
  | case6 _ _ _ _ _ _ _ _ _ _ _ _ ih => exact ih
  | case7 | case8 | case10 => trivial
  | case9 _ _ _ _ _ here => exact faultAt_names (List.mem_of_getElem? here) _ _
  | case11 _ _ _ _ _ _ _ _ _ _ _ _ _ rest _ _ _ ih =>
    rw [rest] at ih
    exact ih

theorem Run.poll_names {r : Run} {program : List Statement} (runs : r.program? = some program) (now : Nat)
    (tokens : Tokens) : PollNames program (r.poll now tokens).2 :=
  poll_of_proceed runs (fun _ _ same => same ▸ Flight.proceed_names) fun _ _ _ => trivial

theorem Run.ComesTo.names {r : Run} {result : RunResult Machine} {program : List Statement}
    (comes : r.ComesTo result) (runs : r.program? = some program) : NamesOnly program result := by
  induction comes with
  | @ended r now tokens lines polled =>
    have named := poll_names runs now tokens
    rw [polled] at named
    exact named
  | @pending r next now tokens lines wake polled rest ih =>
    have keeps := poll_keeps runs now tokens
    rw [polled] at keeps
    cases keeps with
    | pending same => exact ih same

/-! ## What is reported of a text -/

/-- A run of the text, or a run that was taken up again from what the text left, names the place. -/
inductive Reported (text : String) (l : Location) : Prop
  | run {context : Context} {options : RunOptions} {result : RunResult Machine}
    (comes : (Run.ofSource text context options).ComesTo result) (names : Names l result)
  | resumed {m : Machine} {context : Context} {options : RunOptions} {result : RunResult Machine}
    (left : Leaves text m) (comes : (Run.ofMachine m context options).ComesTo result) (names : Names l result)

/-- A text that is no program fails at once. -/
theorem Run.ComesTo.of_error {text : String} {context : Context} {options : RunOptions} {e : ParseError}
    {result : RunResult Machine} (fails : parse text = .error e)
    (comes : (Run.ofSource text context options).ComesTo result) : result = .failed [e.fault] := by
  have polls (now : Nat) (tokens : Tokens) :
      (Run.ofSource text context options).poll now tokens = ([], .ended (.failed [e.fault])) := by
    unfold Run.poll
    dsimp only
    rw [fails]
  cases comes with
  | ended polled =>
    cases (polls _ _).symm.trans polled
    rfl
  | pending polled => cases (polls _ _).symm.trans polled

/-- Only programs leave anything behind. -/
theorem Leaves.parses {text : String} {m : Machine} (leaves : Leaves text m) : ∃ program, parse text = .ok program := by
  induction leaves with
  | run ends =>
    cases parsed : parse text with
    | error e => cases ends.of_error parsed
    | ok program => exact ⟨program, rfl⟩
  | resumed _ _ ih => exact ih

theorem Reported.onLine {text : String} {l : Location} (reported : Reported text l) :
    ∃ k, HasLine text.toList k ∧ l = .line (Int32.ofNat k) := by
  have of_program {program : List Statement} (parses : parse text = .ok program) {result : RunResult Machine}
      (only : NamesOnly program result) (names : Names l result) :
      ∃ k, HasLine text.toList k ∧ l = .line (Int32.ofNat k) := by
    obtain ⟨s, here, rfl⟩ := only l names
    obtain ⟨k, line, there⟩ := parse_line parses here
    exact ⟨k, there, by rw [line]⟩
  cases reported with
  | run comes names =>
    cases parsed : parse text with
    | ok program => exact of_program parsed (comes.names (by simp [Run.program?, parsed, Except.toOption])) names
    | error e =>
      rw [comes.of_error parsed] at names
      cases names with
      | fault there same =>
        obtain rfl := List.mem_singleton.1 there
        obtain ⟨k, line, hasLine⟩ := parse_error_line parsed
        exact ⟨k, hasLine, by rw [← same, ← line]; rfl⟩
  | resumed left comes names =>
    obtain ⟨program, parses⟩ := left.parses
    exact of_program parses (comes.names (congrArg some (left.program_eq parses))) names

/-- A run that is asked to suspend before anything of it is run names the line of its first statement. -/
theorem Reported.first {text : String} {s : Statement} {program : List Statement}
    (parses : parse text = .ok (s :: program)) : Reported text (.line s.line) := by
  let context : Context := .ofSelection { chapter := 1 } builtins
  have suspended : (Run.ofSource text context { budgetMs := 1000 }).poll 0 { paused := true } =
      ([], .ended (Machine.suspend { program := s :: program })) := by
    unfold Run.poll
    dsimp only
    rw [parses]
    exact Flight.proceed_paused _ rfl rfl
  exact .run (.ended suspended) .suspended

end Workbench.Script

namespace Workbench

/-! ## To the engine's lines and back -/

theorem line?_isSome {n : Int} : (line? n).isSome = true ↔ -2 ^ 31 ≤ n ∧ n < 2 ^ 31 := by
  unfold line?
  split <;> simp_all

/-- Where a sum is a line, it is the one that comes around. -/
theorem of_line?_add {b by_ c : Int32} (moved : line? (b.toInt + by_.toInt) = some c) : c = b + by_ := by
  rw [← Int32.ofInt_toInt c, line?_eq_some.1 moved, Int32.ofInt_add, Int32.ofInt_toInt, Int32.ofInt_toInt]

theorem of_line?_sub {b by_ c : Int32} (moved : line? (b.toInt - by_.toInt) = some c) : c = b - by_ := by
  rw [← Int32.ofInt_toInt c, line?_eq_some.1 moved, Int32.ofInt_sub, Int32.ofInt_toInt, Int32.ofInt_toInt]

/-- A place that can be moved up is where it comes around to. -/
theorem Location.of_shiftedUp? {l up : Location} {by_ : Int32} (moved : l.shiftedUp? by_ = some up) :
    up = l.shiftedUp by_ := by
  simp only [shiftedUp?, Option.bind_eq_bind, Option.bind_eq_some_iff, Option.pure_def, Option.some.injEq] at moved
  obtain ⟨start, first, stop, last, rfl⟩ := moved
  rw [shiftedUp, of_line?_sub first, of_line?_sub last]

namespace LineSet

variable {lines : LineSet}

theorem mem_shifted {by_ c : Int32} : c ∈ (lines.shifted by_).lines ↔ ∃ b ∈ lines.lines, b + by_ = c := by
  rw [shifted, map, mem_ofList, List.mem_map]

theorem nodup (lines : LineSet) : lines.lines.Nodup := lines.increasing.imp fun less => Int32.ne_of_lt less

/-- No two lines fall together. -/
theorem length_shifted (lines : LineSet) (by_ : Int32) : (lines.shifted by_).lines.length = lines.lines.length := by
  have apart : (lines.lines.map (· + by_)).Nodup :=
    List.Pairwise.map (· + by_) (fun a b differ same => differ ((Int32.add_left_inj by_).1 same)) lines.nodup
  have perm : (lines.shifted by_).lines.Perm (lines.lines.map (· + by_)) :=
    (List.perm_ext_iff_of_nodup (nodup _) apart).2 fun c => by rw [mem_shifted, List.mem_map]
  rw [perm.length_eq, List.length_map]

/-- Breakpoints that can be moved down are where they come around to. -/
theorem shifted?_eq (lines : LineSet) (by_ : Int32) :
    lines.shifted? by_ =
      if lines.lines.all fun b => (line? (b.toInt + by_.toInt)).isSome then some (lines.shifted by_) else none := by
  have moved (bs : List Int32) : (bs.mapM fun b => line? (b.toInt + by_.toInt)) =
      if bs.all fun b => (line? (b.toInt + by_.toInt)).isSome then some (bs.map (· + by_)) else none := by
    induction bs with
    | nil => rfl
    | cons b bs ih =>
      rw [List.mapM_cons, ih, List.all_cons]
      cases moved : line? (b.toInt + by_.toInt) with
      | none => rfl
      | some c =>
        obtain rfl := of_line?_add moved
        cases bs.all fun b => (line? (b.toInt + by_.toInt)).isSome <;> rfl
  rw [shifted?, moved]
  split <;> rfl

/-- Breakpoints can be moved down exactly if each of them has a line to go to. -/
theorem shifted?_isSome {by_ : Int32} :
    (lines.shifted? by_).isSome = true ↔
      ∀ b ∈ lines.lines, -2 ^ 31 ≤ b.toInt + by_.toInt ∧ b.toInt + by_.toInt < 2 ^ 31 := by
  rw [shifted?_eq]
  simp only [← line?_isSome, ← List.all_eq_true]
  split <;> simp_all

/-- What breakpoints have become that could be moved down: as many, each so many lines further down. -/
theorem of_shifted? {moved : LineSet} {by_ : Int32} (fit : lines.shifted? by_ = some moved) :
    moved = lines.shifted by_ ∧ ∀ b ∈ lines.lines, (b + by_).toInt = b.toInt + by_.toInt := by
  rw [shifted?_eq] at fit
  split at fit
  · next fits =>
    cases fit
    refine ⟨rfl, fun b here => ?_⟩
    obtain ⟨c, moved⟩ := Option.isSome_iff_exists.1 (List.all_eq_true.1 fits b here)
    exact of_line?_add moved ▸ line?_eq_some.1 moved
  · cases fit

end LineSet

/-- A whole line that is another one further down is led back to it. -/
theorem LineRange.ofLocation?_line {line user by_ : Int32} (below : line.toInt = user.toInt + by_.toInt) :
    LineRange.ofLocation? (.line line) by_ = some ⟨user, user⟩ := by
  have back : line? (line.toInt - by_.toInt) = some user := line?_eq_some.2 (by omega)
  simp [ofLocation?, Location.shiftedUp?, Location.line, back]

/-- A range that a place is led back to is the one that it comes around to. -/
theorem LineRange.of_ofLocation? {l : Location} {by_ : Int32} {range : LineRange}
    (back : LineRange.ofLocation? l by_ = some range) : range = .ofLocation l by_ := by
  obtain ⟨up, moved, rfl⟩ := Option.map_eq_some_iff.1 back
  rw [Location.of_shiftedUp? moved, ofLocation]

/-- Nor does a fault that can be told with the user's lines tell others. -/
theorem Fault.of_remapped? {f told : Fault} {by_ : Int32} (tells : f.remapped? by_ = some told) :
    told = f.remapped by_ := by
  obtain ⟨up, moved, rfl⟩ := Option.map_eq_some_iff.1 tells
  rw [Location.of_shiftedUp? moved, remapped]

/-- A run can be launched exactly if each breakpoint has a line to go to; otherwise the program panics. -/
theorem Job.stepFits_of_launching {E : Engine} {h : House} {sc : Scene E} {job : Job E} {mode : Mode} {p : Prepared E}
    (stage : job.stage = .launching mode p) :
    stepFits h sc job = true ↔
      ∀ b ∈ sc.slot.state.breakpoints.lines,
        -2 ^ 31 ≤ b.toInt + p.prependLines.toInt ∧ b.toInt + p.prependLines.toInt < 2 ^ 31 := by
  unfold stepFits
  rw [stage]
  exact LineSet.shifted?_isSome

namespace Script

/-- What is done with lines between the user and the engine, for any breakpoints and any number of lines in front that
is a line itself. The breakpoints can be moved to the engine's lines exactly if none of them would be moved beyond the
last line. Then they are as many, they are the integers so many lines further down, and each is led back to where it
was set. A place that the engine names is a line of the composed text, and if that is not beyond the last line, it is
exact, and can be led back to a line of the user's that is exact. -/
theorem line_arithmetic (s : WorkspaceState) (testcase : Option String) (lines : LineSet)
    (short : Text.lineCount s.editorPrepend < 2 ^ 31) :
    let composed := Composition.ofState s testcase
    let n := Text.lineCount s.editorPrepend
    composed.prependLines.toInt = n ∧
      ((lines.shifted? composed.prependLines).isSome = true ↔ ∀ b ∈ lines.lines, b.toInt + n < 2 ^ 31) ∧
      (∀ shifted, lines.shifted? composed.prependLines = some shifted →
        shifted.lines.length = lines.lines.length ∧
        (∀ m : Int, (∃ c ∈ shifted.lines, c.toInt = m) ↔ ∃ b ∈ lines.lines, b.toInt + n = m) ∧
        ∀ b ∈ lines.lines, ∃ c ∈ shifted.lines, c.toInt = b.toInt + n ∧
          LineRange.ofLocation? (.line c) composed.prependLines = some ⟨b, b⟩) ∧
      ∀ l, Reported composed.text l → ∃ k : Nat, HasLine composed.text.toList k ∧ l = .line (Int32.ofNat k) ∧
        (k < 2 ^ 31 → l.start.line.toInt = k ∧
          ∃ user : Int32, user.toInt = (k : Int) - n ∧ l.shiftedUp? composed.prependLines = some (.line user) ∧
            LineRange.ofLocation? l composed.prependLines = some ⟨user, user⟩) := by
  intro composed n
  have count : composed.prependLines.toInt = n := Int32.toInt_ofNat_of_lt short
  refine ⟨count, ?_, fun shifted fit => ?_, fun l reported => ?_⟩
  · rw [LineSet.shifted?_isSome, count]
    refine forall₂_congr fun b _ => ⟨And.right, fun high => ⟨?_, high⟩⟩
    have low := b.le_toInt
    omega
  · obtain ⟨rfl, below⟩ := LineSet.of_shifted? fit
    rw [count] at below
    refine ⟨lines.length_shifted _, fun m => ⟨?_, ?_⟩, fun b here => ?_⟩
    · rintro ⟨c, there, rfl⟩
      obtain ⟨b, here, rfl⟩ := LineSet.mem_shifted.1 there
      exact ⟨b, here, (below b here).symm⟩
    · rintro ⟨b, here, rfl⟩
      exact ⟨_, LineSet.mem_shifted.2 ⟨b, here, rfl⟩, below b here⟩
    · exact ⟨_, LineSet.mem_shifted.2 ⟨b, here, rfl⟩, below b here,
        LineRange.ofLocation?_line (count ▸ below b here)⟩
  · obtain ⟨k, there, rfl⟩ := reported.onLine
    refine ⟨k, there, rfl, fun within => ?_⟩
    have line : (Int32.ofNat k).toInt = k := Int32.toInt_ofNat_of_lt within
    have first := there.1
    obtain ⟨user, moved⟩ : ∃ user, line? ((k : Int) - n) = some user :=
      Option.isSome_iff_exists.1 (line?_isSome.2 (by omega))
    have up : user.toInt = (k : Int) - n := line?_eq_some.1 moved
    refine ⟨line, user, up, ?_, LineRange.ofLocation?_line (by rw [line, up, count]; omega)⟩
    simp [Location.shiftedUp?, Location.line, line, count, moved]

/-! ### Three lines in front, and a breakpoint on the last line that there is -/

/-- A workspace with a text in front of the editor's. -/
def workspaceBehind (front : String) : WorkspaceState :=
  { WorkspaceState.ofContext { execTimeMs := 1000 } (engine.makeContext { chapter := 3 }) with
    editorPrepend := front
    editorValue := "display \"a\"" }

/-- The composed text with three lines in front. -/
abbrev behindThree : Composition := Composition.ofState (workspaceBehind "x\ny\nz") none

theorem reported_of_three : Reported behindThree.text (.line 1) := by
  have parses : parse behindThree.text =
      .ok [⟨1, .value (.name "x")⟩, ⟨2, .value (.name "y")⟩, ⟨3, .value (.name "z")⟩, ⟨4, .display (.text "a")⟩] :=
    parse_eq_ok (by decide +kernel)
  exact .first parses

theorem line_arithmetic_of_three :
    Text.lineCount (workspaceBehind "x\ny\nz").editorPrepend < 2 ^ 31 ∧
      (∃ shifted, (LineSet.ofList [1, 4]).shifted? behindThree.prependLines = some shifted ∧
        (∀ m : Int, (∃ c ∈ shifted.lines, c.toInt = m) ↔ m = 4 ∨ m = 7)) ∧
      ∃ k : Nat, HasLine behindThree.text.toList k ∧ Location.line 1 = .line (Int32.ofNat k) ∧
        ∃ user : Int32, user.toInt = (k : Int) - 3 ∧
          LineRange.ofLocation? (.line 1) behindThree.prependLines = some ⟨user, user⟩ := by
  have short : Text.lineCount (workspaceBehind "x\ny\nz").editorPrepend < 2 ^ 31 := by decide
  have lines : (LineSet.ofList [1, 4]).lines = [1, 4] := by decide
  obtain ⟨-, fits, exact_lines, reports⟩ :=
    line_arithmetic (workspaceBehind "x\ny\nz") none (LineSet.ofList [1, 4]) short
  rw [lines] at fits exact_lines
  obtain ⟨shifted, moved⟩ := Option.isSome_iff_exists.1
    (fits.2 (List.forall_mem_cons.2 ⟨by decide, List.forall_mem_singleton.2 (by decide)⟩))
  refine ⟨short, ⟨shifted, moved, fun m => ?_⟩, ?_⟩
  · rw [(exact_lines shifted moved).2.1 m]
    simp only [List.mem_cons, List.not_mem_nil, or_false, exists_eq_or_imp, exists_eq_left]
    exact or_congr eq_comm eq_comm
  · obtain ⟨k, there, same, places⟩ := reports _ reported_of_three
    obtain ⟨-, user, up, -, back⟩ := places (Nat.lt_of_le_of_lt there.2 (by decide))
    exact ⟨k, there, same, user, up, back⟩

/-- Behind one line, a breakpoint on the last line has nowhere to go: the program panics. -/
theorem last_line_lost :
    Text.lineCount (workspaceBehind "x").editorPrepend = 1 ∧
      (LineSet.ofList [Int32.maxValue]).shifted? (Composition.ofState (workspaceBehind "x") none).prependLines = none :=
  ⟨by decide, by decide⟩

end Script

end Workbench
