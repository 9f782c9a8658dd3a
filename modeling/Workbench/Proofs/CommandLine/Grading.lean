/-
Grading a program against testcases.

What a text comes to as a program is said by its statements alone (`valueIn?`): no
hub, no workspace and no run. A program is graded by what it comes to, and by what it
comes to with each testcase behind it (`passes`); the command fails as these say
(`test_verdict`), so no testcase passes that should not, and none is left out.
-/
import Workbench.Proofs.CommandLine.Desk
import Workbench.Proofs.Run.Marking

namespace Workbench.CommandLine

open Script

/-! ## What decides -/

/-- What a test runs programs in: no library, and no globals. -/
def testContext (settings : Settings) : Context :=
  Script.engine.makeContext { chapter := settings.execution.chapter }

/-- The value that a text comes to as a program, statement by statement; none if it is no program, or fails. -/
def valueIn? (settings : Settings) (text : String) : Option Json :=
  match (sourceEnding settings.execution.execTimeMs (testContext settings) text).result with
  | .finished value => some value
  | _ => none

/-- Whether a testcase as it is written passes behind a program: the two together come to a value, and it has the text
that is expected, if one is. -/
def passes (settings : Settings) (program spec : String) : Bool :=
  let t := Testcase.ofText spec
  match valueIn? settings (program ++ "\n" ++ t.program) with
  | some value =>
    match t.expected with
    | some expected => value.shown = Text.trim expected
    | none => true
  | none => false

/-- The error of a test: the program does not come to a value, or so many testcases do not pass. -/
def gradingError (settings : Settings) (program : String) (specs : List String) : Option String :=
  if (valueIn? settings (program ++ "\n")).isSome then
    let failed := (specs.filter fun spec => !passes settings program spec).length
    if failed = 0 then none
    else some (toString failed ++ " of " ++ toString specs.length ++ " testcase(s) failed")
  else some "program did not finish; testcases were not run"

/-! ## Testcases by themselves -/

/-- What the testcases of a test are based on. -/
def basisOf (settings : Settings) (program : String) : Basis where
  editorPrepend := ""
  editorValue := program
  editorPostpend := ""
  chapter := settings.execution.chapter
  library := .none
  globals := []
  execTimeMs := settings.execution.execTimeMs

theorem composition_text (program : String) (testcase : Option String) :
    (Composition.ofFragments "" program "" testcase).text = program ++ "\n" ++ testcase.getD "" := by
  cases testcase <;> simp [Composition.ofFragments]

/-- A testcase that has come out by itself passes as its text says. -/
theorem marked_passed (settings : Settings) (program spec : String) :
    (marked (basisOf settings program) (Testcase.ofText spec)).passed = passes settings program spec := by
  let t := Testcase.ofText spec
  let b := basisOf settings program
  have same : sourceEnding b.execTimeMs (b.prepared t.program).context (b.composition t.program).text =
      sourceEnding settings.execution.execTimeMs (testContext settings) (program ++ "\n" ++ t.program) := by
    rw [show (b.composition t.program).text = _ from composition_text program (some t.program)]
    rfl
  unfold passes valueIn? marked Script.grade Testcase.passed
  rw [same]
  dsimp only
  generalize sourceEnding _ _ _ = e
  obtain ⟨lines, slept, result⟩ := e
  cases result <;> rfl

/-! ## At the desk -/

/-- Testcases can always be printed. -/
theorem does_printTestcases {d : Desk} (index : Nat) (ts : List Testcase) :
    ∃ behind, d.does (printTestcases index ts) = (.ok (), behind) := by
  induction ts generalizing d index with
  | nil => exact ⟨d, rfl⟩
  | cons t rest ih =>
    obtain ⟨printed, one⟩ : ∃ printed, d.does (printTestcase index t) = (.ok (), printed) := by
      unfold printTestcase
      rw [Desk.does_then (Desk.does_printLine _)]
      cases t.result with
      | failure faults => exact ⟨_, Desk.does_lines (fun f : Fault => "      " ++ f.text) faults⟩
      | _ => exact ⟨_, rfl⟩
    obtain ⟨behind, others⟩ := ih (d := printed) (index + 1)
    exact ⟨behind, by rw [printTestcases, Desk.does_then one, others]⟩

/-- The assessment in which a program stands ready to be graded. -/
def assessed (settings : Settings) (program : String) (specs : List String) : Slot Script.engine :=
  let fresh : Slot Script.engine := .fresh settings .assessment
  { fresh with
    state := { fresh.state with
      editorValue := program
      testcases := specs.map Testcase.ofText
      activeTab := .autograder } }

/-- The run of the program in the assessment comes to what its statements come to, and if that is a value every testcase
comes out as it does by itself. -/
theorem assessed_runs {settings : Settings} {program : String} {specs : List String} {d : Desk}
    (rests : d.Rests settings .assessment (assessed settings program specs)) :
    ∃ (result : RunResult Machine) (prependLines : Int32) (behind : Desk) (after : Slot Script.engine),
      d.does (evaluate .assessment .editorRun) = (.ok (result.own prependLines), behind) ∧
      behind.Rests settings .assessment after ∧
      (∀ value, result = .finished value ↔ valueIn? settings (program ++ "\n") = some value) ∧
      ∀ value, result = .finished value →
        after.state.testcases = specs.map fun spec => marked (basisOf settings program) (Testcase.ofText spec) := by
  let state := (assessed settings program specs).state
  let p := editorProgram state
  obtain ⟨lines, slept, result, now, hub, after, ride, performed, holds, free, marks⟩ :
      ∃ lines slept result now hub, ∃ after : Slot Script.engine,
        Ride false (begin p.context (Job.optionsFor settings state .editorRun p) p.origin) d.now lines slept result ∧
          _ ∧ _ ∧ _ ∧ ∀ value, result = .finished value →
            after.state.testcases = state.testcases.map (marked state.basis) :=
    rests.holds.evaluates_graded Loader.bundled_prompt rests.free rfl
  have final : result.Final := ride.begin_final (.inr rfl)
  have text : (Composition.ofState state none).text = program ++ "\n" :=
    (composition_text program none).trans (String.append_empty ..)
  have told : sourceEnding settings.execution.execTimeMs (testContext settings) (program ++ "\n") =
      (resultEnding settings.execution.execTimeMs p.context result).after lines slept := by
    rw [← text]
    exact ride.begin_ending rfl
  rw [resultEnding_final final] at told
  refine ⟨result, _, _, after, Desk.does_evaluate performed, ⟨holds, free⟩, fun value => ?_, fun value finished => ?_⟩
  · unfold valueIn?
    rw [told]
    cases result <;> simp [Ending.after, Ending.at_]
  · rw [marks value finished]
    exact List.map_map

/-- How many of the testcases do not pass. -/
theorem failed_length (settings : Settings) (program : String) (specs : List String) :
    ((specs.map fun spec => marked (basisOf settings program) (Testcase.ofText spec)).filter
        fun t => !t.passed).length = (specs.filter fun spec => !passes settings program spec).length := by
  rw [List.filter_map, List.length_map]
  refine congrArg List.length (List.filter_congr fun spec _ => ?_)
  exact congrArg (!·) (marked_passed settings program spec)

/-- The program and the testcases are put into the assessment. -/
theorem assess_does {settings : Settings} {folder : Folder} {c : TestCommand} {program : String}
    (reads : folder.read? c.file = some program) :
    ∃ d : Desk, d.Rests settings .assessment (assessed settings program c.testcases) ∧
      ∀ next : Doing Unit, (Desk.fresh settings).does (do
        let text ← sourceOf folder c.file
        edit .assessment (.editorValue text)
        edit .assessment (.testcases (c.testcases.map Testcase.ofText))
        edit .assessment (.activeTab .autograder)
        next) = d.does next := by
  have source := (Desk.fresh settings).does_sourceOf folder c.file
  rw [reads] at source
  have rests := Desk.fresh_rests settings (.inr rfl : WorkspaceId.assessment = .playground ∨ _)
  obtain ⟨_, put, rests⟩ := rests.edits (.editorValue program)
  obtain ⟨_, asked, rests⟩ := rests.edits (.testcases (c.testcases.map Testcase.ofText))
  obtain ⟨_, shown, rests⟩ := rests.edits (.activeTab .autograder)
  refine ⟨_, rests, fun next => ?_⟩
  rw [Desk.does_then source, Desk.does_then put, Desk.does_then asked, Desk.does_then shown]

/-- A test fails if testcases have failed, and says how many. -/
theorem does_judge {d : Desk} (failed total : Nat) :
    errorOf (d.does (if 0 < failed then do
        throw (toString failed ++ " of " ++ toString total ++ " testcase(s) failed")
        printLine ("✓ All " ++ toString total ++ " testcase(s) passed")
      else printLine ("✓ All " ++ toString total ++ " testcase(s) passed"))).1 =
      if failed = 0 then none
      else some (toString failed ++ " of " ++ toString total ++ " testcase(s) failed") := by
  cases failed <;> rfl

/-- A test of a program fails as it is graded. -/
theorem testProgram_does {settings : Settings} {folder : Folder} {c : TestCommand} {program : String}
    (reads : folder.read? c.file = some program) :
    errorOf ((Desk.fresh settings).does (testProgram folder c)).1 = gradingError settings program c.testcases := by
  obtain ⟨d, rests, goes⟩ : ∃ d : Desk, d.Rests settings .assessment (assessed settings program c.testcases) ∧ _ :=
    assess_does reads
  obtain ⟨result, prependLines, behind, after, evaluated, rests, comes, testcases⟩ := assessed_runs rests
  unfold testProgram
  refine (congrArg (fun done => errorOf done.1) (goes _)).trans ?_
  unfold gradingError
  rw [Desk.does_then evaluated]
  by_cases finished : ∃ value, result = .finished value
  · obtain ⟨value, rfl⟩ := finished
    rw [(comes value).1 rfl]
    simp only [RunResult.own, Option.isSome_some, ↓reduceIte]
    rw [Desk.does_then rests.looks, testcases value rfl]
    simp only [failed_length, List.length_map]
    split
    · rw [Desk.does_then (Desk.does_printLine _)]
      exact does_judge ..
    · obtain ⟨printed, done⟩ := does_printTestcases 0 (d := behind) _
      rw [Desk.does_then done]
      exact does_judge ..
  · have nothing : valueIn? settings (program ++ "\n") = none :=
      Option.eq_none_iff_forall_ne_some.2 fun value same => finished ⟨value, (comes value).2 same⟩
    rw [nothing]
    have log := rests.prints c.asJson
    cases result with
    | finished value => exact absurd ⟨value, rfl⟩ finished
    | _ =>
      simp only [RunResult.own]
      rw [Desk.does_then log]
      rfl

/-! ## The command -/

section

variable {folder : Folder} {environment : List (String × String)} {settingsFile : Option String} {c : TestCommand}
  {settings : Settings} {program : String}

theorem transcript_test
    (loads : Settings.load folder environment (⟨settingsFile, .test c⟩ : Invocation).overrides = .ok settings)
    (reads : folder.read? c.file = some program) :
    ((⟨settingsFile, .test c⟩ : Invocation).transcript folder environment).error =
      gradingError settings program c.testcases := by
  rw [Invocation.transcript_eq loads rfl]
  exact testProgram_does reads

/-- A test succeeds if the program comes to a value and all testcases pass behind it. Else it says that the program has
not finished, or how many of the testcases do not pass. -/
theorem test_verdict
    (loads : Settings.load folder environment (⟨settingsFile, .test c⟩ : Invocation).overrides = .ok settings)
    (reads : folder.read? c.file = some program) :
    let error := ((⟨settingsFile, .test c⟩ : Invocation).transcript folder environment).error
    let finishes := (valueIn? settings (program ++ "\n")).isSome
    let failed := c.testcases.filter fun spec => !passes settings program spec
    (error = none ↔ finishes = true ∧ ∀ spec ∈ c.testcases, passes settings program spec = true) ∧
      (finishes = false → error = some "program did not finish; testcases were not run") ∧
      (finishes = true → failed ≠ [] →
        error = some (toString failed.length ++ " of " ++ toString c.testcases.length ++ " testcase(s) failed")) := by
  intro error finishes failed
  have told : error = if finishes then
      if failed.length = 0 then none
      else some (toString failed.length ++ " of " ++ toString c.testcases.length ++ " testcase(s) failed")
    else some "program did not finish; testcases were not run" := transcript_test loads reads
  have all : failed.length = 0 ↔ ∀ spec ∈ c.testcases, passes settings program spec = true := by
    simp [failed]
  refine ⟨?_, fun stuck => ?_, fun done some_failed => ?_⟩
  · rw [told, ← all]
    split
    · next done => split <;> simp_all
    · next stuck => simp [stuck]
  · rw [told, stuck]
    rfl
  · rw [told, done, if_pos rfl, if_neg (List.length_eq_zero_iff.not.2 some_failed)]

end

/-! ### A program and three testcases -/

/-- A folder with a program that shows a text. -/
def showsText : Folder := { files := [("program", "display \"x\"")] }

/-- A value as it is expected, another one, and a testcase that fails. -/
def threeTestcases : TestCommand where
  file := "program"
  testcases := ["1 + 2 = 3", "\"y\" = \"z\"", "error \"no\""]

/-- The first of them passes, and the two others do not. -/
theorem test_verdict_of_three :
    (∀ spec ∈ threeTestcases.testcases.take 1, passes {} "display \"x\"" spec = true) ∧
      ((⟨none, .test threeTestcases⟩ : Invocation).transcript showsText []).error =
        some "2 of 3 testcase(s) failed" := by
  have two : (threeTestcases.testcases.filter fun spec => !passes {} "display \"x\"" spec) =
      ["\"y\" = \"z\"", "error \"no\""] := by decide +kernel
  refine ⟨by decide +kernel, ?_⟩
  have loads : Settings.load showsText [] (⟨none, .test threeTestcases⟩ : Invocation).overrides = .ok {} := rfl
  have reads : showsText.read? threeTestcases.file = some "display \"x\"" := rfl
  have failed := (test_verdict loads reads).2.2 (by decide +kernel)
  rw [two] at failed
  exact failed nofun

end Workbench.CommandLine
