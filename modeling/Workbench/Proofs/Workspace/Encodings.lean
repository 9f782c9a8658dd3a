/-
The encodings of requests, testcases, output logs, faults, selections and contexts.

Each type is read in one of the ways of `Coded`: as a record, by a tag beside the
content, by a tag among the fields, or by name. So it is faithful if its parts are, and
the proofs follow the types: there is one case for each alternative, and in each the
parts are read back by their own types. A testcase that succeeded with `null` has
content all the same, and one that is pending has none (`Json.Field.required`,
`Json.Field.empty`).
-/
import Workbench.Environment.Context
import Workbench.Proofs.Json.Coding
import Workbench.Run.Mode
import Workbench.Workspace.Testcase

namespace Workbench

open Coded (Faithful)
open Coded.Faithful (reads_back)
open Json.Field (given required_written withDefault_written optional_written)

/-! ## Requests -/

instance : Faithful WorkspaceId := by
  refine .adjacent (by decide) (fun _ => rfl) fun w => ?_
  cases w with
  | playground => exact .alone rfl
  | assessment => exact .alone rfl
  | grading n =>
    refine .pair ?_
    simp only [required_written]
    rfl

instance : Faithful Mode := by
  refine .adjacent (by decide) (fun _ => rfl) fun mode => ?_
  cases mode with
  | editorRun => exact .alone rfl
  | replRun => exact .alone rfl
  | debugResume => exact .alone rfl
  | testcaseRun index =>
    refine .pair ?_
    simp only [required_written]
    rfl

instance : Faithful EvaluationRequest := by
  refine .record (fun r => [encode r.workspace, encode r.mode]) (fun _ => rfl) (fun _ => rfl) (by decide)
    (fun _ => rfl) fun r => ?_
  simp only [List.map_cons, List.map_nil, required_written]
  rfl

/-! ## Faults -/

instance : Faithful Position := by
  refine .record (fun p => [encode p.line, encode p.column]) (fun _ => rfl) (fun _ => rfl) (by decide)
    (fun _ => rfl) fun p => ?_
  simp only [List.map_cons, List.map_nil, required_written]
  rfl

instance : Faithful Location := by
  refine .record (fun l => [encode l.start, encode l.stop]) (fun _ => rfl) (fun _ => rfl) (by decide)
    (fun _ => rfl) fun l => ?_
  simp only [List.map_cons, List.map_nil, required_written]
  rfl

instance : Faithful FaultKind := .ofNames fun kind => by cases kind <;> rfl

instance : Faithful Fault := by
  refine .record (fun f => [encode f.kind, encode f.message, encode f.location]) (fun _ => rfl) (fun _ => rfl)
    (by decide) (fun _ => rfl) fun f => ?_
  simp only [List.map_cons, List.map_nil, required_written]
  rfl

/-! ## Testcases and output logs -/

instance : Faithful Verdict := by
  refine .adjacent (by decide) (fun _ => rfl) fun verdict => ?_
  cases verdict with
  | pending => exact .alone rfl
  | success value => exact .pair rfl
  | failure faults =>
    refine .pair ?_
    simp only [required_written]
    rfl

instance : Faithful Testcase := by
  refine .record (fun t => [encode t.program, encode t.expected, encode t.result]) (fun _ => rfl) (fun _ => rfl)
    (by decide) (fun _ => rfl) fun t => ?_
  have expected : (given (encode t.expected)).optional = some t.expected :=
    optional_written (fun s (same : Json.str s = .null) => by cases same) _
  simp only [List.map_cons, List.map_nil, required_written, withDefault_written, expected]
  rfl

instance : Faithful OutputEntry := by
  refine .internal (fun _ => rfl) fun entry => ?_
  cases entry with
  | code text => exact .first (by simp) rfl
  | log lines =>
    refine .first (by simp) ?_
    show (given (encode lines)).required.bind (fun lines => some (OutputEntry.log lines)) = _
    rw [required_written]
    rfl
  | result value lines =>
    refine .first (by simp) ?_
    show (given (encode lines)).required.bind (fun lines => some (OutputEntry.result value lines)) = _
    rw [required_written]
    rfl
  | faults faults lines =>
    refine .first (by simp) ?_
    show (given (encode faults)).required.bind (fun faults => (given (encode lines)).required.bind fun lines =>
      some (OutputEntry.faults faults lines)) = _
    rw [required_written, required_written]
    rfl

/-! ## Selections and contexts -/

instance : Faithful LibraryName := .ofNames fun name => by cases name <;> rfl

instance : Faithful Library := by
  refine .record (fun l => [encode l.name, encode l.symbols]) (fun _ => rfl) (fun _ => rfl) (by decide)
    (fun _ => rfl) fun l => ?_
  simp only [List.map_cons, List.map_nil, required_written]
  rfl

instance : Faithful Selection := by
  refine .record (fun s => [encode s.chapter, encode s.library, encode s.globals]) (fun _ => rfl) (fun _ => rfl)
    (by decide) (fun _ => rfl) fun s => ?_
  simp only [List.map_cons, List.map_nil, required_written]
  rfl

instance : Faithful Context := by
  refine .record (fun c => [encode c.chapter, encode c.library, encode c.globals, encode c.builtins, encode c.faults])
    (fun _ => rfl) (fun _ => rfl) (by decide) (fun _ => rfl) fun c => ?_
  simp only [List.map_cons, List.map_nil, required_written, withDefault_written]
  rfl

/-- Whatever is asked, tested, put out, reported, selected or run in comes back from its encoding as what it was;
so distinct values have distinct encodings, of whichever alternatives they are. -/
theorem encodings_faithful :
    ((∀ w : WorkspaceId, decode? (encode w) = some w) ∧
      (∀ r : EvaluationRequest, decode? (encode r) = some r) ∧
      (∀ t : Testcase, decode? (encode t) = some t) ∧
      (∀ entry : OutputEntry, decode? (encode entry) = some entry) ∧
      (∀ f : Fault, decode? (encode f) = some f) ∧
      (∀ s : Selection, decode? (encode s) = some s) ∧
      ∀ c : Context, decode? (encode c) = some c) ∧
    Function.Injective (encode : WorkspaceId → Json) ∧
    Function.Injective (encode : EvaluationRequest → Json) ∧
    Function.Injective (encode : Testcase → Json) ∧
    Function.Injective (encode : OutputEntry → Json) ∧
    Function.Injective (encode : Fault → Json) ∧
    Function.Injective (encode : Selection → Json) ∧
    Function.Injective (encode : Context → Json) :=
  ⟨⟨reads_back, reads_back, reads_back, reads_back, reads_back, reads_back, reads_back⟩,
    Faithful.injective, Faithful.injective, Faithful.injective, Faithful.injective, Faithful.injective,
    Faithful.injective, Faithful.injective⟩

end Workbench
