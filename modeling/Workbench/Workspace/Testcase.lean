/-
Testcases and the summary of a batch of them.
-/
import Workbench.Text.Blank
import Workbench.Workspace.Output

namespace Workbench

/-- How a testcase came out. -/
inductive Verdict where
  | pending
  | success (value : Json)
  | failure (faults : List Fault)

instance : Inhabited Verdict := ⟨.pending⟩

/-- Whether a testcase has not come out yet. -/
def Verdict.isPending : Verdict → Bool
  | .pending => true
  | _ => false

/-- A program that is run after the user's, and the text its value should have. -/
structure Testcase where
  program : String
  expected : Option String := none
  result : Verdict := .pending

namespace Testcase

/-- A testcase passes when it succeeded with the expected text, if one is given. -/
def passed (t : Testcase) : Bool :=
  match t.result with
  | .success value =>
    match t.expected with
    | some e => value.shown = Text.trim e
    | none => true
  | _ => false

/-- A testcase as it is written on a command line: the program, then the expected text after the
last equals sign. An equals sign at the very end, or right after another one, belongs to the program. -/
def ofText (spec : String) : Testcase :=
  match Text.splitLast '=' spec.toList with
  | some (program, expected) =>
    if program ≠ [] ∧ program.getLast? ≠ some '=' ∧ expected ≠ [] then
      { program := Text.trim (String.ofList program), expected := some (Text.trim (String.ofList expected)) }
    else { program := Text.trim spec }
  | none => { program := Text.trim spec }

/-- One word for how a testcase came out. -/
def label (t : Testcase) : String :=
  match t.result with
  | .pending => "pending"
  | .failure _ => "error"
  | .success _ => if t.passed then "passed" else "wrong answer"

end Testcase

/-- How a batch of testcases came out. -/
structure BatchSummary where
  total : Nat := 0
  passed : Nat := 0
  failed : Nat := 0
  pending : Nat := 0
  aborted : Bool := false
  deriving DecidableEq, Repr

namespace BatchSummary

/-- The summary with one more testcase counted. -/
def count (s : BatchSummary) (t : Testcase) : BatchSummary :=
  if t.passed then { s with passed := s.passed + 1 }
  else if t.result.isPending then { s with pending := s.pending + 1 }
  else { s with failed := s.failed + 1 }

/-- The summary of testcases. -/
def ofTestcases (ts : List Testcase) (aborted : Bool) : BatchSummary :=
  ts.foldl count { total := ts.length, aborted := aborted }

/-- The text of a summary. -/
def text (s : BatchSummary) : String :=
  toString s.passed ++ " passed"
    ++ (if 0 < s.failed then ", " ++ toString s.failed ++ " failed" else "")
    ++ (if 0 < s.pending then ", " ++ toString s.pending ++ " not run" else "")

end BatchSummary

instance : Coded Verdict where
  encode
    | .pending => .obj [("status", .str "pending")]
    | .success value => .obj [("status", .str "success"), ("detail", value)]
    | .failure faults => .obj [("status", .str "failure"), ("detail", encode faults)]
  decode? j := do
    let (tag, content) ← j.adjacent "status" "detail"
    match tag with
    | "pending" => content.empty; return .pending
    | "success" => return .success (← content.required)
    | "failure" => return .failure (← content.required)
    | _ => none

instance : Coded Testcase where
  encode t := .obj [("program", .str t.program), ("expected", encode t.expected), ("result", encode t.result)]
  decode? j := do
    let [program, expected, result] ← j.fields ["program", "expected", "result"] | none
    return {
      program := ← program.required
      expected := ← expected.optional
      result := ← result.withDefault .pending }

/-- A summary's encoding; summaries are written only. -/
def BatchSummary.toJson (s : BatchSummary) : Json :=
  .obj [("total", encode s.total), ("passed", encode s.passed), ("failed", encode s.failed),
    ("pending", encode s.pending), ("aborted", encode s.aborted)]

end Workbench
