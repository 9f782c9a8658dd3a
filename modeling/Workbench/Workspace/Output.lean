/-
The output log of a workspace.

Entries are only ever added. Lines that a run writes collect in a log entry at
the end; the entry that closes the run, a result or its faults, takes them over.
`boundary` says where the current run's output begins, so that no run takes over
the lines of an earlier one.
-/
import Workbench.Json.Printer
import Workbench.Source.Fault

namespace Workbench

/-- A value as the output log shows it. -/
def Json.shown : Json → String
  | .null => "undefined"
  | j => j.compact

/-- One entry of an output log. -/
inductive OutputEntry where
  /-- a text that was handed in to be run -/
  | code (text : String)
  | log (lines : List String)
  | result (value : Json) (lines : List String)
  | faults (faults : List Fault) (lines : List String)

namespace OutputEntry

/-- The lines that an entry holds. -/
def lines : OutputEntry → List String
  | .code _ => []
  | .log ls => ls
  | .result _ ls => ls
  | .faults _ ls => ls

/-- The text of an entry. -/
def text : OutputEntry → String
  | .code t => "> " ++ t
  | .log ls => Text.joined "\n" ls
  | .result v ls => String.join (ls.map Text.line) ++ v.shown
  | .faults fs ls => String.join (ls.map Text.line) ++ Text.joined "\n" (fs.map Fault.text)

end OutputEntry

/-- The output of a workspace. -/
structure OutputLog where
  entries : List OutputEntry := []
  /-- entries before this one belong to earlier runs -/
  boundary : Nat := 0

namespace OutputLog

/-- The log with the lines that the current run has collected, taken off its end. -/
def takeLines (o : OutputLog) : List OutputEntry × List String :=
  if o.boundary < o.entries.length then
    match o.entries.getLast? with
    | some (.log ls) => (o.entries.dropLast, ls)
    | _ => (o.entries, [])
  else (o.entries, [])

/-- A run begins: its lines never join an earlier entry. -/
def beginRun (o : OutputLog) : OutputLog := { o with boundary := o.entries.length }

/-- One line of the current run. -/
def appendLine (o : OutputLog) (line : String) : OutputLog :=
  let (kept, ls) := o.takeLines
  { o with entries := kept ++ [.log (ls ++ [line])] }

/-- Several lines of the current run. -/
def appendLines (o : OutputLog) (lines : List String) : OutputLog := lines.foldl appendLine o

/-- The value that closes the current run. -/
def appendResult (o : OutputLog) (value : Json) : OutputLog :=
  let (kept, ls) := o.takeLines
  { o with entries := kept ++ [.result value ls] }

/-- The faults that close the current run. -/
def appendFaults (o : OutputLog) (faults : List Fault) : OutputLog :=
  let (kept, ls) := o.takeLines
  { o with entries := kept ++ [.faults faults ls] }

/-- A text that is about to be run. -/
def pushCode (o : OutputLog) (text : String) : OutputLog :=
  { entries := o.entries ++ [.code text], boundary := o.entries.length + 1 }

/-- The empty log. -/
def cleared : OutputLog := {}

end OutputLog

instance : Coded OutputEntry where
  encode
    | .code text => .obj [("type", .str "code"), ("text", .str text)]
    | .log lines => .obj [("type", .str "log"), ("lines", encode lines)]
    | .result value lines => .obj [("type", .str "result"), ("value", value), ("lines", encode lines)]
    | .faults faults lines =>
      .obj [("type", .str "errors"), ("errors", encode faults), ("lines", encode lines)]
  decode? j := do
    let (tag, body) ← j.internal "type"
    match tag with
    | "code" =>
      let [text] ← body.fields ["text"] | none
      return .code (← text.required)
    | "log" =>
      let [lines] ← body.fields ["lines"] | none
      return .log (← lines.required)
    | "result" =>
      let [value, lines] ← body.fields ["value", "lines"] | none
      return .result (← value.required) (← lines.required)
    | "errors" =>
      let [faults, lines] ← body.fields ["errors", "lines"] | none
      return .faults (← faults.required) (← lines.required)
    | _ => none

end Workbench
