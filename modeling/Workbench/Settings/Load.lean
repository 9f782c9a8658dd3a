/-
Loading settings: what is built in, then a file, then variables of the
environment, then what the caller gives, each over the one before.

The file is written in TOML. It is the one that the caller or a variable names,
which must be there, or else one of a fixed name, which need not. A whole number
may also be given as a truth value, a number with a fraction, which is rounded,
or a text.
-/
import Workbench.Decimal.Notation
import Workbench.Settings.Basic
import Workbench.Settings.Folder
import Workbench.Settings.Layer
import Workbench.Toml.Reader

namespace Workbench

/-- Why settings cannot be loaded. -/
inductive SettingsError where
  /-- the file is not there, or is not written in TOML -/
  | unreadable
  /-- a value does not fit where it stands -/
  | unfitting
  /-- runs would have no time at all -/
  | noTime
  deriving DecidableEq, Repr

/-- The text of an error. -/
def SettingsError.message : SettingsError → String
  | .unreadable => "Failed to read configuration sources"
  | .unfitting => "Failed to parse configuration"
  | .noTime => "execution.exec_time_ms must be greater than zero"

namespace Settings

/-! ## Values -/

/-- A text as a whole number: one of the words for yes and no, or digits. -/
def naturalOfText? (s : String) : Option Nat :=
  let word := Text.lower s
  if word = "true" ∨ word = "on" ∨ word = "yes" then some 1
  else if word = "false" ∨ word = "off" ∨ word = "no" then some 0
  else match s.toList with
    | '-' :: _ => none
    | cs => (Decimal.readInt? cs).bind fun n => if n < Decimal.wordCount then some n.toNat else none

/-- A value as a whole number of 64 bits without sign. -/
def natural? : Toml → Option Nat
  | .int n => if 0 ≤ n then some n.toNat else none
  | .float x => some (Decimal.roundedWord x)
  | .bool b => some (if b then 1 else 0)
  | .text s => naturalOfText? s
  | .time s => naturalOfText? s
  | _ => none

/-- The values of a record's fields: by name from a table, in order from an array. -/
def fields? (names : List String) : Toml → Option (List (Option Toml))
  | .table es => some (names.map fun n => Table.find n es)
  | .array items => some ((List.range names.length).map fun i => items[i]?)
  | _ => none

/-- A number where there is one, else the one that is built in. -/
def numberOr (builtIn : Nat) : Option Toml → Option Nat
  | some v => natural? v
  | none => some builtIn

/-- A chapter where there is one, else the one that is built in. -/
def chapterOr (builtIn : UInt8) : Option Toml → Option UInt8
  | some v => (natural? v).bind fun n => if n < 256 then some (UInt8.ofNat n) else none
  | none => some builtIn

/-- A section where there is one, else the one that is built in. -/
def sectionOr {α : Type} (builtIn : α) (read : Toml → Option α) : Option Toml → Option α
  | some v => read v
  | none => some builtIn

/-- Settings for runs. -/
def execution? (t : Toml) : Option ExecutionSettings := do
  let d : ExecutionSettings := {}
  let [time, chapter, debugger] ← fields? ["exec_time_ms", "chapter", "debugger_chapter"] t | none
  return {
    execTimeMs := ← numberOr d.execTimeMs time
    chapter := ← chapterOr d.chapter chapter
    debuggerChapter := ← chapterOr d.debuggerChapter debugger }

/-- Settings for libraries. -/
def libraries? (t : Toml) : Option LibrarySettings := do
  let d : LibrarySettings := {}
  let [interval, timeout] ← fields? ["poll_interval_ms", "ready_timeout_ms"] t | none
  return { pollIntervalMs := ← numberOr d.pollIntervalMs interval, readyTimeoutMs := ← numberOr d.readyTimeoutMs timeout }

/-- Settings for messages. -/
def messages? (t : Toml) : Option MessageSettings := do
  let d : MessageSettings := {}
  let [short, long] ← fields? ["short_ms", "long_ms"] t | none
  return { shortMs := ← numberOr d.shortMs short, longMs := ← numberOr d.longMs long }

/-- Settings for events. -/
def events? (t : Toml) : Option EventSettings := do
  let d : EventSettings := {}
  let [capacity] ← fields? ["capacity"] t | none
  return { capacity := ← numberOr d.capacity capacity }

/-- The settings that layers amount to. -/
def ofLayers? (es : List (String × Toml)) : Option Settings := do
  let [execution, libraries, messages, events] ←
    fields? ["execution", "libraries", "notifications", "events"] (.table es) | none
  return {
    execution := ← sectionOr {} execution? execution
    libraries := ← sectionOr {} libraries? libraries
    messages := ← sectionOr {} messages? messages
    events := ← sectionOr {} events? events }

/-! ## Sources -/

/-- The file that is read when none is named, without its ending. -/
def usualFile : String := "evalpad"

/-- The variable that names a file. -/
def pathVariable : String := "EVALPAD_CONFIG_PATH"

/-- What the names of variables with settings begin with, in any case of letters. -/
def variablePrefix : String := "evalpad__"

/-- The text of the file that a path names, with or without its ending. A file of another kind that has
just this name is in the way. -/
def fileText? (folder : Folder) (path : String) : Option String :=
  match folder.read? path with
  | some text => if Folder.ending? path = some "toml" then some text else none
  | none => if (Folder.parts path).isEmpty then none else folder.read? (path ++ ".toml")

/-- The layer of the file: the one that is named must be there, the usual one need not. -/
def fileLayer? (folder : Folder) (path : Option String) : Option (List (String × Toml)) :=
  match path with
  | some path => (fileText? folder path).bind Toml.read?
  | none =>
    match fileText? folder usualFile with
    | some text => Toml.read? text
    | none => some []

/-- The value of a variable: a truth value, a number, or a text. -/
def ofVariable (s : String) : Toml :=
  let word := Text.lower s
  if word = "true" then .bool true
  else if word = "false" then .bool false
  else
    match (Decimal.readInt? s.toList).bind Toml.inRange? with
    | some n => .int n
    | none =>
      match Decimal.readFloat? s.toList with
      | some x => .float x
      | none => .text s

/-- Two underscores in a row stand for a point. -/
def pointed : List Char → List Char
  | '_' :: '_' :: rest => '.' :: pointed rest
  | c :: rest => c :: pointed rest
  | [] => []

/-- The key and the value that a variable sets, if it sets any. -/
def ofEnvironment? (name value : String) : Option (String × Toml) :=
  let cs := (Text.lower name).toList
  if variablePrefix.toList.isPrefixOf cs then
    some (String.ofList (pointed (cs.drop variablePrefix.length)), ofVariable value)
  else none

/-- The layer of the environment. -/
def environmentLayer (environment : List (String × String)) : List (String × Toml) :=
  environment.filterMap fun (name, value) => ofEnvironment? name value

/-- What a caller sets. -/
structure Overrides where
  path : Option String := none
  execTimeMs : Option Nat := none
  chapter : Option UInt8 := none
  deriving DecidableEq, Repr

/-- The settings with what the caller sets. -/
def overridden (s : Settings) (o : Overrides) : Settings :=
  { s with execution := { s.execution with
      execTimeMs := o.execTimeMs.getD s.execution.execTimeMs
      chapter := o.chapter.getD s.execution.chapter } }

/-- Settings are loaded from a folder and an environment. -/
def load (folder : Folder) (environment : List (String × String)) (o : Overrides) : Except SettingsError Settings :=
  let path := o.path.or ((environment.find? (·.1 = pathVariable)).map (·.2))
  match fileLayer? folder path with
  | none => .error .unreadable
  | some file =>
    match ofLayers? (Layer.laidOver (environmentLayer environment) (Layer.laidOver file [])) with
    | none => .error .unfitting
    | some settings =>
      let settings := settings.overridden o
      if settings.execution.execTimeMs = 0 then .error .noTime else .ok settings

end Settings

end Workbench
