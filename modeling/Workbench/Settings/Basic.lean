/-
Settings: what new workspaces start with, how long libraries are waited for, how
long messages stay, and how many events are kept for a reader.
-/
import Workbench.Json.Coding

namespace Workbench

/-- What new workspaces start with, and from which chapter on runs can be paused. -/
structure ExecutionSettings where
  /-- how long a run may take, in milliseconds -/
  execTimeMs : Nat := 1000
  /-- the chapter of a fresh workspace -/
  chapter : UInt8 := 1
  /-- the lowest chapter in which breakpoints and pausing are on -/
  debuggerChapter : UInt8 := 3
  deriving DecidableEq, Repr

/-- How libraries are waited for. -/
structure LibrarySettings where
  pollIntervalMs : Nat := 250
  readyTimeoutMs : Nat := 4000
  deriving DecidableEq, Repr

/-- How long messages are shown. -/
structure MessageSettings where
  shortMs : Nat := 750
  longMs : Nat := 1000
  deriving DecidableEq, Repr

/-- How many events a reader may leave unread. -/
structure EventSettings where
  capacity : Nat := 256
  deriving DecidableEq, Repr

/-- All settings. -/
structure Settings where
  execution : ExecutionSettings := {}
  libraries : LibrarySettings := {}
  messages : MessageSettings := {}
  events : EventSettings := {}
  deriving DecidableEq, Repr

instance : Coded ExecutionSettings where
  encode s :=
    .obj [("exec_time_ms", encode s.execTimeMs), ("chapter", encode s.chapter),
      ("debugger_chapter", encode s.debuggerChapter)]
  decode? j := do
    let [time, chapter, debugger] ← j.fields ["exec_time_ms", "chapter", "debugger_chapter"] | none
    let d : ExecutionSettings := {}
    return {
      execTimeMs := ← time.withDefault d.execTimeMs
      chapter := ← chapter.withDefault d.chapter
      debuggerChapter := ← debugger.withDefault d.debuggerChapter }

instance : Coded LibrarySettings where
  encode s := .obj [("poll_interval_ms", encode s.pollIntervalMs), ("ready_timeout_ms", encode s.readyTimeoutMs)]
  decode? j := do
    let [interval, timeout] ← j.fields ["poll_interval_ms", "ready_timeout_ms"] | none
    let d : LibrarySettings := {}
    return {
      pollIntervalMs := ← interval.withDefault d.pollIntervalMs
      readyTimeoutMs := ← timeout.withDefault d.readyTimeoutMs }

instance : Coded MessageSettings where
  encode s := .obj [("short_ms", encode s.shortMs), ("long_ms", encode s.longMs)]
  decode? j := do
    let [short, long] ← j.fields ["short_ms", "long_ms"] | none
    let d : MessageSettings := {}
    return { shortMs := ← short.withDefault d.shortMs, longMs := ← long.withDefault d.longMs }

instance : Coded EventSettings where
  encode s := .obj [("capacity", encode s.capacity)]
  decode? j := do
    let [capacity] ← j.fields ["capacity"] | none
    return { capacity := ← capacity.withDefault ({} : EventSettings).capacity }

instance : Coded Settings where
  encode s :=
    .obj [("execution", encode s.execution), ("libraries", encode s.libraries),
      ("notifications", encode s.messages), ("events", encode s.events)]
  decode? j := do
    let [execution, libraries, messages, events] ←
      j.fields ["execution", "libraries", "notifications", "events"] | none
    return {
      execution := ← execution.withDefault {}
      libraries := ← libraries.withDefault {}
      messages := ← messages.withDefault {}
      events := ← events.withDefault {} }

end Workbench
