/-
The machine that runs scripts, one statement at a time.

Before each statement it looks, in this order, whether it was asked to stop,
asked to suspend, has come to the end, has used up its time or stands at a
breakpoint. Sleeping is cut into slices, so that a request is heeded soon, and
does not count as time used. The machine is also what a suspended run consists
of: `suspendedAt` keeps it from stopping twice at the breakpoint it was
suspended at.
-/
import Workbench.Engine.Basic
import Workbench.Script.Parse
import Workbench.Workspace.Output

namespace Workbench.Script

/-! ## Values -/

/-- Why an expression has no value. -/
inductive EvalError where
  | undeclared (name : String)
  /-- neither two numbers nor a text among the two -/
  | illTyped (left : Json)

/-- The name of a value's type. -/
def typeName : Json → String
  | .null => "undefined"
  | .bool _ => "boolean"
  | .int _ => "number"
  | .float _ => "number"
  | .str _ => "string"
  | .arr _ => "array"
  | .obj _ => "object"

/-- The text of an evaluation error. -/
def EvalError.message : EvalError → String
  | .undeclared name => "Name " ++ name ++ " not declared."
  | .illTyped left =>
    "Expected number or string on left hand side of operation, got " ++ typeName left ++ "."

/-- A double as a value: whole numbers below 2⁵³ are integers, so that they show no fraction, and
what is not finite has no value. -/
def numberValue (x : Float) : Json :=
  match Decimal.Dyadic.ofFloat? x with
  | none => .null
  | some d =>
    match d.magnitude? with
    | some n => if n < 2 * Decimal.leadingBit then .int (if d.negative then -(n : Int) else n) else .float x
    | none => .float x

/-- A number as a double. -/
def asDouble? : Json → Option Float
  | .int n => some (Decimal.ofInt n)
  | .float x => some x
  | _ => none

/-- A value as it is displayed: a text without quotes. -/
def displayed : Json → String
  | .str s => s
  | j => j.shown

/-- Whether a value is a text. -/
def isText : Json → Bool
  | .str _ => true
  | _ => false

/-- The sum of two numbers, or the texts of two values in a row if one of them is a text. -/
def plus (left right : Json) : Except EvalError Json :=
  match asDouble? left, asDouble? right with
  | some x, some y => .ok (numberValue (x + y))
  | _, _ =>
    if isText left || isText right then .ok (.str (displayed left ++ displayed right))
    else .error (.illTyped left)

/-- The constants of every context. -/
def builtins : List String := ["undefined", "math_PI", "math_E"]

/-- The value of a constant. -/
def constant? : String → Option Json
  | "undefined" => some .null
  | "math_PI" => some (numberValue (Float.ofBits 0x400921FB54442D18))
  | "math_E" => some (numberValue (Float.ofBits 0x4005BF0A8B145769))
  | _ => none

/-- The value of a name: a binding, else a global, a constant, or a symbol that the context shows. -/
def valueOf (bindings : List (String × Json)) (context : Context) (name : String) : Except EvalError Json :=
  match Json.lookup name bindings with
  | some v => .ok v
  | none =>
    match context.global? name with
    | some v => .ok v
    | none =>
      match constant? name with
      | some v => .ok v
      | none =>
        if context.hasSymbol name then .ok (.str ("<function " ++ name ++ ">"))
        else .error (.undeclared name)

/-- The value of an expression, the left operand first. -/
def Expr.eval (bindings : List (String × Json)) (context : Context) : Expr → Except EvalError Json
  | .number x => .ok (numberValue x)
  | .text s => .ok (.str s)
  | .bool b => .ok (.bool b)
  | .name n => valueOf bindings context n
  | .add l r =>
    match l.eval bindings context with
    | .error e => .error e
    | .ok a =>
      match r.eval bindings context with
      | .error e => .error e
      | .ok b => plus a b

/-! ## The machine -/

/-- A machine between two statements. -/
structure Machine where
  program : List Statement
  /-- the next statement -/
  position : Nat := 0
  /-- sorted by name -/
  bindings : List (String × Json) := []
  lastValue : Json := .null
  /-- milliseconds left of the sleep at `position`, once it has begun -/
  sleepLeft : Option Nat := none
  /-- where the machine was last suspended; that statement's breakpoint does not count -/
  suspendedAt : Option Nat := none

namespace Machine

/-- The next statement. -/
def current? (m : Machine) : Option Statement := m.program[m.position]?

/-- The line of the next statement, or of the last one at the end. -/
def currentLine? (m : Machine) : Option Int32 :=
  (m.current?.or m.program.getLast?).map (·.line)

/-- The value bound to a name. -/
def binding? (m : Machine) (name : String) : Option Json := Json.lookup name m.bindings

/-- On to the next statement. -/
def advanced (m : Machine) : Machine :=
  { m with position := m.position + 1, sleepLeft := none, suspendedAt := none }

/-- The machine as a suspended run, and where it stands. -/
def suspend (m : Machine) : RunResult Machine :=
  .suspended { m with suspendedAt := some m.position } (m.currentLine?.map Location.line)

end Machine

/-- What a command that takes no time does: new bindings, a last value, a line written. -/
structure Change where
  bindings : List (String × Json)
  value : Json
  line : Option String := none

/-- The change that a command makes, or the message it fails with. Sleeping and spinning change nothing. -/
def Command.change (bindings : List (String × Json)) (last : Json) (context : Context) :
    Command → Except String Change
  | .bind name e =>
    match e.eval bindings context with
    | .error err => .error err.message
    | .ok v => .ok { bindings := Json.insertMember name v bindings, value := .null }
  | .display e =>
    match e.eval bindings context with
    | .error err => .error err.message
    | .ok v => .ok { bindings := bindings, value := v, line := some (displayed v) }
  | .value e =>
    match e.eval bindings context with
    | .error err => .error err.message
    | .ok v => .ok { bindings := bindings, value := v }
  | .fail message => .error message
  | .sleep _ => .ok { bindings := bindings, value := last }
  | .spin => .ok { bindings := bindings, value := last }

/-- The machine after a change, at the next statement. -/
def Machine.changed (m : Machine) (c : Change) : Machine :=
  { m with bindings := c.bindings, lastValue := c.value }.advanced

/-! ## Runs -/

/-- The longest stretch of a sleep in which no request is heeded, in milliseconds. -/
def sleepSlice : Nat := 10

/-- How long one turn of a spin takes, in milliseconds. -/
def spinTick : Nat := 1

/-- What a run under way waits for. -/
inductive Waiting where
  /-- its next turn -/
  | turn
  /-- the end of a slice of a sleep that began at a time and had so much left then -/
  | slice (since left : Nat)
  /-- the end of a turn of a spin -/
  | tick (time : Nat)
  deriving DecidableEq, Repr

/-- A run under way. -/
structure Flight where
  machine : Machine
  context : Context
  options : RunOptions
  started : Nat
  /-- how much of the time since then was slept -/
  slept : Nat := 0
  waiting : Waiting := .turn

/-- A run: not begun yet, or under way. -/
inductive Run where
  | ofSource (source : String) (context : Context) (options : RunOptions)
  | ofMachine (machine : Machine) (context : Context) (options : RunOptions)
  | flying (f : Flight)

/-- What a run that is over its time says. -/
def timeoutMessage (budgetMs : Nat) : String :=
  "Potential infinite loop detected. Execution exceeded the time limit of " ++ toString budgetMs ++ "ms."

namespace Flight

/-- The time that counts against the budget. -/
def used (f : Flight) (now : Nat) : Nat := now - f.started - f.slept

/-- Whether the run stops in front of the statement because of a breakpoint. -/
def stopsAt (f : Flight) (s : Statement) : Bool :=
  f.options.debuggerOn && f.options.breakpoints.contains s.line
    && !decide (f.machine.suspendedAt = some f.machine.position)

/-- One fault on a line, which ends the run. -/
def faultAt (kind : FaultKind) (message : String) (line : Int32) : RunResult Machine :=
  .failed [⟨kind, message, .line line⟩]

/-- The run goes on until it ends, waits, or lets others go on. So many more timers may run out meanwhile, and
a sleep of no time has a timer too; nobody is let go on behind it. -/
def proceed (now : Nat) (tokens : Tokens) (spare : Nat) (f : Flight) : List String × Polled Run Machine :=
  if tokens.cancelled then ([], .ended (.failed []))
  else if tokens.paused then ([], .ended f.machine.suspend)
  else
    match _h : f.machine.program[f.machine.position]? with
    | none => ([], .ended (.finished f.machine.lastValue))
    | some s =>
      if f.options.budgetMs < f.used now then
        ([], .ended (faultAt .timeout (timeoutMessage f.options.budgetMs) s.line))
      else if f.stopsAt s then ([], .ended f.machine.suspend)
      else
        match s.command with
        | .sleep ms =>
          let left := f.machine.sleepLeft.getD ms
          if left = 0 ∧ spare ≠ 0 then
            proceed now tokens (spare - 1) { f with machine := f.machine.advanced, waiting := .turn }
          else
            ([], .pending (.flying { f with
                  machine := { f.machine with sleepLeft := some left }, waiting := .slice now left })
              ((Wake.onTime (now + min left sleepSlice)).within spare))
        | .spin =>
          ([], .pending (.flying { f with waiting := .tick (now + spinTick) })
            ((Wake.onTime (now + spinTick)).within spare))
        | command =>
          match command.change f.machine.bindings f.machine.lastValue f.context with
          | .error message => ([], .ended (faultAt .runtime message s.line))
          | .ok c =>
            let written := c.line.toList
            let next : Flight := { f with machine := f.machine.changed c, waiting := .turn }
            match f.options.pacing with
            | .preemptive => (written, .pending (.flying next) (Wake.soon.within spare))
            | .sync =>
              let (more, polled) := proceed now tokens spare { f with machine := f.machine.changed c, waiting := .turn }
              (written ++ more, polled)
  termination_by f.machine.program.length - f.machine.position
  decreasing_by
    all_goals
      have := (List.getElem?_eq_some_iff.1 _h).1
      simp only [Machine.advanced, Machine.changed]
      omega

/-- A slice of a sleep is over, at its end or because of a request: what was slept does not count. -/
def awake (now since left : Nat) (f : Flight) : Flight :=
  let elapsed := min (now - since) left
  let rest := left - elapsed
  { f with
    slept := f.slept + elapsed
    machine := if rest = 0 then f.machine.advanced else { f.machine with sleepLeft := some rest }
    waiting := .turn }

/-- The run is polled: it goes on if what it waits for has come, which takes a timer unless it is its turn. A
request ends a slice of a sleep, but not a turn of a spin. -/
def poll (f : Flight) (now : Nat) (tokens : Tokens) : List String × Polled Run Machine :=
  match f.waiting with
  | .turn => f.proceed now tokens Wake.allowance
  | .slice since left =>
    let due := since + min left sleepSlice
    if due ≤ now ∨ tokens.cancelled ∨ tokens.paused then
      (f.awake now since left).proceed now tokens (Wake.allowance - 1)
    else ([], .pending (.flying f) (.onTime due))
  | .tick time =>
    if time ≤ now then { f with waiting := .turn }.proceed now tokens (Wake.allowance - 1)
    else ([], .pending (.flying f) (.onTime time))

end Flight

/-- A run is polled. Its clock starts at the first poll. -/
def Run.poll (r : Run) (now : Nat) (tokens : Tokens) : List String × Polled Run Machine :=
  match r with
  | .ofSource source context options =>
    match parse source with
    | .error e => ([], .ended (.failed [e.fault]))
    | .ok program =>
      ({ machine := { program := program }, context := context, options := options, started := now } : Flight).proceed
        now tokens Wake.allowance
  | .ofMachine machine context options =>
    ({ machine := machine, context := context, options := options, started := now } : Flight).proceed now tokens
      Wake.allowance
  | .flying f => f.poll now tokens

/-! ## How long a run takes -/

/-- How many polls a command takes at most. -/
def Command.polls (budgetMs : Nat) : Command → Nat
  | .sleep ms => ms + 2
  | .spin => budgetMs + 3
  | _ => 1

/-- How many polls the statements take at most. -/
def pollsOf (budgetMs : Nat) (program : List Statement) : Nat :=
  program.foldr (fun s polls => s.command.polls budgetMs + polls) 0

/-- How many polls a machine takes at most to its end. -/
def Machine.polls (m : Machine) (budgetMs : Nat) : Nat :=
  (m.sleepLeft.getD 0) + pollsOf budgetMs (m.program.drop m.position) + 1

/-- How many polls a run takes at most to its end. -/
def Run.patience : Run → Nat
  | .ofSource source _ options =>
    match parse source with
    | .error _ => 1
    | .ok program => pollsOf options.budgetMs program + 2
  | .ofMachine machine _ options => machine.polls options.budgetMs + 1
  | .flying f =>
    let later := pollsOf f.options.budgetMs (f.machine.program.drop (f.machine.position + 1))
    match f.waiting with
    | .turn => f.machine.polls f.options.budgetMs
    | .slice _ left => left + 1 + later
    | .tick time => f.options.budgetMs + 2 - f.used time + later + 1

/-- The engine that runs scripts. -/
abbrev engine : Engine where
  Snapshot := Machine
  Run := Run
  makeContext selection := .ofSelection selection builtins
  start := .ofSource
  resume := .ofMachine
  poll := Run.poll
  patience := Run.patience

instance : Coded Machine where
  encode m :=
    .obj [("program", encode m.program), ("pc", encode m.position), ("bindings", .obj m.bindings),
      ("last_value", m.lastValue), ("sleep_left_ms", encode m.sleepLeft), ("suspended_at", encode m.suspendedAt)]
  decode? j := do
    let [program, position, bindings, last, sleep, suspended] ←
      j.fields ["program", "pc", "bindings", "last_value", "sleep_left_ms", "suspended_at"] | none
    let .obj bindings ← (bindings.required : Option Json) | none
    return {
      program := ← program.required
      position := ← position.required
      bindings := bindings
      lastValue := ← last.required
      sleepLeft := ← sleep.optional
      suspendedAt := ← suspended.optional }

end Workbench.Script
