/-
Running a program with breakpoints.

A run that stands at a breakpoint has told what comes before it, and the machine that
it has left there tells the rest (`Script.Ride.narrates`). Every time it is taken up
again, what is printed is what has been told since the last stop, and at the end the
run has come to what it comes to without breakpoints (`Desk.Halted.resumes`). So the
command prints what it prints without them, with a line at each stop, and ends as it
ends without them (`breakpoints_add_stops`). A command that would move a breakpoint
past the last line panics instead (`RunCommand.panics`).
-/
import Workbench.Proofs.CommandLine.Desk
import Workbench.Proofs.Script.Narration

namespace Workbench.CommandLine

open Script

/-! ## What is printed -/

/-- What is told as it is printed: a line as it is, a stop as the text that the log shows for it. -/
def toldText (told : List (Option String)) : String :=
  String.join (told.map fun
    | some line => Text.line line
    | none => Text.line "\"Breakpoint hit!\"")

theorem toldText_append (first second : List (Option String)) :
    toldText (first ++ second) = toldText first ++ toldText second := by
  simp [toldText]

theorem toldText_lines (lines : List String) : toldText (lines.map some) = String.join (lines.map Text.line) := by
  simp [toldText, Function.comp_def]

/-- What the output log says behind the lines of a run of the user's own. -/
def ended {Snapshot : Type} (prependLines : Int32) : RunResult Snapshot → String
  | .finished value => value.shown
  | .failed faults => Text.joined "\n" ((faults.map (·.remapped prependLines)).map Fault.text)
  | .suspended _ _ => "\"Breakpoint hit!\""

/-- The output log of a run of the user's own, as it is printed. -/
theorem logText_closing {Snapshot : Type} (prependLines : Int32) (lines : List String) (result : RunResult Snapshot) :
    logText false ((result.own prependLines).closing lines) =
      toldText (lines.map some) ++ Text.line (ended prependLines result) := by
  have sentinel : (Json.str Scene.breakpointSentinel).shown = "\"Breakpoint hit!\"" := by decide +kernel
  rw [toldText_lines]
  cases result <;>
    simp [logText, RunResult.own, Outcome.closing, OutputEntry.text, ended, Text.line, sentinel, String.append_assoc]

/-! ## From stop to stop -/

/-- A workspace in whose runs a script is told what its outset says: breakpoints count, on the lines it stops at. -/
structure Fits (settings : Settings) (o : Outset) (prependLines : Int32) (state : WorkspaceState) : Prop where
  debuggable : Job.debuggable settings o.context = true
  halts : ∀ line, (state.breakpoints.shifted prependLines).contains line = o.halts line
  budget : state.execTimeMs = o.budgetMs

/-- A desk in whose playground a script stands at a breakpoint, with the machine that it is taken up with. -/
structure Desk.Halted (settings : Settings) (o : Outset) (prependLines : Int32) (machine : Machine) (d : Desk)
    (slot : Slot Script.engine) : Prop extends d.Rests settings .playground slot where
  suspended : ∃ location, slot.suspended =
    some { snapshot := machine, context := o.context, prependLines := prependLines, location := location }
  highlighted : ∃ range, slot.state.highlighted = some range
  fits : Fits settings o prependLines slot.state
  from_ : o.From (.snapshot machine)

/-- Nothing in the playground is graded. -/
theorem Desk.Rests.ungraded {d : Desk} {settings : Settings} {slot : Slot Script.engine}
    (rests : d.Rests settings .playground slot) : Job.graded slot = false := by
  rw [Job.graded, rests.holds.id_eq]
  rfl

section

variable {settings : Settings} {o : Outset} {mode : Mode} {p : Prepared Script.engine} {d : Desk}
  {before after : Slot Script.engine} {now slept : Nat} {lines : List String} {result : RunResult Machine}

/-- Where a run of the user's own leads: to its end, or to the next stop. -/
theorem Fits.leads (fits : Fits settings o p.prependLines before.state) (context : p.context = o.context)
    (from_ : o.From p.origin) (pauses : mode.acceptsPause = true)
    (ride : Ride false (begin p.context (Job.optionsFor settings before.state mode p) p.origin) now lines slept result)
    (leaves : p.Leaves before lines result after) (rests : d.Rests settings .playground after) :
    (result.Final ∧ o.tells = lines.map some) ∨
      ∃ j m, d.Halted settings (o.at_ j) p.prependLines m after ∧ (∃ location, result = .suspended m location) ∧
        o.tells = lines.map some ++ none :: (o.at_ j).tells := by
  rw [context] at ride
  have debugged : (Job.optionsFor settings before.state mode p).debuggerOn = true := by
    rw [Job.optionsFor, pauses, context, fits.debuggable]
    rfl
  rcases ride.narrates from_ debugged fits.halts fits.budget with whole | ⟨m, s, suspended, again, told⟩
  · exact .inl whole
  · obtain ⟨stored, highlighted⟩ := leaves.stopped _ _ suspended
    refine .inr ⟨_, _, ⟨rests, ?_, ⟨_, highlighted⟩, ⟨fits.debuggable, ?_, ?_⟩, again⟩, ⟨_, suspended⟩, told⟩
    · exact ⟨_, context ▸ stored⟩
    · have same : after.state.breakpoints = before.state.breakpoints := congrArg Brief.breakpoints leaves.brief
      rw [same]
      exact fits.halts
    · have same : after.state.execTimeMs = before.state.execTimeMs := congrArg Brief.execTimeMs leaves.brief
      rw [same]
      exact fits.budget

end

/-- What is noted when a run is taken up again that stands at a line. -/
def resumptionNote (line : Int32) : String :=
  Text.line ("-- breakpoint at line " ++ toString line.toInt ++ ", resuming")

/-- A run that stands at a breakpoint is taken up again there, and its output printed. -/
theorem resumeAll_succ {d : Desk} {settings : Settings} {slot : Slot Script.engine} (asJson : Bool) (times : Nat)
    {range : LineRange} (rests : d.Rests settings .playground slot)
    (highlighted : slot.state.highlighted = some range) :
    d.does (resumeAll .playground asJson (times + 1) .breakpointHit) =
      ({ d with notes := d.notes ++ resumptionNote range.start } : Desk).does (do
        let outcome ← evaluate .playground .debugResume
        printLog .playground asJson
        resumeAll .playground asJson times outcome) := by
  rw [resumeAll, Desk.does_then rests.looks]
  simp only [highlighted]
  exact Desk.does_then (Desk.does_noteLine _) _

theorem resumeAll_final {Snapshot : Type} {d : Desk} (w : WorkspaceId) (asJson : Bool) (times : Nat)
    (prependLines : Int32) {result : RunResult Snapshot} (final : result.Final) :
    d.does (resumeAll w asJson times (result.own prependLines)) = (.ok (result.own prependLines), d) := by
  cases times with
  | zero => rfl
  | succ times =>
    cases result with
    | suspended machine location => cases final
    | _ => rfl

/-- A run that stands at a breakpoint is taken up again once for each stop before it, and comes to its own end. -/
theorem Desk.Halted.resumes (asJson : Bool) (stops : Nat) {settings : Settings} {o : Outset} {prependLines : Int32}
    {machine : Machine} {d : Desk} {slot : Slot Script.engine} (halted : d.Halted settings o prependLines machine slot)
    (told : o.tells.count none = stops) :
    ∃ result behind, result.Final ∧ result = (machine.ending o.budgetMs o.context).result ∧
      (∀ times, stops < times →
        d.does (resumeAll .playground asJson times .breakpointHit) = (.ok (result.own prependLines), behind)) ∧
      (asJson = false → behind.output = d.output ++ toldText o.tells ++ Text.line (ended prependLines result)) ∧
      ∃ lines : List Int32, lines.length = stops + 1 ∧
        behind.notes = d.notes ++ String.join (lines.map resumptionNote) := by
  induction stops using Nat.strong_induction_on generalizing o machine d slot with
  | _ stops ih =>
    obtain ⟨location, suspended⟩ := halted.suspended
    obtain ⟨range, highlighted⟩ := halted.highlighted
    let p : Prepared Script.engine :=
      { origin := .snapshot machine, context := o.context, prependLines := prependLines }
    obtain ⟨lines, slept, result, now, hub, after, ride, performed, holds, free, leaves⟩ :
        ∃ lines slept result now hub after,
          Ride false (begin o.context (Job.optionsFor settings slot.state .debugResume p) p.origin) d.now lines slept
            result ∧ _ ∧ _ ∧ _ ∧ p.Leaves slot lines result after :=
      halted.holds.evaluates_resumed halted.free suspended halted.ungraded
    let noted : Desk := { d with notes := d.notes ++ resumptionNote range.start }
    let resumed : Desk := { noted with hub := hub, now := now }
    have evaluated : noted.does (evaluate .playground .debugResume) = (.ok (result.own prependLines), resumed) :=
      Desk.does_evaluate performed
    have rests : resumed.Rests settings .playground after := ⟨holds, free⟩
    let printed := resumed.printed (logText asJson after.state.output.entries)
    have goes (times : Nat) : d.does (resumeAll .playground asJson (times + 1) .breakpointHit) =
        printed.does (resumeAll .playground asJson times (result.own prependLines)) := by
      rw [resumeAll_succ asJson times halted.toRests highlighted, Desk.does_then evaluated,
        Desk.does_then (rests.prints asJson)]
    have output (text : asJson = false) :
        printed.output = d.output ++ toldText (lines.map some) ++ Text.line (ended prependLines result) := by
      subst text
      show d.output ++ logText false after.state.output.entries = _
      rw [leaves.entries, logText_closing, String.append_assoc]
    have own : machine.ending o.budgetMs o.context = (resultEnding o.budgetMs o.context result).after lines slept :=
      ride.begin_ending halted.fits.budget
    rcases halted.fits.leads rfl halted.from_ rfl ride leaves (rests.printed _) with
      ⟨final, whole⟩ | ⟨j, next, again, ⟨location, rfl⟩, more⟩
    · obtain rfl : stops = 0 := by
        rw [← told, whole]
        exact List.count_eq_zero.2 (by simp)
      refine ⟨result, printed, final, ?_, fun times some_times => ?_, fun text => ?_, [range.start], rfl, ?_⟩
      · rw [own, resultEnding_final final]
        rfl
      · obtain ⟨times, rfl⟩ := Nat.exists_eq_succ_of_ne_zero (Nat.ne_zero_of_lt some_times)
        rw [goes, resumeAll_final _ _ _ _ final]
      · rw [output text, whole]
      · simp [printed, resumed, noted, Desk.printed]
    · have fewer : stops = (o.at_ j).tells.count none + 1 := by
        rw [← told, more]
        simp [List.count_eq_zero.2]
      obtain ⟨last, behind, final, same, does, told, notes, count, noted_too⟩ :=
        ih _ (fewer ▸ Nat.lt_succ_self _) again rfl
      refine ⟨last, behind, final, ?_, fun times enough => ?_, fun text => ?_, range.start :: notes, ?_, ?_⟩
      · rw [own]
        exact same
      · obtain ⟨times, rfl⟩ := Nat.exists_eq_succ_of_ne_zero (Nat.ne_zero_of_lt enough)
        rw [goes]
        exact does times (by omega)
      · rw [told text, output text, more, toldText_append]
        simp [toldText, ended, String.append_assoc]
      · rw [List.length_cons, count, fewer]
      · rw [noted_too]
        simp [resumed, noted, Desk.printed, String.append_assoc]

/-! ## Up to the run -/

/-- The text that a path names; where no path is named, no text. -/
def textAt? (folder : Folder) : Option String → Option String
  | some path => folder.read? path
  | none => some ""

/-- What a command's program is composed of, if all its files can be read. -/
def RunCommand.composition? (c : RunCommand) (folder : Folder) : Option Composition :=
  match textAt? folder c.prependFile, textAt? folder c.postpendFile, folder.read? c.file with
  | some pre, some post, some value => some (.ofFragments pre value post none)
  | _, _, _ => none

/-- What a command's program is run in. -/
def RunCommand.context (c : RunCommand) (settings : Settings) : Context :=
  Script.engine.makeContext { chapter := settings.execution.chapter, library := .named (c.library.getD .none) }

/-- The text of a file is put into the playground, if a file is named. -/
def fill (folder : Folder) (path : Option String) (e : String → Edit) : Doing Unit :=
  match path with
  | some path => do
    let text ← sourceOf folder path
    edit .playground (e text)
  | none => pure ()

/-- The library that is asked for is selected, if one is. -/
def select (c : RunCommand) : Doing Unit :=
  match c.library with
  | some library => discard (perform .playground (.selectLibrary library))
  | none => pure ()

/-- What comes before a run of a program. It is the same whatever the breakpoints. -/
def arrange (folder : Folder) (c : RunCommand) : Doing Unit := do
  select c
  fill folder c.prependFile .editorPrepend
  fill folder c.postpendFile .editorPostpend
  fill folder (some c.file) .editorValue

/-- Whether a command fails whose run has come to an outcome. -/
def verdictOf : Outcome → Except String Unit
  | .errored faults => .error ("program failed with " ++ toString faults.length ++ " error(s)")
  | _ => .ok ()

/-- The command ends with the outcome of its run. -/
def conclude (o : Outcome) : Doing Unit :=
  match o with
  | .errored faults => throw ("program failed with " ++ toString faults.length ++ " error(s)")
  | _ => pure ()

theorem does_conclude {d : Desk} (o : Outcome) : d.does (conclude o) = (verdictOf o, d) := by
  cases o <;> rfl

/-- The run of a program that has been put into the playground, from stop to stop, resumed at most so often. -/
def runArranged (bound : WorkspaceState → Nat) (c : RunCommand) : Doing Unit := do
  edit .playground (.breakpoints (.ofList c.breakpoints))
  let first ← evaluate .playground .editorRun
  printLog .playground c.asJson
  let state ← stateOf .playground
  let last ← resumeAll .playground c.asJson (bound state) first
  conclude last

theorem runProgram_eq (folder : Folder) (c : RunCommand) :
    runProgram folder c = (arrange folder c >>= fun _ => runArranged resumptions c) := by
  unfold runProgram arrange select fill runArranged
  cases c.library <;> cases c.prependFile <;> cases c.postpendFile <;> simp only [bind_assoc, pure_bind] <;> rfl

/-- A file that is named fills its place; where none is named, the place stays empty. -/
theorem fill_does {d : Desk} {settings : Settings} {slot : Slot Script.engine}
    (rests : d.Rests settings .playground slot) (folder : Folder) (path : Option String) {e : String → Edit}
    (empty : (e "").apply slot.state = slot.state) :
    match textAt? folder path with
    | some text => ∃ hub, d.does (fill folder path e) = (.ok (), { d with hub := hub }) ∧
        ({ d with hub := hub } : Desk).Rests settings .playground { slot with state := (e text).apply slot.state }
    | none => ∃ missing, d.does (fill folder path e) = (.error ("Failed to read " ++ missing), d) := by
  cases path with
  | none => exact ⟨d.hub, rfl, empty.symm ▸ rests⟩
  | some path =>
    have source := d.does_sourceOf folder path
    unfold textAt? fill
    dsimp only
    cases found : folder.read? path with
    | none =>
      rw [found] at source
      exact ⟨_, Desk.does_fails source _⟩
    | some text =>
      rw [found] at source
      obtain ⟨hub, edited, rests⟩ := rests.edits (e text)
      exact ⟨hub, (Desk.does_then source _).trans edited, rests⟩

/-- A playground in which a command's program stands ready. -/
structure Arranged (settings : Settings) (c : RunCommand) (composed : Composition) (d : Desk)
    (slot : Slot Script.engine) : Prop extends d.Rests settings .playground slot where
  composed_eq : Composition.ofState slot.state none = composed
  context_eq : Script.engine.makeContext slot.state.selection = c.context settings
  budget_eq : slot.state.execTimeMs = settings.execution.execTimeMs
  silent : d.output = "" ∧ d.notes = ""

theorem select_does (settings : Settings) (c : RunCommand) :
    ∃ d slot, (Desk.fresh settings).does (select c) = (.ok (), d) ∧ d.Rests settings .playground slot ∧
      slot.state.brief =
        { (Slot.fresh (E := Script.engine) settings .playground).state.brief with library := c.library.getD .none } ∧
      d.output = "" ∧ d.notes = "" := by
  have rests := Desk.fresh_rests settings (.inl rfl : WorkspaceId.playground = .playground ∨ _)
  unfold select
  cases c.library with
  | none => exact ⟨_, _, rfl, rests, rfl, rfl, rfl⟩
  | some library =>
    obtain ⟨hub, now, slot, done, rests, brief⟩ := rests.selects library
    exact ⟨_, slot, done, rests, brief, rfl, rfl⟩

/-- Where all files can be read, the program is put into the playground; else the command fails. -/
theorem arrange_does (settings : Settings) (folder : Folder) (c : RunCommand) :
    match c.composition? folder with
    | some composed => ∃ d slot, (Desk.fresh settings).does (arrange folder c) = (.ok (), d) ∧
        Arranged settings c composed d slot
    | none => ∃ missing d, (Desk.fresh settings).does (arrange folder c) = (.error ("Failed to read " ++ missing), d) ∧
        d.output = "" ∧ d.notes = "" := by
  obtain ⟨d, slot, selected, rests, brief, silent⟩ := select_does settings c
  have no_front : slot.state.editorPrepend = "" := congrArg Brief.editorPrepend brief
  have no_back : slot.state.editorPostpend = "" := congrArg Brief.editorPostpend brief
  have no_text : slot.state.editorValue = "" := congrArg Brief.editorValue brief
  have first := fill_does rests folder c.prependFile (e := .editorPrepend) (by rw [Edit.apply, ← no_front])
  unfold RunCommand.composition? arrange
  rw [Desk.does_then selected]
  cases front : textAt? folder c.prependFile with
  | none =>
    rw [front] at first
    obtain ⟨missing, failed⟩ := first
    exact ⟨missing, d, Desk.does_fails failed _, silent⟩
  | some pre =>
    rw [front] at first
    obtain ⟨hub, filled, rests⟩ := first
    have second := fill_does rests folder c.postpendFile (e := .editorPostpend) (by simp only [Edit.apply, ← no_back])
    rw [Desk.does_then filled]
    cases back : textAt? folder c.postpendFile with
    | none =>
      rw [back] at second
      obtain ⟨missing, failed⟩ := second
      exact ⟨missing, _, Desk.does_fails failed _, silent⟩
    | some post =>
      rw [back] at second
      obtain ⟨hub, filled, rests⟩ := second
      have third := fill_does rests folder (some c.file) (e := .editorValue) (by simp only [Edit.apply, ← no_text])
      rw [Desk.does_then filled]
      unfold textAt? at third
      cases own : folder.read? c.file with
      | none =>
        simp only [own] at third
        obtain ⟨missing, failed⟩ := third
        exact ⟨missing, _, failed, silent⟩
      | some value =>
        simp only [own] at third
        obtain ⟨hub, filled, rests⟩ := third
        refine ⟨_, _, filled, rests, rfl, ?_, congrArg Brief.execTimeMs brief, silent⟩
        exact congrArg (fun b : Brief => Script.engine.makeContext ⟨b.chapter, .named b.library, b.globals⟩) brief

/-! ## The run -/

/-- The statements of a text, if it is a program. -/
def statementsOf (text : String) : List Statement :=
  match parse text with
  | .ok program => program
  | .error _ => []

/-- What a program tells with breakpoints on lines, as the user numbers them. -/
def toldWith (settings : Settings) (context : Context) (composed : Composition) (breakpoints : List Int32) :
    List (Option String) :=
  let lines := (LineSet.ofList breakpoints).shifted composed.prependLines
  narration (fun line => Job.debuggable settings context && lines.contains line) context [] .null
    (statementsOf composed.text)

/-- A text that is no program has nothing to tell, and its fault is its result. -/
theorem unparsed_ride {context : Context} {options : RunOptions} {text : String} {e : ParseError} {now slept : Nat}
    {lines : List String} {result : RunResult Machine} (fails : parse text = .error e)
    (ride : Ride false (begin context options (.source text)) now lines slept result) :
    lines = [] ∧ result = .failed [e.fault] := by
  have polled (tokens : Tokens) :
      (begin context options (.source text)).poll now tokens = ([], .ended (.failed [e.fault])) := by
    unfold begin Run.poll
    simp only [fails]
  cases ride with
  | ended asked answer =>
    rw [polled] at answer
    cases answer
    exact ⟨rfl, rfl⟩
  | waited asked answer in_time rest =>
    rw [polled] at answer
    cases answer

/-- Where a run is not halted, either because its text is no program or because breakpoints do not count, it tells
its lines. -/
theorem told_unhalted {settings : Settings} {context : Context} {composed : Composition} {breakpoints : List Int32}
    {options : RunOptions} {now slept : Nat} {lines : List String} {result : RunResult Machine}
    (ride : Ride false (begin context options (.source composed.text)) now lines slept result)
    (debugger : options.debuggerOn = Job.debuggable settings context)
    (unhalted : Job.debuggable settings context = false ∨ ∃ e, parse composed.text = .error e) :
    result.Final ∧ toldWith settings context composed breakpoints = lines.map some := by
  unfold toldWith statementsOf
  cases parses : parse composed.text with
  | error e =>
    obtain ⟨rfl, rfl⟩ := unparsed_ride parses ride
    exact ⟨trivial, rfl⟩
  | ok program =>
    have off : Job.debuggable settings context = false := unhalted.resolve_right (by simp [parses])
    have final := ride.begin_final (.inl (debugger.trans off))
    have own : sourceEnding options.budgetMs context composed.text = _ := ride.begin_ending rfl
    have whole : sourceEnding options.budgetMs context composed.text =
        .of options.budgetMs context [] .null program := by
      unfold sourceEnding
      simp only [parses]
      rw [Machine.ending, Machine.remaining_of_fresh rfl]
      rfl
    rw [resultEnding_final final] at own
    refine ⟨final, ?_⟩
    simp only [off, Bool.false_and]
    rw [narration_unbroken options.budgetMs, ← whole, own]
    simp [Ending.after, Ending.at_]

/-- A program from its first statement on, with breakpoints. -/
def outsetOf (settings : Settings) (context : Context) (composed : Composition) (breakpoints : List Int32)
    (budgetMs : Nat) (program : List Statement) : Outset where
  context := context
  program := program
  halts line := Job.debuggable settings context &&
    ((LineSet.ofList breakpoints).shifted composed.prependLines).contains line
  budgetMs := budgetMs

theorem outsetOf_tells {settings : Settings} {context : Context} {composed : Composition} {breakpoints : List Int32}
    {budgetMs : Nat} {program : List Statement} (parses : parse composed.text = .ok program) :
    (outsetOf settings context composed breakpoints budgetMs program).tells =
      toldWith settings context composed breakpoints := by
  unfold toldWith statementsOf
  rw [parses]
  simp [Outset.tells, outsetOf, executed]

/-- The run of a program that stands ready tells everything, or comes to its first stop. -/
theorem Arranged.stops {settings : Settings} {c : RunCommand} {composed : Composition} {d ran : Desk}
    {slot after : Slot Script.engine} {state : WorkspaceState} {p : Prepared Script.engine} {now slept : Nat}
    {lines : List String} {result : RunResult Machine} (ready : Arranged settings c composed d slot)
    (edited : (Edit.breakpoints (.ofList c.breakpoints)).apply slot.state = state)
    (context_eq : p.context = c.context settings) (origin_eq : p.origin = .source composed.text)
    (lines_eq : p.prependLines = composed.prependLines)
    (ride : Ride false (begin p.context (Job.optionsFor settings state .editorRun p) p.origin) now lines slept result)
    (leaves : p.Leaves { slot with state := state } lines result after)
    (rests : ran.Rests settings .playground after) :
    (result.Final ∧ toldWith settings (c.context settings) composed c.breakpoints = lines.map some) ∨
      ∃ o m, ran.Halted settings o composed.prependLines m after ∧ o.context = c.context settings ∧
        o.budgetMs = settings.execution.execTimeMs ∧ (∃ location, result = .suspended m location) ∧
        toldWith settings (c.context settings) composed c.breakpoints = lines.map some ++ none :: o.tells := by
  have debugger : (Job.optionsFor settings state .editorRun p).debuggerOn =
      Job.debuggable settings (c.context settings) := by
    rw [Job.optionsFor, context_eq]
    rfl
  cases debuggable : Job.debuggable settings (c.context settings) with
  | false =>
    rw [context_eq, origin_eq] at ride
    exact .inl (told_unhalted ride debugger (.inl debuggable))
  | true =>
    cases parses : parse composed.text with
    | error e =>
      rw [context_eq, origin_eq] at ride
      exact .inl (told_unhalted ride debugger (.inr ⟨e, parses⟩))
    | ok program =>
      let o := outsetOf settings (c.context settings) composed c.breakpoints settings.execution.execTimeMs program
      have tells : o.tells = _ := outsetOf_tells parses
      have fits : Fits settings o p.prependLines state := by
        refine ⟨debuggable, fun line => ?_, edited ▸ ready.budget_eq⟩
        simp only [o, outsetOf, debuggable, Bool.true_and, ← edited, Edit.apply, lines_eq]
      have from_ : o.From p.origin := origin_eq ▸ .source parses rfl
      rw [← tells]
      rcases fits.leads context_eq from_ rfl ride leaves rests with whole | ⟨j, m, halted, suspended, told⟩
      · exact .inl whole
      · exact .inr ⟨_, m, lines_eq ▸ halted, rfl, rfl, suspended, told⟩

/-- A program has no more stops than its command may be resumed. -/
theorem stops_le_resumptions {settings : Settings} {context : Context} {composed : Composition}
    {breakpoints : List Int32} {state : WorkspaceState} (same : Composition.ofState state none = composed) :
    (toldWith settings context composed breakpoints).count none ≤ resumptions state := by
  refine Nat.le_trans (narration_stops ..) ?_
  unfold statementsOf
  rw [resumptions, same]
  split
  · next program parses => exact parse_length parses
  · exact Nat.zero_le _

/-- The run of a program that stands ready is resumed once for each stop, and ends as the program ends on its own. How
often it may be resumed does not matter, if that is often enough. -/
theorem Arranged.runs {settings : Settings} {c : RunCommand} {composed : Composition} {d : Desk}
    {slot : Slot Script.engine} (ready : Arranged settings c composed d slot) :
    let told := toldWith settings (c.context settings) composed c.breakpoints
    let result := (sourceEnding settings.execution.execTimeMs (c.context settings) composed.text).result
    ∃ behind,
      (∀ bound : WorkspaceState → Nat,
        (∀ state, Composition.ofState state none = composed → told.count none ≤ bound state) →
        d.does (runArranged bound c) = (verdictOf (result.own composed.prependLines), behind)) ∧
      (c.asJson = false →
        behind.output = toldText told ++ Text.line (ended composed.prependLines result)) ∧
      ∃ stops : List Int32, stops.length = told.count none ∧
        behind.notes = String.join (stops.map resumptionNote) := by
  intro told own
  obtain ⟨set, edited, rests⟩ := ready.edits (.breakpoints (.ofList c.breakpoints))
  let state := (Edit.breakpoints (.ofList c.breakpoints)).apply slot.state
  let p := editorProgram state
  let options := Job.optionsFor settings state .editorRun p
  obtain ⟨lines, slept, result, now, hub, after, ride, performed, holds, free, leaves⟩ :
      ∃ lines slept result now hub after, Ride false (begin p.context options p.origin) d.now lines slept result ∧
        _ ∧ _ ∧ _ ∧ p.Leaves _ lines result after :=
    rests.holds.evaluates_editor Loader.bundled_prompt rests.free rests.ungraded
  have context_eq : p.context = c.context settings := ready.context_eq
  have origin_eq : p.origin = .source composed.text :=
    congrArg (fun composed : Composition => Origin.source composed.text) ready.composed_eq
  have lines_eq : p.prependLines = composed.prependLines := congrArg Composition.prependLines ready.composed_eq
  let ran : Desk := { d with hub := hub, now := now }
  have rests : ran.Rests settings .playground after := ⟨holds, free⟩
  let printed := ran.printed (logText c.asJson after.state.output.entries)
  have goes (bound : WorkspaceState → Nat) : d.does (runArranged bound c) =
      printed.does (resumeAll .playground c.asJson (bound after.state) (result.own p.prependLines) >>= conclude) := by
    unfold runArranged
    rw [Desk.does_then edited, Desk.does_then (Desk.does_evaluate performed), Desk.does_then (rests.prints c.asJson),
      Desk.does_then (rests.printed _).looks]
  have output (text : c.asJson = false) :
      printed.output = toldText (lines.map some) ++ Text.line (ended p.prependLines result) := by
    show d.output ++ logText c.asJson after.state.output.entries = _
    rw [ready.silent.1, text, leaves.entries, logText_closing, String.empty_append]
  have notes : printed.notes = "" := ready.silent.2
  have whole : sourceEnding settings.execution.execTimeMs (c.context settings) composed.text =
      (resultEnding settings.execution.execTimeMs (c.context settings) result).after lines slept := by
    have told := ride.begin_ending (ready.budget_eq : options.budgetMs = _)
    rwa [context_eq, origin_eq] at told
  simp only [lines_eq] at goes output
  have composed_again : Composition.ofState after.state none = composed :=
    (WorkspaceState.composition_of_brief leaves.brief none).trans ready.composed_eq
  have there : printed.Rests settings .playground after := rests.printed _
  rcases ready.stops rfl context_eq origin_eq lines_eq ride leaves there with
    ⟨final, all⟩ | ⟨o, m, halted, context, budget, ⟨location, rfl⟩, more⟩
  · have same : own = result := by
      show (sourceEnding _ _ _).result = _
      rw [whole, resultEnding_final final]
      rfl
    refine ⟨printed, fun bound _ => ?_, fun text => ?_, [], ?_, notes⟩
    · rw [goes, Desk.does_then (resumeAll_final _ _ _ _ final), does_conclude, same]
    · rw [output text, same]
      exact congrArg (toldText · ++ _) all.symm
    · rw [show told = _ from all]
      exact (List.count_eq_zero.2 (by simp)).symm
  · have stops : told.count none = o.tells.count none + 1 := by
      rw [show told = _ from more]
      simp [List.count_eq_zero.2]
    obtain ⟨last, behind, final, same, does, printed_too, lines', count, noted⟩ := halted.resumes c.asJson _ rfl
    have same : own = last := by
      show (sourceEnding _ _ _).result = _
      rw [whole, same, context, budget]
      rfl
    refine ⟨behind, fun bound often => ?_, fun text => ?_, lines', count.trans stops.symm, ?_⟩
    · have room : told.count none ≤ bound after.state := often _ composed_again
      have resumed := does (bound after.state) (by omega)
      rw [same, ← does_conclude]
      exact (goes bound).trans (Desk.does_then resumed conclude)
    · rw [printed_too text, output text, same, show told = _ from more, toldText_append]
      simp [toldText, ended, String.append_assoc]
    · rw [noted, notes, String.empty_append]

/-! ## The command -/

/-- What a run says when it fails. -/
inductive RunError : String → Prop
  | unloaded (e : SettingsError) : RunError e.message
  | unread (path : String) : RunError ("Failed to read " ++ path)
  | failed (faults : Nat) : RunError ("program failed with " ++ toString faults ++ " error(s)")

theorem RunError.of_verdict {o : Outcome} {message : String} (same : errorOf (verdictOf o) = some message) :
    RunError message := by
  cases o with
  | errored faults =>
    cases same
    exact .failed _
  | _ => cases same

/-- A run always comes to its end. -/
theorem RunError.ends {message : String} (error : RunError message) : message ≠ "The operation does not end." := by
  intro same
  cases error with
  | unloaded e => cases e <;> exact absurd same (by decide)
  | unread | failed =>
    have first := congrArg (·.toList.head?) same
    simp [String.append_assoc] at first

/-- The statements of a command's program, if all its files can be read and make up a program. -/
def RunCommand.statements (c : RunCommand) (folder : Folder) : List Statement :=
  match c.composition? folder with
  | some composed => statementsOf composed.text
  | none => []

/-- What a command's program tells with its breakpoints; nothing, if a file cannot be read. -/
def RunCommand.told (c : RunCommand) (settings : Settings) (folder : Folder) : List (Option String) :=
  match c.composition? folder with
  | some composed => toldWith settings (c.context settings) composed c.breakpoints
  | none => []

theorem RunCommand.told_stops (c : RunCommand) (settings : Settings) (folder : Folder) :
    (c.told settings folder).count none ≤ (c.statements folder).length := by
  unfold told statements
  split
  · exact narration_stops ..
  · exact Nat.le_refl _

/-- Without breakpoints the same lines are told. -/
theorem RunCommand.told_unbroken (c : RunCommand) (settings : Settings) (folder : Folder) :
    ({ c with breakpoints := [] } : RunCommand).told settings folder =
      ((c.told settings folder).filterMap id).map some := by
  unfold told
  rw [show ({ c with breakpoints := [] } : RunCommand).composition? folder = c.composition? folder from rfl]
  split
  · next composed _ =>
    have unbroken : ∀ line, ((LineSet.ofList []).shifted composed.prependLines).contains line = false := by
      intro line
      simp [LineSet.shifted, LineSet.map, LineSet.ofList, LineSet.empty, LineSet.contains]
    unfold toldWith
    simp only [unbroken, Bool.and_false]
    rw [narration_unbroken 0, narration_lines 0]
    rfl
  · rfl

/-- A run that is resumed at most so often. -/
def runResumed (times : Nat) (folder : Folder) (c : RunCommand) : Doing Unit := do
  arrange folder c
  runArranged (fun _ => times) c

/-- It is never the bound that ends a run: with any bound that lets it be resumed at each stop it is the same. -/
theorem runResumed_enough {settings : Settings} {folder : Folder} {c : RunCommand} {times : Nat}
    (enough : (c.told settings folder).count none ≤ times) :
    (Desk.fresh settings).does (runResumed times folder c) = (Desk.fresh settings).does (runProgram folder c) := by
  have arranged := arrange_does settings folder c
  unfold RunCommand.told at enough
  rw [runProgram_eq, runResumed]
  cases found : c.composition? folder with
  | none =>
    rw [found] at arranged
    obtain ⟨missing, d, failed, -⟩ := arranged
    rw [Desk.does_fails failed, Desk.does_fails failed]
  | some composed =>
    rw [found] at arranged enough
    obtain ⟨d, slot, done, ready⟩ := arranged
    obtain ⟨behind, ran, -⟩ := ready.runs
    rw [Desk.does_then done, Desk.does_then done, ran _ fun _ _ => enough,
      ran _ fun _ same => stops_le_resumptions same]

/-- Whatever the breakpoints, a run whose settings have been loaded ends in the same way, after what it tells. -/
theorem transcript_run {folder : Folder} {environment : List (String × String)} {settingsFile : Option String}
    {settings : Settings} (c : RunCommand)
    (loads : Settings.load folder environment (⟨settingsFile, .run c⟩ : Invocation).overrides = .ok settings) :
    ∃ error ending, (∀ message, error = some message → RunError message) ∧ ∀ breakpoints : List Int32,
      let c : RunCommand := { c with breakpoints := breakpoints }
      let t := (⟨settingsFile, .run c⟩ : Invocation).transcript folder environment
      let told := c.told settings folder
      t.error = error ∧ (c.asJson = false → t.output = toldText told ++ ending) ∧
        ∃ stops : List Int32, stops.length = told.count none ∧ t.notes = String.join (stops.map resumptionNote) := by
  have arranged := arrange_does settings folder c
  cases found : c.composition? folder with
  | none =>
    rw [found] at arranged
    obtain ⟨missing, d, failed, output, notes⟩ := arranged
    refine ⟨some ("Failed to read " ++ missing), "", fun _ same => Option.some.inj same ▸ .unread missing,
      fun breakpoints => ?_⟩
    intro c' t told
    have does : (Desk.fresh settings).does (runProgram folder c') = (.error ("Failed to read " ++ missing), d) := by
      rw [runProgram_eq]
      exact Desk.does_fails failed _
    have nothing : told = [] := by
      show RunCommand.told _ _ _ = _
      unfold RunCommand.told
      rw [show c'.composition? folder = none from found]
    have all : t = _ := Invocation.transcript_eq loads does
    rw [all, nothing]
    exact ⟨rfl, fun _ => output, [], rfl, notes⟩
  | some composed =>
    rw [found] at arranged
    obtain ⟨d, slot, done, ready⟩ := arranged
    let own := (sourceEnding settings.execution.execTimeMs (c.context settings) composed.text).result
    refine ⟨errorOf (verdictOf (own.own composed.prependLines)), Text.line (ended composed.prependLines own),
      fun _ same => RunError.of_verdict same, fun breakpoints => ?_⟩
    intro c' t told
    have ready : Arranged settings c' composed d slot := { ready with }
    obtain ⟨behind, ran, output, stops, count, noted⟩ := ready.runs
    have does : (Desk.fresh settings).does (runProgram folder c') =
        (verdictOf (own.own composed.prependLines), behind) := by
      rw [runProgram_eq]
      exact (Desk.does_then done _).trans (ran _ fun _ same => stops_le_resumptions same)
    have all : t = _ := Invocation.transcript_eq loads does
    have tells : told = toldWith settings (c'.context settings) composed breakpoints := by
      show RunCommand.told _ _ _ = _
      unfold RunCommand.told
      rw [show c'.composition? folder = some composed from found]
    rw [all, tells]
    exact ⟨rfl, output, stops, count, noted⟩

/-- What a run tells whose settings may not load; then nothing is run. -/
def toldBy (folder : Folder) (environment : List (String × String)) (settingsFile : Option String) (c : RunCommand) :
    List (Option String) :=
  match Settings.load folder environment (⟨settingsFile, .run c⟩ : Invocation).overrides with
  | .ok settings => c.told settings folder
  | .error _ => []

/-- A run with breakpoints fails if it fails without them, with the same error, which is never that it does not end. It
is resumed once for each stop that the program tells of, at most once for each of its statements, and then comes to
its end by itself. What it prints is what it prints without breakpoints, with the line for a stop wherever there is
one. -/
theorem breakpoints_add_stops (folder : Folder) (environment : List (String × String)) (settingsFile : Option String)
    (c : RunCommand) :
    let stopping := (⟨settingsFile, .run c⟩ : Invocation).transcript folder environment
    let plain := (⟨settingsFile, .run { c with breakpoints := [] }⟩ : Invocation).transcript folder environment
    let told := toldBy folder environment settingsFile c
    stopping.error = plain.error ∧ stopping.error ≠ some "The operation does not end." ∧
      told.count none ≤ (c.statements folder).length ∧
      (∃ stops : List Int32, stops.length = told.count none ∧
        stopping.notes = String.join (stops.map resumptionNote)) ∧
      plain.notes = "" ∧
      (∀ settings, Settings.load folder environment (⟨settingsFile, .run c⟩ : Invocation).overrides = .ok settings →
        ∀ times, told.count none ≤ times →
          (Desk.fresh settings).does (runResumed times folder c) =
            (Desk.fresh settings).does (runProgram folder c)) ∧
      (c.asJson = false → ∃ ending,
        plain.output = toldText ((told.filterMap id).map some) ++ ending ∧
          stopping.output = toldText told ++ ending) := by
  intro stopping plain told
  cases loads : Settings.load folder environment (⟨settingsFile, .run c⟩ : Invocation).overrides with
  | error e =>
    have nothing : told = [] := by
      show toldBy .. = _
      unfold toldBy
      rw [loads]
    have failed : stopping = { error := some e.message } := Invocation.transcript_unloaded loads
    have failed_too : plain = { error := some e.message } := Invocation.transcript_unloaded loads
    rw [failed, failed_too, nothing]
    exact ⟨rfl, fun same => (RunError.unloaded e).ends (Option.some.inj same), Nat.zero_le _, ⟨[], rfl, rfl⟩, rfl,
      nofun, fun _ => ⟨"", rfl, rfl⟩⟩
  | ok settings =>
    have tells : told = c.told settings folder := by
      show toldBy .. = _
      unfold toldBy
      rw [loads]
    obtain ⟨error, ending, form, each⟩ := transcript_run c loads
    obtain ⟨fails, output, stops⟩ := each c.breakpoints
    obtain ⟨fails_too, plain_output, none_left, count, noted⟩ := each []
    rw [c.told_unbroken] at plain_output count
    obtain rfl : none_left = [] := List.length_eq_zero_iff.1 (count.trans (List.count_eq_zero.2 (by simp)))
    rw [tells]
    refine ⟨fails.trans fails_too.symm, fun unending => (form _ (fails.symm.trans unending)).ends rfl,
      c.told_stops settings folder, stops, noted, ?_, fun text => ⟨ending, plain_output text, output text⟩⟩
    rintro _ ⟨⟩ times enough
    exact runResumed_enough enough

/-! ### Two lines and a stop between them -/

/-- A folder with a program of two lines. -/
def twoLines : Folder := { files := [("program", "display \"x\"\ndisplay \"y\"")] }

/-- The program with a breakpoint on its second line. -/
def stopAtSecond : RunCommand := { file := "program", chapter := some 3, breakpoints := [2] }

theorem twoLines_told : toldBy twoLines [] none stopAtSecond = [some "x", none, some "y"] := by decide +kernel

/-- The stop stands between the two lines, and the program is resumed once. -/
theorem breakpoints_add_stops_of_two_lines :
    let stopping := (⟨none, .run stopAtSecond⟩ : Invocation).transcript twoLines []
    let plain := (⟨none, .run { stopAtSecond with breakpoints := [] }⟩ : Invocation).transcript twoLines []
    let settings : Settings := { execution := { chapter := 3 } }
    Settings.load twoLines [] (⟨none, .run stopAtSecond⟩ : Invocation).overrides = .ok settings ∧
      stopAtSecond.asJson = false ∧
      (Desk.fresh settings).does (runResumed 1 twoLines stopAtSecond) =
        (Desk.fresh settings).does (runProgram twoLines stopAtSecond) ∧
      (∃ line, stopping.notes = resumptionNote line) ∧
      ∃ ending, plain.output = "x\ny\n" ++ ending ∧ stopping.output = "x\n\"Breakpoint hit!\"\ny\n" ++ ending := by
  intro stopping plain settings
  have loads : Settings.load twoLines [] (⟨none, .run stopAtSecond⟩ : Invocation).overrides = .ok settings := rfl
  obtain ⟨-, -, -, stops, -, enough, output⟩ := breakpoints_add_stops twoLines [] none stopAtSecond
  rw [twoLines_told] at stops enough output
  refine ⟨loads, rfl, enough settings loads 1 (Nat.le_refl _), ?_, output rfl⟩
  obtain ⟨lines, one, noted⟩ := stops
  obtain ⟨line, rfl⟩ := List.length_eq_one_iff.1 (one : lines.length = 1)
  exact ⟨line, by simpa using noted⟩

end Workbench.CommandLine
