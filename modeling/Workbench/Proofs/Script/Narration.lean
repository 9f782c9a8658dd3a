/-
What a script tells that stops at breakpoints, and is taken up again at each of them.

Its statements are gone through in order. `narration` says what is written, and where
the script stops on the way; without the stops it is what the script writes on its own
(`narration_lines`). A script that stops has told everything up to there, and what it
is taken up with has everything else still before it (`Ride.narrates`): no line is lost
at a stop, and none is told again. There is at most one stop for each statement
(`narration_stops`), and no more statements than the text has lines (`parse_length`).
-/
import Workbench.Proofs.Script.Account
import Workbench.Proofs.Script.Seam
import Workbench.Proofs.Script.Transparency

namespace Workbench.Script

/-! ## Narrations -/

/-- What statements tell in order: each line that is written, and `none` where the script stops in front of a
statement. A spin does not come to an end. -/
def narration (halts : Int32 → Bool) (context : Context) :
    (bindings : List (String × Json)) → (last : Json) → List Statement → List (Option String)
  | _, _, [] => []
  | bindings, last, s :: rest =>
    (if halts s.line then [none] else []) ++
      if s.command = .spin then []
      else
        match s.command.change bindings last context with
        | .error _ => []
        | .ok c => c.line.toList.map some ++ narration halts context c.bindings c.value rest

/-- What statements tell that are taken up again: there is no stop in front of the first. -/
def resumption (halts : Int32 → Bool) (context : Context) (bindings : List (String × Json)) (last : Json) :
    List Statement → List (Option String)
  | [] => []
  | s :: rest =>
    if s.command = .spin then []
    else
      match s.command.change bindings last context with
      | .error _ => []
      | .ok c => c.line.toList.map some ++ narration halts context c.bindings c.value rest

section

variable {halts : Int32 → Bool} {context : Context}

theorem narration_cons (bindings : List (String × Json)) (last : Json) (s : Statement) (rest : List Statement) :
    narration halts context bindings last (s :: rest) =
      (if halts s.line then [none] else []) ++ resumption halts context bindings last (s :: rest) := rfl

theorem resumption_cons (bindings : List (String × Json)) (last : Json) (s : Statement) (rest : List Statement) :
    resumption halts context bindings last (s :: rest) =
      if s.command = .spin then []
      else
        match s.command.change bindings last context with
        | .error _ => []
        | .ok c => c.line.toList.map some ++ narration halts context c.bindings c.value rest := rfl

/-- The lines of an ending, statement by statement. -/
theorem ending_lines_cons (budgetMs : Nat) (bindings : List (String × Json)) (last : Json) (s : Statement)
    (rest : List Statement) :
    (Ending.of budgetMs context bindings last (s :: rest)).lines =
      if s.command = .spin then []
      else
        match s.command.change bindings last context with
        | .error _ => []
        | .ok c => c.line.toList ++ (Ending.of budgetMs context c.bindings c.value rest).lines := by
  obtain ⟨line, command⟩ := s
  cases command with
  | spin => rfl
  | sleep ms => rfl
  | _ =>
    simp only [Ending.of, reduceCtorEq, ↓reduceIte]
    generalize Command.change bindings last context _ = made
    cases made <;> rfl

/-- The lines of a narration are those of the ending, in the same order. -/
theorem narration_lines (budgetMs : Nat) (bindings : List (String × Json)) (last : Json) (statements : List Statement) :
    (narration halts context bindings last statements).filterMap id =
      (Ending.of budgetMs context bindings last statements).lines := by
  induction statements generalizing bindings last with
  | nil => rfl
  | cons s rest ih =>
    have stop : (if halts s.line then [(none : Option String)] else []).filterMap id = [] := by split <;> rfl
    rw [narration_cons, List.filterMap_append, stop, List.nil_append, ending_lines_cons, resumption_cons]
    split
    · rfl
    · split
      · rfl
      · rw [List.filterMap_append, ih]
        simp

/-- There is at most one stop for each statement. -/
theorem narration_stops (bindings : List (String × Json)) (last : Json) (statements : List Statement) :
    (narration halts context bindings last statements).count none ≤ statements.length := by
  induction statements generalizing bindings last with
  | nil => exact Nat.le_refl _
  | cons s rest ih =>
    have stop : (if halts s.line then [(none : Option String)] else []).count none ≤ 1 := by split <;> simp
    have later : (resumption halts context bindings last (s :: rest)).count none ≤ rest.length := by
      rw [resumption_cons]
      split
      · exact Nat.zero_le _
      · split
        · exact Nat.zero_le _
        · next c _ =>
          have own : (c.line.toList.map some).count none = 0 := by cases c.line <;> simp
          rw [List.count_append, own, Nat.zero_add]
          exact ih ..
    rw [narration_cons, List.count_append, List.length_cons]
    omega

/-- Where nothing is stopped at, only lines are told. -/
theorem narration_unbroken (budgetMs : Nat) (bindings : List (String × Json)) (last : Json)
    (statements : List Statement) :
    narration (fun _ => false) context bindings last statements =
      (Ending.of budgetMs context bindings last statements).lines.map some := by
  induction statements generalizing bindings last with
  | nil => rfl
  | cons s rest ih =>
    rw [narration_cons, ending_lines_cons, resumption_cons, if_neg Bool.false_ne_true, List.nil_append]
    split
    · rfl
    · split
      · rfl
      · rw [List.map_append, ← ih]

end

/-! ## From one statement to a later one -/

section

variable {context : Context} {program : List Statement} {halts : Int32 → Bool} {i j : Nat}
  {bindings bindings' : List (String × Json)} {last last' : Json}

variable (halts) in
/-- A statement that is executed tells its line, if it writes one. -/
theorem tells_next (before : executed context program i = some (bindings, last))
    (behind : executed context program (i + 1) = some (bindings', last')) :
    ∃ ls : List String,
      resumption halts context bindings last (program.drop i) =
          ls.map some ++ narration halts context bindings' last' (program.drop (i + 1)) ∧
        ∀ budgetMs, (Ending.of budgetMs context bindings last (program.drop i)).lines =
          ls ++ (Ending.of budgetMs context bindings' last' (program.drop (i + 1))).lines := by
  cases current : program[i]? with
  | none =>
    rw [executed, before, current] at behind
    cases behind
  | some s =>
    obtain ⟨inside, found⟩ := List.getElem?_eq_some_iff.1 current
    rw [executed_succ before current] at behind
    split at behind
    · cases behind
    · next still =>
      split at behind
      · cases behind
      · next c changed =>
        cases behind
        refine ⟨c.line.toList, ?_, fun budgetMs => ?_⟩
        · rw [List.drop_eq_getElem_cons inside, found, resumption_cons, if_neg still, changed]
        · rw [List.drop_eq_getElem_cons inside, found, ending_lines_cons, if_neg still, changed]

/-- Statements that are not stopped at tell their lines one after the other. -/
theorem tells_along (le : i ≤ j) (before : executed context program i = some (bindings, last))
    (behind : executed context program j = some (bindings', last'))
    (clear : ∀ k s, i ≤ k → k < j → program[k]? = some s → halts s.line = false) :
    ∃ ls : List String,
      narration halts context bindings last (program.drop i) =
          ls.map some ++ narration halts context bindings' last' (program.drop j) ∧
        ∀ budgetMs, (Ending.of budgetMs context bindings last (program.drop i)).lines =
          ls ++ (Ending.of budgetMs context bindings' last' (program.drop j)).lines := by
  induction le generalizing bindings' last' with
  | refl =>
    cases before.symm.trans behind
    exact ⟨[], rfl, fun _ => rfl⟩
  | @step j le ih =>
    have reached : Reaches context program j := Reaches.earlier (by rw [Reaches, behind]; rfl) (Nat.le_succ j)
    obtain ⟨⟨b, l⟩, there⟩ := Option.isSome_iff_exists.1 reached
    obtain ⟨ls, told, lines⟩ := ih there fun k s from_ before => clear k s from_ (Nat.lt_succ_of_lt before)
    obtain ⟨more, next, own⟩ := tells_next halts there behind
    have inside : j < program.length := Reaches.within (by rw [Reaches, behind]; rfl)
    have passed := clear j program[j] le (Nat.lt_succ_self j) (List.getElem?_eq_getElem inside)
    refine ⟨ls ++ more, ?_, fun budgetMs => ?_⟩
    · rw [told, List.drop_eq_getElem_cons inside, narration_cons, ← List.drop_eq_getElem_cons inside, next, passed]
      simp
    · rw [lines, own, List.append_assoc]

end

/-! ## What a script has before it -/

/-- What a script has before it that begins, or is taken up again. -/
def Outset.tells (o : Outset) : List (Option String) :=
  match executed o.context o.program (o.resumed.getD 0) with
  | none => []
  | some (bindings, last) =>
    (if o.resumed.isSome then resumption else narration) o.halts o.context bindings last
      (o.program.drop (o.resumed.getD 0))

/-- The script as it is taken up again at a statement. -/
def Outset.at_ (o : Outset) (j : Nat) : Outset := { o with resumed := some j }

section

variable {o : Outset} {j : Nat} {bindings bindings' : List (String × Json)} {last last' : Json}

/-- What a script has told when it stands at a statement, and what it has still before it then. -/
theorem Outset.tells_to (start : executed o.context o.program (o.resumed.getD 0) = some (bindings, last))
    (here : executed o.context o.program j = some (bindings', last')) (ahead : o.resumed.getD 0 ≤ j)
    (clear : o.Clear j) :
    ∃ ls : List String,
      o.tells = ls.map some ++
          (if o.resumed = some j then resumption else narration) o.halts o.context bindings' last' (o.program.drop j) ∧
        ∀ budgetMs, (Ending.of budgetMs o.context bindings last (o.program.drop (o.resumed.getD 0))).lines =
          ls ++ (Ending.of budgetMs o.context bindings' last' (o.program.drop j)).lines := by
  have passed : ∀ k s, o.resumed.getD 0 ≤ k → o.resumed ≠ some k → k < j → o.program[k]? = some s →
      o.halts s.line = false := by
    intro k s from_ other before current
    refine Bool.eq_false_iff.2 fun halts => clear k before ⟨from_, other, s, current, halts⟩
  unfold tells
  cases resumed : o.resumed with
  | none =>
    simp only [resumed, Option.getD_none] at start passed ⊢
    obtain ⟨ls, told, lines⟩ := tells_along (Nat.zero_le j) start here fun k s from_ before current =>
      passed k s from_ nofun before current
    refine ⟨ls, ?_, lines⟩
    simpa [start] using told
  | some i =>
    simp only [resumed, Option.getD_some] at start passed ahead ⊢
    rcases Nat.eq_or_lt_of_le ahead with rfl | later
    · cases start.symm.trans here
      exact ⟨[], by simp [start], fun _ => rfl⟩
    · have reached : Reaches o.context o.program (i + 1) := Reaches.earlier (by rw [Reaches, here]; rfl) later
      obtain ⟨⟨b, l⟩, there⟩ := Option.isSome_iff_exists.1 reached
      obtain ⟨first, next, own⟩ := tells_next o.halts start there
      obtain ⟨ls, told, lines⟩ := tells_along later there here fun k s from_ before current =>
        passed k s (Nat.le_of_succ_le from_) (by rintro ⟨⟩; exact Nat.not_succ_le_self _ from_) before current
      refine ⟨first ++ ls, ?_, fun budgetMs => by rw [own, lines, List.append_assoc]⟩
      have other : ¬ i = j := Nat.ne_of_lt later
      simp [start, next, told, other]

/-- How long is left of a sleep, and where a machine was suspended before, does not matter for its lines. -/
theorem Machine.Stands.lines {m : Machine} (stands : m.Stands o.context o.program) (budgetMs : Nat) :
    (m.ending budgetMs o.context).lines =
      (Ending.of budgetMs o.context m.bindings m.lastValue (o.program.drop m.position)).lines := by
  have fresh : ({ m with sleepLeft := none } : Machine).remaining = o.program.drop m.position := by
    rw [Machine.remaining_of_fresh rfl, ← stands.program_eq]
  have same := congrArg Account.lines (m.account_left none budgetMs o.context)
  rw [Ending.account, Ending.account, Machine.ending, fresh] at same
  exact same.symm

/-- In front of a statement that it does not have to stop at, a script has before it what it would have if it were
taken up again there. -/
theorem Outset.tells_unarmed {s : Statement} (ahead : o.resumed.getD 0 ≤ j) (current : o.program[j]? = some s)
    (unarmed : ¬ o.Armed j) :
    (if o.resumed = some j then resumption else narration) o.halts o.context bindings last (o.program.drop j) =
      resumption o.halts o.context bindings last (o.program.drop j) := by
  split
  · rfl
  · next other =>
    have passed : o.halts s.line = false := Bool.eq_false_iff.2 fun halts => unarmed ⟨ahead, other, s, current, halts⟩
    obtain ⟨inside, found⟩ := List.getElem?_eq_some_iff.1 current
    rw [List.drop_eq_getElem_cons inside, found, narration_cons, passed]
    simp

/-- A statement at which a script fails is the last that is gone through. -/
theorem Falters.tells {s : Statement} {kind : FaultKind} {message : String} (fails : Falters o True j s kind message)
    (ahead : o.resumed.getD 0 ≤ j) (current : o.program[j]? = some s)
    (here : executed o.context o.program j = some (bindings, last)) :
    (if o.resumed = some j then resumption else narration) o.halts o.context bindings last (o.program.drop j) = [] ∧
      ∀ budgetMs, (Ending.of budgetMs o.context bindings last (o.program.drop j)).lines = [] := by
  have unarmed : ¬ o.Armed j := by
    cases fails with
    | runtime before fails unarmed => exact unarmed
    | timeout spins => exact (spins trivial).2
  have stuck : s.command = .spin ∨ ∃ message, s.command.change bindings last o.context = .error message := by
    cases fails with
    | runtime before fails unarmed =>
      cases before.symm.trans here
      exact .inr ⟨_, fails⟩
    | timeout spins => exact .inl (spins trivial).1
  rw [Outset.tells_unarmed ahead current unarmed]
  obtain ⟨inside, found⟩ := List.getElem?_eq_some_iff.1 current
  rw [List.drop_eq_getElem_cons inside, found, resumption_cons]
  simp only [ending_lines_cons]
  rcases stuck with spins | ⟨message, fails⟩
  · simp [spins]
  · simp [fails]

/-- What a script has told when it stops, if it has written so many lines by then: at a breakpoint the stop, and behind
it what it has before it when it is taken up again there; or else everything. -/
theorem Stopped.narrates {result : RunResult Machine} {lines : List String} (stopped : Stopped o True result)
    (start : executed o.context o.program (o.resumed.getD 0) = some (bindings, last))
    (own : (Ending.of o.budgetMs o.context bindings last (o.program.drop (o.resumed.getD 0))).lines =
      lines ++ (resultEnding o.budgetMs o.context result).lines) :
    (result.Final ∧ o.tells = lines.map some) ∨
      ∃ (m : Machine) (s : Statement),
        result = .suspended { m with suspendedAt := some m.position } (some (.line s.line)) ∧
        m.Stands o.context o.program ∧ o.tells = lines.map some ++ none :: (o.at_ m.position).tells := by
  cases stopped with
  | @halted m s stands current armed clear =>
    refine .inr ⟨m, s, rfl, stands, ?_⟩
    obtain ⟨ls, told, all⟩ := Outset.tells_to start stands.executed_eq armed.1 clear
    have here : ({ m with suspendedAt := some m.position } : Machine).Stands o.context o.program :=
      ⟨stands.program_eq, stands.executed_eq⟩
    obtain rfl : ls = lines := by
      rw [all, resultEnding, here.lines] at own
      exact List.append_cancel_right own
    have halts : o.halts s.line = true := by
      obtain ⟨-, -, _, same, halts⟩ := armed
      cases current.symm.trans same
      exact halts
    have again : (o.at_ m.position).tells =
        resumption o.halts o.context m.bindings m.lastValue (o.program.drop m.position) := by
      unfold Outset.tells Outset.at_
      simp [stands.executed_eq]
    obtain ⟨inside, found⟩ := List.getElem?_eq_some_iff.1 current
    rw [told, if_neg armed.2.1, again, List.drop_eq_getElem_cons inside, found, narration_cons, halts]
    rfl
  | @finished m stands done clear =>
    have ahead : o.resumed.getD 0 ≤ m.position := by
      have reached : Reaches o.context o.program (o.resumed.getD 0) := by
        rw [Reaches, start]
        rfl
      exact Nat.le_trans reached.within (List.getElem?_eq_none_iff.1 done)
    obtain ⟨ls, told, all⟩ := Outset.tells_to start stands.executed_eq ahead clear
    rw [List.drop_eq_nil_of_le (List.getElem?_eq_none_iff.1 done)] at told all
    obtain rfl : ls = lines := by
      rw [all] at own
      simpa [Ending.of, resultEnding, Ending.at_] using own
    refine .inl ⟨trivial, told.trans ?_⟩
    split <;> exact List.append_nil _
  | @failed j s kind message reaches ahead current clear fails =>
    obtain ⟨⟨b, l⟩, here⟩ := Option.isSome_iff_exists.1 reaches
    obtain ⟨ls, told, all⟩ := Outset.tells_to start here ahead clear
    obtain ⟨nothing, silent⟩ := fails.tells ahead current here
    obtain rfl : ls = lines := by
      rw [all, silent] at own
      simpa [resultEnding, Ending.at_] using own
    exact .inl ⟨trivial, by rw [told, nothing, List.append_nil]⟩

end

/-! ## Rides -/

/-- A ride that is not asked to pause comes to a stop of the script's own. -/
theorem Ride.stopped {o : Outset} {askable : Bool} {r : Run} {now slept : Nat} {lines : List String}
    {result : RunResult Machine} (ride : Ride askable r now lines slept result) (unasked : askable = false)
    (along : r.Along o) (prompt : r.Prompt now) : Stopped o True result := by
  induction ride with
  | @ended r now paused lines result asked polled =>
    obtain rfl : paused = false := Bool.eq_false_iff.2 fun paused => by simp [asked paused] at unasked
    have goes : Flight.Goes o True now (r.poll now {}) := Run.poll_goes along fun _ => prompt
    rw [polled] at goes
    cases goes with
    | ended stopped => exact stopped
  | @waited r next now later slept paused lines more wake result asked polled in_time rest ih =>
    obtain rfl : paused = false := Bool.eq_false_iff.2 fun paused => by simp [asked paused] at unasked
    have goes : Flight.Goes o True now (r.poll now {}) := Run.poll_goes along fun _ => prompt
    rw [polled] at goes
    cases goes with
    | pending along prompt asks => exact ih along ((prompt trivial).later asks in_time)

/-- Where a script is begun: with its text, or with the machine that it left behind at a statement. -/
inductive Outset.From (o : Outset) : Origin engine → Prop
  | source {text : String} (parses : parse text = .ok o.program) (fresh : o.resumed = none) : o.From (.source text)
  | snapshot {m : Machine} (stands : m.Stands o.context o.program) (again : o.resumed = some m.position) :
    o.From (.snapshot { m with suspendedAt := some m.position })

section

variable {o : Outset} {origin : Origin engine} {options : RunOptions}

theorem Outset.From.along (from_ : o.From origin) (debugged : options.debuggerOn = true)
    (halts : ∀ line, options.breakpoints.contains line = o.halts line) (budget : options.budgetMs = o.budgetMs) :
    (begin o.context options origin).Along o := by
  cases from_ with
  | source parses fresh =>
    exact ⟨_, parses, { stands := ⟨rfl, rfl⟩, context_eq := rfl, debugged, halts, budget
                        position := by rw [fresh]; rfl, resumed := fresh.symm }⟩
  | snapshot stands again =>
    exact { stands := ⟨stands.program_eq, stands.executed_eq⟩, context_eq := rfl, debugged, halts, budget
            position := by rw [again]; rfl, resumed := again.symm }

/-- What has been executed where a script begins, and its ending from there. -/
theorem Outset.From.start (from_ : o.From origin) :
    ∃ bindings last, executed o.context o.program (o.resumed.getD 0) = some (bindings, last) ∧
      (beginEnding o.context o.budgetMs origin).lines =
        (Ending.of o.budgetMs o.context bindings last (o.program.drop (o.resumed.getD 0))).lines := by
  cases from_ with
  | @source text parses fresh =>
    have whole : sourceEnding o.budgetMs o.context text =
        ({ program := o.program } : Machine).ending o.budgetMs o.context := by
      unfold sourceEnding
      simp only [parses]
    have stands : ({ program := o.program } : Machine).Stands o.context o.program := ⟨rfl, rfl⟩
    refine ⟨[], .null, by rw [fresh]; rfl, ?_⟩
    rw [beginEnding, whole, fresh, stands.lines]
    rfl
  | @snapshot m stands again =>
    refine ⟨m.bindings, m.lastValue, by rw [again]; exact stands.executed_eq, ?_⟩
    have same : ({ m with suspendedAt := some m.position } : Machine).Stands o.context o.program :=
      ⟨stands.program_eq, stands.executed_eq⟩
    rw [again]
    exact same.lines o.budgetMs

/-- A ride tells what is before the script in order: all of it, or up to a stop, and what the script is taken up
with there has the rest before it. -/
theorem Ride.narrates {now slept : Nat} {lines : List String} {result : RunResult Machine}
    (ride : Ride false (begin o.context options origin) now lines slept result) (from_ : o.From origin)
    (debugged : options.debuggerOn = true) (halts : ∀ line, options.breakpoints.contains line = o.halts line)
    (budget : options.budgetMs = o.budgetMs) :
    (result.Final ∧ o.tells = lines.map some) ∨
      ∃ (m : Machine) (s : Statement),
        result = .suspended { m with suspendedAt := some m.position } (some (.line s.line)) ∧
        (o.at_ m.position).From (.snapshot { m with suspendedAt := some m.position }) ∧
        o.tells = lines.map some ++ none :: (o.at_ m.position).tells := by
  have stopped := ride.stopped rfl (from_.along debugged halts budget) (by cases origin <;> trivial)
  obtain ⟨bindings, last, start, own⟩ := from_.start
  rw [ride.begin_ending budget] at own
  rcases stopped.narrates start own.symm with whole | ⟨m, s, suspended, stands, told⟩
  · exact .inl whole
  · exact .inr ⟨m, s, suspended, .snapshot stands rfl, told⟩

end

/-! ## How many statements there are -/

/-- Each line but the last takes up its line break. -/
theorem Grammar.Lines.drafts_le {c c₂ : Cursor} {f f₂ : Furthest} {drafts : List (Nat × Grammar.Draft)}
    (lines : Grammar.Lines c f drafts c₂ f₂) : drafts.length ≤ c.rest.length + 1 := by
  have one (l : Option (Nat × Grammar.Draft)) : l.toList.length ≤ 1 := by cases l <;> simp
  induction lines with
  | @last c c₁ f f₁ l read ends => exact Nat.le_trans (one l) (Nat.le_add_left _ _)
  | @next c c₁ c₂ f f₁ f₂ l n more read breaks rest ih =>
    have forward := Grammar.line_alike.rest_le read
    have start := c.rest_behindGap_le
    have behind := c₁.rest_behindGap_le
    obtain ⟨some_break, within⟩ := breakLength?_le breaks
    have step : (c₁.behindGap.after n).rest.length = c₁.behindGap.rest.length - n := List.length_drop
    have := one l
    rw [List.length_append]
    omega

theorem statements_length {drafts : List (Nat × Grammar.Draft)} {program : List Statement}
    (made : statements drafts = .ok program) : program.length = drafts.length := by
  induction drafts generalizing program with
  | nil =>
    cases made
    rfl
  | cons d rest ih =>
    obtain ⟨n, d⟩ := d
    rw [statements] at made
    split at made
    · cases made
    · next own _ =>
      cases later : statements rest with
      | error e =>
        rw [later] at made
        cases made
      | ok more =>
        rw [later] at made
        cases made
        rw [List.length_cons, List.length_cons, ih later]

/-- A text has no more statements than characters, and one. -/
theorem parse_length {text : String} {program : List Statement} (parses : parse text = .ok program) :
    program.length ≤ text.length + 1 := by
  obtain ⟨drafts, c₂, f₂, lines, -⟩ := Grammar.program_reads (.ofText text) {}
  have reads := parse_of_lines lines
  rw [parses] at reads
  split at reads
  · rw [statements_length reads.symm]
    have most := lines.drafts_le
    rwa [Cursor.ofText, String.length_toList] at most
  · cases reads

end Workbench.Script
