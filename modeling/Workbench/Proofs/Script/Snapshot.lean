/-
Snapshots that are written down and read back.

A machine that a script was suspended as is all that is kept of it. Everything in it has
an encoding that is read back as what it was, except a number without a finite value:
that is written as `null`, and `null` is read as no number. So a snapshot comes back
exactly if all numbers of its program are finite (`Machine.decode?_encode`). The program
never changes while a script is run and resumed, so whether a snapshot comes back is a
matter of the text that it was begun from (`Leaves.decoded`).
-/
import Workbench.Proofs.Json.Coding
import Workbench.Proofs.Script.Ride

namespace Workbench

namespace Script

open Coded.Faithful (reads_back)

/-! ## Programs -/

/-- Whether all numbers of an expression are finite. -/
def Expr.isFinite : Expr → Bool
  | .number x => Decimal.isFinite x
  | .add l r => l.isFinite && r.isFinite
  | _ => true

/-- Whether all numbers of a command are finite. -/
def Command.isFinite : Command → Bool
  | .bind _ e => e.isFinite
  | .display e => e.isFinite
  | .value e => e.isFinite
  | _ => true

/-- Whether all numbers of a statement are finite. -/
def Statement.isFinite (s : Statement) : Bool := s.command.isFinite

theorem Expr.decode?_encode (e : Expr) : decode? (encode e) = if e.isFinite then some e else none := by
  show Expr.ofJson? e.toJson = _
  induction e with
  | number x =>
    simp only [toJson, ofJson?, decode?_encode_float, isFinite]
    by_cases finite : Decimal.isFinite x = true <;> simp [finite]
  | text | bool | name => rfl
  | add l r left right =>
    simp only [toJson, ofJson?, left, right, isFinite]
    by_cases first : l.isFinite = true <;> by_cases second : r.isFinite = true <;> simp [first, second]

theorem Command.decode?_encode (c : Command) : decode? (encode c) = if c.isFinite then some c else none := by
  -- a command with an expression comes back if that does
  have of_expr (make : Expr → Command) (e : Expr) {d : Option Command} (same : make e = c)
      (finite : e.isFinite = c.isFinite) (read : d = ((decode? (encode e)).bind fun e => some (make e))) :
      d = if c.isFinite then some c else none := by
    rw [read, e.decode?_encode, ← finite, ← same]
    by_cases own : e.isFinite = true <;> simp [own]
  cases c with
  | bind name e => exact of_expr (.bind name) e rfl rfl rfl
  | display e => exact of_expr .display e rfl rfl rfl
  | value e => exact of_expr .value e rfl rfl rfl
  | sleep ms =>
    show ((decode? (encode ms)).bind fun ms => some (sleep ms)) = _
    rw [reads_back]
    rfl
  | spin => rfl
  | fail message => rfl

theorem Statement.decode?_encode (s : Statement) : decode? (encode s) = if s.isFinite then some s else none := by
  show ((decode? (encode s.line)).bind fun line => (decode? (encode s.command)).bind fun command =>
    some (Statement.mk line command)) = _
  rw [reads_back s.line, s.command.decode?_encode]
  by_cases finite : s.command.isFinite = true <;> simp [isFinite, finite]

/-- A machine comes back exactly if all numbers of its program are finite, and then as what it was. -/
theorem Machine.decode?_encode (m : Machine) :
    decode? (encode m) = if m.program.all Statement.isFinite then some m else none := by
  show ((decode? (encode m.program)).bind fun program => (decode? (encode m.position)).bind fun position =>
    (Json.Field.given (encode m.sleepLeft)).optional.bind fun sleepLeft =>
      (Json.Field.given (encode m.suspendedAt)).optional.bind fun suspendedAt =>
        some (Machine.mk program position m.bindings m.lastValue sleepLeft suspendedAt)) = _
  have optional (n : Option Nat) : (Json.Field.given (encode n)).optional = some n :=
    Json.Field.optional_written (fun (n : Nat) (same : Json.int n = .null) => by cases same) n
  rw [decode?_encode_list Statement.decode?_encode, reads_back m.position, optional, optional]
  by_cases finite : m.program.all Statement.isFinite = true <;> simp [finite]

/-! ## Runs keep their program -/

/-- The program of a run, unless its text is refused. -/
def Run.program? : Run → Option (List Statement)
  | .ofSource text _ _ => (parse text).toOption
  | .ofMachine m _ _ => some m.program
  | .flying f => some f.machine.program

/-- What is answered when a run is polled: whatever is left of it has the same program. -/
inductive Keeps (program : List Statement) : Polled Run Machine → Prop
  | pending {next : Run} {wake : Wake} (same : next.program? = some program) : Keeps program (.pending next wake)
  | suspended {m : Machine} {location : Option Location} (same : m.program = program) :
    Keeps program (.ended (.suspended m location))
  | finished {value : Json} : Keeps program (.ended (.finished value))
  | failed {faults : List Fault} : Keeps program (.ended (.failed faults))

theorem Flight.proceed_keeps {now : Nat} {tokens : Tokens} {spare : Nat} {f : Flight} :
    Keeps f.machine.program (f.proceed now tokens spare).2 := by
  fun_induction proceed now tokens spare f with
  | case1 | case4 | case9 => exact .failed
  | case2 | case5 => exact .suspended rfl
  | case3 => exact .finished
  | case6 _ _ _ _ _ _ _ _ _ _ _ _ ih => exact ih
  | case7 | case8 | case10 => exact .pending rfl
  | case11 _ _ _ _ _ _ _ _ _ _ _ _ _ rest _ _ _ ih =>
    rw [rest] at ih
    exact ih

theorem Flight.awake_program (now since left : Nat) (f : Flight) :
    (f.awake now since left).machine.program = f.machine.program := by
  unfold awake
  dsimp only
  split <;> rfl

/-- Polling a run goes on with its program, or goes on waiting: what holds of both ways holds of what is answered. -/
theorem Run.poll_of_proceed {P : Polled Run Machine → Prop} {r : Run} {program : List Statement}
    (runs : r.program? = some program) {now : Nat} {tokens : Tokens}
    (proceeds : ∀ (f : Flight) (spare : Nat), f.machine.program = program → P (f.proceed now tokens spare).2)
    (waits : ∀ (f : Flight) (wake : Wake), f.machine.program = program → P (.pending (.flying f) wake)) :
    P (r.poll now tokens).2 := by
  unfold poll
  cases r with
  | ofSource text context options =>
    simp only [program?] at runs
    dsimp only
    cases parsed : parse text with
    | error e =>
      rw [parsed] at runs
      cases runs
    | ok own =>
      rw [parsed] at runs
      exact proceeds _ _ (Option.some.inj runs)
  | ofMachine m context options => exact proceeds _ _ (Option.some.inj runs)
  | flying f =>
    have same : f.machine.program = program := Option.some.inj runs
    unfold Flight.poll
    dsimp only
    split
    · exact proceeds f _ same
    · split
      · exact proceeds _ _ ((f.awake_program ..).trans same)
      · exact waits f _ same
    · split
      · exact proceeds _ _ same
      · exact waits f _ same

theorem Run.poll_keeps {r : Run} {program : List Statement} (runs : r.program? = some program) (now : Nat)
    (tokens : Tokens) : Keeps program (r.poll now tokens).2 :=
  poll_of_proceed runs (fun _ _ same => same ▸ Flight.proceed_keeps) fun _ _ same => .pending (congrArg some same)

/-! ## What a text leaves behind -/

/-- A run is polled until it comes to a result, at any times and whatever it is asked. -/
inductive Run.ComesTo (result : RunResult Machine) : Run → Prop
  | ended {r : Run} {now : Nat} {tokens : Tokens} {lines : List String}
    (polled : r.poll now tokens = (lines, .ended result)) : ComesTo result r
  | pending {r next : Run} {now : Nat} {tokens : Tokens} {lines : List String} {wake : Wake}
    (polled : r.poll now tokens = (lines, .pending next wake)) (rest : next.ComesTo result) : ComesTo result r

/-- A machine that a run of a text is suspended as, or a run that was taken up again from such a machine. -/
inductive Leaves (text : String) : Machine → Prop
  | run {context : Context} {options : RunOptions} {m : Machine} {location : Option Location}
    (ends : (Run.ofSource text context options).ComesTo (.suspended m location)) : Leaves text m
  | resumed {context : Context} {options : RunOptions} {m next : Machine} {location : Option Location}
    (before : Leaves text m) (ends : (Run.ofMachine m context options).ComesTo (.suspended next location)) :
    Leaves text next

theorem Run.ComesTo.program_eq {r : Run} {m : Machine} {location : Option Location} {program : List Statement}
    (comes : r.ComesTo (.suspended m location)) (runs : r.program? = some program) : m.program = program := by
  induction comes with
  | @ended r now tokens lines polled =>
    have keeps := poll_keeps runs now tokens
    rw [polled] at keeps
    cases keeps with
    | suspended same => exact same
  | @pending r next now tokens lines wake polled rest ih =>
    have keeps := poll_keeps runs now tokens
    rw [polled] at keeps
    cases keeps with
    | pending same => exact ih same

/-- However often a text is run, suspended and taken up again, it is always the same program. -/
theorem Leaves.program_eq {text : String} {m : Machine} {program : List Statement} (leaves : Leaves text m)
    (parses : parse text = .ok program) : m.program = program := by
  induction leaves with
  | run ends => exact ends.program_eq (by simp [Run.program?, parses, Except.toOption])
  | resumed _ ends ih => exact (ends.program_eq rfl).trans ih

/-- Whatever a text leaves behind, in whichever contexts and however often it was run and taken up again: if all
numbers of the text are finite its encoding is read back as exactly that machine, and otherwise as none. -/
theorem Leaves.decoded {text : String} {m : Machine} {program : List Statement} (leaves : Leaves text m)
    (parses : parse text = .ok program) :
    decode? (encode m) = if program.all Statement.isFinite then some m else none := by
  rw [m.decode?_encode, leaves.program_eq parses]

/-- A text that is accepted, and asked to suspend before anything of it is run, leaves its whole program. -/
theorem Leaves.at_once {text : String} {program : List Statement} (parses : parse text = .ok program) :
    Leaves text { program := program, suspendedAt := some 0 } := by
  let context : Context := .ofSelection { chapter := 1 } builtins
  have suspended : (Run.ofSource text context { budgetMs := 1000 }).poll 0 { paused := true } =
      ([], .ended (Machine.suspend { program := program })) := by
    unfold Run.poll
    dsimp only
    rw [parses]
    exact Flight.proceed_paused _ rfl rfl
  exact .run (.ended suspended)

/-- What the grammar makes of a text decides what its program is. -/
theorem parse_of_reads {cs : List Char} {holds : List Statement → Bool}
    (reads : ((Grammar.program { rest := cs } {}).1.any fun read => (statements read.1).toOption.any holds) = true) :
    ∃ program, parse (String.ofList cs) = .ok program ∧ holds program = true := by
  obtain ⟨⟨drafts, c⟩, read, states⟩ := (Option.any_eq_true _ _).1 reads
  obtain ⟨program, states, holds⟩ := (Option.any_eq_true _ _).1 states
  refine ⟨program, ?_, holds⟩
  unfold parse Cursor.ofText
  rw [String.toList_ofList]
  split
  · next own _ _ same =>
    rw [same] at read
    cases read
    cases stated : statements drafts with
    | error e => simp [stated, Except.toOption] at states
    | ok own =>
      rw [stated] at states
      cases states
      rfl
  · next same =>
    rw [same] at read
    cases read

/-! ### A short number and one that is too long -/

/-- A text with a fraction in it. -/
def halved : List Char := "display 0.5".toList

/-- What it leaves behind comes back. -/
theorem decoded_of_halved : ∃ program m, parse (String.ofList halved) = .ok program ∧
    Leaves (String.ofList halved) m ∧ decode? (encode m) = some m := by
  have finite : ((Grammar.program { rest := halved } {}).1.any fun read =>
      (statements read.1).toOption.any fun program => program.all Statement.isFinite) = true := by
    decide +kernel
  obtain ⟨program, parses, finite⟩ := parse_of_reads finite
  have leaves := Leaves.at_once parses
  exact ⟨program, _, parses, leaves, (leaves.decoded parses).trans (if_pos finite)⟩

/-- One, and so many zeros that no double is as large. -/
def beyond : List Char := '1' :: List.replicate 309 '0'

/-- The number is accepted, and what it leaves behind is lost. -/
theorem beyond_lost : ∃ program m, parse (String.ofList beyond) = .ok program ∧
    Leaves (String.ofList beyond) m ∧ (decode? (encode m) : Option Machine) = none := by
  have infinite : ((Grammar.program { rest := beyond } {}).1.any fun read =>
      (statements read.1).toOption.any fun program => !program.all Statement.isFinite) = true := by
    decide +kernel
  obtain ⟨program, parses, infinite⟩ := parse_of_reads infinite
  refine ⟨program, _, parses, .at_once parses, ?_⟩
  rw [Machine.decode?_encode, if_neg (by simpa using infinite)]

end Script

end Workbench
