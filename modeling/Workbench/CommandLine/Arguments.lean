/-
Reading the arguments of a command.

A command has options, which begin with two hyphens or, with a letter, with one;
an option that takes a value finds it after an equals sign or in the next
argument. What is no option is the command's operand or, where there are
subcommands, the name of one. After two hyphens alone nothing is an option.

A value is checked when the argument after it is looked at, or at the end. So
of two errors the one that is found first in this way is reported; an argument
that cannot be understood is reported before a value in front of it is checked.
-/
import Workbench.Decimal.Notation
import Workbench.Environment.Library

namespace Workbench.CommandLine

/-- Why arguments are not carried out. -/
inductive UsageError where
  /-- help was asked for -/
  | help
  /-- no argument at all -/
  | nothing
  | missingSubcommand
  | unknownSubcommand
  | unknownArgument
  | missingArgument
  /-- a value is missing, empty, or none of those possible -/
  | badValue
  /-- a value is not the kind of number that is needed -/
  | badNumber
  /-- an option is given twice -/
  | repeated
  /-- a value for an option that takes none -/
  | needlessValue
  deriving DecidableEq, Repr

/-- What kind of value an option takes. -/
inductive Takes where
  | path
  | text
  /-- a whole number of eight bits without sign -/
  | byte
  /-- a whole number of 64 bits without sign -/
  | word
  /-- a whole number of 32 bits with sign -/
  | line
  | library
  deriving DecidableEq, Repr

/-- A value that was read. -/
inductive Value where
  | text (s : String)
  | number (n : Int)
  | library (l : LibraryName)
  /-- an option without a value was given -/
  | on
  deriving DecidableEq, Repr

/-- An option of a command. -/
structure OptionForm where
  name : String
  letter : Option Char := none
  /-- what it takes; an option that takes nothing is on or off -/
  takes : Option Takes := none
  repeatable : Bool := false

/-- The form of a command's arguments. -/
structure CommandForm where
  options : List OptionForm
  /-- the name of its operand, a path, if it has one -/
  operand : Option String := none
  subcommands : List String := []
  /-- the names that must be given -/
  required : List String := []

/-- The option that asks for help. -/
def helpForm : OptionForm := { name := "help", letter := some 'h' }

namespace CommandForm

/-- The option of a name. -/
def byName? (form : CommandForm) (name : String) : Option OptionForm :=
  (form.options ++ [helpForm]).find? fun o => o.name = name

/-- The option of a letter. -/
def byLetter? (form : CommandForm) (letter : Char) : Option OptionForm :=
  (form.options ++ [helpForm]).find? fun o => o.letter = some letter

end CommandForm

/-! ## Values -/

/-- A whole number between two bounds, both included. -/
def numberWithin? (low high : Int) (s : String) : Except UsageError Value :=
  match Decimal.readInt? s.toList with
  | some n => if low ≤ n ∧ n ≤ high then .ok (.number n) else .error .badNumber
  | none => .error .badNumber

/-- The name of a library on a command line. -/
def libraryOf? (s : String) : Option LibraryName :=
  match s with
  | "none" => some .none
  | "runes" => some .runes
  | "curves" => some .curves
  | "sound" => some .sound
  | _ => none

/-- A value of a kind. -/
def Takes.read (t : Takes) (s : String) : Except UsageError Value :=
  match t with
  | .path => if s = "" then .error .badValue else .ok (.text s)
  | .text => .ok (.text s)
  | .byte => numberWithin? 0 255 s
  | .word => if s.toList.head? = some '-' then .error .badNumber else numberWithin? 0 (Decimal.wordCount - 1) s
  | .line => numberWithin? (-2147483648) 2147483647 s
  | .library =>
    match libraryOf? s with
    | some l => .ok (.library l)
    | none => .error .badValue

/-! ## Arguments one after another -/

/-- An option or operand whose value has not been checked yet. -/
structure Pending where
  form : OptionForm
  value : Option String

/-- What has been read so far. -/
structure Reading where
  given : List (String × Value) := []
  pending : Option Pending := none
  /-- how many operands there were -/
  operands : Nat := 0
  /-- whether nothing is an option any more -/
  operandsOnly : Bool := false

namespace Reading

/-- Whether the option has been given. -/
def has (r : Reading) (name : String) : Bool := r.given.any fun g => g.1 = name

/-- An option is given with a value, or with none. -/
def give (r : Reading) (form : OptionForm) (value : Option String) : Except UsageError Reading := do
  if form.name = "help" then .error .help
  else
    match form.takes, value with
    | some _, none => .error .badValue
    | some t, some s =>
      if !form.repeatable && r.has form.name then .error .repeated
      else return { r with given := r.given ++ [(form.name, ← t.read s)] }
    | none, _ =>
      if r.has form.name then .error .repeated else return { r with given := r.given ++ [(form.name, .on)] }

/-- The value that has not been checked yet is checked. -/
def resolve (r : Reading) : Except UsageError Reading :=
  match r.pending with
  | none => .ok r
  | some p => give { r with pending := none } p.form p.value

/-- Whether the last option waits for its value. -/
def awaitsValue (r : Reading) : Bool :=
  match r.pending with
  | some p => p.value.isNone
  | none => false

/-- An option is met: its value stands with it, or comes with the next argument, or it takes none. -/
def meet (r : Reading) (form : OptionForm) (attached : Option String) : Except UsageError Reading := do
  let r ← r.resolve
  match form.takes, attached with
  | some _, none => return { r with pending := some ⟨form, none⟩ }
  | _, _ => r.give form attached

/-- An operand is met. -/
def operand (r : Reading) (form : CommandForm) (s : String) : Except UsageError Reading := do
  match form.operand with
  | some name =>
    if r.operands = 0 then
      let r ← r.resolve
      return { r with operands := 1, pending := some ⟨{ name := name, takes := some .path }, some s⟩ }
    else .error .unknownArgument
  | none =>
    if r.operandsOnly && (form.subcommands.contains s || s = "help") then .error .unknownArgument
    else .error .unknownSubcommand

end Reading

/-- An argument of two hyphens and a name, perhaps with a value. -/
def long? (arg : String) : Option (String × Option String) :=
  match arg.toList with
  | '-' :: '-' :: cs =>
    if cs = [] then none
    else match Text.splitFirst '=' cs with
      | some (name, value) => some (String.ofList name, some (String.ofList value))
      | none => some (String.ofList cs, none)
  | _ => none

/-- The letters of an argument of one hyphen. -/
def letters? (arg : String) : Option (List Char) :=
  match arg.toList with
  | '-' :: c :: cs => if c = '-' then none else some (c :: cs)
  | _ => none

/-- An argument of two hyphens is met. -/
def meetLong (form : CommandForm) (r : Reading) (name : String) (value : Option String) :
    Except UsageError Reading :=
  match form.byName? name with
  | none => .error .unknownArgument
  | some o =>
    match o.takes, value with
    | none, some _ => .error .needlessValue
    | _, _ => r.meet o value

/-- Letters are met one by one, until one takes the rest as its value. -/
def meetLetters (form : CommandForm) : List Char → Reading → Except UsageError Reading
  | [], r => .ok r
  | c :: cs, r =>
    match form.byLetter? c with
    | none => .error .unknownArgument
    | some o =>
      match o.takes with
      | none => do meetLetters form cs (← r.meet o none)
      | some _ =>
        match cs with
        | [] => r.meet o none
        | '=' :: rest => r.meet o (some (String.ofList rest))
        | rest => r.meet o (some (String.ofList rest))

/-- What a command's arguments come to: what was given, and the subcommand with its own arguments. -/
structure Arguments where
  reading : Reading
  subcommand : Option (String × List String) := none

/-- The arguments are read up to the name of a subcommand or to the end. -/
def readArguments (form : CommandForm) : List String → Reading → Except UsageError Arguments
  | [], r => .ok { reading := r }
  | arg :: rest, r => do
    if r.operandsOnly then readArguments form rest (← r.operand form arg)
    else if !r.awaitsValue && !form.subcommands.isEmpty && (form.subcommands.contains arg || arg = "help") then
      return { reading := r, subcommand := some (arg, rest) }
    else if arg = "--" then readArguments form rest { r with operandsOnly := true }
    else
      match long? arg, letters? arg with
      | some (name, value), _ => readArguments form rest (← meetLong form r name value)
      | none, some letters => readArguments form rest (← meetLetters form letters r)
      | none, none =>
        match r.pending with
        | some ⟨o, none⟩ => readArguments form rest { r with pending := some ⟨o, some arg⟩ }
        | _ => readArguments form rest (← r.operand form arg)

/-- The arguments of a command without subcommands. -/
def readAll (form : CommandForm) (args : List String) : Except UsageError (List (String × Value)) := do
  let r ← (← readArguments form args {}).reading.resolve
  if form.required.all r.has then return r.given else .error .missingArgument

end Workbench.CommandLine
