/-
How programs are written.

`SpelledProgram` says which texts spell a program, without a reader: one command on
a line, terms with plus signs between them and parentheses around any of them, quoted
texts with a backslash before a quote and before a backslash, blanks where two lexemes
meet, a semicolon behind a command, comments at the ends of lines, lines with nothing
on them, any line breaks. Every list of commands that can be written at all is spelled
by some text (`SpelledProgram.exists_of_sayable`).

Of each lexeme it is shown that it is measured as it is written, whatever comes behind
it that does not go on with it (`EndsWord`, `EndsTerm`, `EndsLine`).
-/
import Workbench.Proofs.Script.Seam

namespace Workbench.Script

/-! ## How programs are written -/

/-- Blanks and tabs, or nothing. -/
def IsBlank (cs : List Char) : Prop := ∀ c ∈ cs, c = ' ' ∨ c = '\t'

/-- Two slashes and what follows them on the line, or nothing. -/
def IsComment (cs : List Char) : Prop :=
  cs = [] ∨ ∃ text, cs = '/' :: '/' :: text ∧ ∀ c ∈ text, isBreak c = false

/-- Digits, at least one. -/
def AreDigits (cs : List Char) : Prop := cs ≠ [] ∧ ∀ c ∈ cs, c.isDigit = true

/-- A number as it is written: digits, behind a minus sign or not, and with a fraction or not. -/
structure WrittenNumber where
  negative : Bool
  whole : List Char
  fraction : Option (List Char)
  whole_digits : AreDigits whole
  fraction_digits : ∀ ds ∈ fraction, AreDigits ds

/-- The point and the digits behind it. -/
def pointed : Option (List Char) → List Char
  | some ds => '.' :: ds
  | none => []

/-- The characters of a number. -/
def WrittenNumber.chars (n : WrittenNumber) : List Char :=
  (if n.negative then ['-'] else []) ++ (n.whole ++ pointed n.fraction)

/-- A name: a letter or an underscore, then letters, digits and underscores, all in all no keyword. -/
structure IsName (cs : List Char) : Prop where
  start : ∃ c rest, cs = c :: rest ∧ isNameStart c = true
  parts : ∀ c ∈ cs, isNamePart c = true
  free : cs ∉ keywords

/-- A character within quotes. -/
def escaped (c : Char) : List Char := if c = '"' ∨ c = '\\' then ['\\', c] else [c]

/-- A text in quotes. -/
def inQuotes (s : String) : List Char := '"' :: (s.toList.flatMap escaped ++ ['"'])

/-- One term, or terms with plus signs between them. -/
inductive Extent where
  | term
  | sum

/-- How an expression is written, as a term or as a sum. -/
inductive Expr.Spelled : Extent → Expr → List Char → Prop
  | number {n : WrittenNumber} {x : Float} (denotes : Decimal.readFloat? n.chars = some x) :
    Spelled .term (.number x) n.chars
  | text (s : String) : Spelled .term (.text s) (inQuotes s)
  | bool (b : Bool) : Spelled .term (.bool b) (if b then "true".toList else "false".toList)
  | name {n : String} (isName : IsName n.toList) : Spelled .term (.name n) n.toList
  | inParens {e : Expr} {b cs b' : List Char} (before : IsBlank b) (inner : Spelled .sum e cs)
    (behind : IsBlank b') : Spelled .term e ('(' :: (b ++ (cs ++ (b' ++ [')']))))
  | single {e : Expr} {cs : List Char} (term : Spelled .term e cs) : Spelled .sum e cs
  | plus {l r : Expr} {cs b b' ds : List Char} (left : Spelled .sum l cs) (before : IsBlank b)
    (behind : IsBlank b') (right : Spelled .term r ds) :
    Spelled .sum (.add l r) (cs ++ (b ++ '+' :: (b' ++ ds)))

/-- No word goes on here. -/
def EndsWord (rest : List Char) : Prop := ∀ c more, rest = c :: more → isNamePart c = false

/-- How a command is written. Between a keyword and what follows it there is a blank, unless no word could go on
there. -/
inductive Command.Spelled : Command → List Char → Prop
  | bind {n : String} {e : Expr} {b₁ b₂ b₃ cs : List Char} (apart : b₁ ≠ []) (blank₁ : IsBlank b₁)
    (isName : IsName n.toList) (blank₂ : IsBlank b₂) (blank₃ : IsBlank b₃) (value : e.Spelled .sum cs) :
    Spelled (.bind n e) ("let".toList ++ (b₁ ++ (n.toList ++ (b₂ ++ '=' :: (b₃ ++ cs)))))
  | display {e : Expr} {b cs : List Char} (apart : EndsWord (b ++ cs)) (blank : IsBlank b)
    (shown : e.Spelled .sum cs) : Spelled (.display e) ("display".toList ++ (b ++ cs))
  | sleep {n : WrittenNumber} {x : Float} {b : List Char} (apart : EndsWord (b ++ n.chars)) (blank : IsBlank b)
    (denotes : Decimal.readFloat? n.chars = some x) (notNegative : ¬ x < 0) :
    Spelled (.sleep (Decimal.toWord x)) ("sleep".toList ++ (b ++ n.chars))
  | spin : Spelled .spin "spin".toList
  | fail (message : String) {b : List Char} (blank : IsBlank b) :
    Spelled (.fail message) ("error".toList ++ (b ++ inQuotes message))
  | value {e : Expr} {cs : List Char} (own : e.Spelled .sum cs) : Spelled (.value e) cs

/-- How a line is written behind the text before it, and the statement on it, if there is one: it stands on the line
that the line feeds before its first character make it. -/
inductive SpelledLine (before : List Char) : List Statement → List Char → Prop
  | empty {b comment : List Char} (blank : IsBlank b) (isComment : IsComment comment) :
    SpelledLine before [] (b ++ comment)
  | command {c : Command} {indent cs b₁ semicolon b₂ comment : List Char} (indented : IsBlank indent)
    (spelled : c.Spelled cs) (blank₁ : IsBlank b₁) (optional : semicolon = [] ∨ semicolon = [';'])
    (blank₂ : IsBlank b₂) (isComment : IsComment comment) :
    SpelledLine before [⟨Int32.ofNat (1 + Text.breaks (before ++ indent)), c⟩]
      (indent ++ (cs ++ (b₁ ++ (semicolon ++ (b₂ ++ comment)))))

/-- A line break in front of what follows: a carriage return is one by itself only if no line feed follows. -/
inductive BreaksBefore (rest : List Char) : List Char → Prop
  | feed : BreaksBefore rest ['\n']
  | returnFeed : BreaksBefore rest ['\r', '\n']
  | loneReturn (alone : ∀ more, rest ≠ '\n' :: more) : BreaksBefore rest ['\r']

/-- How a program is written behind the text before it: lines with line breaks between them. -/
inductive SpelledProgram : List Char → List Statement → List Char → Prop
  | last {before cs : List Char} {program : List Statement} (line : SpelledLine before program cs) :
    SpelledProgram before program cs
  | next {before cs b rest : List Char} {own more : List Statement} (line : SpelledLine before own cs)
    (breaks : BreaksBefore rest b) (others : SpelledProgram (before ++ cs ++ b) more rest) :
    SpelledProgram before (own ++ more) (cs ++ (b ++ rest))

/-! ## What can be written -/

/-- The expression can be written: its numbers are those that some digits denote, its names are names. -/
def Expr.Sayable : Expr → Prop
  | .number x => ∃ n : WrittenNumber, Decimal.readFloat? n.chars = some x
  | .name n => IsName n.toList
  | .add l r => l.Sayable ∧ r.Sayable
  | .text _ | .bool _ => True

/-- The command can be written. -/
def Command.Sayable : Command → Prop
  | .bind n e => IsName n.toList ∧ e.Sayable
  | .display e | .value e => e.Sayable
  | .sleep ms => ∃ (n : WrittenNumber) (x : Float),
      Decimal.readFloat? n.chars = some x ∧ ¬ x < 0 ∧ ms = Decimal.toWord x
  | .spin | .fail _ => True

theorem isBlank_nil : IsBlank [] := nofun

theorem isBlank_single : IsBlank [' '] := by simp [IsBlank]

theorem Expr.Sayable.spelled {e : Expr} (sayable : e.Sayable) : ∃ cs, e.Spelled .term cs := by
  induction e with
  | number x =>
    obtain ⟨n, denotes⟩ := sayable
    exact ⟨_, .number denotes⟩
  | text s => exact ⟨_, .text s⟩
  | bool b => exact ⟨_, .bool b⟩
  | name n => exact ⟨_, .name sayable⟩
  | add l r left right =>
    obtain ⟨cs, first⟩ := left sayable.1
    obtain ⟨ds, second⟩ := right sayable.2
    exact ⟨_, .inParens isBlank_nil (.plus (.single first) isBlank_single isBlank_single second) isBlank_nil⟩

theorem endsWord_blank {b : List Char} (blank : IsBlank b) (some_blank : b ≠ []) (rest : List Char) :
    EndsWord (b ++ rest) := by
  obtain ⟨c, more, rfl⟩ := List.exists_cons_of_ne_nil some_blank
  rintro _ _ ⟨⟩
  obtain rfl | rfl := blank c (.head _) <;> rfl

theorem Command.Sayable.spelled {c : Command} (sayable : c.Sayable) : ∃ cs, c.Spelled cs := by
  have apart (rest : List Char) : EndsWord ([' '] ++ rest) := endsWord_blank isBlank_single nofun rest
  cases c with
  | bind n e =>
    obtain ⟨cs, value⟩ := sayable.2.spelled
    exact ⟨_, .bind (List.cons_ne_nil ' ' []) isBlank_single sayable.1 isBlank_single isBlank_single (.single value)⟩
  | display e =>
    obtain ⟨cs, shown⟩ := Expr.Sayable.spelled sayable
    exact ⟨_, .display (apart cs) isBlank_single (.single shown)⟩
  | sleep ms =>
    obtain ⟨n, x, denotes, notNegative, rfl⟩ := sayable
    exact ⟨_, .sleep (apart n.chars) isBlank_single denotes notNegative⟩
  | spin => exact ⟨_, .spin⟩
  | fail message => exact ⟨_, .fail message isBlank_single⟩
  | value e =>
    obtain ⟨cs, own⟩ := Expr.Sayable.spelled sayable
    exact ⟨_, .value (.single own)⟩

/-- Whatever can be written command by command is spelled by some text. -/
theorem SpelledProgram.exists_of_sayable {commands : List Command} (sayable : ∀ c ∈ commands, c.Sayable)
    (before : List Char) : ∃ program cs, SpelledProgram before program cs ∧ program.map (·.command) = commands := by
  induction commands generalizing before with
  | nil => exact ⟨[], [], .last (.empty isBlank_nil (.inl rfl)), rfl⟩
  | cons c commands ih =>
    obtain ⟨cs, spelled⟩ := (sayable c (.head _)).spelled
    have line : SpelledLine before _ _ := .command isBlank_nil spelled isBlank_nil (.inl rfl) isBlank_nil (.inl rfl)
    obtain ⟨program, rest, others, same⟩ := ih (fun d there => sayable d (.tail _ there)) _
    exact ⟨_, _, .next line .feed others, by rw [List.map_append, same]; rfl⟩

/-! ## Lexemes as they are written -/

/-- Neither a name nor a number goes on here. -/
def EndsTerm (rest : List Char) : Prop := ∀ c more, rest = c :: more → isNamePart c = false ∧ c ≠ '.'

theorem EndsTerm.endsWord {rest : List Char} (ends : EndsTerm rest) : EndsWord rest :=
  fun c more same => (ends c more same).1

/-- The line ends here, or the text. -/
def EndsLine (rest : List Char) : Prop := ∀ c more, rest = c :: more → isBreak c = true

theorem EndsLine.endsTerm {rest : List Char} (ends : EndsLine rest) : EndsTerm rest := by
  rintro c more rfl
  obtain rfl | rfl : c = '\n' ∨ c = '\r' := by simpa [isBreak] using ends c more rfl
  all_goals exact ⟨rfl, by decide⟩

theorem EndsLine.gap_eq {rest : List Char} (ends : EndsLine rest) : gap rest = 0 := by
  cases rest with
  | nil => rfl
  | cons c more => exact gapFrom_break (ends c more rfl) more

theorem endsTerm_cons {c : Char} (part : isNamePart c = false) (point : c ≠ '.') (rest : List Char) :
    EndsTerm (c :: rest) := by
  rintro _ _ ⟨⟩
  exact ⟨part, point⟩

theorem endsTerm_blank {b rest : List Char} (blank : IsBlank b) (ends : EndsTerm rest) : EndsTerm (b ++ rest) := by
  cases b with
  | nil => exact ends
  | cons c b =>
    obtain rfl | rfl := blank c (.head _) <;> exact endsTerm_cons rfl (by decide) _

theorem isDigit_isNamePart {c : Char} (digit : c.isDigit = true) : isNamePart c = true := by
  simp [isNamePart, Char.isAlphanum, digit]

theorem EndsTerm.not_digit {c : Char} {more : List Char} (ends : EndsTerm (c :: more)) : c.isDigit = false := by
  refine eq_false_of_ne_true fun digit => ?_
  have part := isDigit_isNamePart digit
  rw [(ends c more rfl).1] at part
  cases part

theorem isNameStart_isNamePart {c : Char} (start : isNameStart c = true) : isNamePart c = true := by
  simp only [isNameStart, Bool.or_eq_true] at start
  simp only [isNamePart, Char.isAlphanum, Bool.or_eq_true]
  exact start.imp_left .inl

/-! ### Gaps -/

theorem gap_blank {b : List Char} (blank : IsBlank b) (rest : List Char) : gap (b ++ rest) = b.length + gap rest := by
  induction b with
  | nil => exact (Nat.zero_add _).symm
  | cons c b ih =>
    rw [List.cons_append, gap, gapFrom_blank (blank c (.head _))]
    have inner := ih fun d there => blank d (.tail _ there)
    rw [gap] at inner
    rw [inner, List.length_cons, gap]
    omega

theorem gap_of_blank {b rest : List Char} (blank : IsBlank b) (solid : gap rest = 0) : gap (b ++ rest) = b.length := by
  rw [gap_blank blank, solid, Nat.add_zero]

theorem gap_solid {c : Char} (blank : c ≠ ' ') (tab : c ≠ '\t') (slash : c ≠ '/') (rest : List Char) :
    gap (c :: rest) = 0 :=
  gapFrom_blocked (by simp [blank, tab]) fun _ same _ => slash same

theorem gapFrom_true {text rest : List Char} (plain : ∀ c ∈ text, isBreak c = false) (ends : EndsLine rest) :
    gapFrom true (text ++ rest) = text.length := by
  induction text with
  | nil =>
    cases rest with
    | nil => rfl
    | cons c more => exact gapFrom_break (ends c more rfl) more
  | cons c text ih =>
    rw [List.cons_append, gapFrom_comment (by simp [plain c (.head _)]), ih fun d there => plain d (.tail _ there)]
    rfl

/-- A comment reaches to the end of its line. -/
theorem gap_comment {comment rest : List Char} (isComment : IsComment comment) (ends : EndsLine rest) :
    gap (comment ++ rest) = comment.length := by
  obtain rfl | ⟨text, rfl, plain⟩ := isComment
  · exact ends.gap_eq
  · rw [gap, List.cons_append, List.cons_append, gapFrom_slashes, gapFrom_true plain ends]
    rfl

/-! ### Words -/

theorem word_append_ends {w rest : List Char} (parts : ∀ c ∈ w, isNamePart c = true) (ends : EndsWord rest) :
    word (w ++ rest) = w := by
  rw [word, List.takeWhile_append_of_pos parts]
  cases rest with
  | nil => simp
  | cons c more => rw [List.takeWhile_cons, ends c more rfl]; simp

theorem name?_spelled {n : String} {rest : List Char} (isName : IsName n.toList) (ends : EndsWord rest) :
    name? (n.toList ++ rest) = some (n, n.toList.length) := by
  obtain ⟨c, more, same, start⟩ := isName.start
  have whole := word_append_ends isName.parts ends
  rw [same, List.cons_append] at whole ⊢
  unfold name?
  simp only [whole, start, ← same, Bool.true_and, List.contains_eq_mem, isName.free, decide_false, Bool.not_false,
    if_true, String.ofList_toList]

/-! ### Numbers -/

theorem takeDigits_spelled {ds rest : List Char} (digits : AreDigits ds)
    (ends : ∀ c more, rest = c :: more → c.isDigit = false) : Decimal.takeDigits (ds ++ rest) = (ds, rest) := by
  unfold Decimal.takeDigits
  rw [List.takeWhile_append_of_pos digits.2, List.dropWhile_append_of_pos digits.2]
  cases rest with
  | nil => simp
  | cons c more => simp [ends c more rfl]

namespace WrittenNumber

variable (n : WrittenNumber)

/-- The double that the number denotes. -/
def value : Float := Decimal.Numeral.value ⟨n.negative, n.whole, n.fraction.getD [], 0⟩

theorem whole_head : ∃ c more, n.whole = c :: more ∧ c.isDigit = true := by
  obtain ⟨c, more, same⟩ := List.exists_cons_of_ne_nil n.whole_digits.1
  exact ⟨c, more, same, n.whole_digits.2 c (same ▸ .head _)⟩

theorem minusSign_chars (rest : List Char) :
    minusSign (n.chars ++ rest) = (n.negative, n.whole ++ (pointed n.fraction ++ rest)) := by
  unfold chars
  cases n.negative with
  | true => simp [minusSign]
  | false =>
    obtain ⟨c, more, same, digit⟩ := n.whole_head
    have plain : c ≠ '-' := by
      rintro rfl
      cases digit
    simp only [same, Bool.false_eq_true, if_false, List.nil_append, List.cons_append, List.append_assoc]
    unfold minusSign
    split
    · next same => cases same; exact absurd rfl plain
    · rfl

theorem takeSign_chars : Decimal.takeSign n.chars = (n.negative, n.whole ++ pointed n.fraction) := by
  unfold chars
  cases n.negative with
  | true => rfl
  | false =>
    obtain ⟨c, more, same, digit⟩ := n.whole_head
    simp only [same, Bool.false_eq_true, if_false, List.nil_append, List.cons_append]
    unfold Decimal.takeSign
    split
    · next same => cases same; cases digit
    · next same => cases same; cases digit
    · rfl

theorem takeDigits_whole {rest : List Char} (ends : EndsTerm rest) :
    Decimal.takeDigits (n.whole ++ (pointed n.fraction ++ rest)) = (n.whole, pointed n.fraction ++ rest) := by
  refine takeDigits_spelled n.whole_digits fun c more same => ?_
  cases fraction : n.fraction with
  | some ds =>
    rw [fraction] at same
    cases same
    rfl
  | none =>
    rw [fraction] at same
    cases same
    exact ends.not_digit

theorem takeDigits_fraction {ds rest : List Char} (there : n.fraction = some ds) (ends : EndsTerm rest) :
    Decimal.takeDigits (ds ++ rest) = (ds, rest) := by
  refine takeDigits_spelled (n.fraction_digits ds there) fun c more same => ?_
  cases same
  exact ends.not_digit

theorem fractionDigits_pointed {rest : List Char} (ends : EndsTerm rest) :
    fractionDigits (pointed n.fraction ++ rest) = n.fraction.getD [] := by
  cases there : n.fraction with
  | some ds => exact congrArg Prod.fst (n.takeDigits_fraction there ends)
  | none =>
    show fractionDigits rest = []
    unfold fractionDigits
    split
    · exact absurd rfl (ends _ _ rfl).2
    · rfl

theorem length_chars : n.chars.length =
    (if n.negative then 1 else 0) + n.whole.length +
      (if n.fraction.getD [] = [] then 0 else (n.fraction.getD []).length + 1) := by
  unfold chars
  rw [List.length_append, List.length_append, Nat.add_assoc]
  congr 1
  · cases n.negative <;> rfl
  · congr 1
    cases there : n.fraction with
    | none => rfl
    | some ds => rw [Option.getD_some, if_neg (n.fraction_digits ds there).1]; rfl

theorem number?_chars {rest : List Char} (ends : EndsTerm rest) :
    number? (n.chars ++ rest) = some (n.value, n.chars.length) := by
  rw [number?_eq]
  simp only [n.minusSign_chars, n.takeDigits_whole ends, n.fractionDigits_pointed ends, n.whole_digits.1, if_false,
    n.length_chars, value]

/-- What the characters of a number denote as a decimal text on its own. -/
theorem readFloat?_chars : Decimal.readFloat? n.chars = some n.value := by
  have digits := n.takeDigits_whole (show EndsTerm [] from nofun)
  rw [List.append_nil] at digits
  have numeral : Decimal.readNumeral? n.chars = some ⟨n.negative, n.whole, n.fraction.getD [], 0⟩ := by
    unfold Decimal.readNumeral?
    simp only [n.takeSign_chars, digits]
    cases there : n.fraction with
    | none => simp [pointed, n.whole_digits.1, Decimal.readExponent?]
    | some ds =>
      have fraction := n.takeDigits_fraction there (show EndsTerm [] from nofun)
      rw [List.append_nil] at fraction
      simp [pointed, fraction, n.whole_digits.1, Decimal.readExponent?]
  unfold Decimal.readFloat?
  rw [numeral]
  rfl

end WrittenNumber

/-! ### Quoted texts -/

theorem quotedFrom?_escaped (cs rest : List Char) :
    quotedFrom? (cs.flatMap escaped ++ '"' :: rest) = some (cs, (cs.flatMap escaped).length + 1) := by
  induction cs with
  | nil => rfl
  | cons c cs ih =>
    rw [List.flatMap_cons, List.append_assoc]
    by_cases special : c = '"' ∨ c = '\\'
    · rw [escaped, if_pos special]
      have same : (if c = 'n' then '\n' else if c = 't' then '\t' else c) = c := by
        obtain rfl | rfl := special <;> rfl
      show (quotedFrom? (cs.flatMap escaped ++ '"' :: rest)).map _ = _
      rw [ih, Option.map_some, same]
      simp
    · obtain ⟨quote, backslash⟩ := not_or.1 special
      rw [escaped, if_neg special, List.singleton_append, quotedFrom?_plain quote backslash, ih]
      simp

theorem quoted?_inQuotes (s : String) (rest : List Char) :
    quoted? (inQuotes s ++ rest) = some (s, (inQuotes s).length) := by
  have inner := quotedFrom?_escaped s.toList rest
  simp only [inQuotes, List.cons_append, List.append_assoc, List.nil_append, quoted?, inner, Option.map_some,
    String.ofList_toList, List.length_cons, List.length_append, List.length_nil]

end Workbench.Script
