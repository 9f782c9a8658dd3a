/-
The smallest parts of a TOML text: blanks, ends of lines, comments, quoted
texts, keys, numbers and times.

Each reader takes characters to what it has read and the characters that
follow, or to nothing when they do not begin with such a part.
-/
import Workbench.Decimal.Notation
import Workbench.Json.Reader
import Workbench.Toml.Value

namespace Workbench.Toml

/-! ## Blanks and ends of lines -/

/-- A blank within a line. -/
def isSpace (c : Char) : Bool := c = ' ' || c = '\t'

/-- The text after the blanks within a line. -/
def skipSpace (cs : List Char) : List Char := cs.dropWhile isSpace

/-- A character that may stand between quotes. -/
def isPlain (c : Char) : Bool := c = '\t' || (' ' ≤ c && c ≠ '\x7f')

/-- The text after the end of a line. -/
def afterBreak? : List Char → Option (List Char)
  | '\n' :: rest => some rest
  | '\r' :: '\n' :: rest => some rest
  | _ => none

/-- The text after a comment, if there is one. -/
def skipComment : List Char → List Char
  | '#' :: rest => rest.dropWhile fun c => isPlain c || c = '\x7f'
  | rest => rest

/-- The text after the end of a line, with a comment before it or none; at the end of the text no break is
needed. -/
def afterLine? (cs : List Char) : Option (List Char) :=
  match skipComment (skipSpace cs) with
  | [] => some []
  | rest => afterBreak? rest

/-- The text after blanks, comments and ends of lines; at most so many of them. -/
def skipFiller : Nat → List Char → List Char
  | 0, cs => cs
  | n + 1, cs =>
    match skipComment (skipSpace cs) with
    | '\n' :: rest => skipFiller n rest
    | '\r' :: '\n' :: rest => skipFiller n rest
    | rest => rest

/-! ## Quoted texts -/

/-- The character of an escape of one letter. -/
def unescape? (c : Char) : Option Char :=
  if c = '"' ∨ c = '\\' then some c
  else if c = 'n' then some '\n'
  else if c = 't' then some '\t'
  else if c = 'r' then some '\r'
  else if c = 'b' then some '\x08'
  else if c = 'f' then some '\x0c'
  else none

/-- The character of a code, unless it is half of a surrogate pair or too large. -/
def ofCode? (n : Nat) : Option Char := if n.isValidChar then some (Char.ofNat n) else none

/-- The character of an escape of four digits. -/
def short? (a b c d : Char) : Option Char := (Json.unit? a b c d).bind ofCode?

/-- The character of an escape of eight digits. -/
def long? (a b c d e f g h : Char) : Option Char := do
  let high ← Json.unit? a b c d
  let low ← Json.unit? e f g h
  ofCode? (high * 0x10000 + low)

/-- The characters up to the closing quote, with escapes. -/
def readBasic? : List Char → Option (List Char × List Char)
  | [] => none
  | '"' :: rest => some ([], rest)
  | '\\' :: 'u' :: a :: b :: c :: d :: rest => do
    let x ← short? a b c d
    let (cs, r) ← readBasic? rest
    return (x :: cs, r)
  | '\\' :: 'U' :: a :: b :: c :: d :: e :: f :: g :: h :: rest => do
    let x ← long? a b c d e f g h
    let (cs, r) ← readBasic? rest
    return (x :: cs, r)
  | '\\' :: c :: rest => do
    let x ← unescape? c
    let (cs, r) ← readBasic? rest
    return (x :: cs, r)
  | c :: rest =>
    if c = '\\' ∨ !isPlain c then none else (readBasic? rest).map fun (cs, r) => (c :: cs, r)

/-- The characters up to the closing quote, as they are. -/
def readLiteral? : List Char → Option (List Char × List Char)
  | [] => none
  | '\'' :: rest => some ([], rest)
  | c :: rest => if isPlain c then (readLiteral? rest).map fun (cs, r) => (c :: cs, r) else none

/-- A row of quotes: three close a text, up to two before them belong to it. What belongs to it, and what
follows if it is closed. -/
def closing (quote : Char) (cs : List Char) : List Char × Option (List Char) :=
  let n := min 5 (cs.takeWhile (· = quote)).length
  if n < 3 then (List.replicate n quote, none) else (List.replicate (n - 3) quote, some (cs.drop n))

/-- Whether a line ends after blanks. -/
def endsLine (cs : List Char) : Bool := (afterBreak? (skipSpace cs)).isSome

/-- The characters of a text of several lines up to the three closing quotes, with escapes. After a
backslash at the end of a line, blanks and breaks are passed over; `skipping` says so. -/
def readLines? (skipping : Bool) : List Char → Option (List Char × List Char)
  | [] => none
  | '\r' :: '\n' :: rest =>
    (readLines? skipping rest).map fun (cs, r) => (if skipping then cs else '\n' :: cs, r)
  | '\\' :: 'u' :: a :: b :: c :: d :: rest => do
    let x ← short? a b c d
    let (cs, r) ← readLines? false rest
    return (x :: cs, r)
  | '\\' :: 'U' :: a :: b :: c :: d :: e :: f :: g :: h :: rest => do
    let x ← long? a b c d e f g h
    let (cs, r) ← readLines? false rest
    return (x :: cs, r)
  | '\\' :: c :: rest =>
    match unescape? c with
    | some x => (readLines? false rest).map fun (cs, r) => (x :: cs, r)
    | none => if endsLine (c :: rest) then readLines? true (c :: rest) else none
  | c :: rest =>
    if c = '"' then
      match closing '"' (c :: rest) with
      | (own, some r) => some (own, r)
      | (_, none) => (readLines? false rest).map fun (cs, r) => (c :: cs, r)
    else if c = '\n' ∨ isSpace c then
      (readLines? skipping rest).map fun (cs, r) => (if skipping then cs else c :: cs, r)
    else if c = '\\' ∨ !isPlain c then none
    else (readLines? false rest).map fun (cs, r) => (c :: cs, r)

/-- The characters of a text of several lines up to the three closing quotes, as they are. -/
def readLiteralLines? : List Char → Option (List Char × List Char)
  | [] => none
  | '\r' :: '\n' :: rest => (readLiteralLines? rest).map fun (cs, r) => ('\n' :: cs, r)
  | c :: rest =>
    if c = '\'' then
      match closing '\'' (c :: rest) with
      | (own, some r) => some (own, r)
      | (_, none) => (readLiteralLines? rest).map fun (cs, r) => (c :: cs, r)
    else if c = '\n' ∨ isPlain c then (readLiteralLines? rest).map fun (cs, r) => (c :: cs, r)
    else none

/-- The text after a first break, which does not belong to a text of several lines. -/
def skipFirstBreak (cs : List Char) : List Char := (afterBreak? cs).getD cs

/-- A quoted text. -/
def readText? : List Char → Option (String × List Char)
  | '"' :: '"' :: '"' :: rest =>
    (readLines? false (skipFirstBreak rest)).map fun (cs, r) => (String.ofList cs, r)
  | '\'' :: '\'' :: '\'' :: rest =>
    (readLiteralLines? (skipFirstBreak rest)).map fun (cs, r) => (String.ofList cs, r)
  | '"' :: rest => (readBasic? rest).map fun (cs, r) => (String.ofList cs, r)
  | '\'' :: rest => (readLiteral? rest).map fun (cs, r) => (String.ofList cs, r)
  | _ => none

/-! ## Keys -/

/-- A character of a key without quotes. -/
def isKeyChar (c : Char) : Bool := c.isAlphanum || c = '_' || c = '-'

/-- One part of a key. -/
def readKeyPart? : List Char → Option (String × List Char)
  | '"' :: rest => (readBasic? rest).map fun (cs, r) => (String.ofList cs, r)
  | '\'' :: rest => (readLiteral? rest).map fun (cs, r) => (String.ofList cs, r)
  | cs =>
    match cs.takeWhile isKeyChar with
    | [] => none
    | name => some (String.ofList name, cs.dropWhile isKeyChar)

/-- A key of parts with points between them: at most so many. -/
def readKey? : Nat → List Char → Option (List String × List Char)
  | 0, _ => none
  | n + 1, cs => do
    let (part, rest) ← readKeyPart? (skipSpace cs)
    match skipSpace rest with
    | '.' :: rest =>
      let (parts, rest) ← readKey? n rest
      return (part :: parts, rest)
    | rest => return ([part], rest)

/-! ## Numbers -/

/-- Digits that may have single underscores between them, without the underscores. -/
def digits? (isDigit : Char → Bool) : List Char → Option (List Char)
  | [] => none
  | [c] => if isDigit c then some [c] else none
  | c :: '_' :: rest => if isDigit c then (digits? isDigit rest).map (c :: ·) else none
  | c :: rest => if isDigit c then (digits? isDigit rest).map (c :: ·) else none

/-- A whole number that 64 bits with sign hold. -/
def inRange? (n : Int) : Option Int :=
  if -(Decimal.signBit : Int) ≤ n ∧ n < Decimal.signBit then some n else none

/-- A number in a base that its second character names. -/
def based? (base : Nat) (cs : List Char) : Option Int := do
  let fits (c : Char) : Bool := match Json.hexValue? c with | some d => d < base | none => false
  let ds ← digits? fits cs
  inRange? (ds.foldl (fun n c => base * n + ((Json.hexValue? c).getD 0 : Nat)) 0 : Nat)

/-- The digits of a whole part: no zero in front of other digits. -/
def wholeDigits? (cs : List Char) : Option (List Char) := do
  let ds ← digits? Char.isDigit cs
  if ds.head? = some '0' ∧ ds ≠ ['0'] then none else some ds

/-- A whole number. -/
def int? : List Char → Option Int
  | '0' :: 'x' :: rest => based? 16 rest
  | '0' :: 'o' :: rest => based? 8 rest
  | '0' :: 'b' :: rest => based? 2 rest
  | cs => do
    let (negative, body) := Decimal.takeSign cs
    let n := Decimal.ofDigits (← wholeDigits? body)
    inRange? (if negative then -(n : Int) else n)

/-- A number with a fraction, an exponent or both, or one of the words for infinity and for what is not a
number. A number too large for a double is none. -/
def float? (cs : List Char) : Option Float :=
  let (negative, body) := Decimal.takeSign cs
  if body = "inf".toList then some (Decimal.assemble negative Decimal.leadingBit 972)
  else if body = "nan".toList then some (0.0 / 0.0)
  else do
    let isMark (c : Char) : Bool := c = '.' || c = 'e' || c = 'E'
    let whole ← wholeDigits? (body.takeWhile fun c => !isMark c)
    let rest := body.dropWhile fun c => !isMark c
    let (fraction, rest) ← match rest with
      | '.' :: r => do
        let isE (c : Char) : Bool := c = 'e' || c = 'E'
        let ds ← digits? Char.isDigit (r.takeWhile fun c => !isE c)
        some (ds, r.dropWhile fun c => !isE c)
      | [] => none
      | r => some ([], r)
    let exponent : Int ← match rest with
      | [] => some (0 : Int)
      | _ :: r =>
        let (down, r) := Decimal.takeSign r
        (digits? Char.isDigit r).map fun ds =>
          if down then -(Decimal.ofDigits ds : Int) else (Decimal.ofDigits ds : Int)
    let x := Decimal.Numeral.value ⟨negative, whole, fraction, exponent⟩
    if Decimal.isFinite x || negative then some x else none

/-! ## Times -/

/-- The number of two digits. -/
def two? (a b : Char) : Option Nat := do return 10 * (← Decimal.digit? a) + (← Decimal.digit? b)

/-- Whether the year has a 29th of February. -/
def isLeap (y : Nat) : Bool := (y % 4 = 0 && y % 100 ≠ 0) || y % 400 = 0

/-- How many days the month has. -/
def daysIn (y m : Nat) : Nat :=
  if m = 2 then (if isLeap y then 29 else 28) else if m = 4 ∨ m = 6 ∨ m = 9 ∨ m = 11 then 30 else 31

/-- The text after a date, if it begins with one. -/
def afterDate? : List Char → Option (List Char)
  | a :: b :: c :: d :: '-' :: e :: f :: '-' :: g :: h :: rest => do
    let y := 100 * (← two? a b) + (← two? c d)
    let m ← two? e f
    let day ← two? g h
    if 1 ≤ m ∧ m ≤ 12 ∧ 1 ≤ day ∧ day ≤ daysIn y m then some rest else none
  | _ => none

/-- The text after a fraction of a second, if there is one. -/
def afterFraction? : List Char → Option (List Char)
  | '.' :: rest => if (rest.takeWhile Char.isDigit).isEmpty then none else some (rest.dropWhile Char.isDigit)
  | rest => some rest

/-- The text after a time of day, if it begins with one. -/
def afterClock? : List Char → Option (List Char)
  | a :: b :: ':' :: c :: d :: ':' :: e :: f :: rest => do
    if (← two? a b) ≤ 23 ∧ (← two? c d) ≤ 59 ∧ (← two? e f) ≤ 60 then afterFraction? rest else none
  | _ => none

/-- Whether the characters are an offset from the time of the prime meridian, or nothing. -/
def isOffset : List Char → Bool
  | [] => true
  | ['Z'] => true
  | ['z'] => true
  | [s, a, b, ':', c, d] =>
    (s = '+' || s = '-') &&
      (match two? a b, two? c d with | some h, some m => h ≤ 23 && m ≤ 59 | _, _ => false)
  | _ => false

/-- Whether the characters are a date, a time of day, or both. -/
def isTime (cs : List Char) : Bool :=
  match afterDate? cs with
  | some [] => true
  | some (t :: rest) =>
    (t = 'T' || t = 't' || t = ' ') && (match afterClock? rest with | some r => isOffset r | none => false)
  | none => afterClock? cs = some []

/-! ## Values without parts -/

/-- A character of a number, a time or a word. -/
def isWordChar (c : Char) : Bool := c.isAlphanum || c = '+' || c = '-' || c = '_' || c = '.' || c = ':'

/-- The word in front, and what follows it. A date and a time of day with one blank between them are one
word. -/
def takeWord (cs : List Char) : List Char × List Char :=
  let word := cs.takeWhile isWordChar
  match cs.dropWhile isWordChar with
  | ' ' :: c :: rest =>
    if afterDate? word = some [] ∧ c.isDigit then
      let rest := c :: rest
      (word ++ ' ' :: rest.takeWhile isWordChar, rest.dropWhile isWordChar)
    else (word, ' ' :: c :: rest)
  | rest => (word, rest)

/-- The value of a word. -/
def ofWord? (word : List Char) : Option Toml :=
  if word = "true".toList then some (.bool true)
  else if word = "false".toList then some (.bool false)
  else if isTime word then some (.time (String.ofList word))
  else match int? word with
    | some n => some (.int n)
    | none => (float? word).map .float

end Workbench.Toml
