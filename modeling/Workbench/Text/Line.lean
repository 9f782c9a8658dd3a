/-
Lines of a text, and where a text is cut in two.

Three ways of counting lines meet in this library, and each has its own name
here: `lineCount` (the pieces between line feeds, none for an empty text),
`breaks` (the line feeds, which number the lines of a script) and `lines` (the
lines without their ends, a carriage return before a line feed being part of
the end).
-/

namespace Workbench.Text

/-- How many line feeds the characters hold. -/
def breaks (cs : List Char) : Nat := cs.count '\n'

theorem breaks_append (as bs : List Char) : breaks (as ++ bs) = breaks as + breaks bs :=
  List.count_append

/-- How many lines a fragment takes up; an empty fragment takes up none. -/
def lineCount (s : String) : Nat := if s.toList = [] then 0 else breaks s.toList + 1

/-- The pieces between the characters `c`; always at least one. -/
def splitAll (c : Char) : List Char → List (List Char)
  | [] => [[]]
  | d :: rest =>
    if d = c then [] :: splitAll c rest
    else match splitAll c rest with
      | [] => [[d]]
      | piece :: pieces => (d :: piece) :: pieces

/-- The text before and after the first `c`. -/
def splitFirst (c : Char) : List Char → Option (List Char × List Char)
  | [] => none
  | d :: rest => if d = c then some ([], rest) else (splitFirst c rest).map fun (a, b) => (d :: a, b)

/-- The text before and after the last `c`. -/
def splitLast (c : Char) (cs : List Char) : Option (List Char × List Char) :=
  (splitFirst c cs.reverse).map fun (a, b) => (b.reverse, a.reverse)

/-- One carriage return at the end is dropped. -/
def dropReturn (cs : List Char) : List Char :=
  match cs.reverse with
  | '\r' :: rest => rest.reverse
  | _ => cs

/-- The lines of a text without their ends; a text that ends in a line feed has no line after it. -/
def lines (s : String) : List String :=
  let pieces := splitAll '\n' s.toList
  let last := pieces.getLast?.getD []
  let ended := pieces.dropLast.map dropReturn
  (if last = [] then ended else ended ++ [last]).map String.ofList

/-- The texts one after another with a separator between them. -/
def joined (separator : String) : List String → String
  | [] => ""
  | s :: rest => rest.foldl (fun text t => text ++ separator ++ t) s

/-- A text and the line feed that ends it. -/
def line (s : String) : String := s ++ "\n"

/-- ASCII letters in lower case; all else as it is. -/
def lower (s : String) : String := String.ofList (s.toList.map Char.toLower)

/-- ASCII letters in upper case; all else as it is. -/
def upper (s : String) : String := String.ofList (s.toList.map Char.toUpper)

end Workbench.Text
