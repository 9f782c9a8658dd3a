/-
Reading TOML texts: `read?` takes a whole text to its table, or to nothing when
the text is not TOML.

The functions for values and items call each other on what is left of the text,
so they are given a bound on their calls, which `read?` computes from the length
of the text.
-/
import Workbench.Toml.Lexeme
import Workbench.Toml.Table

namespace Workbench.Toml

mutual
/-- A value and what follows it. -/
def readValue? : Nat → List Char → Option (Toml × List Char)
  | 0, _ => none
  | calls + 1, cs =>
    match cs with
    | '"' :: _ => (readText? cs).map fun (s, r) => (.text s, r)
    | '\'' :: _ => (readText? cs).map fun (s, r) => (.text s, r)
    | '[' :: rest => (readItems? calls rest).map fun (items, r) => (.array items, r)
    | '\x7b' :: rest =>
      match skipSpace rest with
      | '\x7d' :: rest => some (.table [], rest)
      | rest => (readInline? calls [] rest).map fun (es, r) => (.table (entriesToToml es), r)
    | cs =>
      let (word, rest) := takeWord cs
      (ofWord? word).map fun v => (v, rest)

/-- Items up to the closing bracket; a comma may follow the last one. -/
def readItems? : Nat → List Char → Option (List Toml × List Char)
  | 0, _ => none
  | calls + 1, cs =>
    match skipFiller (cs.length + 1) cs with
    | ']' :: rest => some ([], rest)
    | cs =>
      match readValue? calls cs with
      | none => none
      | some (item, rest) =>
        match skipFiller (rest.length + 1) rest with
        | ',' :: rest => (readItems? calls rest).map fun (items, r) => (item :: items, r)
        | ']' :: rest => some ([item], rest)
        | _ => none

/-- Entries up to the closing brace, at least one, in a table that holds some already. -/
def readInline? : Nat → Entries → List Char → Option (Entries × List Char)
  | 0, _, _ => none
  | calls + 1, es, cs =>
    match readKey? (cs.length + 1) cs with
    | some (key, '=' :: rest) =>
      match readValue? calls (skipSpace rest) with
      | none => none
      | some (v, rest) =>
        match es.enter v key with
        | none => none
        | some es =>
          match skipSpace rest with
          | ',' :: rest => readInline? calls es rest
          | '\x7d' :: rest => some (es, rest)
          | _ => none
    | _ => none
end

/-- A text while it is read: the entries so far, and the table that entries go into. -/
structure Draft where
  entries : Entries := []
  current : List String := []

/-- One line of a text: a header, an entry, or nothing. -/
def readLine? (d : Draft) (cs : List Char) : Option (Draft × List Char) :=
  match skipSpace cs with
  | '[' :: '[' :: rest =>
    match readKey? (rest.length + 1) rest with
    | some (key, ']' :: ']' :: rest) => do
      return ({ entries := ← d.entries.openElement key, current := key }, ← afterLine? rest)
    | _ => none
  | '[' :: rest =>
    match readKey? (rest.length + 1) rest with
    | some (key, ']' :: rest) => do
      return ({ entries := ← d.entries.openTable key, current := key }, ← afterLine? rest)
    | _ => none
  | '#' :: rest => (afterLine? ('#' :: rest)).map (d, ·)
  | '\n' :: rest => some (d, rest)
  | '\r' :: rest => (afterBreak? ('\r' :: rest)).map (d, ·)
  | [] => some (d, [])
  | rest =>
    match readKey? (rest.length + 1) rest with
    | some (key, '=' :: rest) => do
      let (v, rest) ← readValue? (rest.length + 2) (skipSpace rest)
      return ({ d with entries := ← d.entries.within (·.enter v key) d.current }, ← afterLine? rest)
    | _ => none

/-- At most so many lines of a text. -/
def readLines : Nat → Draft → List Char → Option Draft
  | 0, _, _ => none
  | _, d, [] => some d
  | n + 1, d, cs => do
    let (d, rest) ← readLine? d cs
    readLines n d rest

/-- A byte order mark in front of a text does not count. -/
def skipMark : List Char → List Char
  | '\uFEFF' :: rest => rest
  | cs => cs

/-- The entries of a TOML text. -/
def read? (s : String) : Option (List (String × Toml)) :=
  let cs := skipMark s.toList
  (readLines (cs.length + 1) {} cs).map fun d => entriesToToml d.entries

end Workbench.Toml
