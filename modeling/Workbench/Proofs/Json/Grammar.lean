/-
The texts that are read as a value.

`Json.Spelled` relates a value to its texts: numbers, words, texts in quotes as they are
printed, and arrays and objects with blanks between their tokens. The reader reads each
of these texts, with blanks around it, as the value (`Json.read?_spelled`); it is given
calls enough, as each call but every second one takes a character (`Spelled.reads`).
-/
import Workbench.Proofs.Json.Number

namespace Workbench.Json

/-! ## Texts in quotes -/

theorem hexValue?_hexDigit {n : Nat} (digit : n < 16) : hexValue? (hexDigit n) = some n := by
  have all : ∀ n : Fin 16, hexValue? (hexDigit n) = some n.val := by decide
  exact all ⟨n, digit⟩

theorem readQuoted?_plain {c : Char} (unquoted : c ≠ '"') (unescaped : c ≠ '\\') (printable : ¬ c.toNat < 32)
    (rest : List Char) : readQuoted? (c :: rest) = (readQuoted? rest).map fun (cs, r) => (c :: cs, r) := by
  rw [readQuoted?.eq_def]
  split
  · next same => cases same
  · next same => exact absurd (List.cons.inj same).1 unquoted
  · next same => exact absurd (List.cons.inj same).1 unescaped
  · next same => exact absurd (List.cons.inj same).1 unescaped
  · next same =>
    cases same
    exact if_neg (not_or.2 ⟨unescaped, printable⟩)

theorem readQuoted?_control {c : Char} (control : c.toNat < 32) (rest : List Char) :
    readQuoted? ('\\' :: 'u' :: '0' :: '0' :: hexDigit (c.toNat / 16) :: hexDigit (c.toNat % 16) :: rest) =
      (readQuoted? rest).map fun (cs, r) => (c :: cs, r) := by
  have unit : unit? '0' '0' (hexDigit (c.toNat / 16)) (hexDigit (c.toNat % 16)) = some c.toNat := by
    have zero : hexValue? '0' = some 0 := rfl
    unfold unit?
    rw [hexValue?_hexDigit (show c.toNat / 16 < 16 by omega), hexValue?_hexDigit (show c.toNat % 16 < 16 by omega),
      zero]
    exact congrArg some (by omega)
  rw [readQuoted?, unit]
  dsimp only
  rw [if_neg (by omega), if_neg (by omega), Char.ofNat_toNat]

/-- A character that is printed is read back. -/
theorem readQuoted?_escape (c : Char) (rest : List Char) :
    readQuoted? (escape c ++ rest) = (readQuoted? rest).map fun (cs, r) => (c :: cs, r) := by
  have of_toNat {d : Char} (same : c.toNat = d.toNat) : c = d := Char.toNat_inj.1 same
  unfold escape
  split
  · next same => subst same; rfl
  · next unquoted =>
    split
    · next same => subst same; rfl
    · next unescaped =>
      split
      · next same => subst same; rfl
      · split
        · next same => subst same; rfl
        · split
          · next same => subst same; rfl
          · split
            · next same => obtain rfl := of_toNat (d := '\x08') same; rfl
            · split
              · next same => obtain rfl := of_toNat (d := '\x0c') same; rfl
              · split
                · next control => exact readQuoted?_control control rest
                · next printable => exact readQuoted?_plain unquoted unescaped printable rest

theorem readQuoted?_escaped (cs rest : List Char) :
    readQuoted? (cs.flatMap escape ++ '"' :: rest) = some (cs, rest) := by
  induction cs with
  | nil => rfl
  | cons c cs ih => rw [List.flatMap_cons, List.append_assoc, readQuoted?_escape, ih]; rfl

/-! ## The grammar -/

/-- Blanks only. -/
def AreBlanks (b : List Char) : Prop := ∀ c ∈ b, isSpace c = true

theorem areBlanks_nil : AreBlanks [] := List.forall_mem_nil _

/-- A text in quotes, as it is printed. -/
def quoted (s : String) : List Char := '"' :: (s.toList.flatMap escape ++ ['"'])

mutual
/-- The texts that are read as a value. -/
inductive Spelled : Json → List Char → Prop
  | null : Spelled .null "null".toList
  | yes : Spelled (.bool true) "true".toList
  | no : Spelled (.bool false) "false".toList
  | number {j : Json} {cs : List Char} (denotes : readNumber? cs = some (j, [])) : Spelled j cs
  | str (s : String) : Spelled (.str s) (quoted s)
  | noItems {b : List Char} (blanks : AreBlanks b) : Spelled (.arr []) ('[' :: (b ++ [']']))
  | items {js : List Json} {b cs : List Char} (blanks : AreBlanks b) (inner : SpelledItems js cs) :
    Spelled (.arr js) ('[' :: (b ++ cs))
  | noMembers {b : List Char} (blanks : AreBlanks b) : Spelled (.obj []) ('\x7b' :: (b ++ ['\x7d']))
  | members {ms : List (String × Json)} {b cs : List Char} (blanks : AreBlanks b) (inner : SpelledMembers ms cs) :
    Spelled (object ms) ('\x7b' :: (b ++ cs))

/-- Items with commas between them, and the bracket behind them. -/
inductive SpelledItems : List Json → List Char → Prop
  | last {j : Json} {cs b : List Char} (item : Spelled j cs) (blanks : AreBlanks b) :
    SpelledItems [j] (cs ++ (b ++ [']']))
  | next {j : Json} {js : List Json} {cs b₁ b₂ more : List Char} (item : Spelled j cs) (before : AreBlanks b₁)
    (behind : AreBlanks b₂) (rest : SpelledItems js more) : SpelledItems (j :: js) (cs ++ (b₁ ++ ',' :: (b₂ ++ more)))

/-- Members with commas between them, and the brace behind them. -/
inductive SpelledMembers : List (String × Json) → List Char → Prop
  | last {k : String} {v : Json} {b₁ b₂ cs b₃ : List Char} (before : AreBlanks b₁) (behind : AreBlanks b₂)
    (value : Spelled v cs) (blanks : AreBlanks b₃) :
    SpelledMembers [(k, v)] (quoted k ++ (b₁ ++ ':' :: (b₂ ++ (cs ++ (b₃ ++ ['\x7d'])))))
  | next {k : String} {v : Json} {ms : List (String × Json)} {b₁ b₂ cs b₃ b₄ more : List Char} (before : AreBlanks b₁)
    (behind : AreBlanks b₂) (value : Spelled v cs) (blanks : AreBlanks b₃) (apart : AreBlanks b₄)
    (rest : SpelledMembers ms more) :
    SpelledMembers ((k, v) :: ms) (quoted k ++ (b₁ ++ ':' :: (b₂ ++ (cs ++ (b₃ ++ ',' :: (b₄ ++ more))))))
end

/-! ## Reading the grammar -/

/-- Blanks are skipped up to what is none. -/
theorem skipSpace_blanks {b : List Char} (blanks : AreBlanks b) {c : Char} (solid : isSpace c = false)
    (rest : List Char) : skipSpace (b ++ c :: rest) = c :: rest := by
  unfold skipSpace
  rw [List.dropWhile_append_of_pos blanks, List.dropWhile_cons_of_neg (by simp [solid])]

theorem endsNumber_space {c : Char} (space : isSpace c = true) (rest : List Char) : EndsNumber (c :: rest) := by
  rintro c more ⟨⟩
  simp only [isSpace, Bool.or_eq_true, decide_eq_true_eq] at space
  rcases space with ((rfl | rfl) | rfl) | rfl <;> decide

theorem isSpace_of_digit {c : Char} (digit : c.isDigit = true) : isSpace c = false := by
  rw [← Bool.not_eq_true]
  intro space
  simp only [isSpace, Bool.or_eq_true, decide_eq_true_eq] at space
  rcases space with ((rfl | rfl) | rfl) | rfl <;> cases digit

/-- Blanks and a token end a number. -/
theorem endsNumber_blanks {b : List Char} (blanks : AreBlanks b) {c : Char} (token : c = ',' ∨ c = ']' ∨ c = '\x7d')
    (rest : List Char) : EndsNumber (b ++ c :: rest) := by
  cases b with
  | nil =>
    rintro d more ⟨⟩
    rcases token with rfl | rfl | rfl <;> decide
  | cons d b => exact endsNumber_space (blanks d (.head _)) _

/-- A number begins with a digit or a minus sign. -/
theorem readNumber?_head {cs tail : List Char} {j : Json} (read : readNumber? cs = some (j, tail)) :
    ∃ c more, cs = c :: more ∧ (c = '-' ∨ c.isDigit = true) := by
  cases cs with
  | nil => cases read
  | cons c more =>
    refine ⟨c, more, rfl, Classical.or_iff_not_imp_left.2 fun plain => ?_⟩
    by_contra other
    have none : Decimal.takeDigits (c :: more) = ([], c :: more) := by simp [Decimal.takeDigits, other]
    simp [readNumber?, takeMinus, plain, none] at read

/-- Which characters a text can begin with. -/
theorem Spelled.head {j : Json} {cs : List Char} (spelled : Spelled j cs) :
    ∃ c more, cs = c :: more ∧ isSpace c = false ∧ c ≠ ']' := by
  cases spelled with
  | null | yes | no => exact ⟨_, _, rfl, rfl, by decide⟩
  | str | noItems | items | noMembers | members => exact ⟨_, _, rfl, rfl, by decide⟩
  | number denotes =>
    obtain ⟨c, more, rfl, rfl | digit⟩ := readNumber?_head denotes
    · exact ⟨_, _, rfl, rfl, by decide⟩
    · refine ⟨c, more, rfl, isSpace_of_digit digit, ?_⟩
      rintro rfl
      cases digit

/-- A number is read as a value. -/
theorem readValue?_number {cs rest : List Char} {j : Json} (denotes : readNumber? cs = some (j, []))
    (ends : EndsNumber rest) {b : List Char} (blanks : AreBlanks b) (calls : Nat) :
    readValue? (calls + 1) (b ++ (cs ++ rest)) = some (j, rest) := by
  have read := readNumber?_append ends denotes
  obtain ⟨c, more, rfl, first⟩ := readNumber?_head denotes
  have solid : isSpace c = false := by
    rcases first with rfl | digit
    · rfl
    · exact isSpace_of_digit digit
  have other : ∀ {d : Char}, d ≠ '-' → d.isDigit = false → c ≠ d := by
    rintro d plain undigit rfl
    rcases first with same | digit
    · exact plain same
    · cases undigit.symm.trans digit
  rw [readValue?, List.cons_append, skipSpace_blanks blanks solid]
  split
  case h_7 => exact read
  all_goals next same => exact absurd (List.cons.inj same).1 (other (by decide) (by decide))

/-- A text in quotes is read as a value. -/
theorem readValue?_quoted (s : String) (rest : List Char) {b : List Char} (blanks : AreBlanks b) (calls : Nat) :
    readValue? (calls + 1) (b ++ (quoted s ++ rest)) = some (.str s, rest) := by
  rw [readValue?, quoted, List.cons_append, skipSpace_blanks blanks rfl, List.append_assoc]
  show (readQuoted? (s.toList.flatMap escape ++ '"' :: rest)).map _ = _
  rw [readQuoted?_escaped]
  exact congrArg (fun t => some (Json.str t, rest)) String.ofList_toList

theorem readValue?_bracket {cs inner : List Char} (calls : Nat) (opened : skipSpace cs = '[' :: inner) :
    readValue? (calls + 1) cs =
      match skipSpace inner with
      | ']' :: rest => some (.arr [], rest)
      | rest => (readItems? calls rest).map fun (items, r) => (.arr items, r) := by
  rw [readValue?, opened]
  rfl

theorem readValue?_brace {cs inner : List Char} (calls : Nat) (opened : skipSpace cs = '\x7b' :: inner) :
    readValue? (calls + 1) cs =
      match skipSpace inner with
      | '\x7d' :: rest => some (.obj [], rest)
      | rest => (readMembers? calls rest).map fun (members, r) => (object members, r) := by
  rw [readValue?, opened]
  rfl

/-- Brackets with nothing but blanks between them. -/
theorem readValue?_noItems {b₁ b₂ : List Char} (blanks : AreBlanks b₁) (inner : AreBlanks b₂) (rest : List Char)
    (calls : Nat) : readValue? (calls + 1) (b₁ ++ ('[' :: (b₂ ++ [']']) ++ rest)) = some (.arr [], rest) := by
  rw [List.cons_append, readValue?_bracket calls (skipSpace_blanks blanks rfl _), List.append_assoc,
    List.singleton_append, skipSpace_blanks inner rfl]
  rfl

/-- Braces with nothing but blanks between them. -/
theorem readValue?_noMembers {b₁ b₂ : List Char} (blanks : AreBlanks b₁) (inner : AreBlanks b₂) (rest : List Char)
    (calls : Nat) : readValue? (calls + 1) (b₁ ++ ('\x7b' :: (b₂ ++ ['\x7d']) ++ rest)) = some (.obj [], rest) := by
  rw [List.cons_append, readValue?_brace calls (skipSpace_blanks blanks rfl _), List.append_assoc,
    List.singleton_append, skipSpace_blanks inner rfl]
  rfl

theorem SpelledItems.head {js : List Json} {cs : List Char} (items : SpelledItems js cs) :
    ∃ c more, cs = c :: more ∧ isSpace c = false ∧ c ≠ ']' := by
  cases items with
  | last item | next item =>
    obtain ⟨c, more, rfl, solid, open_⟩ := item.head
    exact ⟨c, _, rfl, solid, open_⟩

/-- An array is read if its items are. -/
theorem readValue?_items {js : List Json} {b₁ b₂ cs rest : List Char} {calls : Nat} (blanks : AreBlanks b₁)
    (inner : AreBlanks b₂) (items : SpelledItems js cs) (read : readItems? calls (cs ++ rest) = some (js, rest)) :
    readValue? (calls + 1) (b₁ ++ ('[' :: (b₂ ++ cs) ++ rest)) = some (.arr js, rest) := by
  obtain ⟨c, more, rfl, solid, open_⟩ := items.head
  rw [List.cons_append] at read
  rw [List.cons_append, readValue?_bracket calls (skipSpace_blanks blanks rfl _), List.append_assoc, List.cons_append,
    skipSpace_blanks inner solid]
  split
  · next same => exact absurd (List.cons.inj same).1 open_
  · rw [read]
    rfl

/-- An object is read if its members are. -/
theorem readValue?_members {ms : List (String × Json)} {b₁ b₂ cs rest : List Char} {calls : Nat}
    (blanks : AreBlanks b₁) (inner : AreBlanks b₂) (members : SpelledMembers ms cs)
    (read : readMembers? calls (cs ++ rest) = some (ms, rest)) :
    readValue? (calls + 1) (b₁ ++ ('\x7b' :: (b₂ ++ cs) ++ rest)) = some (object ms, rest) := by
  obtain ⟨more, rfl⟩ : ∃ more, cs = '"' :: more := by cases members <;> exact ⟨_, rfl⟩
  rw [List.cons_append] at read
  rw [List.cons_append, readValue?_brace calls (skipSpace_blanks blanks rfl _), List.append_assoc, List.cons_append,
    skipSpace_blanks inner rfl]
  split
  · next same => exact absurd (List.cons.inj same).1 (by decide)
  · rw [read]
    rfl

/-- A word is read as what it stands for. -/
theorem after?_append (word rest : List Char) : after? word (word ++ rest) = some rest := by
  rw [after?, if_pos (List.isPrefixOf_iff_prefix.2 (List.prefix_append ..)), List.drop_left]

mutual
/-- Every text of the grammar is read, if there are calls enough. -/
theorem Spelled.reads {j : Json} {cs : List Char} (spelled : Spelled j cs) {rest : List Char} (ends : EndsNumber rest)
    {b : List Char} (blanks : AreBlanks b) {calls : Nat} (enough : 2 * cs.length ≤ calls) :
    readValue? calls (b ++ (cs ++ rest)) = some (j, rest) := by
  obtain ⟨c, more, same, -⟩ := spelled.head
  cases calls with
  | zero =>
    rw [same, List.length_cons] at enough
    omega
  | succ calls =>
    cases spelled with
    | null =>
      have skipped : skipSpace (b ++ ("null".toList ++ rest)) = 'n' :: ("ull".toList ++ rest) :=
        skipSpace_blanks blanks rfl _
      rw [readValue?, skipped]
      show (after? _ _).map _ = _
      rw [after?_append]
      rfl
    | yes =>
      have skipped : skipSpace (b ++ ("true".toList ++ rest)) = 't' :: ("rue".toList ++ rest) :=
        skipSpace_blanks blanks rfl _
      rw [readValue?, skipped]
      show (after? _ _).map _ = _
      rw [after?_append]
      rfl
    | no =>
      have skipped : skipSpace (b ++ ("false".toList ++ rest)) = 'f' :: ("alse".toList ++ rest) :=
        skipSpace_blanks blanks rfl _
      rw [readValue?, skipped]
      show (after? _ _).map _ = _
      rw [after?_append]
      rfl
    | number denotes => exact readValue?_number denotes ends blanks calls
    | str s => exact readValue?_quoted s rest blanks calls
    | noItems inner => exact readValue?_noItems blanks inner rest calls
    | noMembers inner => exact readValue?_noMembers blanks inner rest calls
    | items inner items =>
      simp only [List.length_cons, List.length_append] at enough
      exact readValue?_items blanks inner items (items.reads areBlanks_nil (by omega))
    | members inner members =>
      simp only [List.length_cons, List.length_append] at enough
      exact readValue?_members blanks inner members (members.reads areBlanks_nil (by omega))

theorem SpelledItems.reads {js : List Json} {cs : List Char} (items : SpelledItems js cs) {rest : List Char}
    {b : List Char} (blanks : AreBlanks b) {calls : Nat} (enough : 2 * cs.length ≤ calls) :
    readItems? calls (b ++ (cs ++ rest)) = some (js, rest) := by
  obtain ⟨c, more, same, -⟩ := items.head
  cases calls with
  | zero =>
    rw [same, List.length_cons] at enough
    omega
  | succ calls =>
    cases items with
    | last item behind =>
      simp only [List.length_append, List.length_singleton] at enough
      rw [readItems?, List.append_assoc, List.append_assoc, List.singleton_append,
        item.reads (endsNumber_blanks behind (.inr (.inl rfl)) rest) blanks (by omega)]
      show (match skipSpace _ with | ',' :: _ => _ | ']' :: rest => _ | _ => _) = _
      rw [skipSpace_blanks behind rfl]
      rfl
    | next item before behind others =>
      simp only [List.length_append, List.length_cons] at enough
      rw [readItems?, List.append_assoc, List.append_assoc, List.cons_append, List.append_assoc,
        item.reads (endsNumber_blanks before (.inl rfl) _) blanks (by omega)]
      show (match skipSpace _ with | ',' :: rest => (readItems? calls rest).map _ | ']' :: rest => _ | _ => _) = _
      rw [skipSpace_blanks before rfl]
      show (readItems? calls _).map _ = _
      rw [others.reads behind (by omega)]
      rfl

theorem SpelledMembers.reads {ms : List (String × Json)} {cs : List Char} (members : SpelledMembers ms cs)
    {rest : List Char} {b : List Char} (blanks : AreBlanks b) {calls : Nat} (enough : 2 * cs.length ≤ calls) :
    readMembers? calls (b ++ (cs ++ rest)) = some (ms, rest) := by
  have key (k : String) (more : List Char) : skipSpace (b ++ (quoted k ++ more)) =
      '"' :: (k.toList.flatMap escape ++ '"' :: more) := by
    rw [quoted, List.cons_append, skipSpace_blanks blanks rfl, List.append_assoc, List.singleton_append]
  cases calls with
  | zero =>
    obtain ⟨more, rfl⟩ : ∃ more, cs = '"' :: more := by cases members <;> exact ⟨_, rfl⟩
    simp at enough
  | succ calls =>
    cases members with
    | @last k v _ _ _ _ before behind value apart =>
      simp only [List.length_append, List.length_cons] at enough
      simp only [List.append_assoc, List.cons_append]
      rw [readMembers?, key]
      show (match readQuoted? _ with | none => _ | some (_, _) => _) = _
      rw [readQuoted?_escaped]
      show (match skipSpace _ with | ':' :: _ => _ | _ => _) = _
      rw [skipSpace_blanks before rfl]
      show (match readValue? calls _ with | none => _ | some (_, _) => _) = _
      rw [value.reads (endsNumber_blanks apart (.inr (.inr rfl)) _) behind (by omega)]
      show (match skipSpace _ with | ',' :: _ => _ | '\x7d' :: rest => _ | _ => _) = _
      rw [skipSpace_blanks apart rfl]
      exact congrArg (fun k => some ([(k, v)], rest)) String.ofList_toList
    | @next k v ms _ _ _ _ _ _ before behind value apart next others =>
      simp only [List.length_append, List.length_cons] at enough
      simp only [List.append_assoc, List.cons_append]
      rw [readMembers?, key]
      show (match readQuoted? _ with | none => _ | some (_, _) => _) = _
      rw [readQuoted?_escaped]
      show (match skipSpace _ with | ':' :: _ => _ | _ => _) = _
      rw [skipSpace_blanks before rfl]
      show (match readValue? calls _ with | none => _ | some (_, _) => _) = _
      rw [value.reads (endsNumber_blanks apart (.inl rfl) _) behind (by omega)]
      show (match skipSpace _ with | ',' :: rest => (readMembers? calls rest).map _ | '\x7d' :: _ => _ | _ => _) = _
      rw [skipSpace_blanks apart rfl]
      show (readMembers? calls _).map _ = _
      rw [others.reads next (by omega)]
      exact congrArg (fun k => some ((k, v) :: ms, rest)) String.ofList_toList
end

/-- The reader reads every text of the grammar, with blanks around it. -/
theorem read?_spelled {j : Json} {cs b₁ b₂ : List Char} (spelled : Spelled j cs) (before : AreBlanks b₁)
    (behind : AreBlanks b₂) : read? (String.ofList (b₁ ++ (cs ++ b₂))) = some j := by
  have ends : EndsNumber b₂ := by
    cases b₂ with
    | nil => nofun
    | cons c b => exact endsNumber_space (behind c (.head _)) _
  unfold read?
  rw [String.toList_ofList]
  dsimp only
  rw [spelled.reads ends before (by simp only [List.length_append]; omega)]
  exact if_pos (List.dropWhile_eq_nil_iff.2 behind)

end Workbench.Json
