/-
Values that are printed and read back.

Both printers write texts of the grammar `Json.Spelled`, all of which the reader reads.
So what is printed is read back (`Json.read?_compact`, `Json.read?_pretty`), with the
members of objects in the order of their keys and `null` in place of a double that is
not finite (`Json.reread`). It is the value that was printed just when it has these two
traits already (`Json.reread_eq_iff`). Whatever the reader makes has them, so a value
that was read once stays what it is (`Json.read?_again`).

Whole numbers are those of 64 bits (`Json.AreWords`).
-/
import Mathlib.Data.List.Forall2
import Workbench.Proofs.Json.Grammar

namespace Workbench.Json

/-! ## What is printed -/

mutual
/-- The value that the reader makes of the text of a value. -/
def reread : Json → Json
  | .float x => if Decimal.isFinite x then .float x else .null
  | .arr items => .arr (rereadItems items)
  | .obj members => object (rereadMembers members)
  | j => j

/-- The items, each as it is read. -/
def rereadItems : List Json → List Json
  | [] => []
  | item :: rest => reread item :: rereadItems rest

/-- The members, each as it is read. -/
def rereadMembers : List (String × Json) → List (String × Json)
  | [] => []
  | (k, v) :: rest => (k, reread v) :: rereadMembers rest
end

mutual
/-- Each whole number of the value is one of 64 bits. -/
def AreWords : Json → Prop
  | .int n => IsWord n
  | .arr items => AreWordsItems items
  | .obj members => AreWordsMembers members
  | _ => True

/-- So it is in each item. -/
def AreWordsItems : List Json → Prop
  | [] => True
  | item :: rest => AreWords item ∧ AreWordsItems rest

/-- So it is in each member. -/
def AreWordsMembers : List (String × Json) → Prop
  | [] => True
  | (_, v) :: rest => AreWords v ∧ AreWordsMembers rest
end

theorem toList_quote (s : String) : (quote s).toList = quoted s := by
  rw [quote, String.toList_ofList]
  rfl

theorem toList_joined (separator s t : String) (rest : List String) :
    (Text.joined separator (s :: t :: rest)).toList =
      s.toList ++ (separator.toList ++ (Text.joined separator (t :: rest)).toList) := by
  have apart (text : String) : rest.foldl (fun text t => text ++ separator ++ t) (s ++ separator ++ text) =
      s ++ separator ++ rest.foldl (fun text t => text ++ separator ++ t) text := by
    induction rest generalizing text with
    | nil => rfl
    | cons u rest ih => simpa only [List.foldl_cons, String.append_assoc] using ih (text ++ separator ++ u)
  show (rest.foldl (fun text t => text ++ separator ++ t) (s ++ separator ++ t)).toList = _
  rw [apart, String.toList_append, String.toList_append, List.append_assoc]
  rfl

/-- A floating-point number is spelled as what it is read as. -/
theorem Spelled.float (x : Float) : Spelled (reread (.float x)) (floatText x).toList := by
  rw [reread]
  split
  · next finite => exact .number (readNumber?_float finite)
  · next broken =>
    have none : Decimal.text? x = none := by
      rw [Decimal.text?, Option.map_eq_none_iff]
      exact Option.not_isSome_iff_eq_none.1 broken
    rw [floatText, none]
    exact .null

/-- A text that spells a member. -/
def SpelledMember (m : String × Json) (t : String) : Prop :=
  ∃ b cs, AreBlanks b ∧ Spelled m.2 cs ∧ t.toList = quoted m.1 ++ ':' :: (b ++ cs)

section

variable {separator front : String} {gap b : List Char} (separates : separator.toList = ',' :: gap)
  (apart : AreBlanks gap) (before : AreBlanks front.toList) (behind : AreBlanks b)

include separates apart before behind

/-- Texts of items, with commas and blanks between them, spell the items. -/
theorem spelledItems_joined {js : List Json} {ts : List String} (some_ : js ≠ [])
    (spelled : List.Forall₂ (fun j t => Spelled j t.toList) js ts) :
    ∃ cs, (Text.joined separator (ts.map (front ++ ·))).toList = front.toList ++ cs ∧
      SpelledItems js (cs ++ (b ++ [']'])) := by
  induction spelled with
  | nil => exact absurd rfl some_
  | @cons j t js ts item others ih =>
    cases others with
    | nil => exact ⟨t.toList, String.toList_append, .last item behind⟩
    | cons =>
      obtain ⟨cs, text, rest⟩ := ih (List.cons_ne_nil _ _)
      refine ⟨t.toList ++ (',' :: (gap ++ front.toList ++ cs)), ?_, ?_⟩
      · rw [List.map_cons, List.map_cons, toList_joined, separates, ← List.map_cons, text]
        simp
      · have next := SpelledItems.next item areBlanks_nil (List.forall_mem_append.2 ⟨apart, before⟩) rest
        simpa using next

/-- Texts of members, with commas and blanks between them, spell the members. -/
theorem spelledMembers_joined {ms : List (String × Json)} {ts : List String} (some_ : ms ≠ [])
    (spelled : List.Forall₂ SpelledMember ms ts) :
    ∃ cs, (Text.joined separator (ts.map (front ++ ·))).toList = front.toList ++ cs ∧
      SpelledMembers ms (cs ++ (b ++ ['\x7d'])) := by
  induction spelled with
  | nil => exact absurd rfl some_
  | @cons m t ms ts member others ih =>
    obtain ⟨b₂, value, blanks, spelled, text⟩ := member
    cases others with
    | nil =>
      have last := SpelledMembers.last (k := m.1) areBlanks_nil blanks spelled behind
      exact ⟨t.toList, String.toList_append, by simpa [text] using last⟩
    | cons =>
      obtain ⟨cs, joined, rest⟩ := ih (List.cons_ne_nil _ _)
      refine ⟨t.toList ++ (',' :: (gap ++ front.toList ++ cs)), ?_, ?_⟩
      · rw [List.map_cons, List.map_cons, toList_joined, separates, ← List.map_cons, joined]
        simp
      · have next := SpelledMembers.next (k := m.1) areBlanks_nil blanks spelled areBlanks_nil
          (List.forall_mem_append.2 ⟨apart, before⟩) rest
        simpa [text] using next

end

section

variable {gap front lead back : String} (apart : AreBlanks gap.toList) (before : AreBlanks front.toList)
  (first : AreBlanks lead.toList) (behind : AreBlanks back.toList)

include apart before first behind

/-- Texts of items between brackets spell the array. -/
theorem Spelled.arr {js : List Json} {ts : List String} (spelled : List.Forall₂ (fun j t => Spelled j t.toList) js ts) :
    Spelled (.arr js) ("[" ++ (lead ++ (Text.joined ("," ++ gap) (ts.map (front ++ ·)) ++ (back ++ "]")))).toList := by
  cases js with
  | nil =>
    cases spelled
    simpa [Text.joined] using Spelled.noItems (List.forall_mem_append.2 ⟨first, behind⟩)
  | cons j js =>
    have comma : ("," ++ gap).toList = ',' :: gap.toList := String.toList_append
    obtain ⟨cs, text, inner⟩ := spelledItems_joined comma apart before behind (List.cons_ne_nil _ _) spelled
    simpa [text] using Spelled.items (List.forall_mem_append.2 ⟨first, before⟩) inner

/-- Texts of members between braces spell the object. -/
theorem Spelled.obj {ms : List (String × Json)} {ts : List String} (spelled : List.Forall₂ SpelledMember ms ts) :
    Spelled (object ms)
      ("\x7b" ++ (lead ++ (Text.joined ("," ++ gap) (ts.map (front ++ ·)) ++ (back ++ "\x7d")))).toList := by
  cases ms with
  | nil =>
    cases spelled
    have none := Spelled.noMembers (List.forall_mem_append.2 ⟨first, behind⟩)
    show Spelled (.obj []) _
    simpa [Text.joined] using none
  | cons m ms =>
    have comma : ("," ++ gap).toList = ',' :: gap.toList := String.toList_append
    obtain ⟨cs, text, inner⟩ := spelledMembers_joined comma apart before behind (List.cons_ne_nil _ _) spelled
    simpa [text] using Spelled.members (List.forall_mem_append.2 ⟨first, before⟩) inner

end

theorem areBlanks_empty : AreBlanks "".toList := List.forall_mem_nil _

mutual
/-- The text without blanks spells the value that the reader makes of it. -/
theorem spelled_compact (j : Json) (words : j.AreWords) : Spelled j.reread j.compact.toList := by
  match j with
  | .null => exact .null
  | .bool true => exact .yes
  | .bool false => exact .no
  | .int n => exact .number (readNumber?_int words)
  | .float x => exact .float x
  | .str s => exact toList_quote s ▸ .str s
  | .arr items =>
    have spelled := Spelled.arr areBlanks_empty areBlanks_empty areBlanks_empty areBlanks_empty
      (spelled_compactItems items words)
    simpa [compact, reread] using spelled
  | .obj members =>
    have spelled := Spelled.obj areBlanks_empty areBlanks_empty areBlanks_empty areBlanks_empty
      (spelled_compactMembers members words)
    simpa [compact, reread] using spelled

theorem spelled_compactItems (items : List Json) (words : AreWordsItems items) :
    List.Forall₂ (fun j t => Spelled j t.toList) (rereadItems items) (compactItems items) := by
  match items with
  | [] => exact .nil
  | item :: rest => exact .cons (spelled_compact item words.1) (spelled_compactItems rest words.2)

theorem spelled_compactMembers (members : List (String × Json)) (words : AreWordsMembers members) :
    List.Forall₂ SpelledMember (rereadMembers members) (compactMembers members) := by
  match members with
  | [] => exact .nil
  | (k, v) :: rest =>
    refine .cons ⟨[], _, areBlanks_nil, spelled_compact v words.1, ?_⟩ (spelled_compactMembers rest words.2)
    simp [toList_quote]
end

theorem areBlanks_indent (depth : Nat) : AreBlanks (indent depth).toList := by
  intro c there
  rw [indent, String.toList_ofList] at there
  rw [List.eq_of_mem_replicate there]
  rfl

theorem areBlanks_line : AreBlanks "\n".toList := by
  intro c there
  rw [List.mem_singleton.1 there]
  rfl

theorem areBlanks_end (depth : Nat) : AreBlanks ("\n" ++ indent depth).toList := by
  rw [String.toList_append]
  exact List.forall_mem_append.2 ⟨areBlanks_line, areBlanks_indent depth⟩

mutual
/-- The text on lines spells it as well. -/
theorem spelled_prettyAt (depth : Nat) (j : Json) (words : j.AreWords) :
    Spelled j.reread (j.prettyAt depth).toList := by
  match j with
  | .null => exact .null
  | .bool true => exact .yes
  | .bool false => exact .no
  | .int n => exact .number (readNumber?_int words)
  | .float x => exact .float x
  | .str s => exact toList_quote s ▸ .str s
  | .arr [] => simpa [prettyAt, prettyItems, block, reread, rereadItems] using Spelled.noItems areBlanks_empty
  | .arr (item :: rest) =>
    have spelled := Spelled.arr areBlanks_line (areBlanks_indent (depth + 1)) areBlanks_line (areBlanks_end depth)
      (spelled_prettyItems (depth + 1) (item :: rest) words)
    simpa [prettyAt, prettyItems, block, reread, String.append_assoc] using spelled
  | .obj [] =>
    show Spelled (.obj []) _
    simpa [prettyAt, prettyMembers, block] using Spelled.noMembers areBlanks_empty
  | .obj (member :: rest) =>
    have spelled := Spelled.obj areBlanks_line (areBlanks_indent (depth + 1)) areBlanks_line (areBlanks_end depth)
      (spelled_prettyMembers (depth + 1) (member :: rest) words)
    simpa [prettyAt, prettyMembers, block, reread, String.append_assoc] using spelled

theorem spelled_prettyItems (depth : Nat) (items : List Json) (words : AreWordsItems items) :
    List.Forall₂ (fun j t => Spelled j t.toList) (rereadItems items) (prettyItems depth items) := by
  match items with
  | [] => exact .nil
  | item :: rest => exact .cons (spelled_prettyAt depth item words.1) (spelled_prettyItems depth rest words.2)

theorem spelled_prettyMembers (depth : Nat) (members : List (String × Json)) (words : AreWordsMembers members) :
    List.Forall₂ SpelledMember (rereadMembers members) (prettyMembers depth members) := by
  match members with
  | [] => exact .nil
  | (k, v) :: rest =>
    refine .cons ⟨[' '], _, List.forall_mem_singleton.2 rfl, spelled_prettyAt depth v words.1, ?_⟩
      (spelled_prettyMembers depth rest words.2)
    simp [toList_quote]
end

/-- What is printed without blanks is read back. -/
theorem read?_compact {j : Json} (words : j.AreWords) : read? j.compact = some j.reread := by
  have read := read?_spelled (spelled_compact j words) areBlanks_nil areBlanks_nil
  rwa [List.append_nil, List.nil_append, String.ofList_toList] at read

/-- What is printed on lines is read back. -/
theorem read?_pretty {j : Json} (words : j.AreWords) : read? j.pretty = some j.reread := by
  have read := read?_spelled (spelled_prettyAt 0 j words) areBlanks_nil areBlanks_nil
  rwa [List.append_nil, List.nil_append, String.ofList_toList] at read

/-! ## Values that come back -/

/-- Members in the order of their keys, all different. -/
def InOrder (ms : List (String × Json)) : Prop := (ms.map Prod.fst).Pairwise (· < ·)

mutual
/-- A value of the kind that the reader makes: whole numbers are words, doubles are finite, members in order. -/
def IsRead : Json → Prop
  | .int n => IsWord n
  | .float x => Decimal.isFinite x = true
  | .arr items => AreReadItems items
  | .obj members => InOrder members ∧ AreReadMembers members
  | _ => True

/-- So it is in each item. -/
def AreReadItems : List Json → Prop
  | [] => True
  | item :: rest => IsRead item ∧ AreReadItems rest

/-- So it is in each member. -/
def AreReadMembers : List (String × Json) → Prop
  | [] => True
  | (_, v) :: rest => IsRead v ∧ AreReadMembers rest
end

theorem mem_insertMember {k : String} {v : Json} {ms : List (String × Json)} {m : String × Json}
    (there : m ∈ insertMember k v ms) : m = (k, v) ∨ m ∈ ms := by
  induction ms with
  | nil => exact .inl (List.mem_singleton.1 there)
  | cons n ms ih =>
    obtain ⟨j, w⟩ := n
    rw [insertMember] at there
    split at there
    · exact List.mem_cons.1 there
    · split at there
      · exact (List.mem_cons.1 there).imp_right (.tail _)
      · rcases List.mem_cons.1 there with rfl | there
        · exact .inr (.head _)
        · exact (ih there).imp_right (.tail _)

/-- Members stay in order when one is put in its place. -/
theorem InOrder.insertMember {ms : List (String × Json)} (inOrder : InOrder ms) (k : String) (v : Json) :
    InOrder (insertMember k v ms) := by
  induction ms with
  | nil => exact List.pairwise_singleton ..
  | cons n ms ih =>
    obtain ⟨j, w⟩ := n
    obtain ⟨first, others⟩ := List.pairwise_cons.1 inOrder
    rw [Json.insertMember]
    split
    · next less =>
      refine List.pairwise_cons.2 ⟨fun l there => ?_, inOrder⟩
      rcases List.mem_cons.1 there with rfl | there
      · exact less
      · exact String.lt_trans less (first l there)
    · next notLess =>
      split
      · next same => exact List.pairwise_cons.2 ⟨fun l there => same ▸ first l there, others⟩
      · next other =>
        refine List.pairwise_cons.2 ⟨fun l there => ?_, ih others⟩
        obtain ⟨m, member, rfl⟩ := List.mem_map.1 there
        rcases mem_insertMember member with rfl | old
        · by_contra notMore
          exact other (String.le_antisymm (String.not_lt.1 notMore) (String.not_lt.1 notLess))
        · exact first _ (List.mem_map_of_mem old)

/-- A member whose key is the greatest goes to the end. -/
theorem insertMember_last {k : String} {v : Json} {ms : List (String × Json)} (greatest : ∀ m ∈ ms, m.1 < k) :
    insertMember k v ms = ms ++ [(k, v)] := by
  induction ms with
  | nil => rfl
  | cons n ms ih =>
    obtain ⟨less, others⟩ := List.forall_mem_cons.1 greatest
    rw [insertMember, if_neg (String.lt_asymm less), if_neg, ih others, List.cons_append]
    rintro rfl
    exact String.lt_irrefl _ less

theorem foldl_insertMember {front ms : List (String × Json)} (inOrder : InOrder (front ++ ms)) :
    ms.foldl (fun acc m => insertMember m.1 m.2 acc) front = front ++ ms := by
  induction ms generalizing front with
  | nil => exact (List.append_nil front).symm
  | cons m ms ih =>
    have greatest : ∀ n ∈ front, n.1 < m.1 := by
      unfold InOrder at inOrder
      rw [List.map_append, List.pairwise_append] at inOrder
      exact fun n there => inOrder.2.2 _ (List.mem_map_of_mem there) _ (.head _)
    rw [List.append_cons] at inOrder ⊢
    rw [List.foldl_cons, insertMember_last greatest, ih inOrder]

/-- Members in order are an object's as they stand. -/
theorem object_of_inOrder {ms : List (String × Json)} (inOrder : InOrder ms) : object ms = .obj ms :=
  congrArg obj (foldl_insertMember inOrder)

theorem areReadMembers_iff {ms : List (String × Json)} : AreReadMembers ms ↔ ∀ m ∈ ms, m.2.IsRead := by
  induction ms with
  | nil => simp [AreReadMembers]
  | cons m ms ih => rw [AreReadMembers, ih, List.forall_mem_cons]

/-- An object of such values is such a value. -/
theorem isRead_object {ms : List (String × Json)} (read : AreReadMembers ms) : (object ms).IsRead := by
  rw [areReadMembers_iff] at read
  unfold object
  rw [IsRead, areReadMembers_iff]
  refine List.foldlRecOn ms _ (motive := fun acc => InOrder acc ∧ ∀ m ∈ acc, m.2.IsRead) ⟨.nil, List.forall_mem_nil _⟩
    fun acc holds m there => ⟨holds.1.insertMember .., fun n new => ?_⟩
  rcases mem_insertMember new with rfl | old
  · exact read m there
  · exact holds.2 n old

mutual
/-- What is printed is read back as a value of this kind. -/
theorem isRead_reread (j : Json) (words : j.AreWords) : j.reread.IsRead := by
  match j with
  | .null | .bool _ | .str _ => trivial
  | .int n => exact words
  | .float x =>
    rw [reread]
    split
    · next finite => exact finite
    · trivial
  | .arr items => exact areReadItems_reread items words
  | .obj members => exact isRead_object (areReadMembers_reread members words)

theorem areReadItems_reread (items : List Json) (words : AreWordsItems items) : AreReadItems (rereadItems items) := by
  match items with
  | [] => trivial
  | item :: rest => exact ⟨isRead_reread item words.1, areReadItems_reread rest words.2⟩

theorem areReadMembers_reread (members : List (String × Json)) (words : AreWordsMembers members) :
    AreReadMembers (rereadMembers members) := by
  match members with
  | [] => trivial
  | (_, v) :: rest => exact ⟨isRead_reread v words.1, areReadMembers_reread rest words.2⟩
end

mutual
/-- A value of this kind comes back as it was. -/
theorem IsRead.reread {j : Json} (read : j.IsRead) : j.reread = j := by
  match j with
  | .null | .bool _ | .int _ | .str _ => rfl
  | .float x => exact if_pos read
  | .arr items => exact congrArg arr (AreReadItems.reread read)
  | .obj members => exact (congrArg object (AreReadMembers.reread read.2)).trans (object_of_inOrder read.1)

theorem AreReadItems.reread {items : List Json} (read : AreReadItems items) : rereadItems items = items := by
  match items with
  | [] => rfl
  | item :: rest => exact congrArg₂ List.cons read.1.reread (AreReadItems.reread read.2)

theorem AreReadMembers.reread {members : List (String × Json)} (read : AreReadMembers members) :
    rereadMembers members = members := by
  match members with
  | [] => rfl
  | (k, v) :: rest =>
    exact congrArg₂ (fun v rest => (k, v) :: rest) read.1.reread (AreReadMembers.reread read.2)
end

mutual
/-- Its whole numbers are words. -/
theorem IsRead.areWords {j : Json} (read : j.IsRead) : j.AreWords := by
  match j with
  | .null | .bool _ | .float _ | .str _ => trivial
  | .int n => exact read
  | .arr items => exact AreReadItems.areWords read
  | .obj members => exact AreReadMembers.areWords read.2

theorem AreReadItems.areWords {items : List Json} (read : AreReadItems items) : AreWordsItems items := by
  match items with
  | [] => trivial
  | item :: rest => exact ⟨read.1.areWords, AreReadItems.areWords read.2⟩

theorem AreReadMembers.areWords {members : List (String × Json)} (read : AreReadMembers members) :
    AreWordsMembers members := by
  match members with
  | [] => trivial
  | (_, v) :: rest => exact ⟨read.1.areWords, AreReadMembers.areWords read.2⟩
end

/-- Which values come back as they were. -/
theorem reread_eq_iff {j : Json} (words : j.AreWords) : j.reread = j ↔ j.IsRead :=
  ⟨fun same => same ▸ isRead_reread j words, IsRead.reread⟩

/-! ## What the reader makes -/

theorem ofDouble?_isRead {x : Float} {j : Json} (made : ofDouble? x = some j) : j.IsRead := by
  unfold ofDouble? at made
  split at made
  · next finite =>
    cases made
    exact finite
  · cases made

theorem ofWhole?_isRead {negative : Bool} {n : Nat} {j : Json} (made : ofWhole? negative n = some j) : j.IsRead := by
  unfold ofWhole? at made
  split at made
  · split at made
    · exact ofDouble?_isRead made
    · cases made
      rw [IsRead, IsWord]
      omega
  · split at made
    · cases made
      rw [IsRead, IsWord]
      omega
    · exact ofDouble?_isRead made

theorem readNumber?_isRead {cs rest : List Char} {j : Json} (read : readNumber? cs = some (j, rest)) : j.IsRead := by
  unfold readNumber? at read
  dsimp only at read
  split at read
  · cases read
  · split at read
    · cases read
    · split at read
      · cases read
      · obtain ⟨j, made, same⟩ := Option.map_eq_some_iff.1 read
        cases same
        split at made
        · exact ofWhole?_isRead made
        · exact ofDouble?_isRead made

mutual
/-- The reader makes values of this kind only. -/
theorem readValue?_isRead {calls : Nat} {cs rest : List Char} {j : Json} (read : readValue? calls cs = some (j, rest)) :
    j.IsRead := by
  match calls with
  | 0 => cases read
  | calls + 1 =>
    rw [readValue?] at read
    split at read
    case h_2 =>
      split at read
      · cases read
        trivial
      · obtain ⟨_, items, same⟩ := Option.map_eq_some_iff.1 read
        cases same
        exact readItems?_areRead items
    case h_3 =>
      split at read
      · cases read
        exact ⟨.nil, trivial⟩
      · obtain ⟨_, members, same⟩ := Option.map_eq_some_iff.1 read
        cases same
        exact isRead_object (readMembers?_areRead members)
    case h_7 => exact readNumber?_isRead read
    -- words and texts
    all_goals
      obtain ⟨_, -, same⟩ := Option.map_eq_some_iff.1 read
      cases same
      trivial

theorem readItems?_areRead {calls : Nat} {cs rest : List Char} {items : List Json}
    (read : readItems? calls cs = some (items, rest)) : AreReadItems items := by
  match calls with
  | 0 => cases read
  | calls + 1 =>
    rw [readItems?] at read
    split at read
    · cases read
    · next value =>
      split at read
      · obtain ⟨_, others, same⟩ := Option.map_eq_some_iff.1 read
        cases same
        exact ⟨readValue?_isRead value, readItems?_areRead others⟩
      · cases read
        exact ⟨readValue?_isRead value, trivial⟩
      · cases read

theorem readMembers?_areRead {calls : Nat} {cs rest : List Char} {members : List (String × Json)}
    (read : readMembers? calls cs = some (members, rest)) : AreReadMembers members := by
  match calls with
  | 0 => cases read
  | calls + 1 =>
    rw [readMembers?] at read
    split at read
    · split at read
      · cases read
      · split at read
        · split at read
          · cases read
          · next value =>
            split at read
            · obtain ⟨_, others, same⟩ := Option.map_eq_some_iff.1 read
              cases same
              exact ⟨readValue?_isRead value, readMembers?_areRead others⟩
            · cases read
              exact ⟨readValue?_isRead value, trivial⟩
            · cases read
        · cases read
    · cases read
end

/-- A value that was read comes back as it is from either of its texts. -/
theorem read?_again {s : String} {j : Json} (read : read? s = some j) :
    read? j.compact = some j ∧ read? j.pretty = some j := by
  have isRead : j.IsRead := by
    unfold read? at read
    dsimp only at read
    split at read
    · next value =>
      split at read
      · cases read
        exact readValue?_isRead value
      · cases read
    · cases read
  have same := congrArg some isRead.reread
  exact ⟨(read?_compact isRead.areWords).trans same, (read?_pretty isRead.areWords).trans same⟩

end Workbench.Json
