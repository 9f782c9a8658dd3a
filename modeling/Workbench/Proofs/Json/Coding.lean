/-
Encodings that are read back.

A type's encoding is faithful if every value comes back from it as what it was. Then
no two values have one encoding (`Coded.Faithful.injective`). Texts and whole numbers are
faithful, lists and pairs if their parts are. Doubles are not: one without a finite value
is written as `null`, which is read as no double.

Records and alternatives are read field by field. `Json.fields_written` says of any
record that its fields are found as they were written, and `Json.adjacent_written` and
`Json.internal_written` find the tag and what belongs to it; what is left of an
encoding then is to read each field back.
-/
import Workbench.Json.Coding

namespace Workbench

/-- Every value of the type comes back from its encoding. -/
class Coded.Faithful (α : Type) [Coded α] : Prop where
  reads_back (a : α) : decode? (encode a) = some a

open Coded (Faithful)
open Coded.Faithful (reads_back)

variable {α β : Type} [Coded α] [Coded β]

/-- Distinct values have distinct encodings. -/
theorem Coded.Faithful.injective [Faithful α] : Function.Injective (encode : α → Json) := by
  intro a b same
  have back := reads_back a
  rw [same, reads_back] at back
  exact (Option.some.inj back).symm

/-! ## Basic types -/

instance : Faithful Json := ⟨fun _ => rfl⟩

instance : Faithful String := ⟨fun _ => rfl⟩

instance : Faithful Nat where
  reads_back n := by simp [encode, decode?]

instance : Faithful UInt8 where
  reads_back n := by
    have high : (n.toNat : Int) < 256 := Int.ofNat_lt.2 n.toNat_lt
    show (if 0 ≤ (n.toNat : Int) ∧ (n.toNat : Int) < 256 then some (UInt8.ofNat n.toNat) else none) = some n
    rw [if_pos ⟨Int.natCast_nonneg _, high⟩, UInt8.ofNat_toNat]

instance : Faithful UInt32 where
  reads_back n := by
    have high : (n.toNat : Int) < 4294967296 := Int.ofNat_lt.2 n.toNat_lt
    show (if 0 ≤ (n.toNat : Int) ∧ (n.toNat : Int) < 4294967296 then some (UInt32.ofNat n.toNat) else none) = some n
    rw [if_pos ⟨Int.natCast_nonneg _, high⟩, UInt32.ofNat_toNat]

instance : Faithful Int32 where
  reads_back n := by
    have low : -2147483648 ≤ n.toInt := n.le_toInt
    have high : n.toInt < 2147483648 := n.toInt_lt
    show (if -2147483648 ≤ n.toInt ∧ n.toInt < 2147483648 then some (Int32.ofInt n.toInt) else none) = some n
    rw [if_pos ⟨low, high⟩, Int32.ofInt_toInt]

/-- A number without a finite value is lost. -/
@[simp] theorem decode?_encode_float (x : Float) :
    decode? (encode x) = if Decimal.isFinite x then some x else none := by
  simp only [encode]
  split <;> rfl

/-- A list comes back if each of its elements does. -/
theorem decode?_encode_list {p : α → Bool} (each : ∀ a, decode? (encode a) = if p a then some a else none)
    (as : List α) : decode? (encode as) = if as.all p then some as else none := by
  show (as.map encode).mapM (decode? (α := α)) = _
  induction as with
  | nil => rfl
  | cons a as ih =>
    rw [List.map_cons, List.mapM_cons, each, ih, List.all_cons]
    cases first : p a <;> cases rest : as.all p <;> rfl

instance [Faithful α] : Faithful (List α) where
  reads_back as := by
    rw [decode?_encode_list (p := fun _ => true) reads_back as, if_pos (List.all_eq_true.2 fun _ _ => rfl)]

instance [Faithful α] [Faithful β] : Faithful (α × β) where
  reads_back p := by
    show ((decode? (encode p.1)).bind fun a => (decode? (encode p.2)).bind fun b => some (a, b)) = some p
    rw [reads_back, reads_back]
    rfl

/-- Names are faithful if each is the name of one value. -/
theorem Coded.Faithful.ofNames {γ : Type} {name : γ → String} {ofName? : String → Option γ}
    (back : ∀ c, ofName? (name c) = some c) : @Faithful γ (.ofNames name ofName?) := by
  refine @Faithful.mk γ (.ofNames name ofName?) fun c => ?_
  show (Json.external (.str (name c))).bind (fun p => p.2.empty.bind fun _ => ofName? p.1) = some c
  exact back c

namespace Json

/-! ## Records -/

theorem lookup_zip {names : List String} {js : List Json} (distinct : names.Nodup) (same : js.length = names.length) :
    names.map (lookup · (names.zip js)) = js.map some := by
  induction names generalizing js with
  | nil =>
    cases List.length_eq_zero_iff.1 same
    rfl
  | cons n names ih =>
    obtain ⟨j, js, rfl⟩ := List.exists_cons_of_length_eq_add_one same
    obtain ⟨fresh, distinct⟩ := List.nodup_cons.1 distinct
    have others : names.map (lookup · ((n, j) :: names.zip js)) = names.map (lookup · (names.zip js)) :=
      List.map_congr_left fun m there => if_neg fun (again : n = m) => fresh (again ▸ there)
    rw [List.zip_cons_cons, List.map_cons, List.map_cons, others, ih distinct (Nat.succ.inj same), lookup, if_pos rfl]

theorem fields_of_lookup {names : List String} {members : List (String × Json)} {js : List Json}
    (found : names.map (lookup · members) = js.map some) : fields names (.obj members) = some (js.map .given) := by
  refine congrArg some ?_
  induction names generalizing js with
  | nil =>
    cases js with
    | nil => rfl
    | cons j js => cases found
  | cons n names ih =>
    cases js with
    | nil => cases found
    | cons j js =>
      obtain ⟨(head : lookup n members = some j), tail⟩ := List.cons.inj found
      rw [List.map_cons, List.map_cons, ih tail, head]

/-- The fields of a record are found as they were written. -/
theorem fields_written {names : List String} {js : List Json} (distinct : names.Nodup)
    (same : js.length = names.length) : fields names (.obj (names.zip js)) = some (js.map .given) :=
  fields_of_lookup (lookup_zip distinct same)

namespace Field

theorem required_written [Faithful α] (a : α) : (given (encode a)).required = some a := reads_back a

theorem withDefault_written [Faithful α] (other a : α) : (given (encode a)).withDefault other = some a := reads_back a

/-- A field without a value is written as `null`, and so must be no value. -/
theorem optional_written [Faithful α] (solid : ∀ a : α, encode a ≠ .null) (o : Option α) :
    (given (encode o)).optional = some o := by
  cases o with
  | none => rfl
  | some a =>
    show (given (encode a)).optional = some (some a)
    have back := congrArg (Option.map some) (reads_back a)
    unfold optional
    split
    · next same => exact absurd (Field.given.inj same) (solid a)
    · next same => cases same; exact back
    · next same => cases same
    · next same => cases same

end Field

/-! ## Alternatives -/

theorem adjacent_alone {tag content : String} (apart : tag ≠ content) (t : String) :
    adjacent tag content (.obj [(tag, .str t)]) = some (t, .absent) := by
  simp [adjacent, lookup, apart]

theorem adjacent_written {tag content : String} (apart : tag ≠ content) (t : String) (j : Json) :
    adjacent tag content (.obj [(tag, .str t), (content, j)]) = some (t, .given j) := by
  simp [adjacent, lookup, apart]

theorem internal_written {tag : String} {members : List (String × Json)} (apart : ∀ m ∈ members, m.1 ≠ tag)
    (t : String) : internal tag (.obj ((tag, .str t) :: members)) = some (t, .obj members) := by
  have kept : ((tag, .str t) :: members).filter (·.1 ≠ tag) = members := by
    rw [List.filter_cons_of_neg (by simp)]
    exact List.filter_eq_self.2 fun m there => decide_eq_true (apart m there)
  simp only [internal, lookup, if_true, kept]

end Json

namespace Coded.Faithful

open Json (Field)

/-! ## Types that are read in one of these ways -/

/-- A record is faithful if what is made of its fields, as they were written, is the record. -/
theorem record {names : List String} {make : List Field → Option α} (values : α → List Json)
    (read : ∀ j, decode? j = (j.fields names).bind make) (written : ∀ a, encode a = .obj (names.zip (values a)))
    (distinct : names.Nodup) (same : ∀ a, (values a).length = names.length)
    (back : ∀ a, make ((values a).map .given) = some a) : Faithful α where
  reads_back a := by
    rw [read, written, Json.fields_written distinct (same a)]
    exact back a

/-- An alternative as a tag beside its content, or a tag alone. -/
inductive Beside (tag content : String) (make : String × Field → Option α) (a : α) : Json → Prop
  | alone {t : String} (back : make (t, .absent) = some a) : Beside tag content make a (.obj [(tag, .str t)])
  | pair {t : String} {j : Json} (back : make (t, .given j) = some a) :
    Beside tag content make a (.obj [(tag, .str t), (content, j)])

theorem adjacent {tag content : String} {make : String × Field → Option α} (apart : tag ≠ content)
    (read : ∀ j, decode? j = (j.adjacent tag content).bind make)
    (written : ∀ a, Beside tag content make a (encode a)) : Faithful α where
  reads_back a := by
    rw [read]
    have way := written a
    generalize encode a = j at way ⊢
    cases way with
    | alone back =>
      rw [Json.adjacent_alone apart]
      exact back
    | pair back =>
      rw [Json.adjacent_written apart]
      exact back

/-- An alternative as a tag before its fields. -/
inductive Among (tag : String) (make : String × Json → Option α) (a : α) : Json → Prop
  | first {t : String} {members : List (String × Json)} (apart : ∀ m ∈ members, m.1 ≠ tag)
    (back : make (t, .obj members) = some a) : Among tag make a (.obj ((tag, .str t) :: members))

theorem internal {tag : String} {make : String × Json → Option α}
    (read : ∀ j, decode? j = (j.internal tag).bind make) (written : ∀ a, Among tag make a (encode a)) :
    Faithful α where
  reads_back a := by
    rw [read]
    have way := written a
    generalize encode a = j at way ⊢
    cases way with
    | first apart back =>
      rw [Json.internal_written apart]
      exact back

end Coded.Faithful

end Workbench
