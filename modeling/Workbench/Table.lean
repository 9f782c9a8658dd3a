/-
Finite tables: a list of keyed entries in the order of their first insertion.

A table is looked at only through `get?`, and each operation has one equation
that says what it does to that view (`get?_set`, `get?_erase`).
-/

namespace Workbench

/-- A finite map that remembers the order in which its keys were first set. -/
structure Table (κ α : Type) where
  entries : List (κ × α) := []

namespace Table

variable {κ α : Type} [DecidableEq κ]

/-- The value that a list of entries holds for a key: the first entry counts. -/
def find (k : κ) : List (κ × α) → Option α
  | [] => none
  | (j, a) :: rest => if j = k then some a else find k rest

/-- The entries with the key's value replaced in place, or added at the end. -/
def put (k : κ) (a : α) : List (κ × α) → List (κ × α)
  | [] => [(k, a)]
  | (j, b) :: rest => if j = k then (k, a) :: rest else (j, b) :: put k a rest

/-- The value of a key. -/
def get? (t : Table κ α) (k : κ) : Option α := find k t.entries

/-- Whether the key has a value. -/
def contains (t : Table κ α) (k : κ) : Bool := (t.get? k).isSome

/-- The table with the key's value replaced, or added at the end. -/
def set (t : Table κ α) (k : κ) (a : α) : Table κ α := ⟨put k a t.entries⟩

/-- The table without the key. -/
def erase (t : Table κ α) (k : κ) : Table κ α := ⟨t.entries.filter (fun e => decide (e.1 ≠ k))⟩

/-- The keys, in the order of their first insertion. -/
def keys (t : Table κ α) : List κ := t.entries.map (·.1)

theorem find_put (k j : κ) (a : α) (es : List (κ × α)) :
    find j (put k a es) = if k = j then some a else find j es := by
  induction es with
  | nil => simp [put, find]
  | cons e rest ih =>
    obtain ⟨i, b⟩ := e
    by_cases hik : i = k
    · subst hik
      by_cases hij : i = j <;> simp [put, find, hij]
    · by_cases hij : i = j
      · subst hij
        simp [put, find, hik, Ne.symm hik]
      · simp [put, find, hik, hij, ih]

@[simp] theorem get?_set (t : Table κ α) (k j : κ) (a : α) :
    (t.set k a).get? j = if k = j then some a else t.get? j :=
  find_put k j a t.entries

@[simp] theorem get?_erase (t : Table κ α) (k j : κ) :
    (t.erase k).get? j = if k = j then none else t.get? j := by
  obtain ⟨es⟩ := t
  simp only [erase, get?]
  induction es with
  | nil => simp [find]
  | cons e rest ih =>
    obtain ⟨i, b⟩ := e
    by_cases hik : i = k
    · subst hik
      rw [List.filter_cons_of_neg (by simp), ih]
      by_cases hij : i = j <;> simp [find, hij]
    · rw [List.filter_cons_of_pos (by simp [hik])]
      by_cases hij : i = j
      · subst hij
        simp [find, Ne.symm hik]
      · simpa [find, hij] using ih

@[simp] theorem get?_empty (j : κ) : (Table.mk [] : Table κ α).get? j = none := rfl

end Table

end Workbench
