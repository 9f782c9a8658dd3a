/-
Sets of lines, kept in increasing order without repetition.
-/
import Workbench.Source.Place

namespace Workbench

/-- A finite set of line numbers. -/
structure LineSet where
  lines : List Int32
  increasing : lines.Pairwise (· < ·)

namespace LineSet

/-- No line. -/
def empty : LineSet := ⟨[], List.Pairwise.nil⟩

/-- The lines with one more, in its place. -/
def place (n : Int32) : List Int32 → List Int32
  | [] => [n]
  | m :: rest => if n < m then n :: m :: rest else if n = m then m :: rest else m :: place n rest

theorem mem_place {n m : Int32} {ls : List Int32} : m ∈ place n ls ↔ m = n ∨ m ∈ ls := by
  induction ls with
  | nil => simp [place]
  | cons k rest ih =>
    unfold place
    split
    · simp
    · split
      · rename_i h; subst h; simp
      · simp [ih, or_left_comm]

theorem pairwise_place (n : Int32) {ls : List Int32} (h : ls.Pairwise (· < ·)) :
    (place n ls).Pairwise (· < ·) := by
  induction ls with
  | nil => simp [place]
  | cons k rest ih =>
    rw [List.pairwise_cons] at h
    unfold place
    split
    · rename_i hnk
      refine List.pairwise_cons.2 ⟨?_, List.pairwise_cons.2 h⟩
      intro m hm
      rcases List.mem_cons.1 hm with rfl | hm
      · exact hnk
      · exact Int32.lt_trans hnk (h.1 m hm)
    · split
      · exact List.pairwise_cons.2 h
      · rename_i hnk hne
        refine List.pairwise_cons.2 ⟨?_, ih h.2⟩
        intro m hm
        rcases mem_place.1 hm with rfl | hm
        · exact Int32.lt_of_le_of_ne (Int32.not_lt.1 hnk) (Ne.symm hne)
        · exact h.1 m hm

/-- The set with one more line. -/
def insert (s : LineSet) (n : Int32) : LineSet := ⟨place n s.lines, pairwise_place n s.increasing⟩

/-- The set of the given lines. -/
def ofList (ls : List Int32) : LineSet := ls.foldl insert empty

/-- Whether the line belongs to the set. -/
def contains (s : LineSet) (n : Int32) : Bool := s.lines.contains n

instance : Membership Int32 LineSet := ⟨fun s n => n ∈ s.lines⟩

/-- The set of the images of its lines. -/
def map (f : Int32 → Int32) (s : LineSet) : LineSet := ofList (s.lines.map f)

theorem mem_insert {s : LineSet} {n m : Int32} : m ∈ (s.insert n).lines ↔ m = n ∨ m ∈ s.lines :=
  mem_place

theorem mem_ofList {ls : List Int32} {m : Int32} : m ∈ (ofList ls).lines ↔ m ∈ ls := by
  suffices h : ∀ (s : LineSet), m ∈ (ls.foldl insert s).lines ↔ m ∈ ls ∨ m ∈ s.lines by
    simpa [ofList, empty] using h empty
  induction ls with
  | nil => simp
  | cons n rest ih => intro s; simp only [List.foldl_cons, ih, mem_insert, List.mem_cons]; grind

end LineSet

instance : Coded LineSet where
  encode s := encode s.lines
  decode? j := (decode? j : Option (List Int32)).map LineSet.ofList

end Workbench
