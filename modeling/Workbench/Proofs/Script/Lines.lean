/-
What a program reads: lines, with line breaks between them.

`Lines` says it without a bound on the lines: a line behind the gap, then either
no line break, or one with further lines behind it. A program is admitted where
nothing is left behind its last line (`program_reads`). What holds of a line at two
corresponding places holds of lines (`Lines.alike`); two ways for places to
correspond give what is known about them: they stay in their text, on the line that
the line feeds before them make it (`line_located`), and lines that stand further
down are read the same, each on a line further down (`Lines.moved`).
-/
import Mathlib.Data.List.Forall2
import Workbench.Proofs.Script.Likeness

namespace Workbench.Script

/-! ## Places -/

namespace Cursor

/-- The place behind the gap. -/
def behindGap (c : Cursor) : Cursor := c.after (gap c.rest)

theorem gap_behindGap (c : Cursor) : gap c.behindGap.rest = 0 := gap_drop c.rest

theorem after_zero (c : Cursor) : c.after 0 = c := rfl

theorem behindGap_behindGap (c : Cursor) : c.behindGap.behindGap = c.behindGap := by
  rw [behindGap, gap_behindGap, after_zero]

theorem rest_behindGap_le (c : Cursor) : c.behindGap.rest.length ≤ c.rest.length := by
  simp [behindGap, after]

/-- The place lies in the text, and its line counts the line feeds before it. -/
def At (c : Cursor) (text : List Char) : Prop :=
  ∃ before, text = before ++ c.rest ∧ c.position = before.length ∧ c.line = 1 + Text.breaks before

theorem At.ofText (s : String) : (ofText s).At s.toList := ⟨[], rfl, rfl, rfl⟩

theorem At.after {c : Cursor} {text : List Char} (lies : c.At text) {n : Nat} (within : n ≤ c.rest.length) :
    (c.after n).At text := by
  obtain ⟨before, same, position, line⟩ := lies
  refine ⟨before ++ c.rest.take n, ?_, ?_, ?_⟩
  · rw [same, List.append_assoc, Cursor.after, List.take_append_drop]
  · rw [List.length_append, List.length_take, Nat.min_eq_left within, ← position, Cursor.after]
  · rw [Text.breaks_append, ← Nat.add_assoc, ← line, Cursor.after]

theorem At.position_le {c : Cursor} {text : List Char} (lies : c.At text) : c.position ≤ text.length := by
  obtain ⟨before, same, position, -⟩ := lies
  rw [position, same, List.length_append]
  omega

theorem At.end_ {c : Cursor} {text : List Char} (lies : c.At text) (done : c.rest = []) :
    c.position = text.length ∧ c.line = 1 + Text.breaks text := by
  obtain ⟨before, same, position, line⟩ := lies
  rw [done, List.append_nil] at same
  rw [position, line, same]
  exact ⟨rfl, rfl⟩

end Cursor

/-! ## The same place twice -/

namespace Likeness

variable {α β : Type} {L : Likeness} {same : α → β → Prop}

theorem Results.of_read {a : α} {c : Cursor} {f : Furthest} {right : Option (β × Cursor) × Furthest}
    (results : L.Results same (some (a, c), f) right) :
    ∃ b c' f', right = (some (b, c'), f') ∧ same a b ∧ L.place c c' ∧ L.seen f f' := by
  cases results with
  | read value place seen => exact ⟨_, _, _, rfl, value, place, seen⟩

/-- Reading on keeps what holds of the place and of the record. -/
structure Keeps (I : Cursor → Prop) (J : Furthest → Prop) : Prop where
  after : ∀ {c n}, I c → n ≤ c.rest.length → I (c.after n)
  note : ∀ {c f} part before, I c → J f → J (f.note part c before)

variable {I : Cursor → Prop} {J : Furthest → Prop}

/-- The same place twice, and what holds of it. -/
def keeping (keeps : Keeps I J) : Likeness where
  place c c' := c' = c ∧ I c
  seen f f' := f' = f ∧ J f
  line := Eq
  rest := fun ⟨same, _⟩ => by rw [same]
  lines := fun ⟨same, _⟩ => by rw [same]
  after := fun ⟨same, holds⟩ within => ⟨by rw [same], keeps.after holds within⟩
  count := fun ⟨same, _⟩ ⟨seen, _⟩ => by rw [same, seen]
  note := fun part before ⟨same, holds⟩ ⟨seen, kept⟩ => ⟨by rw [same, seen], keeps.note part before holds kept⟩

theorem Keeps.read {same : α → α → Prop} {p : Reading α} {c c₁ : Cursor} {f f₁ : Furthest} {a : α}
    (keeps : Keeps I J) (alike : (keeping keeps).Alike same p p) (read : p c f = (some (a, c₁), f₁)) (place : I c)
    (seen : J f) : I c₁ ∧ J f₁ := by
  have results := alike c c f f ⟨rfl, place⟩ ⟨rfl, seen⟩
  rw [read] at results
  obtain ⟨_, _, _, -, -, place₁, seen₁⟩ := results.of_read
  exact ⟨place₁.2, seen₁.2⟩

/-- No place has more than so much text left. -/
theorem keeps_within (bound : Nat) : Keeps (fun c => c.rest.length ≤ bound) (fun _ => True) where
  after := fun {c n} le _ => Nat.le_trans (by simp [Cursor.after]) le
  note := fun _ _ _ _ => trivial

/-- Reading does not go back. -/
theorem Alike.rest_le {same : α → α → Prop} {p : Reading α} {c c₁ : Cursor} {f f₁ : Furthest} {a : α}
    (alike : (keeping (keeps_within c.rest.length)).Alike same p p) (read : p c f = (some (a, c₁), f₁)) :
    c₁.rest.length ≤ c.rest.length :=
  ((keeps_within c.rest.length).read alike read (Nat.le_refl _) trivial).1

/-- Places lie in the text. -/
theorem keeps_text (text : List Char) : Keeps (fun c => c.At text) (fun f => f.position ≤ text.length) where
  after := fun lies le => lies.after le
  note := by
    intro c f part before lies le
    have := lies.position_le
    unfold Furthest.note
    split
    · exact le
    · split
      · exact le
      · split
        · exact this
        · exact le

end Likeness

namespace Grammar

/-! ## Lines -/

/-- Lines are read from one place to another: their commands, and what was expected meanwhile. -/
inductive Lines : Cursor → Furthest → List (Nat × Draft) → Cursor → Furthest → Prop
  | last {c c₁ : Cursor} {f f₁ : Furthest} {l : Option (Nat × Draft)}
    (read : line c.behindGap f = (some (l, c₁), f₁)) (ends : breakLength? c₁.behindGap.rest = none) :
    Lines c f l.toList c₁.behindGap f₁
  | next {c c₁ c₂ : Cursor} {f f₁ f₂ : Furthest} {l : Option (Nat × Draft)} {n : Nat} {more : List (Nat × Draft)}
    (read : line c.behindGap f = (some (l, c₁), f₁)) (breaks : breakLength? c₁.behindGap.rest = some n)
    (rest : Lines (c₁.behindGap.after n) f₁ more c₂ f₂) : Lines c f (l.toList ++ more) c₂ f₂

theorem line_reads (c : Cursor) (f : Furthest) : ∃ l c₁ f₁, line c f = (some (l, c₁), f₁) := by
  have total {α : Type} (part : Part) (p : Reading α) :
      ∃ l c₁ f₁, Reading.expecting part (Reading.optional p) c f = (some (l, c₁), f₁) := by
    unfold Reading.expecting Reading.optional
    rcases p c f with ⟨_ | ⟨a, c₁⟩, f₁⟩
    · exact ⟨none, c, f₁, rfl⟩
    · exact ⟨some a, c₁, f₁, rfl⟩
  exact total .line _

theorem gaps_eq (c : Cursor) (f : Furthest) : gaps c f = (some ((), c.behindGap), f) := rfl

theorem andThen_gaps {α : Type} (k : Unit → Reading α) (c : Cursor) (f : Furthest) :
    Reading.andThen gaps k c f = k () c.behindGap f := rfl

theorem nextLine_eq (c : Cursor) (f : Furthest) :
    nextLine c f =
      match breakLength? c.rest with
      | some n => line (c.after n).behindGap f
      | none => (none, f) := by
  show Reading.andThen (Reading.lexeme fun cs => (breakLength? cs).map fun n => ((), n))
    (fun _ => Reading.andThen gaps fun _ => line) c f = _
  unfold Reading.andThen Reading.lexeme
  dsimp only
  cases breakLength? c.rest <;> rfl

theorem commands_cons (l : Option (Nat × Draft)) (ls : List (Option (Nat × Draft))) :
    (l :: ls).filterMap id = l.toList ++ ls.filterMap id := by
  cases l <;> rfl

theorem moreLines_succ (lines : Nat) (c : Cursor) (f : Furthest) :
    moreLines (lines + 1) c f =
      match nextLine c.behindGap f with
      | (some (l, c), f) => (Reading.andThen (moreLines lines) fun ls => Reading.give (l :: ls)) c f
      | (none, f) => (some ([], c), f) := rfl

/-- With a bound beyond what is left of the text, all lines are read. -/
theorem Lines.of_moreLines (bound : Nat) {c₀ c c' : Cursor} {f₀ f : Furthest} {l : Option (Nat × Draft)}
    (first : line c₀.behindGap f₀ = (some (l, c), f)) (same : c'.behindGap = c.behindGap)
    (long : c'.rest.length < bound) :
    ∃ ls c₂ f₂, moreLines bound c' f = (some (ls, c₂), f₂) ∧
      Lines c₀ f₀ (l.toList ++ ls.filterMap id) c₂.behindGap f₂ := by
  induction bound generalizing c₀ c c' f₀ f l with
  | zero => omega
  | succ bound ih =>
    have reads := moreLines_succ bound c' f
    rw [same] at reads
    cases breaks : breakLength? c.behindGap.rest with
    | none =>
      rw [nextLine_eq, breaks] at reads
      refine ⟨[], c', f, reads, ?_⟩
      rw [same, List.filterMap_nil, List.append_nil]
      exact .last first breaks
    | some n =>
      obtain ⟨l₁, c₁, f₁, read⟩ := line_reads (c.behindGap.after n).behindGap f
      have shorter : c₁.rest.length < bound := by
        have rest_le := line_alike.rest_le read
        have gap_le := (c.behindGap.after n).rest_behindGap_le
        have start := c'.rest_behindGap_le
        obtain ⟨some_break, within⟩ := breakLength?_le breaks
        have step : (c.behindGap.after n).rest.length = c.behindGap.rest.length - n := List.length_drop
        rw [same] at start
        omega
      obtain ⟨ls, c₂, f₂, more, lines⟩ := ih read rfl shorter
      rw [nextLine_eq, breaks] at reads
      dsimp only at reads
      rw [read] at reads
      refine ⟨l₁ :: ls, c₂, f₂, ?_, ?_⟩
      · rw [reads]
        simp only [Reading.andThen, more, Reading.give]
      · rw [commands_cons]
        exact .next first breaks lines

/-- A program reads its lines, and is admitted if nothing is left behind them. -/
theorem program_reads (c : Cursor) (f : Furthest) :
    ∃ drafts c₂ f₂, Lines c f drafts c₂ f₂ ∧
      program c f =
        if c₂.rest = [] then (some (drafts, c₂), f₂)
        else (none, (f₂.note .endOfInput c₂ (f₂.countAt c₂.position)).note .program c (f.countAt c.position)) := by
  obtain ⟨l, c₁, f₁, first⟩ := line_reads c.behindGap f
  obtain ⟨ls, c₂, f₂, more, lines⟩ := Lines.of_moreLines (c₁.behindGap.rest.length + 1) first
    c₁.behindGap_behindGap (Nat.lt_succ_self _)
  refine ⟨_, _, _, lines, ?_⟩
  have reads : program c f = Reading.expecting .program (Reading.andThen gaps fun _ => Reading.andThen line fun first =>
      Reading.andThen gaps fun _ => Reading.andThen (fun c f => moreLines (c.rest.length + 1) c f) fun more =>
        Reading.andThen gaps fun _ => Reading.andThen ending fun _ =>
          Reading.give ((first :: more).filterMap id)) c f := rfl
  rw [reads]
  unfold Reading.expecting
  rw [andThen_gaps]
  simp only [Reading.andThen, first, gaps_eq, more, Reading.give, commands_cons]
  unfold ending Reading.expecting
  dsimp only
  cases left : c₂.behindGap.rest with
  | nil => simp
  | cons d rest => simp

theorem behindGap_alike {L : Likeness} {c c' : Cursor} (place : L.place c c') :
    L.place c.behindGap c'.behindGap := by
  unfold Cursor.behindGap
  rw [L.rest place]
  exact L.after place (gapFrom_le false c.rest)

/-- A line that was read is read at a place that corresponds. -/
theorem line_read_alike {L : Likeness} {c c₁ c' : Cursor} {f f₁ f' : Furthest} {l : Option (Nat × Draft)}
    (read : line c.behindGap f = (some (l, c₁), f₁)) (place : L.place c c') (seen : L.seen f f') :
    ∃ l' c₁' f₁', line c'.behindGap f' = (some (l', c₁'), f₁') ∧
      List.Forall₂ (CommandLike L.line) l.toList l'.toList ∧ L.place c₁.behindGap c₁'.behindGap ∧ L.seen f₁ f₁' := by
  have results := line_alike _ _ _ _ (behindGap_alike place) seen
  rw [read] at results
  obtain ⟨l', c₁', f₁', read', like, place₁, seen₁⟩ := results.of_read
  refine ⟨l', c₁', f₁', read', ?_, behindGap_alike place₁, seen₁⟩
  cases like with
  | some like => exact .cons like .nil
  | none => exact .nil

/-- Lines are read alike at places that correspond. -/
theorem Lines.alike {L : Likeness} {c c₂ c' : Cursor} {f f₂ f' : Furthest} {drafts : List (Nat × Draft)}
    (lines : Lines c f drafts c₂ f₂) (place : L.place c c') (seen : L.seen f f') :
    ∃ drafts' c₂' f₂', Lines c' f' drafts' c₂' f₂' ∧ List.Forall₂ (CommandLike L.line) drafts drafts' ∧
      L.place c₂ c₂' ∧ L.seen f₂ f₂' := by
  induction lines generalizing c' f' with
  | last read ends =>
    obtain ⟨l', c₁', f₁', read', like, place₁, seen₁⟩ := line_read_alike read place seen
    refine ⟨_, _, _, .last read' ?_, like, place₁, seen₁⟩
    rwa [L.rest place₁]
  | next read breaks rest ih =>
    obtain ⟨l', c₁', f₁', read', like, place₁, seen₁⟩ := line_read_alike read place seen
    have next := L.after place₁ (breakLength?_le breaks).2
    obtain ⟨more', c₂', f₂', rest', likes, place₂, seen₂⟩ := ih next seen₁
    refine ⟨_, _, _, .next read' ?_ rest', List.rel_append like likes, place₂, seen₂⟩
    rwa [L.rest place₁]

/-- A line stays in its text. -/
theorem line_located {text : List Char} {c c₁ : Cursor} {f f₁ : Furthest} {l : Option (Nat × Draft)}
    (read : line c f = (some (l, c₁), f₁)) (lies : c.At text) (within : f.position ≤ text.length) :
    c₁.At text ∧ f₁.position ≤ text.length :=
  (Likeness.keeps_text text).read line_alike read lies within

end Grammar

/-! ## Further down -/

/-- A place further on, and on a line further down, with the same text before it. -/
structure Cursor.Moved (by_ down : Nat) (c c' : Cursor) : Prop where
  rest : c'.rest = c.rest
  position : c'.position = c.position + by_
  line : c'.line = c.line + down
  first : c.position = 0 → c.line = 1

/-- The record further on. -/
def Furthest.movedOn (f : Furthest) (by_ down : Nat) : Furthest :=
  { f with position := f.position + by_, line := f.line + down }

/-- A record and the one further on; a record that is still empty corresponds to any record of what lies
before. -/
def Furthest.Moved (by_ down : Nat) (f f' : Furthest) : Prop := f = {} ∧ f'.position < by_ ∨ f' = f.movedOn by_ down

namespace Likeness

variable {by_ down : Nat} {c c' : Cursor} {f f' : Furthest}

theorem moved_count (place : c.Moved by_ down c') (seen : f.Moved by_ down f') :
    f'.countAt c'.position = f.countAt c.position := by
  unfold Furthest.countAt
  rw [place.position]
  obtain ⟨rfl, earlier⟩ | rfl := seen
  · rw [if_neg (by omega)]
    split <;> rfl
  · simp only [Furthest.movedOn, Nat.add_right_cancel_iff]

theorem note_beyond (part : Part) (before : Nat) (beyond : f.position < c.position) :
    f.note part c before = ⟨c.position, c.line, [part]⟩ := by
  have none_yet : f.countAt c.position = 0 := if_neg (Nat.ne_of_lt beyond)
  unfold Furthest.note
  rw [none_yet, if_neg (Nat.succ_ne_zero before).symm, if_neg (Nat.ne_of_lt beyond), if_pos beyond]

theorem note_first (part : Part) (before : Nat) (first : c.position = 0 → c.line = 1) :
    ({} : Furthest).note part c before = ⟨c.position, c.line, [part]⟩ := by
  by_cases start : c.position = 0
  · have none_yet : ({} : Furthest).countAt c.position = 0 := if_pos start.symm
    unfold Furthest.note
    rw [none_yet, if_neg (Nat.succ_ne_zero before).symm, if_pos start.symm, start, first start]
    simp
  · exact note_beyond part before (Nat.pos_of_ne_zero start)

theorem moved_note (part : Part) (before : Nat) (place : c.Moved by_ down c') (seen : f.Moved by_ down f') :
    f'.note part c' before = (f.note part c before).movedOn by_ down := by
  obtain ⟨rfl, earlier⟩ | same := seen
  · have beyond : f'.position < c'.position := by
      rw [place.position]
      omega
    rw [note_first part before place.first, note_beyond part before beyond, place.position, place.line,
      Furthest.movedOn]
  · have count := moved_count place (.inr same)
    unfold Furthest.note
    rw [count, place.position, place.line, same]
    simp only [Furthest.movedOn, Nat.add_right_cancel_iff, Nat.add_lt_add_iff_right]
    split
    · rfl
    · split
      · rfl
      · split <;> rfl

/-- Places further on. -/
def moved (by_ down : Nat) : Likeness where
  place := Cursor.Moved by_ down
  seen := Furthest.Moved by_ down
  line n n' := n' = n + down
  rest place := place.rest
  lines place := place.line
  after := by
    intro c c' n place within
    refine ⟨?_, ?_, ?_, ?_⟩
    · show c'.rest.drop n = c.rest.drop n
      rw [place.rest]
    · show c'.position + n = c.position + n + by_
      rw [place.position]
      omega
    · show c'.line + Text.breaks (c'.rest.take n) = c.line + Text.breaks (c.rest.take n) + down
      rw [place.line, place.rest]
      omega
    · intro start
      obtain ⟨start, rfl⟩ : c.position = 0 ∧ n = 0 := Nat.add_eq_zero_iff.1 start
      exact place.first start
  count := moved_count
  note part before place seen := .inr (moved_note part before place seen)

end Likeness

theorem Grammar.Lines.moved {by_ down : Nat} {c c₂ c' : Cursor} {f f₂ f' : Furthest} {drafts : List (Nat × Draft)}
    (lines : Lines c f drafts c₂ f₂) (place : c.Moved by_ down c') (seen : f.Moved by_ down f') :
    ∃ drafts' c₂' f₂', Lines c' f' drafts' c₂' f₂' ∧
      List.Forall₂ (CommandLike fun n n' => n' = n + down) drafts drafts' ∧
      c₂.Moved by_ down c₂' ∧ f₂.Moved by_ down f₂' :=
  lines.alike (L := .moved by_ down) place seen

end Workbench.Script
