/-
  `Grid` — rectangles of cells of a grid, and a search for one in reading order.

  Two rectangles overlap exactly if they have a cell in common
  (`Rect.overlaps_iff_exists_cell`).  A search finds the first position that will
  do; on a list whose elements stand in the order of a relation, first is meant in
  the sense of the relation (`find?_eq_some_iff_of_pairwise`).
-/
import Mathlib.Data.List.ProdSigma
import Mathlib.Data.PNat.Basic
import Mathlib.Tactic.Common

namespace UnisetPanel

namespace Grid

/-- A place on the grid. -/
@[ext]
structure Position where
  col : ℕ
  row : ℕ
  deriving DecidableEq, Repr

/-- A rectangle of at least one cell. -/
structure Rect where
  col : ℕ
  row : ℕ
  width : ℕ+
  height : ℕ+
  deriving DecidableEq

namespace Rect

variable (r s : Rect)

/-- The cells of a rectangle, column by column; a cell is a column and a row. -/
def cells : List (ℕ × ℕ) := List.range' r.col r.width ×ˢ List.range' r.row r.height

/-- Neither is beside, above or below the other. -/
def Overlaps : Prop :=
  (r.col < s.col + s.width ∧ s.col < r.col + r.width) ∧
    (r.row < s.row + s.height ∧ s.row < r.row + r.height)

instance : Decidable (r.Overlaps s) := inferInstanceAs (Decidable (_ ∧ _))

variable {r s}

theorem mem_cells {c : ℕ × ℕ} :
    c ∈ r.cells ↔ (r.col ≤ c.1 ∧ c.1 < r.col + r.width) ∧ r.row ≤ c.2 ∧ c.2 < r.row + r.height := by
  unfold cells
  rw [List.mem_product, List.mem_range'_1, List.mem_range'_1]

/-- **Overlapping is having a cell in common.** -/
theorem overlaps_iff_exists_cell : r.Overlaps s ↔ ∃ c ∈ r.cells, c ∈ s.cells := by
  constructor
  · intro h
    have hcol := h.1
    have hrow := h.2
    have hrw := r.width.pos
    have hrh := r.height.pos
    have hsw := s.width.pos
    have hsh := s.height.pos
    refine ⟨(max r.col s.col, max r.row s.row), ?_, ?_⟩
    · rw [mem_cells]
      show (r.col ≤ max r.col s.col ∧ _) ∧ _
      omega
    · rw [mem_cells]
      show (s.col ≤ max r.col s.col ∧ _) ∧ _
      omega
  · rintro ⟨c, hr, hs⟩
    rw [mem_cells] at hr hs
    unfold Overlaps
    omega

end Rect

namespace Position

/-- Reading order: row by row, each from the left. -/
def Before (p q : Position) : Prop := p.row < q.row ∨ p.row = q.row ∧ p.col < q.col

instance (p q : Position) : Decidable (p.Before q) := inferInstanceAs (Decidable (_ ∨ _))

theorem Before.asymm {p q : Position} (h : p.Before q) : ¬ q.Before p := by
  unfold Before at h ⊢
  omega

/-- The positions in so many rows and columns, in reading order. -/
def reading (rows cols : ℕ) : List Position :=
  (List.range rows).flatMap fun row => (List.range cols).map fun col => ⟨col, row⟩

theorem mem_reading {rows cols : ℕ} {p : Position} :
    p ∈ reading rows cols ↔ p.row < rows ∧ p.col < cols := by
  unfold reading
  rw [List.mem_flatMap]
  constructor
  · rintro ⟨row, hrow, hp⟩
    obtain ⟨col, hcol, rfl⟩ := List.mem_map.mp hp
    exact ⟨List.mem_range.mp hrow, List.mem_range.mp hcol⟩
  · rintro ⟨hrow, hcol⟩
    exact ⟨p.row, List.mem_range.mpr hrow, List.mem_map.mpr ⟨p.col, List.mem_range.mpr hcol, rfl⟩⟩

theorem reading_pairwise (rows cols : ℕ) : (reading rows cols).Pairwise Before := by
  unfold reading
  rw [List.pairwise_flatMap]
  constructor
  · intro row _
    rw [List.pairwise_map]
    apply List.pairwise_lt_range.imp
    intro c d hcd
    exact Or.inr ⟨rfl, hcd⟩
  · apply List.pairwise_lt_range.imp
    intro row row' hlt p hp q hq
    obtain ⟨c, -, rfl⟩ := List.mem_map.mp hp
    obtain ⟨d, -, rfl⟩ := List.mem_map.mp hq
    exact Or.inl hlt

end Position

/-- **What a search finds is the first** in the order of the list. -/
theorem find?_eq_some_iff_of_pairwise {α : Type*} {r : α → α → Prop} {l : List α}
    (hasymm : ∀ a b, r a b → ¬ r b a) (h : l.Pairwise r) {P : α → Bool} {a : α} :
    l.find? P = some a ↔ a ∈ l ∧ P a = true ∧ ∀ b ∈ l, r b a → ¬ P b = true := by
  constructor
  · intro hfind
    obtain ⟨hP, front, back, rfl, hfront⟩ := List.find?_eq_some_iff_append.mp hfind
    refine ⟨by simp, hP, fun b hb hba => ?_⟩
    rw [List.pairwise_append, List.pairwise_cons] at h
    rcases List.mem_append.mp hb with hb | hb
    · simpa using hfront b hb
    · rcases List.mem_cons.mp hb with rfl | hb
      · exact absurd hba (hasymm b b hba)
      · exact absurd hba (hasymm a b (h.2.1.1 b hb))
  · rintro ⟨ha, hP, hfirst⟩
    obtain ⟨front, back, rfl⟩ := List.append_of_mem ha
    rw [List.find?_eq_some_iff_append]
    refine ⟨hP, front, back, rfl, fun b hb => ?_⟩
    have hba : r b a := (List.pairwise_append.mp h).2.2 b hb a List.mem_cons_self
    simpa using hfirst b (List.mem_append_left _ hb) hba

end Grid

end UnisetPanel
