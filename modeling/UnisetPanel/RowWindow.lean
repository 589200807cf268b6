/-
  `RowWindow` — rows of one height under a viewport, of which some are rendered.

  Row `i` has the slot from `i` heights to `i + 1` heights.  The rows from `start`
  to `stop` are rendered, of `m` there are, behind a spacer in the place of those
  before them; nothing is in the place of those behind.  The scroll position is
  kept within the content, so it moves up if the content ends too early.

  Whether the rows in view are all rendered then, and one row is in view at least,
  depends on where the window begins: not below the position that was scrolled to,
  and at the first row or with rows for a whole viewport from there on
  (`shows_iff_covers`).  From there no position in the content can be scrolled to
  that is not covered again (`Shows.covers`).
-/
import Mathlib.Algebra.Order.Floor.Ring
import Mathlib.Tactic.Linarith

namespace UnisetPanel

/-- The height of the rows and of the viewport. -/
structure RowLayout (K : Type*) [Field K] [LinearOrder K] where
  rowHeight : K
  viewportHeight : K
  rowHeight_pos : 0 < rowHeight
  viewportHeight_pos : 0 < viewportHeight

namespace RowLayout

variable {K : Type*} [Field K] [LinearOrder K] (l : RowLayout K)

/-- The slot of row `i` and the viewport have a point in common, when scrolled to `y`. -/
def InView (y : K) (i : ℕ) : Prop :=
  i * l.rowHeight < y + l.viewportHeight ∧ y < (i + 1) * l.rowHeight

/-- The greatest scroll position. -/
def maxScroll (content : K) : K := max 0 (content - l.viewportHeight)

/-- How many rows high the content is. -/
def extent (start stop m : ℕ) : ℕ := max start (min stop m)

/-- Each row in view is rendered, and there is one. -/
def Shows (start stop m : ℕ) (y : K) : Prop :=
  (∀ i < m, l.InView y i → start ≤ i ∧ i < stop) ∧ ∃ i < m, l.InView y i

/-- The window begins where it can show the rows from `y` on. -/
def Covers (start m : ℕ) (y : K) : Prop :=
  start * l.rowHeight ≤ y ∧
    (start = 0 ∨ start * l.rowHeight + l.viewportHeight ≤ m * l.rowHeight)

variable {l} {start stop m : ℕ} {y : K}

/-- A row in view is one of those that are rendered. -/
theorem Shows.extent_eq (h : l.Shows start stop m y) : extent start stop m = min stop m := by
  obtain ⟨i, him, hi⟩ := h.2
  have := h.1 i him hi
  unfold extent
  omega

variable [IsStrictOrderedRing K]

theorem rows_le_iff {i j : ℕ} : i * l.rowHeight ≤ j * l.rowHeight ↔ i ≤ j := by
  rw [mul_le_mul_iff_left₀ l.rowHeight_pos, Nat.cast_le]

theorem rows_lt_iff {i j : ℕ} : i * l.rowHeight < j * l.rowHeight ↔ i < j := by
  rw [mul_lt_mul_iff_left₀ l.rowHeight_pos, Nat.cast_lt]

/-- The window begins at the first row in view, or above it. -/
theorem Shows.start_le (h : l.Shows start stop m y) (hy : 0 ≤ y) : start * l.rowHeight ≤ y := by
  by_contra hlt
  obtain ⟨i, him, hi⟩ := h.2
  have hstart := (h.1 i him hi).1
  have hpos : start ≠ 0 := by
    rintro rfl
    rw [Nat.cast_zero, zero_mul] at hlt
    exact hlt hy
  -- the row before the window would be in view with row `i`
  obtain ⟨j, rfl⟩ := Nat.exists_eq_succ_of_ne_zero hpos
  have hji : (j : K) * l.rowHeight < i * l.rowHeight := rows_lt_iff.mpr (by omega)
  have hj : l.InView y j := by
    constructor
    · exact hji.trans hi.1
    · rw [← Nat.cast_succ]
      exact not_le.mp hlt
  have := (h.1 j (by omega) hj).1
  omega

/-- **Scrolling on**: where the rows in view are rendered, a window from above any position in the
content can show them there. -/
theorem Shows.covers {start' m' : ℕ} {y' : K} (h : l.Shows start stop m y) (hm : m ≤ m')
    (hy' : y' ≤ l.maxScroll (extent start stop m * l.rowHeight))
    (hstart' : start' * l.rowHeight ≤ y') : l.Covers start' m' y' := by
  refine ⟨hstart', ?_⟩
  rcases le_max_iff.mp hy' with hle | hle
  · left
    by_contra hne
    have : (0 : K) < start' * l.rowHeight :=
      mul_pos (Nat.cast_pos.mpr (Nat.pos_of_ne_zero hne)) l.rowHeight_pos
    linarith
  · right
    have hextent : extent start stop m ≤ m' := by
      rw [h.extent_eq]
      exact (min_le_right _ _).trans hm
    have := (rows_le_iff (l := l)).mpr hextent
    linarith

/-- The window ends behind its beginning. -/
theorem Covers.start_le_min (h : l.Covers start m y)
    (hstop : m ≤ stop ∨ y + l.viewportHeight ≤ stop * l.rowHeight) : start ≤ min stop m := by
  have hv := l.viewportHeight_pos
  obtain ⟨hstart, rfl | hrows⟩ := h
  · exact Nat.zero_le _
  · have hsm : start < m := (rows_lt_iff (l := l)).mp (by linarith)
    rcases hstop with hstop | hstop
    · omega
    · have hss : start < stop := (rows_lt_iff (l := l)).mp (by linarith)
      omega

/-- The window still begins above the scroll position when that is within the content. -/
theorem Covers.start_le_clamped (h : l.Covers start m y)
    (hstop : m ≤ stop ∨ y + l.viewportHeight ≤ stop * l.rowHeight) :
    start * l.rowHeight ≤ min y (l.maxScroll ((min stop m : ℕ) * l.rowHeight)) := by
  obtain ⟨hstart, hrows⟩ := h
  refine le_min hstart (le_max_iff.mpr ?_)
  rcases hrows with rfl | hrows
  · left
    rw [Nat.cast_zero, zero_mul]
  · right
    rcases le_total m stop with hms | hsm
    · rw [min_eq_right hms]
      linarith
    · rw [min_eq_left hsm]
      rcases hstop with hstop | hstop
      · rw [hsm.antisymm hstop]
        linarith
      · linarith

/-- Where the rows in view are rendered, the window begins where it can show them. -/
theorem Shows.covers_of_clamped (hy : 0 ≤ y)
    (h : l.Shows start stop m (min y (l.maxScroll (extent start stop m * l.rowHeight)))) :
    l.Covers start m y := by
  have hv := l.viewportHeight_pos
  have hstart := h.start_le (le_min hy (le_max_left _ _))
  refine ⟨hstart.trans (min_le_left _ _), ?_⟩
  rw [or_iff_not_imp_left]
  intro hne
  have hpos : (0 : K) < start * l.rowHeight :=
    mul_pos (Nat.cast_pos.mpr (Nat.pos_of_ne_zero hne)) l.rowHeight_pos
  -- so the content reaches a viewport below the beginning of the window
  rcases le_max_iff.mp (hstart.trans (min_le_right _ _)) with hle | hle
  · exact absurd hle (not_le.mpr hpos)
  · have hextent : extent start stop m ≤ m := by
      rw [h.extent_eq]
      exact min_le_right _ _
    have := (rows_le_iff (l := l)).mpr hextent
    linarith

variable [FloorRing K]

/-- What is in view at a position above the end of the rows. -/
theorem exists_inView (hy : 0 ≤ y) (hlt : y < m * l.rowHeight) : ∃ i < m, l.InView y i := by
  have hh := l.rowHeight_pos
  have hle : (⌊y / l.rowHeight⌋₊ : K) * l.rowHeight ≤ y := by
    rw [← le_div_iff₀ hh]
    exact Nat.floor_le (div_nonneg hy hh.le)
  have hgt : y < (⌊y / l.rowHeight⌋₊ + 1) * l.rowHeight := by
    rw [← div_lt_iff₀ hh]
    exact Nat.lt_floor_add_one _
  refine ⟨⌊y / l.rowHeight⌋₊, ?_, ?_, hgt⟩
  · exact rows_lt_iff.mp (hle.trans_lt hlt)
  · have := l.viewportHeight_pos
    linarith

/-- **When the rows in view are rendered**, if the window ends behind the rows or below the
viewport. -/
theorem shows_iff_covers (hy : 0 ≤ y) (hm : 0 < m)
    (hstop : m ≤ stop ∨ y + l.viewportHeight ≤ stop * l.rowHeight) :
    l.Shows start stop m (min y (l.maxScroll (extent start stop m * l.rowHeight))) ↔
      l.Covers start m y := by
  constructor
  · exact Shows.covers_of_clamped hy
  · intro h
    have hextent : extent start stop m = min stop m := max_eq_right (h.start_le_min hstop)
    have hbelow := h.start_le_clamped hstop
    rw [hextent]
    refine ⟨fun i him hi => ⟨?_, ?_⟩, ?_⟩
    · have hlt : (start : K) * l.rowHeight < (i + 1 : ℕ) * l.rowHeight := by
        rw [Nat.cast_succ]
        exact hbelow.trans_lt hi.2
      exact Nat.lt_succ_iff.mp (rows_lt_iff.mp hlt)
    · rcases hstop with hstop | hstop
      · omega
      · have hlt : (i : K) * l.rowHeight < stop * l.rowHeight := by
          have := hi.1
          have := min_le_left y (l.maxScroll ((min stop m : ℕ) * l.rowHeight))
          linarith
        exact rows_lt_iff.mp hlt
    · -- a row is in view, since the content does not go on behind the rows
      apply exists_inView (le_min hy (le_max_left _ _))
      refine (min_le_right _ _).trans_lt (max_lt ?_ ?_)
      · exact mul_pos (Nat.cast_pos.mpr hm) l.rowHeight_pos
      · have := (rows_le_iff (l := l)).mpr (min_le_right stop m)
        have := l.viewportHeight_pos
        linarith

end RowLayout

end UnisetPanel
