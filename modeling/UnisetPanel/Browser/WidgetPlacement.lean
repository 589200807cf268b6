/-
  The place of a new widget on a dashboard (`findEmptyPosition` and `createWidget`,
  `62-dashboard-manager.js`).

  `createWidget` renders a widget whose position has no column, row, width or
  height with a default for it.  `findEmptyPosition` reads the same position
  without the defaults, and the bounds of its loops are then no numbers: such a
  widget takes up no cell, and a new one is laid over it
  (`not_placesApart_noPosition`).  If there is no room in the first 100 rows, the
  new widget goes to the top left corner, whatever is there.  Otherwise all is well
  (`placesApart_iff`, and `placesApart_iff_of_isComplete` where every position is
  complete).

  The widgets are on the grid; those at a free position are left out.
-/
import UnisetPanel.Grid

namespace UnisetPanel

open Grid

/-! ### The code -/

/-- `GRID_COLS`. -/
def gridCols : ℕ := 48

/-- `position` of a widget, what it has of it. -/
structure WidgetPosition where
  col : Option ℕ
  row : Option ℕ
  width : Option ℕ+
  height : Option ℕ+
  deriving DecidableEq

/-- A widget on the grid. -/
structure GridWidget where
  position : Option WidgetPosition
  deriving DecidableEq

/-- `{}`. -/
def WidgetPosition.empty : WidgetPosition := ⟨none, none, none, none⟩

/-- What a loop from `start`, below `start + length`, runs through; neither comparison holds of what
is not a number. -/
def loopRange : Option ℕ → Option ℕ+ → List ℕ
  | some start, some length => List.range' start length
  | _, _ => []

namespace GridWidget

variable (w : GridWidget)

/-- Where `createWidget` puts a widget. -/
def rendered : Rect :=
  let position := w.position.getD .empty
  ⟨position.col.getD 0, position.row.getD 0, position.width.getD 2, position.height.getD 1⟩

/-- The cells that `findEmptyPosition` adds to `occupied` for a widget. -/
def occupies : List (ℕ × ℕ) :=
  let position := w.position.getD .empty
  loopRange position.col position.width ×ˢ loopRange position.row position.height

end GridWidget

/-- A rectangle of this size at a position. -/
def rectAt (width height : ℕ+) (p : Position) : Rect := ⟨p.col, p.row, width, height⟩

/-- `occupied`. -/
def occupied (widgets : List GridWidget) : List (ℕ × ℕ) := widgets.flatMap GridWidget.occupies

/-- `fits`: no cell of the rectangle is occupied. -/
def fits (occupied : List (ℕ × ℕ)) (width height : ℕ+) (p : Position) : Bool :=
  (rectAt width height p).cells.all fun c => decide (c ∉ occupied)

/-- What the loops of `findEmptyPosition` find; the columns go up to `cols - width`. -/
def firstFit (widgets : List GridWidget) (width height : ℕ+) : Option Position :=
  (Position.reading 100 (gridCols + 1 - width)).find? (fits (occupied widgets) width height)

/-- `findEmptyPosition`. -/
def findEmptyPosition (widgets : List GridWidget) (width height : ℕ+) : Position :=
  (firstFit widgets width height).getD ⟨0, 0⟩

/-! ### What is promised -/

/-- **The new widget is inside the columns and apart from the others.** -/
def PlacesApart (widgets : List GridWidget) (width height : ℕ+) : Prop :=
  (findEmptyPosition widgets width height).col + width ≤ gridCols ∧
    ∀ w ∈ widgets,
      ¬ (rectAt width height (findEmptyPosition widgets width height)).Overlaps w.rendered

instance (widgets : List GridWidget) (width height : ℕ+) :
    Decidable (PlacesApart widgets width height) :=
  inferInstanceAs (Decidable (_ ∧ _))

/-- The position of the widget has all four fields. -/
def GridWidget.IsComplete (w : GridWidget) : Prop :=
  ∃ col row width height, w.position = some ⟨some col, some row, some width, some height⟩

/-- The position is in the first 100 rows, and a widget of this width there is inside the columns. -/
def InReach (width : ℕ+) (p : Position) : Prop := p.row < 100 ∧ p.col + width ≤ gridCols

/-- A position in reach is clear of all widgets, and every one before it is in the way of a widget
whose position is complete. -/
def HasRoom (widgets : List GridWidget) (width height : ℕ+) : Prop :=
  ∃ p, InReach width p ∧ (∀ w ∈ widgets, ¬ (rectAt width height p).Overlaps w.rendered) ∧
    ∀ q, InReach width q → q.Before p →
      ∃ w ∈ widgets, w.IsComplete ∧ (rectAt width height q).Overlaps w.rendered

/-! ### The search -/

section

variable {widgets : List GridWidget} {width height : ℕ+} {p : Position}

theorem GridWidget.IsComplete.occupies {w : GridWidget} (h : w.IsComplete) :
    w.occupies = w.rendered.cells := by
  obtain ⟨col, row, width, height, hposition⟩ := h
  unfold GridWidget.occupies GridWidget.rendered
  rw [hposition]
  rfl

/-- A widget with a part of a position takes up no cell. -/
theorem GridWidget.occupies_of_not_isComplete {w : GridWidget} (h : ¬ w.IsComplete) :
    w.occupies = [] := by
  unfold GridWidget.occupies
  rw [List.eq_nil_iff_forall_not_mem]
  intro c hc
  obtain ⟨hcol, hrow⟩ := List.mem_product.mp hc
  apply h
  -- a loop runs at all only with both of its fields
  cases hposition : w.position with
  | none =>
    rw [hposition] at hcol
    exact absurd hcol List.not_mem_nil
  | some position =>
    obtain ⟨col, row, width, height⟩ := position
    rw [hposition] at hcol hrow
    simp only [Option.getD_some] at hcol hrow
    unfold loopRange at hcol hrow
    split at hcol
    · split at hrow
      · exact ⟨_, _, _, _, hposition⟩
      · exact absurd hrow List.not_mem_nil
    · exact absurd hcol List.not_mem_nil

/-- The search sees the widgets whose positions are complete. -/
theorem fits_iff :
    fits (occupied widgets) width height p = true ↔
      ∀ w ∈ widgets, w.IsComplete → ¬ (rectAt width height p).Overlaps w.rendered := by
  unfold fits occupied
  simp only [List.all_eq_true, decide_eq_true_eq, List.mem_flatMap, not_exists, not_and]
  constructor
  · intro h w hw hcomplete hoverlaps
    obtain ⟨c, hc, hcw⟩ := Rect.overlaps_iff_exists_cell.mp hoverlaps
    apply h c hc w hw
    rw [hcomplete.occupies]
    exact hcw
  · intro h c hc w hw hcw
    by_cases hcomplete : w.IsComplete
    · rw [hcomplete.occupies] at hcw
      exact h w hw hcomplete (Rect.overlaps_iff_exists_cell.mpr ⟨c, hc, hcw⟩)
    · rw [GridWidget.occupies_of_not_isComplete hcomplete] at hcw
      exact absurd hcw List.not_mem_nil

theorem not_fits_iff :
    ¬ fits (occupied widgets) width height p = true ↔
      ∃ w ∈ widgets, w.IsComplete ∧ (rectAt width height p).Overlaps w.rendered := by
  rw [fits_iff]
  push Not
  rfl

theorem mem_reading_iff_inReach :
    p ∈ Position.reading 100 (gridCols + 1 - width) ↔ InReach width p := by
  rw [Position.mem_reading]
  unfold InReach
  have hw := width.pos
  omega

/-- **What the search finds**: the first position in reach where it sees no widget. -/
theorem firstFit_eq_some_iff :
    firstFit widgets width height = some p ↔
      InReach width p ∧ fits (occupied widgets) width height p = true ∧
        ∀ q, InReach width q → q.Before p → ¬ fits (occupied widgets) width height q = true := by
  unfold firstFit
  rw [find?_eq_some_iff_of_pairwise (fun _ _ => Position.Before.asymm)
    (Position.reading_pairwise 100 _)]
  simp only [mem_reading_iff_inReach]

theorem firstFit_eq_none_iff :
    firstFit widgets width height = none ↔
      ∀ q, InReach width q → ¬ fits (occupied widgets) width height q = true := by
  unfold firstFit
  rw [List.find?_eq_none]
  simp only [mem_reading_iff_inReach]

theorem findEmptyPosition_of_firstFit (h : firstFit widgets width height = some p) :
    findEmptyPosition widgets width height = p := by
  unfold findEmptyPosition
  rw [h, Option.getD_some]

/-- The position that `findEmptyPosition` falls back to is in reach. -/
theorem inReach_corner (hwidth : width ≤ gridCols) : InReach width ⟨0, 0⟩ := by
  constructor
  · decide
  · rw [Nat.zero_add]
    exact hwidth

/-- **Without room** in the first 100 rows, the new widget is laid over another. -/
theorem exists_overlaps_of_firstFit_eq_none (hwidth : width ≤ gridCols)
    (h : firstFit widgets width height = none) :
    ∃ w ∈ widgets,
      (rectAt width height (findEmptyPosition widgets width height)).Overlaps w.rendered := by
  have hcorner := firstFit_eq_none_iff.mp h _ (inReach_corner hwidth)
  obtain ⟨w, hw, -, hoverlaps⟩ := not_fits_iff.mp hcorner
  refine ⟨w, hw, ?_⟩
  unfold findEmptyPosition
  rw [h, Option.getD_none]
  exact hoverlaps

/-- The new widget is inside the columns at least. -/
theorem findEmptyPosition_col_le (hwidth : width ≤ gridCols) :
    (findEmptyPosition widgets width height).col + width ≤ gridCols := by
  cases h : firstFit widgets width height with
  | none =>
    unfold findEmptyPosition
    rw [h, Option.getD_none]
    exact (inReach_corner hwidth).2
  | some p =>
    rw [findEmptyPosition_of_firstFit h]
    exact (firstFit_eq_some_iff.mp h).1.2

/-! ### The place of a new widget -/

/-- Apart from the others is a position that the search finds and that is clear of all widgets. -/
theorem placesApart_iff_exists_firstFit (hwidth : width ≤ gridCols) :
    PlacesApart widgets width height ↔ ∃ p, firstFit widgets width height = some p ∧
      ∀ w ∈ widgets, ¬ (rectAt width height p).Overlaps w.rendered := by
  constructor
  · rintro ⟨-, hapart⟩
    cases h : firstFit widgets width height with
    | none =>
      obtain ⟨w, hw, hoverlaps⟩ := exists_overlaps_of_firstFit_eq_none hwidth h
      exact absurd hoverlaps (hapart w hw)
    | some p =>
      rw [findEmptyPosition_of_firstFit h] at hapart
      exact ⟨p, rfl, hapart⟩
  · rintro ⟨p, h, hclear⟩
    refine ⟨findEmptyPosition_col_le hwidth, ?_⟩
    rw [findEmptyPosition_of_firstFit h]
    exact hclear

/-- **When the new widget is apart from the others**: exactly if a position in the first 100 rows is
clear of all widgets and every one before it is in the way of a widget whose position is
complete. -/
theorem placesApart_iff (hwidth : width ≤ gridCols) :
    PlacesApart widgets width height ↔ HasRoom widgets width height := by
  rw [placesApart_iff_exists_firstFit hwidth]
  constructor
  · rintro ⟨p, h, hclear⟩
    obtain ⟨hreach, -, hfirst⟩ := firstFit_eq_some_iff.mp h
    exact ⟨p, hreach, hclear, fun q hq hqp => not_fits_iff.mp (hfirst q hq hqp)⟩
  · rintro ⟨p, hreach, hclear, hbefore⟩
    -- the search sees fewer widgets than there are, so it does not go past `p`
    have hfits : fits (occupied widgets) width height p = true :=
      fits_iff.mpr fun w hw _ => hclear w hw
    have hfirst : ∀ q, InReach width q → q.Before p →
        ¬ fits (occupied widgets) width height q = true :=
      fun q hq hqp => not_fits_iff.mpr (hbefore q hq hqp)
    exact ⟨p, firstFit_eq_some_iff.mpr ⟨hreach, hfits, hfirst⟩, hclear⟩

/-- Beside a widget with a complete position. -/
theorem placesApart_besideComplete :
    PlacesApart [⟨some ⟨some 0, some 0, some 2, some 1⟩⟩] 2 1 := by
  apply (placesApart_iff (by decide)).mpr
  refine ⟨⟨2, 0⟩, ⟨by decide, by decide⟩, by decide, fun q _ hbefore => ?_⟩
  refine ⟨_, List.mem_singleton_self _, ⟨0, 0, 2, 1, rfl⟩, ?_⟩
  show (q.col < 0 + 2 ∧ 0 < q.col + 2) ∧ q.row < 0 + 1 ∧ 0 < q.row + 1
  have hq : q.row < 0 ∨ q.row = 0 ∧ q.col < 2 := hbefore
  omega

/-- A widget without a position, at the top left corner, and a new one over it. -/
theorem not_placesApart_noPosition : ¬ PlacesApart [⟨none⟩] 2 1 := by decide

/-- Where every position is complete, any room in the first 100 rows is found. -/
theorem placesApart_iff_of_isComplete (hwidth : width ≤ gridCols)
    (hcomplete : ∀ w ∈ widgets, w.IsComplete) :
    PlacesApart widgets width height ↔
      ∃ p, InReach width p ∧ ∀ w ∈ widgets, ¬ (rectAt width height p).Overlaps w.rendered := by
  -- the search sees all widgets
  have hfits {p : Position} : fits (occupied widgets) width height p = true ↔
      ∀ w ∈ widgets, ¬ (rectAt width height p).Overlaps w.rendered := by
    rw [fits_iff]
    exact ⟨fun h w hw => h w hw (hcomplete w hw), fun h w hw _ => h w hw⟩
  rw [placesApart_iff_exists_firstFit hwidth]
  constructor
  · rintro ⟨p, h, hclear⟩
    exact ⟨p, (firstFit_eq_some_iff.mp h).1, hclear⟩
  · rintro ⟨p, hreach, hclear⟩
    cases h : firstFit widgets width height with
    | none => exact absurd (hfits.mpr hclear) (firstFit_eq_none_iff.mp h p hreach)
    | some q => exact ⟨q, rfl, hfits.mp (firstFit_eq_some_iff.mp h).2.1⟩

end

end UnisetPanel
