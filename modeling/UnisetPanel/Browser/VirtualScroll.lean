/-
  The virtual scroll of the sensor table (`20-ionc-renderer.js`).

  Of the sensors that are to be shown only the rows from `startIndex` to `endIndex`
  are in the table, behind a spacer.  `updateVisibleRows` computes the two from the
  scroll position when the user scrolls and when more sensors arrive.  `togglePin`
  and `unpinAll` change which sensors are to be shown and render them between the
  old two, so a table that was scrolled down may be left with a spacer alone when a
  sensor is pinned (`not_throughout_pinned`).  All is well exactly if the rows to be
  shown then reach at least a viewport below the beginning of the window, and the
  window begins above the scroll position (`throughout_rowsInView_iff`).  Scrolling
  does no harm, nor does loading where there are rows (`Inv.keeps_loadedMore`).

  Each row is as high as any other, also the one that says there are no sensors, and
  the table is all there is in the viewport.  The browser keeps the scroll position
  within the content; the event that this causes is one of `scroll` again.  The
  panels of `TabPanels` have rows of 32 pixels and whole positions; there the two
  definitions of `updateVisibleRows` agree (`table_updateVisibleRows`).
-/
import UnisetPanel.RowWindow
import UnisetPanel.Machine
import UnisetPanel.Browser.TabPanels
import Mathlib.Algebra.Order.Floor.Semifield
import Mathlib.Data.Rat.Floor

namespace UnisetPanel

/-- A sensor table with the pins of its object, and what is in its viewport. -/
structure VirtualScroll where
  table : IoncTable
  pinned : List ℤ
  /-- `scrollTop` of the viewport -/
  scrollTop : ℚ
  /-- the height of the spacer -/
  spacer : ℚ
  body : TableBody

/-- What happens to the table. -/
inductive VirtualScrollAction where
  /-- the viewport was scrolled, and a frame is drawn -/
  | scroll (scrollTop : ℚ)
  | togglePin (sensorId : ℤ)
  | unpinAll
  /-- `loadMoreSensors` has its response, and these are let through by the filters of the page -/
  | loadedMore (newSensors : List IoncSensor) (hasMore : Bool)
  | loadMoreFailed

namespace TableBody

/-- The sensors of the rows. -/
def sensors : TableBody → List IoncSensor
  | rows sensors => sensors.map Prod.fst
  | loading | error _ | empty => []

/-- How many rows there are; a message is one. -/
def length : TableBody → ℕ
  | rows sensors => sensors.length
  | loading | error _ | empty => 1

@[simp] theorem sensors_rows (sensors : List (IoncSensor × Bool)) :
    (rows sensors).sensors = sensors.map Prod.fst := rfl

@[simp] theorem length_rows (sensors : List (IoncSensor × Bool)) :
    (rows sensors).length = sensors.length := rfl

end TableBody

namespace VirtualScroll

variable (l : RowLayout ℚ) (v : VirtualScroll)

/-- The renderer of the table over a page. -/
def view (page : Page) : IoncView := ⟨page, v.table, v.pinned⟩

/-- `visibleRows`. -/
def visibleRows : ℕ := ⌈l.viewportHeight / l.rowHeight⌉₊

/-- `startIndex` for a scroll position. -/
def firstRow (scrollTop : ℚ) : ℕ := ⌊scrollTop / l.rowHeight⌋₊ - IoncView.bufferRows

/-- The sensors that are to be shown. -/
def sensorsToShow : List IoncSensor :=
  if v.table.filter = "" ∧ v.pinned ≠ [] then
    v.table.allSensors.filter fun s => s.id ∈ v.pinned
  else v.table.allSensors

/-- `renderVisibleSensors`. -/
def renderVisibleSensors : VirtualScroll :=
  { v with spacer := v.table.startIndex * l.rowHeight, body := v.table.body v.pinned }

/-- `updateVisibleRows`. -/
def updateVisibleRows : VirtualScroll :=
  renderVisibleSensors l
    { v with table := { v.table with
        startIndex := firstRow l v.scrollTop
        endIndex := min v.table.allSensors.length
          (firstRow l v.scrollTop + visibleRows l + 2 * IoncView.bufferRows) } }

/-- The height of what is in the viewport. -/
def contentHeight : ℚ := v.spacer + v.body.length * l.rowHeight

/-- The browser keeps the scroll position within the content. -/
def settle : VirtualScroll :=
  { v with scrollTop := min v.scrollTop (l.maxScroll (v.contentHeight l)) }

/-- The renderer waits for a chunk, or no longer. -/
def setLoading (isLoadingChunk : Bool) : VirtualScroll :=
  { v with table := { v.table with isLoadingChunk := isLoadingChunk } }

/-- `checkInfiniteScroll`, up to the request of `loadMoreSensors`. -/
def checkInfiniteScroll : VirtualScroll :=
  if v.table.isLoadingChunk || !v.table.hasMore then v
  else
    let scrollBottom := v.scrollTop + l.viewportHeight
    let totalHeight := v.table.allSensors.length * l.rowHeight
    if totalHeight - scrollBottom < 200 then v.setLoading true else v

/-- Other sensors are pinned. -/
def setPinned (pinned : List ℤ) : VirtualScroll := { v with pinned := pinned }

/-- `togglePin`. -/
def togglePin (sensorId : ℤ) : VirtualScroll :=
  (v.setPinned ((v.view []).toggled sensorId)).renderVisibleSensors l

/-- `unpinAll`. -/
def unpinAll : VirtualScroll := (v.setPinned []).renderVisibleSensors l

/-- What `loadMoreSensors` adds, from its response on: the sensors that are not there yet. -/
def withMore (newSensors : List IoncSensor) (hasMore : Bool) : VirtualScroll :=
  let uniqueNewSensors := newSensors.filter fun s => s.id ∉ v.table.allSensors.map IoncSensor.id
  { v with table := { v.table with
      allSensors := v.table.allSensors ++ uniqueNewSensors
      hasMore := hasMore
      isLoadingChunk := false } }

/-- One step. -/
def step : VirtualScrollAction → Option VirtualScroll
  | .scroll y =>
    if 0 ≤ y ∧ y ≤ l.maxScroll (v.contentHeight l) then
      some (checkInfiniteScroll l (settle l (updateVisibleRows l { v with scrollTop := y })))
    else none
  | .togglePin sensorId => some (settle l (v.togglePin l sensorId))
  | .unpinAll => some (settle l (v.unpinAll l))
  | .loadedMore newSensors hasMore =>
    if v.table.isLoadingChunk then
      some (settle l ((v.withMore newSensors hasMore).updateVisibleRows l))
    else none
  | .loadMoreFailed => if v.table.isLoadingChunk then some (v.setLoading false) else none

/-- A table whose sensors were loaded, before they are drawn. -/
def loaded (filter : String) (sensors : List IoncSensor) (totalCount : ℕ) (hasMore : Bool)
    (pinned : List ℤ) : VirtualScroll :=
  ⟨⟨filter, sensors, 0, 0, totalCount, false, hasMore, false⟩, pinned, 0, 0, .loading⟩

/-- The runs of a table, once its sensors were loaded. -/
def machine (filter : String) (sensors : List IoncSensor) (totalCount : ℕ) (hasMore : Bool)
    (pinned : List ℤ) : Machine VirtualScroll VirtualScrollAction where
  init := settle l ((loaded filter sensors totalCount hasMore pinned).updateVisibleRows l)
  step := step l

/-- There is a row of the sensor in the slot `i`. -/
def RendersAt (i : ℕ) (s : IoncSensor) : Prop :=
  ∃ k : ℕ, v.body.sensors[k]? = some s ∧ v.spacer + k * l.rowHeight = i * l.rowHeight

/-- **The rows in view are there**: each in its slot, and one at least if there is a sensor to be
shown. -/
def RowsInView : Prop :=
  (∀ i s, v.sensorsToShow[i]? = some s → l.InView v.scrollTop i → v.RendersAt l i s) ∧
    (v.sensorsToShow ≠ [] → ∃ i s, v.sensorsToShow[i]? = some s ∧ l.InView v.scrollTop i ∧
      v.RendersAt l i s)

/-- There are no rows, or a window that begins there can show them from the scroll position on. -/
def Covered (startIndex : ℕ) : Prop :=
  v.sensorsToShow = [] ∨ l.Covers startIndex v.sensorsToShow.length v.scrollTop

instance (startIndex : ℕ) : Decidable (v.Covered l startIndex) :=
  inferInstanceAs (Decidable (_ ∨ _ ∧ (_ ∨ _)))

/-- The steps that keep the rows in view.  When a sensor is pinned or unpinned, the sensors to be
shown then have to be covered by the window there is; when more arrive, by one from 10 rows above
the scroll position. -/
def Keeps : VirtualScrollAction → Prop
  | .scroll _ | .loadMoreFailed => True
  | .togglePin sensorId =>
    (v.setPinned ((v.view []).toggled sensorId)).Covered l v.table.startIndex
  | .unpinAll => (v.setPinned []).Covered l v.table.startIndex
  | .loadedMore newSensors hasMore =>
    (v.withMore newSensors hasMore).Covered l (firstRow l v.scrollTop)

instance : (a : VirtualScrollAction) → Decidable (v.Keeps l a)
  | .scroll _ | .loadMoreFailed => inferInstanceAs (Decidable True)
  | .togglePin _ | .unpinAll | .loadedMore _ _ => inferInstanceAs (Decidable (Covered _ _ _))

/-! ### What is rendered -/

variable {l v}

/-- The rows of the window are in the table. -/
theorem body_eq (h : v.sensorsToShow ≠ []) :
    v.table.body v.pinned = .rows (((v.sensorsToShow.drop v.table.startIndex).take
      (v.table.endIndex - v.table.startIndex)).map fun s => (s, decide (s.id ∈ v.pinned))) :=
  if_neg h

theorem getElem?_body (h : v.sensorsToShow ≠ []) (k : ℕ) :
    (v.table.body v.pinned).sensors[k]? =
      if v.table.startIndex + k < v.table.endIndex then v.sensorsToShow[v.table.startIndex + k]?
      else none := by
  rw [body_eq h, TableBody.sensors_rows, List.map_map, Function.comp_def, List.map_id',
    List.getElem?_take, List.getElem?_drop]
  congr 1
  rw [eq_iff_iff]
  omega

/-- How high the content is once the sensors are rendered. -/
theorem contentHeight_renderVisibleSensors (h : v.sensorsToShow ≠ []) :
    (v.renderVisibleSensors l).contentHeight l =
      RowLayout.extent v.table.startIndex v.table.endIndex v.sensorsToShow.length *
        l.rowHeight := by
  show (v.table.startIndex : ℚ) * l.rowHeight + (v.table.body v.pinned).length * l.rowHeight = _
  rw [body_eq h, TableBody.length_rows, List.length_map, List.length_take, List.length_drop, ← add_mul]
  congr 1
  norm_cast
  unfold RowLayout.extent
  omega

/-- A row is in its slot just if it is one of the window. -/
theorem rendersAt_renderVisibleSensors {i : ℕ} {s : IoncSensor} {y : ℚ}
    (hs : v.sensorsToShow[i]? = some s) :
    RendersAt l { v.renderVisibleSensors l with scrollTop := y } i s ↔
      v.table.startIndex ≤ i ∧ i < v.table.endIndex := by
  have hne : v.sensorsToShow ≠ [] := by
    intro hnil
    rw [hnil] at hs
    exact absurd hs (by simp)
  show (∃ k : ℕ, (v.table.body v.pinned).sensors[k]? = some s ∧
    (v.table.startIndex : ℚ) * l.rowHeight + k * l.rowHeight = i * l.rowHeight) ↔ _
  constructor
  · rintro ⟨k, hk, hslot⟩
    rw [← add_mul, mul_left_inj' l.rowHeight_pos.ne'] at hslot
    have hi : v.table.startIndex + k = i := by exact_mod_cast hslot
    rw [getElem?_body hne] at hk
    split_ifs at hk with hlt
    omega
  · rintro ⟨hstart, hend⟩
    have hi : v.table.startIndex + (i - v.table.startIndex) = i := by omega
    refine ⟨i - v.table.startIndex, ?_, ?_⟩
    · rw [getElem?_body hne, hi, if_pos hend, hs]
    · rw [← add_mul]
      congr 1
      exact_mod_cast hi

/-- **What is in view** of rendered sensors. -/
theorem rowsInView_renderVisibleSensors {y : ℚ} :
    RowsInView l { v.renderVisibleSensors l with scrollTop := y } ↔
      v.sensorsToShow = [] ∨ l.Shows v.table.startIndex v.table.endIndex v.sensorsToShow.length y := by
  show (∀ i s, v.sensorsToShow[i]? = some s → l.InView y i →
      RendersAt l { v.renderVisibleSensors l with scrollTop := y } i s) ∧
    (v.sensorsToShow ≠ [] → ∃ i s, v.sensorsToShow[i]? = some s ∧ l.InView y i ∧
      RendersAt l { v.renderVisibleSensors l with scrollTop := y } i s) ↔ _
  constructor
  · rintro ⟨hrows, hsome⟩
    by_cases hnil : v.sensorsToShow = []
    · exact Or.inl hnil
    · obtain ⟨i, s, hs, hi, -⟩ := hsome hnil
      refine Or.inr ⟨fun j hj hview => ?_, i, (List.getElem?_eq_some_iff.mp hs).1, hi⟩
      have hget := List.getElem?_eq_getElem hj
      exact (rendersAt_renderVisibleSensors hget).mp (hrows j _ hget hview)
  · rintro (hnil | ⟨hrows, i, hi, hview⟩)
    · rw [hnil]
      exact ⟨fun i s hs => absurd hs (by simp), fun hne => absurd rfl hne⟩
    · have hget := List.getElem?_eq_getElem hi
      refine ⟨fun j s hs hj => ?_, fun _ => ⟨i, _, hget, hview, ?_⟩⟩
      · have hj' := hrows j (List.getElem?_eq_some_iff.mp hs).1 hj
        exact (rendersAt_renderVisibleSensors hs).mpr hj'
      · exact (rendersAt_renderVisibleSensors hget).mpr (hrows i hi hview)

/-! ### The window -/

variable (l) in
/-- The window begins at most 10 rows above the scroll position, and ends 20 rows and a viewport
behind its beginning, or with the sensors. -/
structure Window (v : VirtualScroll) : Prop where
  nonneg : 0 ≤ v.scrollTop
  near : v.scrollTop < (v.table.startIndex + IoncView.bufferRows + 1) * l.rowHeight
  endIndex : v.table.endIndex = min v.table.allSensors.length
    (v.table.startIndex + visibleRows l + 2 * IoncView.bufferRows)

theorem length_sensorsToShow_le : v.sensorsToShow.length ≤ v.table.allSensors.length := by
  unfold sensorsToShow
  split_ifs
  · exact List.length_filter_le _ _
  · exact le_rfl

/-- The window ends behind the rows to be shown, or below the viewport. -/
theorem Window.length_le (h : v.Window l) : v.sensorsToShow.length ≤ v.table.endIndex ∨
    v.scrollTop + l.viewportHeight ≤ v.table.endIndex * l.rowHeight := by
  have hshow := v.length_sensorsToShow_le
  rcases le_total v.table.allSensors.length
    (v.table.startIndex + visibleRows l + 2 * IoncView.bufferRows) with hle | hle
  · left
    rw [h.endIndex, min_eq_left hle]
    exact hshow
  · right
    rw [h.endIndex, min_eq_right hle]
    have hnear := h.near
    have hvisible : l.viewportHeight ≤ visibleRows l * l.rowHeight := by
      rw [← div_le_iff₀ l.rowHeight_pos]
      exact Nat.le_ceil _
    have hh := l.rowHeight_pos
    unfold IoncView.bufferRows at hnear ⊢
    push_cast at hnear ⊢
    linarith

/-- The window of `updateVisibleRows`. -/
theorem window_updateVisibleRows (h : 0 ≤ v.scrollTop) : (v.updateVisibleRows l).Window l := by
  refine ⟨h, ?_, rfl⟩
  show v.scrollTop < ((firstRow l v.scrollTop : ℕ) + IoncView.bufferRows + 1) * l.rowHeight
  have hlt := Nat.lt_floor_add_one (v.scrollTop / l.rowHeight)
  rw [div_lt_iff₀ l.rowHeight_pos] at hlt
  have hle : ⌊v.scrollTop / l.rowHeight⌋₊ ≤ firstRow l v.scrollTop + IoncView.bufferRows := by
    unfold firstRow
    omega
  refine hlt.trans_le (mul_le_mul_of_nonneg_right ?_ l.rowHeight_pos.le)
  exact_mod_cast Nat.succ_le_succ hle

/-- It begins above the scroll position. -/
theorem firstRow_le {y : ℚ} (h : 0 ≤ y) : (firstRow l y : ℚ) * l.rowHeight ≤ y := by
  have hfloor := Nat.floor_le (div_nonneg h l.rowHeight_pos.le)
  rw [le_div_iff₀ l.rowHeight_pos] at hfloor
  refine le_trans (mul_le_mul_of_nonneg_right ?_ l.rowHeight_pos.le) hfloor
  exact_mod_cast Nat.sub_le _ _

/-- **When the rows are in view** after they were rendered. -/
theorem Window.rowsInView_iff (h : v.Window l) :
    (settle l (v.renderVisibleSensors l)).RowsInView l ↔ v.Covered l v.table.startIndex := by
  unfold settle Covered
  rw [rowsInView_renderVisibleSensors]
  refine or_congr_right' fun hne => ?_
  rw [contentHeight_renderVisibleSensors hne]
  exact l.shows_iff_covers h.nonneg (List.length_pos_iff.mpr hne) h.length_le

/-! ### Rows of 32 pixels -/

/-- `Math.ceil`. -/
theorem visibleRows_eq (hrow : l.rowHeight = IoncView.rowHeight) {clientHeight : ℕ}
    (hheight : l.viewportHeight = clientHeight) :
    visibleRows l = (clientHeight + IoncView.rowHeight - 1) / IoncView.rowHeight := by
  unfold visibleRows
  rw [hrow, hheight]
  refine eq_of_forall_ge_iff fun k => ?_
  have hpos : (0 : ℚ) < (IoncView.rowHeight : ℕ) := by norm_num [IoncView.rowHeight]
  rw [Nat.ceil_le, div_le_iff₀ hpos]
  norm_cast
  unfold IoncView.rowHeight
  omega

/-- **The panels have the same window**, where their viewport has this height and position. -/
theorem table_updateVisibleRows {page : Page} {o : String} {viewport : Element}
    (hviewport : page.getElementById (IoncElement.viewport.id o) = some viewport)
    (hrow : l.rowHeight = IoncView.rowHeight) (hheight : l.viewportHeight = viewport.clientHeight)
    (hscroll : v.scrollTop = viewport.scrollTop) :
    ((v.view page).updateVisibleRows o).table = (v.updateVisibleRows l).table := by
  have hrender : ∀ w : IoncView, (w.renderVisibleSensors o).table = w.table := by
    intro w
    unfold IoncView.renderVisibleSensors
    split <;> rfl
  have hfirst : firstRow l v.scrollTop =
      viewport.scrollTop / IoncView.rowHeight - IoncView.bufferRows := by
    unfold firstRow
    rw [hscroll, hrow, Nat.floor_div_eq_div]
  unfold IoncView.updateVisibleRows
  rw [show (v.view page).page.getElementById (IoncElement.viewport.id o) = some viewport from
    hviewport]
  show (IoncView.renderVisibleSensors o _).table = _
  rw [hrender, ← visibleRows_eq hrow hheight, ← hfirst]
  rfl

/-! ### One step -/

variable (l) in
/-- What holds after every step: what is rendered is the window, and the scroll position is within
the content. -/
structure Inv (v : VirtualScroll) : Prop where
  window : v.Window l
  le_maxScroll : v.scrollTop ≤ l.maxScroll (v.contentHeight l)
  spacer : v.spacer = v.table.startIndex * l.rowHeight
  body : v.body = v.table.body v.pinned

theorem Window.inv_settle (h : v.Window l) : Inv l (settle l (v.renderVisibleSensors l)) where
  window := by
    refine ⟨le_min h.nonneg (le_max_left _ _), ?_, h.endIndex⟩
    exact (min_le_left _ _).trans_lt h.near
  le_maxScroll := min_le_right _ _
  spacer := rfl
  body := rfl

/-- The window depends on nothing that pinning changes. -/
theorem Window.setPinned (h : v.Window l) (pinned : List ℤ) : (v.setPinned pinned).Window l :=
  ⟨h.nonneg, h.near, h.endIndex⟩

theorem Inv.setLoading (h : v.Inv l) (isLoadingChunk : Bool) :
    (v.setLoading isLoadingChunk).Inv l :=
  ⟨⟨h.window.nonneg, h.window.near, h.window.endIndex⟩, h.le_maxScroll, h.spacer, h.body⟩

theorem checkInfiniteScroll_eq :
    ∃ isLoadingChunk, v.checkInfiniteScroll l = v.setLoading isLoadingChunk := by
  unfold checkInfiniteScroll
  dsimp only
  split_ifs
  · exact ⟨_, rfl⟩
  · exact ⟨true, rfl⟩
  · exact ⟨_, rfl⟩

theorem Inv.renderVisibleSensors_eq (h : v.Inv l) : v.renderVisibleSensors l = v := by
  unfold renderVisibleSensors
  rw [← h.spacer, ← h.body]

theorem Inv.rowsInView_iff (h : v.Inv l) : v.RowsInView l ↔
    v.sensorsToShow = [] ∨
      l.Shows v.table.startIndex v.table.endIndex v.sensorsToShow.length v.scrollTop := by
  have hview := rowsInView_renderVisibleSensors (l := l) (v := v) (y := v.scrollTop)
  rw [h.renderVisibleSensors_eq] at hview
  exact hview

/-- Where the rows in view are there, and there are some, a window for any position in the content
can show them there, and with them any that are added. -/
theorem Inv.covers (h : v.Inv l) (hview : v.RowsInView l) (hne : v.sensorsToShow ≠ []) {m : ℕ}
    {y : ℚ} (hm : v.sensorsToShow.length ≤ m) (hy : 0 ≤ y)
    (hmax : y ≤ l.maxScroll (v.contentHeight l)) : l.Covers (firstRow l y) m y := by
  have hshows := (h.rowsInView_iff.mp hview).resolve_left hne
  have hheight := contentHeight_renderVisibleSensors (l := l) hne
  rw [h.renderVisibleSensors_eq] at hheight
  rw [hheight] at hmax
  exact hshows.covers hm hmax (firstRow_le hy)

/-- **Scrolling keeps the rows in view.** -/
theorem Inv.covered_scroll (h : v.Inv l) (hview : v.RowsInView l) {y : ℚ} (hy : 0 ≤ y)
    (hmax : y ≤ l.maxScroll (v.contentHeight l)) :
    Covered l { v with scrollTop := y } (firstRow l y) := by
  by_cases hnil : v.sensorsToShow = []
  · exact Or.inl hnil
  · exact Or.inr (h.covers hview hnil le_rfl hy hmax)

theorem length_sensorsToShow_withMore (newSensors : List IoncSensor) (hasMore : Bool) :
    v.sensorsToShow.length ≤ (v.withMore newSensors hasMore).sensorsToShow.length := by
  unfold sensorsToShow withMore
  dsimp only
  split_ifs
  · rw [List.filter_append, List.length_append]
    exact Nat.le_add_right _ _
  · rw [List.length_append]
    exact Nat.le_add_right _ _

/-- **Loading more keeps the rows in view**, if there are some. -/
theorem Inv.keeps_loadedMore (h : v.Inv l) (hview : v.RowsInView l) (hne : v.sensorsToShow ≠ [])
    (newSensors : List IoncSensor) (hasMore : Bool) : v.Keeps l (.loadedMore newSensors hasMore) :=
  Or.inr (h.covers hview hne (length_sensorsToShow_withMore newSensors hasMore) h.window.nonneg
    h.le_maxScroll)

/-- What a step can do. -/
theorem step_eq_some {a : VirtualScrollAction} {t : VirtualScroll} (h : v.step l a = some t) :
    match a with
    | .scroll y => (0 ≤ y ∧ y ≤ l.maxScroll (v.contentHeight l)) ∧ ∃ isLoadingChunk,
        t = (settle l (updateVisibleRows l { v with scrollTop := y })).setLoading isLoadingChunk
    | .togglePin sensorId => t = settle l (v.togglePin l sensorId)
    | .unpinAll => t = settle l (v.unpinAll l)
    | .loadedMore newSensors hasMore =>
        t = settle l ((v.withMore newSensors hasMore).updateVisibleRows l)
    | .loadMoreFailed => t = v.setLoading false := by
  cases a with
  | scroll y =>
    obtain ⟨hy, h⟩ := Option.ite_none_right_eq_some.mp h
    obtain ⟨isLoadingChunk, heq⟩ := checkInfiniteScroll_eq (l := l)
      (v := settle l (updateVisibleRows l { v with scrollTop := y }))
    exact ⟨hy, isLoadingChunk, (Option.some.inj h).symm.trans heq⟩
  | togglePin sensorId => exact (Option.some.inj h).symm
  | unpinAll => exact (Option.some.inj h).symm
  | loadedMore newSensors hasMore =>
    obtain ⟨-, h⟩ := Option.ite_none_right_eq_some.mp h
    exact (Option.some.inj h).symm
  | loadMoreFailed =>
    obtain ⟨-, h⟩ := Option.ite_none_right_eq_some.mp h
    exact (Option.some.inj h).symm

theorem Inv.step {a : VirtualScrollAction} {t : VirtualScroll} (hs : v.Inv l)
    (h : v.step l a = some t) : t.Inv l := by
  have hcases := step_eq_some h
  cases a with
  | scroll y =>
    obtain ⟨⟨hy, -⟩, isLoadingChunk, rfl⟩ := hcases
    exact (window_updateVisibleRows (v := { v with scrollTop := y }) hy).inv_settle.setLoading _
  | togglePin sensorId =>
    obtain rfl : t = settle l (v.togglePin l sensorId) := hcases
    exact (hs.window.setPinned _).inv_settle
  | unpinAll =>
    obtain rfl : t = settle l (v.unpinAll l) := hcases
    exact (hs.window.setPinned _).inv_settle
  | loadedMore newSensors hasMore =>
    obtain rfl : t = settle l ((v.withMore newSensors hasMore).updateVisibleRows l) := hcases
    have hwindow := window_updateVisibleRows (l := l)
      (v := v.withMore newSensors hasMore) hs.window.nonneg
    exact hwindow.inv_settle
  | loadMoreFailed =>
    obtain rfl : t = v.setLoading false := hcases
    exact hs.setLoading false

/-- **Exactly when a step keeps the rows in view.** -/
theorem step_rowsInView_iff {a : VirtualScrollAction} {t : VirtualScroll} (hs : v.Inv l)
    (hview : v.RowsInView l) (h : v.step l a = some t) : t.RowsInView l ↔ v.Keeps l a := by
  have hcases := step_eq_some h
  cases a with
  | scroll y =>
    obtain ⟨⟨hy, hmax⟩, isLoadingChunk, rfl⟩ := hcases
    have hwindow := window_updateVisibleRows (l := l) (v := { v with scrollTop := y }) hy
    exact iff_of_true (hwindow.rowsInView_iff.mpr (hs.covered_scroll hview hy hmax)) trivial
  | togglePin sensorId =>
    obtain rfl : t = settle l (v.togglePin l sensorId) := hcases
    exact (hs.window.setPinned _).rowsInView_iff
  | unpinAll =>
    obtain rfl : t = settle l (v.unpinAll l) := hcases
    exact (hs.window.setPinned _).rowsInView_iff
  | loadedMore newSensors hasMore =>
    obtain rfl : t = settle l ((v.withMore newSensors hasMore).updateVisibleRows l) := hcases
    have hwindow := window_updateVisibleRows (l := l)
      (v := v.withMore newSensors hasMore) hs.window.nonneg
    exact hwindow.rowsInView_iff
  | loadMoreFailed =>
    obtain rfl : t = v.setLoading false := hcases
    exact iff_of_true hview trivial

/-! ### Runs -/

section

variable (filter : String) (sensors : List IoncSensor) (totalCount : ℕ) (hasMore : Bool)
  (pinned : List ℤ)

/-- The rows are in view at first. -/
theorem init_spec : (machine l filter sensors totalCount hasMore pinned).init.Inv l ∧
    (machine l filter sensors totalCount hasMore pinned).init.RowsInView l := by
  have hwindow := window_updateVisibleRows (l := l)
    (v := loaded filter sensors totalCount hasMore pinned) le_rfl
  have hfirst : firstRow l 0 = 0 := by
    unfold firstRow
    rw [zero_div, Nat.floor_zero, Nat.zero_sub]
  refine ⟨hwindow.inv_settle, hwindow.rowsInView_iff.mpr (Or.inr ⟨firstRow_le le_rfl, ?_⟩)⟩
  exact Or.inl hfirst

/-- **Exactly when the rows in view are there throughout**: every step that pins, unpins or loads
leaves the sensors to be shown covered. -/
theorem throughout_rowsInView_iff {as : List VirtualScrollAction} {s : VirtualScroll}
    (hrun : (machine l filter sensors totalCount hasMore pinned).run
      (machine l filter sensors totalCount hasMore pinned).init as = some s) :
    (machine l filter sensors totalCount hasMore pinned).Throughout (RowsInView l) as ↔
      (machine l filter sensors totalCount hasMore pinned).EveryStep (Keeps l) as := by
  refine Machine.throughout_iff_everyStep (I := fun v => v.Inv l ∧ v.RowsInView l)
    (init_spec filter sensors totalCount hasMore pinned) ?_ (fun _ hs => hs.2) ?_ hrun
  · intro s a t hs hkeeps hstep
    exact ⟨hs.1.step hstep, (step_rowsInView_iff hs.1 hs.2 hstep).mpr hkeeps⟩
  · intro s a t hs hkeeps hstep hview
    exact hkeeps ((step_rowsInView_iff hs.1 hs.2 hstep).mp hview)

end

/-- Ten rows of 32 pixels. -/
def tenRows : RowLayout ℚ := ⟨32, 320, by norm_num, by norm_num⟩

/-- A table of a hundred sensors. -/
def hundredSensors : Machine VirtualScroll VirtualScrollAction :=
  machine tenRows "" ((List.range 100).map fun i => ⟨i, toString i, "AI"⟩) 100 false []

/-- Pinning a sensor at the top, and scrolling. -/
theorem throughout_pinnedAtTop :
    hundredSensors.Throughout (RowsInView tenRows) [.togglePin 3, .unpinAll, .scroll 640] := by
  have hguard : ((hundredSensors.guard (Keeps tenRows)).run hundredSensors.init
      [.togglePin 3, .unpinAll, .scroll 640]).isSome = true := by decide +kernel
  obtain ⟨s, hs⟩ := Option.isSome_iff_exists.mp hguard
  exact (throughout_rowsInView_iff _ _ _ _ _ (Machine.run_of_guard hs)).mpr
    (Machine.everyStep_of_run_guard hs)

/-- **A sensor is pinned down the table**, and nothing is left in view. -/
theorem not_throughout_pinned :
    ¬ hundredSensors.Throughout (RowsInView tenRows) [.scroll 640, .togglePin 0] := by
  intro h
  have hrun : ((hundredSensors.run hundredSensors.init [.scroll 640, .togglePin 0]).map
      fun s => (s.sensorsToShow.length, s.body)) = some (1, .rows []) := by decide +kernel
  obtain ⟨s, hs, hshown⟩ := Option.map_eq_some_iff.mp hrun
  obtain ⟨hlength, hbody⟩ := Prod.mk.inj hshown
  have hne : s.sensorsToShow ≠ [] := by
    intro hnil
    rw [hnil] at hlength
    exact absurd hlength (by decide)
  obtain ⟨i, sensor, -, -, k, hk, -⟩ := (h.last hs).2 hne
  rw [hbody] at hk
  exact absurd hk (by simp)

end VirtualScroll

end UnisetPanel
