/-
  The tab panels of the page, and what the renderer of an IONC object does to
  them (`20-ionc-renderer.js`).

  The ids of the elements of a panel are made of the name of the object alone,
  and `document.getElementById` returns the first element of the page with an
  id.  So the renderer of a tab works on the first panel of an IONC object of
  that name, which is another one where the same name is open on another server
  before it (`not_undisturbed_panel`).  `getElementInTab` was written for this and is
  used in two other places of the renderer.  A tab is drawn in its own panel,
  and no other panel changes, exactly if its panel is the first of its name
  (`undisturbed_iff_first`).

  A panel has the elements of the sensor table, if it has one.  A row is its
  sensor and whether that is pinned.
-/
import UnisetPanel.Browser.ListFilters

namespace UnisetPanel

/-- What a table body shows. -/
inductive TableBody where
  | loading
  | error (message : String)
  | empty
  | rows (sensors : List (IoncSensor × Bool))
  deriving DecidableEq, Repr

/-- An element of a panel. -/
structure Element where
  body : TableBody
  textContent : String
  /-- whether `style.display` shows it -/
  displayed : Bool
  /-- `style.height` -/
  height : ℕ
  scrollTop : ℕ
  clientHeight : ℕ
  deriving DecidableEq, Repr

/-- The elements of the sensor table that the renderer looks up. -/
inductive IoncElement where
  | count
  | viewport
  | spacer
  | unpin
  | tbody
  | loadingMore
  deriving DecidableEq, Repr

namespace IoncElement

/-- What the id begins with. -/
def idPrefix : IoncElement → String
  | count => "ionc-sensor-count-"
  | viewport => "ionc-sensors-viewport-"
  | spacer => "ionc-sensors-spacer-"
  | unpin => "ionc-unpin-"
  | tbody => "ionc-sensors-tbody-"
  | loadingMore => "ionc-loading-more-"

/-- The id in the panel of an object. -/
def id (e : IoncElement) (objectName : String) : String := e.idPrefix ++ objectName

/-- The elements in document order. -/
def all : List IoncElement := [count, viewport, spacer, unpin, tbody, loadingMore]

/-- `createSensorsSection`. -/
def new (clientHeight : ℕ) (e : IoncElement) : Element where
  body := .loading
  textContent := if e = count then "0" else ""
  displayed := e ≠ unpin && e ≠ loadingMore
  height := 0
  scrollTop := 0
  clientHeight := clientHeight

end IoncElement

/-- The panel of a tab, with its sensor table if the object is of that type. -/
structure TabPanel where
  serverId : String
  objectName : String
  elements : Option (IoncElement → Element)

/-- The panels in document order. -/
abbrev Page := List TabPanel

namespace TabPanel

variable (p : TabPanel)

/-- Which of its elements has the id. -/
def element (id : String) : Option IoncElement :=
  if p.elements.isSome then IoncElement.all.find? fun e => e.id p.objectName = id else none

/-- The element with the id. -/
def find (id : String) : Option Element :=
  (p.element id).bind fun e => p.elements.map fun elements => elements e

/-- An element is changed. -/
def modify (e : IoncElement) (f : Element → Element) : TabPanel :=
  { p with elements := p.elements.map fun elements => Function.update elements e (f (elements e)) }

end TabPanel

namespace Page

/-- `document.getElementById`. -/
def getElementById (page : Page) (id : String) : Option Element :=
  page.findSome? fun p => p.find id

/-- The element that `document.getElementById` returns is changed. -/
def modifyById (id : String) (f : Element → Element) : Page → Page
  | [] => []
  | p :: page =>
    match p.element id with
    | some e => p.modify e f :: page
    | none => p :: modifyById id f page

end Page

/-- What the operations on the sensor table use of `IONotifyControllerRenderer`. -/
structure IoncTable where
  filter : String
  allSensors : List IoncSensor
  startIndex : ℕ
  endIndex : ℕ
  totalCount : ℕ
  loading : Bool
  hasMore : Bool
  isLoadingChunk : Bool

/-- The page, a renderer, and the pins that `localStorage` has under the name of its object. -/
structure IoncView where
  page : Page
  table : IoncTable
  pinned : List ℤ

namespace IoncTable

/-- What `renderVisibleSensors` writes into the table. -/
def body (table : IoncTable) (pinned : List ℤ) : TableBody :=
  let sensorsToShow := if table.filter = "" ∧ pinned ≠ [] then
      table.allSensors.filter fun s => s.id ∈ pinned
    else table.allSensors
  if sensorsToShow = [] then .empty
  else .rows (((sensorsToShow.drop table.startIndex).take (table.endIndex - table.startIndex)).map
    fun s => (s, s.id ∈ pinned))

end IoncTable

namespace IoncView

variable (o : String) (v : IoncView)

/-- `this.rowHeight`. -/
def rowHeight : ℕ := 32

/-- `this.bufferRows`. -/
def bufferRows : ℕ := 10

/-- An element is looked up by its id, and changed if there is one. -/
def update (e : IoncElement) (f : Element → Element) : IoncView :=
  { v with page := v.page.modifyById (e.id o) f }

/-- `showLoadingIndicator`. -/
def showLoadingIndicator (show_ : Bool) : IoncView :=
  v.update o .loadingMore fun el => { el with displayed := show_ }

/-- `renderVisibleSensors`. -/
def renderVisibleSensors : IoncView :=
  match v.page.getElementById (IoncElement.tbody.id o),
      v.page.getElementById (IoncElement.spacer.id o) with
  | some _, some _ =>
    let v := v.update o .spacer fun el => { el with height := v.table.startIndex * rowHeight }
    let v := v.update o .unpin fun el => { el with displayed := v.pinned ≠ [] }
    v.update o .tbody fun el => { el with body := v.table.body v.pinned }
  | _, _ => v

/-- `updateVisibleRows`. -/
def updateVisibleRows : IoncView :=
  match v.page.getElementById (IoncElement.viewport.id o) with
  | none => v
  | some viewport =>
    let totalRows := v.table.allSensors.length
    -- `Math.ceil`
    let visibleRows := (viewport.clientHeight + rowHeight - 1) / rowHeight
    let startIndex := viewport.scrollTop / rowHeight - bufferRows
    let endIndex := min totalRows (startIndex + visibleRows + 2 * bufferRows)
    { v with
      table := { v.table with startIndex := startIndex, endIndex := endIndex } }.renderVisibleSensors
        o

/-- `updateSensorCount`. -/
def updateSensorCount : IoncView :=
  let loaded := v.table.allSensors.length
  let total := v.table.totalCount
  v.update o .count fun el => { el with
    textContent := if loaded = total then toString total else s!"{loaded} / {total}" }

/-- `loadSensors`, up to its request. -/
def loadSensors : IoncView :=
  if v.table.loading = true then v
  else
    let v := { v with table := { v.table with
      loading := true, allSensors := [], hasMore := true, startIndex := 0, endIndex := 0 } }
    let v := v.update o .viewport fun el => { el with scrollTop := 0 }
    v.update o .tbody fun el => { el with body := .loading }

/-- `loadSensors`, from its response on, with the sensors that it keeps. -/
def loaded (sensors : List IoncSensor) (totalCount : ℕ) (hasMore : Bool) : IoncView :=
  let v := { v with table := { v.table with
    allSensors := sensors, totalCount := totalCount, hasMore := hasMore, loading := false } }
  (v.updateVisibleRows o).updateSensorCount o

/-- `loadSensors`, on an error. -/
def loadFailed (message : String) : IoncView :=
  { v with table := { v.table with loading := false } }.update o .tbody fun el =>
    { el with body := .error message }

/-- `loadMoreSensors`, up to its request. -/
def loadMoreSensors : IoncView :=
  if v.table.isLoadingChunk = true ∨ v.table.hasMore = false then v
  else { v with table := { v.table with isLoadingChunk := true } }.showLoadingIndicator o true

/-- `loadMoreSensors`, from its response on, with the sensors that are new. -/
def loadedMore (uniqueNewSensors : List IoncSensor) (hasMore : Bool) : IoncView :=
  let v := { v with table := { v.table with
    allSensors := v.table.allSensors ++ uniqueNewSensors, hasMore := hasMore
    isLoadingChunk := false } }
  ((v.updateVisibleRows o).updateSensorCount o).showLoadingIndicator o false

/-- `loadMoreSensors`, on an error. -/
def loadMoreFailed : IoncView :=
  { v with table := { v.table with isLoadingChunk := false } }.showLoadingIndicator o false

/-- The pins, with one set or taken away. -/
def toggled (sensorId : ℤ) : List ℤ :=
  if sensorId ∈ v.pinned then v.pinned.filter (· ≠ sensorId) else v.pinned ++ [sensorId]

/-- `togglePin`. -/
def togglePin (sensorId : ℤ) : IoncView :=
  { v with pinned := v.toggled sensorId }.renderVisibleSensors o

end IoncView

/-- The operations on the sensor table; those that wait for a response are cut there. -/
inductive IoncOperation where
  | loadSensors
  | loaded (sensors : List IoncSensor) (totalCount : ℕ) (hasMore : Bool)
  | loadFailed (message : String)
  | loadMoreSensors
  | loadedMore (uniqueNewSensors : List IoncSensor) (hasMore : Bool)
  | loadMoreFailed
  | updateVisibleRows
  | renderVisibleSensors
  | togglePin (sensorId : ℤ)
  | updateSensorCount

/-- What an operation of the renderer of an object leaves. -/
def IoncView.run (o : String) (v : IoncView) : IoncOperation → IoncView
  | .loadSensors => v.loadSensors o
  | .loaded sensors totalCount hasMore => v.loaded o sensors totalCount hasMore
  | .loadFailed message => v.loadFailed o message
  | .loadMoreSensors => v.loadMoreSensors o
  | .loadedMore uniqueNewSensors hasMore => v.loadedMore o uniqueNewSensors hasMore
  | .loadMoreFailed => v.loadMoreFailed o
  | .updateVisibleRows => v.updateVisibleRows o
  | .renderVisibleSensors => v.renderVisibleSensors o
  | .togglePin sensorId => v.togglePin o sensorId
  | .updateSensorCount => v.updateSensorCount o

/-! ### What is wanted -/

/-- What the table of the tab is to show after an operation, where it showed `before`. -/
def IoncView.shown (v : IoncView) (before : TableBody) (after : IoncView) :
    IoncOperation → TableBody
  | .loadSensors => if v.table.loading = true then before else .loading
  | .loadFailed message => .error message
  | .loadMoreSensors | .loadMoreFailed | .updateSensorCount => before
  | .loaded _ _ _ | .loadedMore _ _ | .updateVisibleRows | .renderVisibleSensors | .togglePin _ =>
    after.table.body after.pinned

/-- **A tab is not disturbed, nor does it disturb another**: whatever its renderer does, only its
own panel changes, and that shows the rows of the tab. -/
def Undisturbed (before after : List TabPanel) (serverId o : String)
    (elements : IoncElement → Element) : Prop :=
  ∀ table pinned op,
    let v : IoncView := ⟨before ++ ⟨serverId, o, some elements⟩ :: after, table, pinned⟩
    ∃ elements' : IoncElement → Element,
      (v.run o op).page = before ++ ⟨serverId, o, some elements'⟩ :: after ∧
        (elements' .tbody).body = v.shown (elements .tbody).body (v.run o op) op

/-! ### The same name on two servers -/

/-- A panel as it is created. -/
def TabPanel.new (serverId o : String) : TabPanel := ⟨serverId, o, some (IoncElement.new 320)⟩

/-- What the first panel of the page shows. -/
def Page.firstBody (page : Page) : Option TableBody :=
  page.head?.bind fun p => p.elements.map fun elements => (elements .tbody).body

/-- **It fails**: the second tab of a name draws its rows in the first. -/
theorem not_undisturbed_panel : ¬ ∀ before after serverId o elements,
    Undisturbed before after serverId o elements := by
  intro h
  obtain ⟨elements', hpage, -⟩ := h [TabPanel.new "s1" "SM"] [] "s2" "SM" (IoncElement.new 320)
    ⟨"", [], 0, 0, 0, true, true, false⟩ [] (.loaded [⟨1, "DI1_S", "DI"⟩] 1 false)
  have hfirst := congrArg Page.firstBody hpage
  change _ = some TableBody.loading at hfirst
  exact absurd hfirst (by decide)

/-! ### Ids -/

/-- **An id belongs to one element of the panels of one name.** -/
theorem IoncElement.id_inj {e e' : IoncElement} {o o' : String} :
    e.id o = e'.id o' ↔ e = e' ∧ o = o' := by
  constructor
  · intro h
    have hlist : e.idPrefix.toList ++ o.toList = e'.idPrefix.toList ++ o'.toList := by
      rw [← String.toList_append, ← String.toList_append]
      exact congrArg String.toList h
    cases e <;> cases e' <;> simp [idPrefix] at hlist <;> simp [String.toList_inj.mp hlist]
  · rintro ⟨rfl, rfl⟩
    rfl

/-- A panel has the ids of the table of its own object. -/
theorem TabPanel.element_id (p : TabPanel) (e : IoncElement) (o : String) :
    p.element (e.id o) = if p.elements.isSome = true ∧ p.objectName = o then some e else none := by
  have hpred : (fun e' : IoncElement => decide (e'.id p.objectName = e.id o)) =
      fun e' => decide (e' = e ∧ p.objectName = o) := by
    funext e'
    exact decide_eq_decide.mpr IoncElement.id_inj
  unfold TabPanel.element
  rw [hpred]
  by_cases hname : p.objectName = o
  · cases e <;> simp [hname, IoncElement.all]
  · simp [hname, IoncElement.all]

namespace Page

/-- No panel of an IONC object of the name. -/
def Without (page : Page) (o : String) : Prop :=
  ∀ p ∈ page, p.elements.isSome = true → p.objectName ≠ o

variable {before after : List TabPanel} {serverId o : String} {elements : IoncElement → Element}

theorem element_of_without {p : TabPanel} (h : p.elements.isSome = true → p.objectName ≠ o)
    (e : IoncElement) : p.element (e.id o) = none := by
  rw [TabPanel.element_id, if_neg fun hp => h hp.1 hp.2]

/-- **A lookup finds the first panel of the name.** -/
theorem getElementById_of_without (e : IoncElement) (h : Without before o) :
    getElementById (before ++ ⟨serverId, o, some elements⟩ :: after) (e.id o) =
      some (elements e) := by
  induction before with
  | nil =>
    have hid := TabPanel.element_id ⟨serverId, o, some elements⟩ e o
    simp only [Option.isSome_some, and_self, if_true] at hid
    simp [getElementById, TabPanel.find, hid]
  | cons p before ih =>
    have hp := element_of_without (h p List.mem_cons_self) e
    have hnone : p.find (e.id o) = none := by simp [TabPanel.find, hp]
    have hrest := ih fun q hq => h q (List.mem_cons_of_mem p hq)
    simpa [getElementById, hnone] using hrest

theorem modifyById_of_without (e : IoncElement) (f : Element → Element) (h : Without before o) :
    modifyById (e.id o) f (before ++ ⟨serverId, o, some elements⟩ :: after) =
      before ++ ⟨serverId, o, some (Function.update elements e (f (elements e)))⟩ :: after := by
  induction before with
  | nil =>
    have hid := TabPanel.element_id ⟨serverId, o, some elements⟩ e o
    simp only [Option.isSome_some, and_self, if_true] at hid
    simp [modifyById, hid, TabPanel.modify]
  | cons p before ih =>
    have hp := element_of_without (h p List.mem_cons_self) e
    have hrest := ih fun q hq => h q (List.mem_cons_of_mem p hq)
    simpa [modifyById, hp] using hrest

theorem length_modifyById (id : String) (f : Element → Element) (page : Page) :
    (page.modifyById id f).length = page.length := by
  induction page with
  | nil => rfl
  | cons p page ih =>
    rw [modifyById]
    cases p.element id with
    | none => simp [ih]
    | some e => simp

/-- Where another panel of the name comes first, the panels behind it are left. -/
theorem modifyById_append (e : IoncElement) (f : Element → Element) (page : Page)
    (h : ¬ Without before o) :
    modifyById (e.id o) f (before ++ page) = modifyById (e.id o) f before ++ page := by
  induction before with
  | nil => exact absurd (fun p hp => absurd hp List.not_mem_nil) h
  | cons p before ih =>
    rw [List.cons_append, modifyById, modifyById]
    cases hp : p.element (e.id o) with
    | some e' => rfl
    | none =>
      have hname : p.elements.isSome = true → p.objectName ≠ o := by
        intro hsome hname
        rw [TabPanel.element_id, if_pos ⟨hsome, hname⟩] at hp
        simp at hp
      have hrest : ¬ Without before o := by
        intro hrest
        refine h fun q hq => ?_
        rcases List.mem_cons.mp hq with rfl | hq
        · exact hname
        · exact hrest q hq
      simp only [List.cons_append]
      rw [ih hrest]

/-- The changed element is the one that is found. -/
theorem getElementById_modifyById (id : String) (f : Element → Element) (page : Page) :
    (page.modifyById id f).getElementById id = (page.getElementById id).map f := by
  induction page with
  | nil => rfl
  | cons p page ih =>
    rw [modifyById]
    cases hp : p.element id with
    | none =>
      have hnone : p.find id = none := by simp [TabPanel.find, hp]
      simpa [getElementById, hnone] using ih
    | some e =>
      obtain ⟨elements, helements⟩ : ∃ elements, p.elements = some elements := by
        refine Option.isSome_iff_exists.mp ?_
        by_contra hnone
        simp [TabPanel.element, hnone] at hp
      have hsame : (p.modify e f).element id = some e := by
        rw [← hp]
        unfold TabPanel.element TabPanel.modify
        rw [Option.isSome_map]
      have hfind : p.find id = some (elements e) := by simp [TabPanel.find, hp, helements]
      have hfind' : (p.modify e f).find id = some (f (elements e)) := by
        rw [TabPanel.find, hsame]
        simp [TabPanel.modify, helements]
      simp [getElementById, hfind, hfind']

/-- A panel of the name has an element of each id. -/
theorem getElementById_of_not_without (e : IoncElement) (h : ¬ Without before o) :
    ∃ el, getElementById before (e.id o) = some el := by
  induction before with
  | nil => exact absurd (fun p hp => absurd hp List.not_mem_nil) h
  | cons p before ih =>
    cases hp : p.find (e.id o) with
    | some el => exact ⟨el, by simp [getElementById, hp]⟩
    | none =>
      have hrest : ¬ Without before o := by
        intro hrest
        refine h fun q hq hsome hname => ?_
        rcases List.mem_cons.mp hq with rfl | hq
        · obtain ⟨elements, helements⟩ := Option.isSome_iff_exists.mp hsome
          simp [TabPanel.find, TabPanel.element_id, helements, hname] at hp
        · exact hrest q hq hsome hname
      obtain ⟨el, hel⟩ := ih hrest
      exact ⟨el, by simpa [getElementById, hp] using hel⟩

end Page

namespace IoncView

variable {before after : List TabPanel} {serverId o : String} {elements : IoncElement → Element}
  {v : IoncView}

/-! ### The first tab of a name -/

/-- The page is that of a tab with these elements, between the other panels. -/
def Own (before after : List TabPanel) (serverId o : String) (v : IoncView)
    (elements : IoncElement → Element) : Prop :=
  v.page = before ++ ⟨serverId, o, some elements⟩ :: after

theorem Own.update (h : v.Own before after serverId o elements) (hfirst : Page.Without before o)
    (e : IoncElement) (f : Element → Element) :
    (v.update o e f).Own before after serverId o
      (Function.update elements e (f (elements e))) := by
  unfold Own at h ⊢
  rw [IoncView.update, h, Page.modifyById_of_without e f hfirst]

/-- Another element than the table body is changed. -/
theorem Own.update_other (h : v.Own before after serverId o elements)
    (hfirst : Page.Without before o) {e : IoncElement} (he : e ≠ .tbody) (f : Element → Element) :
    ∃ elements', (v.update o e f).Own before after serverId o elements' ∧
      elements' .tbody = elements .tbody :=
  ⟨_, h.update hfirst e f, Function.update_of_ne he.symm _ _⟩

theorem Own.getElementById (h : v.Own before after serverId o elements)
    (hfirst : Page.Without before o) (e : IoncElement) :
    v.page.getElementById (e.id o) = some (elements e) := by
  rw [h]
  exact Page.getElementById_of_without e hfirst

/-- **The rows are drawn in the own panel.** -/
theorem Own.renderVisibleSensors (h : v.Own before after serverId o elements)
    (hfirst : Page.Without before o) :
    ∃ elements', (v.renderVisibleSensors o).Own before after serverId o elements' ∧
      (elements' .tbody).body = v.table.body v.pinned ∧
      (v.renderVisibleSensors o).table = v.table ∧
      (v.renderVisibleSensors o).pinned = v.pinned := by
  have hspacer := h.update hfirst .spacer fun el =>
    { el with height := v.table.startIndex * rowHeight }
  have hunpin := hspacer.update hfirst .unpin fun el => { el with displayed := v.pinned ≠ [] }
  have htbody := hunpin.update hfirst .tbody fun el =>
    { el with body := v.table.body v.pinned }
  have hrender : v.renderVisibleSensors o =
      (((v.update o .spacer fun el => { el with height := v.table.startIndex * rowHeight }).update o
        .unpin fun el => { el with displayed := v.pinned ≠ [] }).update o .tbody fun el =>
          { el with body := v.table.body v.pinned }) := by
    rw [IoncView.renderVisibleSensors, h.getElementById hfirst, h.getElementById hfirst]
    rfl
  rw [hrender]
  refine ⟨_, htbody, ?_, rfl, rfl⟩
  rw [Function.update_self]

theorem Own.updateVisibleRows (h : v.Own before after serverId o elements)
    (hfirst : Page.Without before o) :
    ∃ elements', (v.updateVisibleRows o).Own before after serverId o elements' ∧
      (elements' .tbody).body =
        (v.updateVisibleRows o).table.body (v.updateVisibleRows o).pinned := by
  rw [IoncView.updateVisibleRows, h.getElementById hfirst]
  simp only
  set w : IoncView := { v with table := { v.table with
    startIndex := (elements .viewport).scrollTop / rowHeight - bufferRows
    endIndex := min v.table.allSensors.length ((elements .viewport).scrollTop / rowHeight -
      bufferRows + ((elements .viewport).clientHeight + rowHeight - 1) / rowHeight +
        2 * bufferRows) } } with hw
  have hown : w.Own before after serverId o elements := h
  obtain ⟨elements', hown', hbody, htable, hpinned⟩ := hown.renderVisibleSensors hfirst
  refine ⟨elements', hown', ?_⟩
  rw [hbody, htable, hpinned]

/-- Every operation of the first tab of a name draws in its own panel. -/
theorem Own.run (h : v.Own before after serverId o elements) (hfirst : Page.Without before o)
    (op : IoncOperation) :
    ∃ elements', (v.run o op).Own before after serverId o elements' ∧
      (elements' .tbody).body = v.shown (elements .tbody).body (v.run o op) op := by
  cases op with
  | loadSensors =>
    by_cases hloading : v.table.loading = true
    · refine ⟨elements, ?_, ?_⟩
      · simpa [IoncView.run, IoncView.loadSensors, hloading] using h
      · simp [shown, hloading]
    · have hown : Own before after serverId o { v with table := { v.table with
          loading := true, allSensors := [], hasMore := true, startIndex := 0, endIndex := 0 } }
          elements := h
      have hviewport := hown.update hfirst .viewport fun el => { el with scrollTop := 0 }
      have htbody := hviewport.update hfirst .tbody fun el => { el with body := .loading }
      refine ⟨_, by simpa [IoncView.run, IoncView.loadSensors, hloading] using htbody, ?_⟩
      rw [Function.update_self]
      simp [shown, hloading]
  | loaded sensors totalCount hasMore =>
    have hown : Own before after serverId o { v with table := { v.table with
        allSensors := sensors, totalCount := totalCount, hasMore := hasMore, loading := false } }
        elements := h
    obtain ⟨elements₁, hown₁, hbody⟩ := hown.updateVisibleRows hfirst
    obtain ⟨elements₂, hown₂, hsame⟩ := hown₁.update_other hfirst (e := .count) (by simp) _
    refine ⟨elements₂, hown₂, ?_⟩
    rw [hsame, hbody]
    rfl
  | loadFailed message =>
    have hown : Own before after serverId o { v with table := { v.table with loading := false } }
        elements := h
    refine ⟨_, hown.update hfirst .tbody _, ?_⟩
    rw [Function.update_self]
    rfl
  | loadMoreSensors =>
    by_cases hbusy : v.table.isLoadingChunk = true ∨ v.table.hasMore = false
    · exact ⟨elements, by simpa [IoncView.run, IoncView.loadMoreSensors, hbusy] using h, rfl⟩
    · have hown : Own before after serverId o
          { v with table := { v.table with isLoadingChunk := true } } elements := h
      obtain ⟨elements', hown', hsame⟩ := hown.update_other hfirst (e := .loadingMore) (by simp)
        fun el => { el with displayed := true }
      refine ⟨elements', ?_, ?_⟩
      · simpa [IoncView.run, IoncView.loadMoreSensors, hbusy, showLoadingIndicator] using hown'
      · rw [hsame]
        rfl
  | loadedMore uniqueNewSensors hasMore =>
    have hown : Own before after serverId o { v with table := { v.table with
        allSensors := v.table.allSensors ++ uniqueNewSensors, hasMore := hasMore
        isLoadingChunk := false } } elements := h
    obtain ⟨elements₁, hown₁, hbody⟩ := hown.updateVisibleRows hfirst
    obtain ⟨elements₂, hown₂, hsame₂⟩ := hown₁.update_other hfirst (e := .count) (by simp) _
    obtain ⟨elements₃, hown₃, hsame₃⟩ := hown₂.update_other hfirst (e := .loadingMore) (by simp) _
    refine ⟨elements₃, hown₃, ?_⟩
    rw [hsame₃, hsame₂, hbody]
    rfl
  | loadMoreFailed =>
    have hown : Own before after serverId o
        { v with table := { v.table with isLoadingChunk := false } } elements := h
    obtain ⟨elements', hown', hsame⟩ := hown.update_other hfirst (e := .loadingMore) (by simp) _
    refine ⟨elements', hown', ?_⟩
    rw [hsame]
    rfl
  | updateVisibleRows => exact h.updateVisibleRows hfirst
  | renderVisibleSensors =>
    obtain ⟨elements', hown, hbody, htable, hpinned⟩ := h.renderVisibleSensors hfirst
    refine ⟨elements', hown, ?_⟩
    rw [hbody]
    simp only [shown, IoncView.run, htable, hpinned]
  | togglePin sensorId =>
    have hown : Own before after serverId o { v with pinned := v.toggled sensorId } elements := h
    obtain ⟨elements', hown', hbody, htable, hpinned⟩ := hown.renderVisibleSensors hfirst
    refine ⟨elements', hown', ?_⟩
    rw [hbody]
    simp only [shown, IoncView.run, togglePin, htable, hpinned]
  | updateSensorCount =>
    obtain ⟨elements', hown, hsame⟩ := h.update_other hfirst (e := .count) (by simp) _
    refine ⟨elements', hown, ?_⟩
    rw [hsame]
    rfl

end IoncView

/-! ### Which tabs are drawn in their panels -/

/-- **A tab is not disturbed, nor does it disturb another**, exactly if no panel of an IONC object
of its name comes before its own. -/
theorem undisturbed_iff_first (before after : List TabPanel) (serverId o : String)
    (elements : IoncElement → Element) :
    Undisturbed before after serverId o elements ↔
      ∀ p ∈ before, p.elements.isSome = true → p.objectName ≠ o := by
  constructor
  · intro h
    by_contra hnot
    -- an error is written into another panel, whatever it showed
    obtain ⟨el, hel⟩ := Page.getElementById_of_not_without .tbody hnot
    have herror : ∀ message, el.body = .error message := by
      intro message
      obtain ⟨elements', hpage, -⟩ := h ⟨"", [], 0, 0, 0, true, true, false⟩ []
        (.loadFailed message)
      have hmodify : Page.modifyById (IoncElement.tbody.id o)
          (fun el => { el with body := .error message }) before ++
            ⟨serverId, o, some elements⟩ :: after =
          before ++ ⟨serverId, o, some elements'⟩ :: after := by
        rw [← Page.modifyById_append .tbody _ _ hnot]
        exact hpage
      have hsame := (List.append_inj hmodify (Page.length_modifyById _ _ before)).1
      have hfound := Page.getElementById_modifyById (IoncElement.tbody.id o)
        (fun el => { el with body := .error message }) before
      rw [hsame, hel] at hfound
      exact congrArg Element.body (Option.some.inj hfound)
    have htwo := (herror "").symm.trans (herror "error")
    simp at htwo
  · intro hfirst table pinned op
    exact IoncView.Own.run (v := ⟨_, table, pinned⟩) rfl hfirst op

end UnisetPanel
