/-
  The polling timers of the browser (`04-sse.js`, `50-ui-tabs.js`,
  `51-ui-render.js`): for the data of each open tab and for each of its charts.

  A timer is armed where a tab or a chart is made while SSE is not connected, and
  for all that have none when the attempts to reconnect are used up.  The handler
  of `connected` clears the timers of the tabs and leaves those of the charts; a
  tab that is made where one of its key is open takes its place without clearing
  its timers; and `addChart` waits for a history between looking its tab up and
  keeping the chart: when the tab has been closed and opened again meanwhile, the
  canvas is found in the new panel, and a timer is armed for what is not open
  (`not_exclusive`).  The modes exclude each other exactly in the runs that have
  none of these (`exclusive_iff`).

  `addChart` is two steps: the call, and the rest once the answer to its request is
  there.  Whether the request and `new Chart` succeeded is part of the second one.
  The document holds the panels of the tabs and the canvases of the chart panels;
  no key of a tab needs an escape in a selector.
-/
import UnisetPanel.Browser.MainSSE
import UnisetPanel.JsMap

namespace UnisetPanel

/-- A chart. -/
structure ChartId where
  varName : String
  /-- the number of the call that made it, as a variable can have a chart again -/
  call : ℕ
  deriving DecidableEq, Repr

/-- Whose data a timer polls: a tab, or one of its charts. -/
structure TimerOwner where
  tabKey : String
  /-- the number of the tab, as a key can be opened again -/
  tab : ℕ
  chart : Option ChartId
  deriving DecidableEq, Repr

/-- What `setInterval` returns. -/
structure IntervalId where
  /-- the step in which it was armed -/
  step : ℕ
  owner : TimerOwner
  deriving DecidableEq, Repr

/-- What a tab keeps of a chart. -/
structure ChartData where
  /-- the number of the call of `addChart` that made it -/
  call : ℕ
  updateInterval : Option IntervalId

/-- What `state.tabs` holds about the timers of a tab. -/
structure PolledTab where
  number : ℕ
  updateInterval : Option IntervalId
  charts : JsMap ChartData

/-- A `.tab-panel` of the document. -/
structure PanelElement where
  tabKey : String
  /-- the number of the tab it was made with -/
  number : ℕ
  deriving DecidableEq, Repr

/-- A chart panel with its canvas, in the panel of a tab. -/
structure Canvas where
  panel : PanelElement
  varName : String
  /-- the number of the call of `addChart` that made it -/
  call : ℕ
  deriving DecidableEq, Repr

/-- A call of `addChart` that waits for its history. -/
structure ChartCall where
  number : ℕ
  tabKey : String
  /-- the number of the tab that was looked up -/
  tab : ℕ
  varName : String
  deriving DecidableEq, Repr

/-- `state.sse` and `state.tabs`, the document, and the timers that run. -/
structure UpdateMode where
  connected : Bool
  reconnectAttempts : ℕ
  tabs : JsMap PolledTab
  /-- the panels of the tabs, in the order of the document -/
  panels : List PanelElement
  canvases : List Canvas
  /-- the calls of `addChart` that wait -/
  loading : List ChartCall
  active : List IntervalId
  /-- the number of steps so far -/
  steps : ℕ
  /-- polling was enabled, and `connected` has not come since -/
  polling : Bool

/-- What happens. -/
inductive UpdateModeAction where
  | connected
  | error
  | createTab (tabKey : String)
  | closeTab (tabKey : String)
  | addChart (tabKey varName : String)
  /-- the request of an `addChart` is answered; `drawn` if the history is there and `new Chart`
  returns -/
  | historyArrived (number : ℕ) (drawn : Bool)
  | removeChart (tabKey varName : String)
  deriving DecidableEq, Repr

namespace PolledTab

variable (tab : PolledTab)

/-- The timers of the charts. -/
def chartIntervals : List IntervalId := tab.charts.entries.filterMap fun e => e.2.updateInterval

/-- The timers of the tab and of its charts. -/
def intervals : List IntervalId := tab.updateInterval.toList ++ tab.chartIntervals

/-- The chart, if the tab keeps it. -/
def chart (id : ChartId) : Option ChartData :=
  (tab.charts.lookup id.varName).filter (·.call = id.call)

/-- The timer that is kept for the tab of the number, or for one of its charts; none if there is no
such tab or chart. -/
def interval (number : ℕ) (chart : Option ChartId) : Option (Option IntervalId) :=
  if tab.number = number then
    match chart with
    | none => some tab.updateInterval
    | some id => (tab.chart id).map (·.updateInterval)
  else none

end PolledTab

namespace UpdateMode

variable (s : UpdateMode)

/-- The page as it is opened. -/
def new : UpdateMode := ⟨false, 0, ∅, [], [], [], [], 0, false⟩

/-- `clearInterval`, of each. -/
def clearIntervals (ids : List IntervalId) : List IntervalId := s.active.filter (· ∉ ids)

/-- The timers that a call of `setInterval` arms where there is none. -/
def arm (owner : TimerOwner) : Option IntervalId → List IntervalId
  | none => [⟨s.steps, owner⟩]
  | some _ => []

/-- The handler of `connected`. -/
def onConnected : UpdateMode :=
  { s with
    connected := true
    reconnectAttempts := 0
    polling := false
    active := s.clearIntervals (s.tabs.entries.filterMap fun e => e.2.updateInterval)
    tabs := s.tabs.mapWithKey fun _ tab => { tab with updateInterval := none } }

/-- `enablePollingFallback`. -/
def enablePollingFallback : UpdateMode :=
  { s with
    polling := true
    active := s.active ++ s.tabs.entries.flatMap fun e =>
      s.arm ⟨e.1, e.2.number, none⟩ e.2.updateInterval ++
        e.2.charts.entries.flatMap fun c =>
          s.arm ⟨e.1, e.2.number, some ⟨c.1, c.2.call⟩⟩ c.2.updateInterval
    tabs := s.tabs.mapWithKey fun key tab =>
      { tab with
        updateInterval := tab.updateInterval.or (some ⟨s.steps, key, tab.number, none⟩)
        charts := tab.charts.mapWithKey fun varName chartData =>
          { chartData with
            updateInterval := chartData.updateInterval.or
              (some ⟨s.steps, key, tab.number, some ⟨varName, chartData.call⟩⟩) } } }

/-- `onerror`. -/
def onError : UpdateMode :=
  if s.reconnectAttempts < maxReconnectAttempts then
    { s with connected := false, reconnectAttempts := s.reconnectAttempts + 1 }
  else { s with connected := false }.enablePollingFallback

/-- A new timer, unless SSE is connected. -/
def newInterval (owner : TimerOwner) : Option IntervalId :=
  if s.connected = true then none else some ⟨s.steps, owner⟩

/-- The panel that a selector finds for the key: the first of the document. -/
def panel (tabKey : String) : Option PanelElement := s.panels.find? (·.tabKey = tabKey)

/-- `getElementInTab`, of the canvas of a variable. -/
def canvas (tabKey varName : String) : Option Canvas :=
  (s.panel tabKey).bind fun panel =>
    s.canvases.find? fun canvas => canvas.panel = panel ∧ canvas.varName = varName

/-- `createTab`. -/
def createTab (tabKey : String) : UpdateMode :=
  let updateInterval := s.newInterval ⟨tabKey, s.steps, none⟩
  { s with
    panels := s.panels ++ [⟨tabKey, s.steps⟩]
    active := s.active ++ updateInterval.toList
    tabs := s.tabs.insert tabKey ⟨s.steps, updateInterval, ∅⟩ }

/-- `closeTab`. -/
def closeTab (tabKey : String) : UpdateMode :=
  let panels := s.panels.filter (some · ≠ s.panel tabKey)
  match s.tabs.lookup tabKey with
  | some tabState =>
    { s with
      active := s.clearIntervals tabState.intervals
      tabs := s.tabs.erase tabKey
      panels := panels }
  | none => { s with panels := panels }

/-- `addChart`, up to its request for the history. -/
def addChart (tabKey varName : String) : UpdateMode :=
  match s.tabs.lookup tabKey with
  | some tabState =>
    if varName ∈ tabState.charts then s
    else
      match s.panel tabKey with
      | some panel =>
        { s with
          canvases := s.canvases ++ [⟨panel, varName, s.steps⟩]
          loading := s.loading ++ [⟨s.steps, tabKey, tabState.number, varName⟩] }
      | none => s
  | none => s

/-- The call whose chart is made when the request of the number is answered: its canvas is looked up
in the panel that the key has then. -/
def drawnCall (number : ℕ) (drawn : Bool) : Option ChartCall :=
  (s.loading.find? (·.number = number)).filter fun call =>
    drawn && (s.canvas call.tabKey call.varName).isSome

/-- The rest of `addChart`: the chart is kept by the tab that was looked up, open or not. -/
def storeChart (call : ChartCall) : UpdateMode :=
  let updateInterval :=
    s.newInterval ⟨call.tabKey, call.tab, some ⟨call.varName, call.number⟩⟩
  { s with
    active := s.active ++ updateInterval.toList
    tabs :=
      match s.tabs.lookup call.tabKey with
      | some tabState =>
        if tabState.number = call.tab then
          s.tabs.insert call.tabKey { tabState with
            charts := tabState.charts.insert call.varName ⟨call.number, updateInterval⟩ }
        else s.tabs
      | none => s.tabs }

/-- The call does not wait any more. -/
def arrived (number : ℕ) : UpdateMode :=
  { s with loading := s.loading.filter (·.number ≠ number) }

/-- `addChart`, from the answer to its request on. -/
def historyArrived (number : ℕ) (drawn : Bool) : UpdateMode :=
  match s.drawnCall number drawn with
  | some call => (s.arrived number).storeChart call
  | none => s.arrived number

/-- `removeChart`. -/
def removeChart (tabKey varName : String) : UpdateMode :=
  match s.tabs.lookup tabKey with
  | some tabState =>
    let canvases := s.canvases.filter (some · ≠ s.canvas tabKey varName)
    match tabState.charts.lookup varName with
    | some chartData =>
      { s with
        active := s.clearIntervals chartData.updateInterval.toList
        tabs := s.tabs.insert tabKey { tabState with charts := tabState.charts.erase varName }
        canvases := canvases }
    | none => { s with canvases := canvases }
  | none => s

/-- What an action does. -/
def act : UpdateModeAction → UpdateMode
  | .connected => s.onConnected
  | .error => s.onError
  | .createTab tabKey => s.createTab tabKey
  | .closeTab tabKey => s.closeTab tabKey
  | .addChart tabKey varName => s.addChart tabKey varName
  | .historyArrived number drawn => s.historyArrived number drawn
  | .removeChart tabKey varName => s.removeChart tabKey varName

/-- One step. -/
def step (a : UpdateModeAction) : UpdateMode := { s.act a with steps := s.steps + 1 }

end UpdateMode

/-- The runs of a page. -/
def updateModeMachine : Machine UpdateMode UpdateModeAction where
  init := .new
  step s a := some (s.step a)

namespace UpdateMode

variable (s : UpdateMode)

/-! ### What is wanted -/

/-- The timer that the page keeps for a tab or chart; none if that is not open. -/
def interval (owner : TimerOwner) : Option (Option IntervalId) :=
  (s.tabs.lookup owner.tabKey).bind fun tab => tab.interval owner.tab owner.chart

/-- It is an open tab, or a chart of one. -/
def IsOpen (owner : TimerOwner) : Prop := (s.interval owner).isSome = true

instance (owner : TimerOwner) : Decidable (s.IsOpen owner) := inferInstanceAs (Decidable (_ = _))

/-- **The update modes exclude each other**: while SSE is connected no open tab and no chart of one
has a timer that runs, while polling is enabled each has exactly one, and what is closed or removed
has none. -/
structure Exclusive : Prop where
  connected : s.connected = true → ∀ id ∈ s.active, ¬ s.IsOpen id.owner
  polling : s.polling = true → ∀ owner, s.IsOpen owner → ∃! id, id ∈ s.active ∧ id.owner = owner
  closed : ∀ id ∈ s.active, s.IsOpen id.owner

/-- No chart has a timer when `connected` comes; no tab is made over one that has, or whose charts
have; and no chart is made over one that has, nor while SSE is not connected for a tab that is not
open any more. -/
def NoTimer : UpdateModeAction → Prop
  | .connected => ∀ key tab, s.tabs.lookup key = some tab → tab.chartIntervals = []
  | .createTab tabKey => ∀ tab, s.tabs.lookup tabKey = some tab → tab.intervals = []
  | .historyArrived number drawn => ∀ call, s.drawnCall number drawn = some call →
      (s.connected = true ∨ s.IsOpen ⟨call.tabKey, call.tab, none⟩) ∧
      ∀ tab, s.tabs.lookup call.tabKey = some tab → tab.number = call.tab →
        ∀ chartData, tab.charts.lookup call.varName = some chartData →
          chartData.updateInterval = none
  | .error | .closeTab _ | .addChart _ _ | .removeChart _ _ => True

/-! ### A chart, a tab that is opened twice, and a history that comes late -/

/-- A state after some steps. -/
def after (as : List UpdateModeAction) : UpdateMode := as.foldl (fun s a => s.step a) .new

/-- A chart is made before `connected`. -/
def chartBefore : List UpdateModeAction :=
  [.createTab "s:o", .addChart "s:o" "x", .historyArrived 1 true, .connected]

/-- A tab is opened twice. -/
def openedTwice : List UpdateModeAction := [.createTab "s:o", .createTab "s:o"]

/-- The history comes when the tab has been opened again, with a chart of the variable. -/
def openedAgain : List UpdateModeAction :=
  [.createTab "s:o", .addChart "s:o" "x", .closeTab "s:o", .createTab "s:o", .addChart "s:o" "x",
    .historyArrived 1 true]

/-- A chart is asked for three times and removed in between, and the request of the second is
answered after the third has failed, which makes its canvas anew. -/
def askedThrice : List UpdateModeAction :=
  [.createTab "s:o", .addChart "s:o" "x", .removeChart "s:o" "x", .addChart "s:o" "x",
    .removeChart "s:o" "x", .addChart "s:o" "x", .historyArrived 1 true, .historyArrived 5 false,
    .historyArrived 3 true]

/-- The page keeps every timer that runs, under what it polls; it keeps none while SSE is connected,
and one for all that is open while polling is enabled. -/
structure Inv (s : UpdateMode) : Prop where
  mem_active : ∀ id, id ∈ s.active ↔ s.interval id.owner = some (some id)
  owner : ∀ owner id, s.interval owner = some (some id) → id.owner = owner
  connected : s.connected = true → ∀ owner id, s.interval owner ≠ some (some id)
  polling : s.polling = true → s.connected = false ∧ ∀ owner, s.interval owner ≠ some none
  number : ∀ key tab, s.tabs.lookup key = some tab → tab.number < s.steps
  /-- the call that made a chart does not wait any more -/
  chart : ∀ owner id kept, s.interval owner = some kept → owner.chart = some id →
    id.call < s.steps ∧ ∀ call ∈ s.loading, call.number ≠ id.call
  loading : ∀ call ∈ s.loading, call.number < s.steps

variable {s}

theorem exclusive_of_inv (hs : s.Inv) : s.Exclusive := by
  refine ⟨?_, ?_, ?_⟩
  · intro hconnected id hid
    exact absurd ((hs.mem_active id).mp hid) (hs.connected hconnected id.owner id)
  · intro hpolling owner hopen
    obtain ⟨kept, hkept⟩ := Option.isSome_iff_exists.mp hopen
    cases kept with
    | none => exact absurd hkept ((hs.polling hpolling).2 owner)
    | some id =>
      have howner := hs.owner owner id hkept
      refine ⟨id, ⟨(hs.mem_active id).mpr (howner ▸ hkept), howner⟩, ?_⟩
      rintro other ⟨hother, rfl⟩
      have hkept' := (hs.mem_active other).mp hother
      exact Option.some.inj (Option.some.inj (hkept'.symm.trans hkept))
  · intro id hid
    unfold IsOpen
    rw [(hs.mem_active id).mp hid]
    rfl

theorem chart_eq_some {tab : PolledTab} {id : ChartId} {chartData : ChartData} :
    tab.chart id = some chartData ↔
      tab.charts.lookup id.varName = some chartData ∧ chartData.call = id.call := by
  simp [PolledTab.chart, Option.filter_eq_some_iff]

/-- The chart that a tab keeps for a variable. -/
theorem chart_of_lookup {tab : PolledTab} {varName : String} {chartData : ChartData}
    (h : tab.charts.lookup varName = some chartData) :
    tab.chart ⟨varName, chartData.call⟩ = some chartData := chart_eq_some.mpr ⟨h, rfl⟩

theorem interval_of_lookup {key : String} {tab : PolledTab} (h : s.tabs.lookup key = some tab)
    (chart : Option ChartId) : s.interval ⟨key, tab.number, chart⟩ =
      match chart with
      | none => some tab.updateInterval
      | some id => (tab.chart id).map (·.updateInterval) := by
  simp [interval, PolledTab.interval, h]

theorem mem_chartIntervals {tab : PolledTab} {id : IntervalId} :
    id ∈ tab.chartIntervals ↔
      ∃ chart chartData, tab.chart chart = some chartData ∧
        chartData.updateInterval = some id := by
  unfold PolledTab.chartIntervals
  rw [List.mem_filterMap]
  constructor
  · rintro ⟨⟨varName, chartData⟩, hmem, hkept⟩
    exact ⟨_, chartData, chart_of_lookup (JsMap.mem_entries.mp hmem), hkept⟩
  · rintro ⟨chart, chartData, h, hkept⟩
    exact ⟨⟨chart.varName, chartData⟩, JsMap.mem_entries.mpr (chart_eq_some.mp h).1, hkept⟩

/-- The timers of a tab are those that are kept for it and for its charts. -/
theorem mem_intervals {key : String} {tab : PolledTab} {id : IntervalId}
    (h : s.tabs.lookup key = some tab) :
    id ∈ tab.intervals ↔ ∃ chart, s.interval ⟨key, tab.number, chart⟩ = some (some id) := by
  unfold PolledTab.intervals
  rw [List.mem_append, mem_chartIntervals, Option.mem_toList]
  constructor
  · rintro (htab | ⟨chart, chartData, hchart, hid⟩)
    · refine ⟨none, ?_⟩
      rw [interval_of_lookup h]
      exact congrArg some htab
    · refine ⟨some chart, ?_⟩
      rw [interval_of_lookup h]
      simp [hchart, hid]
  · rintro ⟨chart, hchart⟩
    rw [interval_of_lookup h] at hchart
    cases chart with
    | none => exact Or.inl (Option.some.inj hchart)
    | some chart =>
      obtain ⟨chartData, hchart, hid⟩ := Option.map_eq_some_iff.mp hchart
      exact Or.inr ⟨chart, chartData, hchart, hid⟩

/-- A timer that is kept under a key belongs to the tab of that key. -/
theorem exists_tab_of_interval {owner : TimerOwner} {kept : Option IntervalId}
    (h : s.interval owner = some kept) :
    ∃ tab, s.tabs.lookup owner.tabKey = some tab ∧ tab.number = owner.tab := by
  obtain ⟨tab, htab, hkept⟩ := Option.bind_eq_some_iff.mp h
  refine ⟨tab, htab, ?_⟩
  by_contra hnumber
  simp [PolledTab.interval, hnumber] at hkept

theorem mem_clearIntervals {ids : List IntervalId} {id : IntervalId} :
    id ∈ s.clearIntervals ids ↔ id ∈ s.active ∧ id ∉ ids := by
  simp [clearIntervals]

/-- An action does not count the step. -/
theorem interval_step (a : UpdateModeAction) (owner : TimerOwner) :
    (s.step a).interval owner = (s.act a).interval owner := rfl

/-! ### `connected` -/

theorem interval_onConnected (owner : TimerOwner) :
    s.onConnected.interval owner =
      (s.interval owner).map fun kept => if owner.chart = none then none else kept := by
  obtain ⟨key, number, chart⟩ := owner
  simp only [interval, onConnected, JsMap.lookup_mapWithKey]
  cases s.tabs.lookup key with
  | none => rfl
  | some tab =>
    simp only [Option.map_some, Option.bind_some, PolledTab.interval]
    by_cases hnumber : tab.number = number
    · cases chart with
      | none => simp [hnumber]
      | some id =>
        simp only [hnumber, if_true, reduceCtorEq, if_false]
        cases htab : tab.chart id with
        | none => rw [PolledTab.chart] at htab ⊢; simp [htab]
        | some chartData => rw [PolledTab.chart] at htab ⊢; simp [htab]
    · simp [hnumber]

/-- The timers that the handler clears are those of the tabs. -/
theorem mem_tabIntervals {id : IntervalId} :
    id ∈ s.tabs.entries.filterMap (fun e => e.2.updateInterval) ↔
      ∃ key tab, s.tabs.lookup key = some tab ∧ tab.updateInterval = some id := by
  rw [List.mem_filterMap]
  constructor
  · rintro ⟨⟨key, tab⟩, hmem, hid⟩
    exact ⟨key, tab, JsMap.mem_entries.mp hmem, hid⟩
  · rintro ⟨key, tab, htab, hid⟩
    exact ⟨⟨key, tab⟩, JsMap.mem_entries.mpr htab, hid⟩

/-- A running timer is cleared if it is that of a tab. -/
theorem mem_active_onConnected (hs : s.Inv) {id : IntervalId} (hid : id ∈ s.active) :
    id ∈ s.onConnected.active ↔ id.owner.chart ≠ none := by
  have hkept := (hs.mem_active id).mp hid
  obtain ⟨tab, htab, hnumber⟩ := exists_tab_of_interval hkept
  show id ∈ s.clearIntervals _ ↔ _
  rw [mem_clearIntervals, mem_tabIntervals]
  constructor
  · rintro ⟨-, hnot⟩ hchart
    refine hnot ⟨id.owner.tabKey, tab, htab, ?_⟩
    have howner : id.owner = ⟨id.owner.tabKey, tab.number, none⟩ := by
      rw [hnumber, ← hchart]
    rw [howner, interval_of_lookup htab] at hkept
    exact Option.some.inj hkept
  · intro hchart
    refine ⟨hid, ?_⟩
    rintro ⟨key, tab', htab', hid'⟩
    have hkept' : s.interval ⟨key, tab'.number, none⟩ = some (some id) := by
      rw [interval_of_lookup htab']
      exact congrArg some hid'
    rw [hs.owner _ id hkept'] at hchart
    simp at hchart

theorem inv_onConnected (hs : s.Inv) (hnone : s.NoTimer .connected) :
    (s.step .connected).Inv := by
  -- no chart has a timer
  have hcharts : ∀ owner kept, s.interval owner = some kept → owner.chart ≠ none → kept = none := by
    intro owner kept hkept hchart
    obtain ⟨tab, htab, hnumber⟩ := exists_tab_of_interval hkept
    obtain ⟨chart, hchart⟩ := Option.ne_none_iff_exists'.mp hchart
    have howner : owner = ⟨owner.tabKey, tab.number, some chart⟩ := by
      rw [hnumber, ← hchart]
    rw [howner, interval_of_lookup htab] at hkept
    obtain ⟨chartData, hchart, hkept⟩ := Option.map_eq_some_iff.mp hkept
    cases kept with
    | none => rfl
    | some id =>
      have hmem := mem_chartIntervals.mpr ⟨chart, chartData, hchart, hkept⟩
      rw [hnone owner.tabKey tab htab] at hmem
      exact absurd hmem List.not_mem_nil
  have hinterval : ∀ owner id, s.onConnected.interval owner ≠ some (some id) := by
    intro owner id
    rw [interval_onConnected]
    cases hkept : s.interval owner with
    | none => simp
    | some kept =>
      by_cases hchart : owner.chart = none
      · simp [hchart]
      · simp [hchart, hcharts owner kept hkept hchart]
  have hactive : ∀ id, id ∉ s.onConnected.active := by
    intro id hid
    have hbefore : id ∈ s.active := (mem_clearIntervals.mp hid).1
    have hkept := (hs.mem_active id).mp hbefore
    have hchart := (mem_active_onConnected hs hbefore).mp hid
    have hnot := hcharts id.owner (some id) hkept hchart
    simp at hnot
  refine ⟨?_, ?_, ?_, ?_, ?_, ?_, fun call hcall => Nat.lt_succ_of_lt (hs.loading call hcall)⟩
  · intro id
    exact iff_of_false (hactive id) (hinterval id.owner id)
  · intro owner id h
    exact absurd h (hinterval owner id)
  · intro _ owner id
    exact hinterval owner id
  · intro h
    simp [step, act, onConnected] at h
  · intro key tab h
    simp only [step, act, onConnected, JsMap.lookup_mapWithKey, Option.map_eq_some_iff] at h
    obtain ⟨tab₀, htab₀, rfl⟩ := h
    exact Nat.lt_succ_of_lt (hs.number key tab₀ htab₀)
  · intro owner id kept h hid
    change s.onConnected.interval owner = some kept at h
    rw [interval_onConnected] at h
    obtain ⟨kept', hkept, -⟩ := Option.map_eq_some_iff.mp h
    obtain ⟨hcall, hloading⟩ := hs.chart owner id kept' hkept hid
    exact ⟨Nat.lt_succ_of_lt hcall, hloading⟩

/-- **A chart that has a timer** keeps it when `connected` comes. -/
theorem not_exclusive_onConnected (hs : s.Inv) (hnone : ¬ s.NoTimer .connected) :
    ¬ (s.step .connected).Exclusive := by
  intro hexclusive
  refine hnone fun key tab htab => ?_
  by_contra hne
  obtain ⟨id, hid⟩ := List.exists_mem_of_ne_nil _ hne
  obtain ⟨chart, chartData, hchart, hid⟩ := mem_chartIntervals.mp hid
  have hkept : s.interval ⟨key, tab.number, some chart⟩ = some (some id) := by
    rw [interval_of_lookup htab]
    simp [hchart, hid]
  have howner := hs.owner _ id hkept
  have hactive : id ∈ s.active := (hs.mem_active id).mpr (howner ▸ hkept)
  have hafter : id ∈ s.onConnected.active :=
    (mem_active_onConnected hs hactive).mpr (by rw [howner]; simp)
  refine hexclusive.connected rfl id hafter ?_
  unfold IsOpen
  rw [interval_step]
  show (s.onConnected.interval id.owner).isSome = true
  rw [interval_onConnected, howner, hkept]
  rfl

/-! ### An error -/

theorem interval_enablePollingFallback (owner : TimerOwner) :
    s.enablePollingFallback.interval owner =
      (s.interval owner).map fun kept => kept.or (some ⟨s.steps, owner⟩) := by
  obtain ⟨key, number, chart⟩ := owner
  simp only [interval, enablePollingFallback, JsMap.lookup_mapWithKey]
  cases s.tabs.lookup key with
  | none => rfl
  | some tab =>
    simp only [Option.map_some, Option.bind_some, PolledTab.interval]
    by_cases hnumber : tab.number = number
    · cases chart with
      | none => simp [hnumber]
      | some id =>
        obtain ⟨varName, call⟩ := id
        simp only [hnumber, if_true, PolledTab.chart, JsMap.lookup_mapWithKey]
        cases tab.charts.lookup varName with
        | none => rfl
        | some chartData =>
          by_cases hcall : chartData.call = call
          · simp [Option.filter_some, hcall]
          · simp [Option.filter_some, hcall]
    · simp [hnumber]

theorem mem_arm {owner : TimerOwner} {kept : Option IntervalId} {id : IntervalId} :
    id ∈ s.arm owner kept ↔ kept = none ∧ id = ⟨s.steps, owner⟩ := by
  cases kept with
  | none => simp [arm]
  | some id => simp [arm]

/-- The timers that are armed are those of all that is open and has none. -/
theorem mem_active_enablePollingFallback {id : IntervalId} :
    id ∈ s.enablePollingFallback.active ↔
      id ∈ s.active ∨ s.interval id.owner = some none ∧ id.step = s.steps := by
  simp only [enablePollingFallback, List.mem_append, List.mem_flatMap, mem_arm]
  refine or_congr_right ?_
  constructor
  · rintro ⟨⟨key, tab⟩, htab, ⟨hnone, rfl⟩ | ⟨⟨varName, chartData⟩, hchart, hnone, rfl⟩⟩
    · refine ⟨?_, rfl⟩
      rw [interval_of_lookup (JsMap.mem_entries.mp htab)]
      exact congrArg some hnone
    · refine ⟨?_, rfl⟩
      rw [interval_of_lookup (JsMap.mem_entries.mp htab)]
      simp only [chart_of_lookup (JsMap.mem_entries.mp hchart), Option.map_some]
      exact congrArg some hnone
  · rintro ⟨hkept, hstep⟩
    obtain ⟨step, ⟨key, number, chart⟩⟩ := id
    obtain ⟨tab, htab, rfl⟩ := exists_tab_of_interval hkept
    obtain rfl : step = s.steps := hstep
    rw [interval_of_lookup htab] at hkept
    refine ⟨⟨key, tab⟩, JsMap.mem_entries.mpr htab, ?_⟩
    cases chart with
    | none => exact Or.inl ⟨Option.some.inj hkept, rfl⟩
    | some id =>
      obtain ⟨chartData, hchart, hnone⟩ := Option.map_eq_some_iff.mp hkept
      obtain ⟨hlookup, hcall⟩ := chart_eq_some.mp hchart
      refine Or.inr ⟨⟨id.varName, chartData⟩, JsMap.mem_entries.mpr hlookup, hnone, ?_⟩
      rw [hcall]

theorem inv_enablePollingFallback (hs : s.Inv) (hmode : s.connected = false) :
    Inv { s.enablePollingFallback with steps := s.steps + 1 } := by
  refine ⟨?_, ?_, ?_, ?_, ?_, ?_, fun call hcall => Nat.lt_succ_of_lt (hs.loading call hcall)⟩
  · intro id
    show id ∈ s.enablePollingFallback.active ↔ s.enablePollingFallback.interval id.owner = _
    rw [mem_active_enablePollingFallback, interval_enablePollingFallback, hs.mem_active]
    cases hkept : s.interval id.owner with
    | none => simp
    | some kept =>
      cases kept with
      | none =>
        obtain ⟨step, owner⟩ := id
        simp [eq_comm]
      | some other => simp
  · intro owner id h
    change s.enablePollingFallback.interval owner = some (some id) at h
    rw [interval_enablePollingFallback] at h
    obtain ⟨kept, hkept, hid⟩ := Option.map_eq_some_iff.mp h
    cases kept with
    | none =>
      obtain rfl := Option.some.inj hid
      rfl
    | some other =>
      obtain rfl := Option.some.inj hid
      exact hs.owner owner _ hkept
  · intro h
    have hconnected : s.connected = true := h
    simp [hmode] at hconnected
  · intro _
    refine ⟨hmode, fun owner h => ?_⟩
    change s.enablePollingFallback.interval owner = some none at h
    rw [interval_enablePollingFallback] at h
    obtain ⟨kept, -, hnone⟩ := Option.map_eq_some_iff.mp h
    cases kept with
    | none => simp at hnone
    | some other => simp at hnone
  · intro key tab h
    simp only [enablePollingFallback, JsMap.lookup_mapWithKey, Option.map_eq_some_iff] at h
    obtain ⟨tab₀, htab₀, rfl⟩ := h
    exact Nat.lt_succ_of_lt (hs.number key tab₀ htab₀)
  · intro owner id kept h hid
    change s.enablePollingFallback.interval owner = some kept at h
    rw [interval_enablePollingFallback] at h
    obtain ⟨kept', hkept, -⟩ := Option.map_eq_some_iff.mp h
    obtain ⟨hcall, hloading⟩ := hs.chart owner id kept' hkept hid
    exact ⟨Nat.lt_succ_of_lt hcall, hloading⟩

/-- The invariant does not speak of the document. -/
theorem inv_document {panels : List PanelElement} {canvases : List Canvas} (hs : s.Inv) :
    Inv { s with panels := panels, canvases := canvases } :=
  ⟨hs.mem_active, hs.owner, hs.connected, hs.polling, hs.number, hs.chart, hs.loading⟩

/-- Nothing but the step is counted. -/
theorem inv_steps (hs : s.Inv) : Inv { s with steps := s.steps + 1 } := by
  refine ⟨hs.mem_active, hs.owner, hs.connected, hs.polling,
    fun key tab h => Nat.lt_succ_of_lt (hs.number key tab h), ?_,
    fun call hcall => Nat.lt_succ_of_lt (hs.loading call hcall)⟩
  intro owner id kept h hid
  obtain ⟨hcall, hloading⟩ := hs.chart owner id kept h hid
  exact ⟨Nat.lt_succ_of_lt hcall, hloading⟩

theorem inv_of_act {a : UpdateModeAction} (hact : (s.act a).Inv)
    (hsteps : (s.act a).steps = s.steps) : (s.step a).Inv := by
  rw [step, ← hsteps]
  exact inv_steps hact

theorem inv_onError (hs : s.Inv) : (s.step .error).Inv := by
  have hoff : Inv { s with connected := false } :=
    ⟨hs.mem_active, hs.owner, fun h => absurd h (by simp),
      fun h => ⟨rfl, (hs.polling h).2⟩, hs.number, hs.chart, hs.loading⟩
  by_cases hattempts : s.reconnectAttempts < maxReconnectAttempts
  · have hstep : s.step .error = { s with
        connected := false
        reconnectAttempts := s.reconnectAttempts + 1
        steps := s.steps + 1 } := by
      simp [step, act, onError, hattempts]
    rw [hstep]
    exact inv_steps
      (s := { s with connected := false, reconnectAttempts := s.reconnectAttempts + 1 }) ⟨hoff.mem_active, hoff.owner, hoff.connected, hoff.polling, hoff.number, hoff.chart,
        hoff.loading⟩
  · have hstep : s.step .error =
        { ({ s with connected := false } : UpdateMode).enablePollingFallback with
          steps := s.steps + 1 } := by
      simp [step, act, onError, hattempts]
    rw [hstep]
    exact inv_enablePollingFallback hoff rfl

/-! ### Timers that are cleared, and armed -/

theorem newInterval_eq_some {owner : TimerOwner} {id : IntervalId} :
    s.newInterval owner = some id ↔ s.connected = false ∧ id = ⟨s.steps, owner⟩ := by
  unfold newInterval
  split_ifs with h
  · simp [h]
  · have hconnected : s.connected = false := by simpa using h
    simp [hconnected, eq_comm]

/-- **Clearing** what the owners have that are closed or removed. -/
theorem inv_of_clear {t : UpdateMode} (gone : TimerOwner → Prop) (hs : s.Inv)
    (hconnected : t.connected = s.connected) (hpolling : t.polling = s.polling)
    (hactive : ∀ id, id ∈ t.active ↔ id ∈ s.active ∧ ¬ gone id.owner)
    (hinterval : ∀ owner kept, t.interval owner = some kept ↔
      s.interval owner = some kept ∧ ¬ gone owner)
    (hnumber : ∀ key tab, t.tabs.lookup key = some tab → tab.number < t.steps)
    (hsteps : s.steps ≤ t.steps) (hloading : ∀ call ∈ t.loading, call ∈ s.loading) : t.Inv := by
  refine ⟨?_, ?_, ?_, ?_, hnumber, ?_,
    fun call hcall => Nat.lt_of_lt_of_le (hs.loading call (hloading call hcall)) hsteps⟩
  · intro id
    rw [hactive, hinterval, hs.mem_active]
  · intro owner id h
    exact hs.owner owner id ((hinterval owner _).mp h).1
  · intro h owner id hkept
    rw [hconnected] at h
    exact hs.connected h owner id ((hinterval owner _).mp hkept).1
  · intro h
    rw [hpolling] at h
    obtain ⟨hoff, hall⟩ := hs.polling h
    exact ⟨hconnected.trans hoff, fun owner hkept => hall owner ((hinterval owner _).mp hkept).1⟩
  · intro owner id kept h hid
    obtain ⟨hcall, hother⟩ := hs.chart owner id kept ((hinterval owner kept).mp h).1 hid
    exact ⟨Nat.lt_of_lt_of_le hcall hsteps, fun call hmem => hother call (hloading call hmem)⟩

/-- **Arming** a new timer for an owner that was not open, unless SSE is connected. -/
theorem inv_of_arm {t : UpdateMode} (new : TimerOwner) (hs : s.Inv)
    (hbefore : s.interval new = none)
    (hconnected : t.connected = s.connected) (hpolling : t.polling = s.polling)
    (hactive : ∀ id, id ∈ t.active ↔ id ∈ s.active ∨ s.newInterval new = some id)
    (hinterval : ∀ owner, t.interval owner =
      if owner = new then some (s.newInterval new) else s.interval owner)
    (hnumber : ∀ key tab, t.tabs.lookup key = some tab → tab.number < t.steps)
    (hsteps : s.steps ≤ t.steps) (hloading : ∀ call ∈ t.loading, call ∈ s.loading)
    (hcall : ∀ id, new.chart = some id →
      id.call < t.steps ∧ ∀ call ∈ t.loading, call.number ≠ id.call) : t.Inv := by
  refine ⟨?_, ?_, ?_, ?_, hnumber, ?_,
    fun call hmem => Nat.lt_of_lt_of_le (hs.loading call (hloading call hmem)) hsteps⟩
  · intro id
    rw [hactive, hinterval, hs.mem_active]
    by_cases howner : id.owner = new
    · simp [howner, hbefore]
    · have hnew : s.newInterval new ≠ some id := by
        intro h
        obtain ⟨-, rfl⟩ := newInterval_eq_some.mp h
        exact howner rfl
      simp [howner, hnew]
  · intro owner id h
    rw [hinterval] at h
    split_ifs at h with howner
    · obtain ⟨-, rfl⟩ := newInterval_eq_some.mp (Option.some.inj h)
      exact howner.symm
    · exact hs.owner owner id h
  · intro h owner id hkept
    rw [hconnected] at h
    rw [hinterval] at hkept
    split_ifs at hkept with howner
    · have hoff := (newInterval_eq_some.mp (Option.some.inj hkept)).1
      simp [hoff] at h
    · exact hs.connected h owner id hkept
  · intro h
    rw [hpolling] at h
    obtain ⟨hoff, hall⟩ := hs.polling h
    refine ⟨hconnected.trans hoff, fun owner hkept => ?_⟩
    rw [hinterval] at hkept
    split_ifs at hkept with howner
    · simp [newInterval, hoff] at hkept
    · exact hall owner hkept
  · intro owner id kept h hid
    rw [hinterval] at h
    split_ifs at h with howner
    · subst howner
      exact hcall id hid
    · obtain ⟨hlt, hother⟩ := hs.chart owner id kept h hid
      exact ⟨Nat.lt_of_lt_of_le hlt hsteps, fun call hmem => hother call (hloading call hmem)⟩

/-! ### Tabs -/

theorem interval_erase {tabKey : String} (owner : TimerOwner) (kept : Option IntervalId) :
    interval { s with tabs := s.tabs.erase tabKey } owner = some kept ↔
      s.interval owner = some kept ∧ owner.tabKey ≠ tabKey := by
  simp only [interval, JsMap.lookup_erase]
  by_cases hkey : owner.tabKey = tabKey
  · simp [hkey]
  · simp [hkey]

theorem interval_createTab (tabKey : String) (owner : TimerOwner) :
    (s.createTab tabKey).interval owner =
      if owner.tabKey = tabKey then
        if owner = ⟨tabKey, s.steps, none⟩ then
          some (s.newInterval ⟨tabKey, s.steps, none⟩)
        else none
      else s.interval owner := by
  obtain ⟨key, number, chart⟩ := owner
  simp only [interval, createTab, JsMap.lookup_insert]
  by_cases hkey : key = tabKey
  · by_cases hnumber : s.steps = number
    · cases chart with
      | none => simp [hkey, hnumber, PolledTab.interval]
      | some id => simp [hkey, PolledTab.interval, PolledTab.chart]
    · have hnumber' : number ≠ s.steps := Ne.symm hnumber
      simp [hkey, hnumber, hnumber', PolledTab.interval]
  · simp [hkey]

theorem inv_createTab (tabKey : String) (hs : s.Inv) (hnone : s.NoTimer (.createTab tabKey)) :
    (s.step (.createTab tabKey)).Inv := by
  -- nothing runs for the tab that is replaced
  have hreplaced : ∀ id ∈ s.active, id.owner.tabKey ≠ tabKey := by
    rintro id hid rfl
    have hkept := (hs.mem_active id).mp hid
    obtain ⟨tab, htab, hnumber⟩ := exists_tab_of_interval hkept
    have hmem : id ∈ tab.intervals :=
      (mem_intervals htab).mpr ⟨id.owner.chart, by rw [hnumber]; exact hkept⟩
    rw [hnone tab htab] at hmem
    exact absurd hmem List.not_mem_nil
  have herased : Inv { s with tabs := s.tabs.erase tabKey } := by
    refine inv_of_clear (fun owner => owner.tabKey = tabKey) hs rfl rfl ?_ interval_erase ?_ ?_ ?_
    · intro id
      exact (and_iff_left_of_imp (hreplaced id)).symm
    · intro key tab h
      simp only [JsMap.lookup_erase] at h
      split_ifs at h
      exact hs.number key tab h
    · exact Nat.le_refl s.steps
    · exact fun call hcall => hcall
  refine inv_of_arm ⟨tabKey, s.steps, none⟩ herased ?_ rfl rfl ?_ ?_ ?_ (Nat.le_succ s.steps)
    (fun call hcall => hcall) fun id h => absurd h (by simp)
  · simp only [interval, JsMap.lookup_erase, if_true, Option.bind_none]
  · intro id
    show id ∈ s.active ++ (s.newInterval _).toList ↔ _
    rw [List.mem_append, Option.mem_toList]
    rfl
  · intro owner
    show (s.createTab tabKey).interval owner = _
    rw [interval_createTab]
    simp only [interval, JsMap.lookup_erase]
    split_ifs with hkey howner howner
    · rfl
    · rfl
    · exact absurd (congrArg TimerOwner.tabKey howner) hkey
    · rfl
  · intro key tab h
    change AList.lookup key (AList.insert tabKey _ s.tabs) = some tab at h
    rw [JsMap.lookup_insert] at h
    split_ifs at h with hkey
    · obtain rfl := Option.some.inj h
      exact Nat.lt_succ_self s.steps
    · exact Nat.lt_succ_of_lt (hs.number key tab h)

/-- **A tab that is made over one with timers** leaves them running for what is not open. -/
theorem not_exclusive_createTab {tabKey : String} (hs : s.Inv)
    (hnone : ¬ s.NoTimer (.createTab tabKey)) : ¬ (s.step (.createTab tabKey)).Exclusive := by
  intro hexclusive
  refine hnone fun tab htab => ?_
  by_contra hne
  obtain ⟨id, hid⟩ := List.exists_mem_of_ne_nil _ hne
  obtain ⟨chart, hkept⟩ := (mem_intervals htab).mp hid
  have howner := hs.owner _ id hkept
  have hactive : id ∈ s.active := (hs.mem_active id).mpr (howner ▸ hkept)
  have hopen := hexclusive.closed id (List.mem_append_left _ hactive)
  have hnumber := hs.number tabKey tab htab
  unfold IsOpen at hopen
  rw [interval_step] at hopen
  change ((s.createTab tabKey).interval id.owner).isSome = true at hopen
  rw [interval_createTab, howner] at hopen
  have hne' : tab.number ≠ s.steps := Nat.ne_of_lt hnumber
  simp [hne'] at hopen

theorem inv_closeTab (tabKey : String) (hs : s.Inv) : (s.step (.closeTab tabKey)).Inv := by
  cases htab : s.tabs.lookup tabKey with
  | none =>
    have hstep : s.step (.closeTab tabKey) = { s with
        panels := s.panels.filter (some · ≠ s.panel tabKey)
        steps := s.steps + 1 } := by
      simp [step, act, closeTab, htab]
    rw [hstep]
    exact inv_steps (s := { s with panels := s.panels.filter (some · ≠ s.panel tabKey) })
      (inv_document hs)
  | some tab =>
    have hstep : s.step (.closeTab tabKey) = { s with
        active := s.clearIntervals tab.intervals
        tabs := s.tabs.erase tabKey
        panels := s.panels.filter (some · ≠ s.panel tabKey)
        steps := s.steps + 1 } := by
      simp [step, act, closeTab, htab]
    -- the timers under the key are those that are cleared
    have hcleared : ∀ id ∈ s.active, (id ∈ tab.intervals ↔ id.owner.tabKey = tabKey) := by
      intro id hid
      have hkept := (hs.mem_active id).mp hid
      rw [mem_intervals htab]
      constructor
      · rintro ⟨chart, hchart⟩
        rw [hs.owner _ id hchart]
      · intro hkey
        obtain ⟨tab', htab', hnumber⟩ := exists_tab_of_interval hkept
        rw [hkey] at htab'
        obtain rfl := Option.some.inj (htab.symm.trans htab')
        refine ⟨id.owner.chart, ?_⟩
        rw [hnumber, ← hkey]
        exact hkept
    rw [hstep]
    refine inv_of_clear (fun owner => owner.tabKey = tabKey) hs rfl rfl ?_ interval_erase ?_
      (Nat.le_succ s.steps) fun call hcall => hcall
    · intro id
      refine mem_clearIntervals.trans (and_congr_right fun hid => ?_)
      rw [hcleared id hid]
    · intro key tab' h
      simp only [JsMap.lookup_erase] at h
      split_ifs at h
      exact Nat.lt_succ_of_lt (hs.number key tab' h)

/-! ### Charts -/

/-- The charts of a tab are replaced. -/
theorem interval_setCharts {tabKey : String} {tab : PolledTab}
    (htab : s.tabs.lookup tabKey = some tab) (charts : JsMap ChartData) (owner : TimerOwner) :
    interval { s with tabs := s.tabs.insert tabKey { tab with charts := charts } } owner =
      match owner.chart with
      | some id =>
        if owner.tabKey = tabKey ∧ owner.tab = tab.number then
          (PolledTab.chart { tab with charts := charts } id).map (·.updateInterval)
        else s.interval owner
      | none => s.interval owner := by
  obtain ⟨key, number, chart⟩ := owner
  simp only [interval, JsMap.lookup_insert]
  by_cases hkey : key = tabKey
  · subst hkey
    by_cases hnumber : tab.number = number
    · cases chart with
      | none => simp [hnumber, htab, PolledTab.interval]
      | some id => simp [hnumber, PolledTab.interval]
    · have hnumber' : number ≠ tab.number := Ne.symm hnumber
      cases chart with
      | none => simp [hnumber, htab, PolledTab.interval]
      | some id => simp [hnumber, hnumber', htab, PolledTab.interval]
  · cases chart with
    | none => simp [hkey]
    | some id => simp [hkey]

theorem chart_insert {tab : PolledTab} {varName : String} {chartData : ChartData} (id : ChartId) :
    PolledTab.chart { tab with charts := tab.charts.insert varName chartData } id =
      if id = ⟨varName, chartData.call⟩ then some chartData
      else if id.varName = varName then none else tab.chart id := by
  obtain ⟨other, call⟩ := id
  unfold PolledTab.chart
  rw [JsMap.lookup_insert]
  by_cases hother : other = varName
  · by_cases hcall : call = chartData.call
    · simp [Option.filter_some, hother, hcall]
    · simp [Option.filter_some, hother, hcall, Ne.symm hcall]
  · simp [hother]

theorem chart_erase {tab : PolledTab} {varName : String} (id : ChartId) :
    PolledTab.chart { tab with charts := tab.charts.erase varName } id =
      if id.varName = varName then none else tab.chart id := by
  unfold PolledTab.chart
  rw [JsMap.lookup_erase]
  split_ifs
  · rfl
  · rfl

/-- The tabs keep their numbers. -/
theorem number_setCharts {tabKey : String} {tab : PolledTab} (hs : s.Inv)
    (htab : s.tabs.lookup tabKey = some tab) (charts : JsMap ChartData) :
    ∀ key tab', AList.lookup key (s.tabs.insert tabKey { tab with charts := charts }) = some tab' →
      tab'.number < s.steps :=
  JsMap.forall_insert hs.number (hs.number tabKey tab htab)

/-- The chart of a variable in a tab. -/
def TimerOwner.IsChartOf (owner : TimerOwner) (tabKey : String) (tab : ℕ) (varName : String) :
    Prop :=
  owner.tabKey = tabKey ∧ owner.tab = tab ∧ ∃ call, owner.chart = some ⟨varName, call⟩

/-- What is kept for the chart of a variable. -/
theorem lookup_of_isChartOf {tabKey varName : String} {tab : PolledTab} {owner : TimerOwner}
    {kept : Option IntervalId} (htab : s.tabs.lookup tabKey = some tab)
    (howner : TimerOwner.IsChartOf owner tabKey tab.number varName)
    (hkept : s.interval owner = some kept) :
    ∃ chartData, tab.charts.lookup varName = some chartData ∧ chartData.updateInterval = kept := by
  obtain ⟨key, number, chart⟩ := owner
  obtain ⟨rfl, rfl, call, rfl⟩ := howner
  rw [interval_of_lookup htab] at hkept
  obtain ⟨chartData, hchart, hid⟩ := Option.map_eq_some_iff.mp hkept
  exact ⟨chartData, (chart_eq_some.mp hchart).1, hid⟩

/-- **The chart of a variable goes**, with its timer if it has one. -/
theorem inv_eraseChart {tabKey varName : String} {tab : PolledTab} {active : List IntervalId}
    (hs : s.Inv) (htab : s.tabs.lookup tabKey = some tab)
    (hactive : ∀ id, id ∈ active ↔ id ∈ s.active ∧
      ∀ chartData, tab.charts.lookup varName = some chartData →
        chartData.updateInterval ≠ some id) :
    Inv { s with
      active := active
      tabs := s.tabs.insert tabKey { tab with charts := tab.charts.erase varName } } := by
  refine inv_of_clear (fun owner => TimerOwner.IsChartOf owner tabKey tab.number varName) hs rfl rfl
    ?_ ?_ (number_setCharts hs htab _) (Nat.le_refl s.steps) fun call hcall => hcall
  · intro id
    refine (hactive id).trans (and_congr_right fun hid => ?_)
    have hkept := (hs.mem_active id).mp hid
    constructor
    · intro hother howner
      obtain ⟨chartData, hchart, hsome⟩ := lookup_of_isChartOf htab howner hkept
      exact hother chartData hchart hsome
    · intro hother chartData hchart hsome
      have hkept' : s.interval ⟨tabKey, tab.number, some ⟨varName, chartData.call⟩⟩ =
          some (some id) := by
        rw [interval_of_lookup htab]
        simp only [chart_of_lookup hchart, Option.map_some, hsome]
      rw [hs.owner _ id hkept'] at hother
      exact hother ⟨rfl, rfl, chartData.call, rfl⟩
  · intro owner kept
    refine (Eq.congr_left (interval_setCharts htab _ owner)).trans ?_
    obtain ⟨key, number, chart⟩ := owner
    cases chart with
    | none => simp [TimerOwner.IsChartOf]
    | some id =>
      obtain ⟨other, call⟩ := id
      by_cases hkey : key = tabKey ∧ number = tab.number
      · obtain ⟨rfl, rfl⟩ := hkey
        by_cases hother : other = varName
        · simp [chart_erase, hother, TimerOwner.IsChartOf]
        · simp [chart_erase, hother, TimerOwner.IsChartOf, interval_of_lookup htab]
      · simp only [if_neg hkey]
        exact (and_iff_left fun h => hkey ⟨h.1, h.2.1⟩).symm

/-- **A chart is kept** where the tab has none of the variable. -/
theorem inv_insertChart {call : ChartCall} {tab : PolledTab} (hs : s.Inv)
    (htab : s.tabs.lookup call.tabKey = some tab) (hnumber : tab.number = call.tab)
    (hnone : tab.charts.lookup call.varName = none) (hlt : call.number < s.steps)
    (hgone : ∀ other ∈ s.loading, other.number ≠ call.number) : (s.storeChart call).Inv := by
  set new : TimerOwner := ⟨call.tabKey, call.tab, some ⟨call.varName, call.number⟩⟩ with hnew
  have hstore : s.storeChart call = { s with
      active := s.active ++ (s.newInterval new).toList
      tabs := s.tabs.insert call.tabKey { tab with
        charts := tab.charts.insert call.varName ⟨call.number, s.newInterval new⟩ } } := by
    simp [storeChart, htab, hnumber, hnew]
  rw [hstore]
  refine inv_of_arm new hs ?_ rfl rfl ?_ ?_ (number_setCharts hs htab _) (Nat.le_refl s.steps)
    (fun other hother => hother) ?_
  · rw [hnew, ← hnumber, interval_of_lookup htab]
    simp [PolledTab.chart, hnone]
  · intro id
    rw [List.mem_append, Option.mem_toList]
  · intro owner
    refine (interval_setCharts htab _ owner).trans ?_
    obtain ⟨key, number, chart⟩ := owner
    cases chart with
    | none => simp [hnew]
    | some id =>
      simp only [chart_insert, hnew, ← hnumber, TimerOwner.mk.injEq, Option.some.injEq]
      by_cases hkey : key = call.tabKey ∧ number = tab.number
      · obtain ⟨rfl, rfl⟩ := hkey
        by_cases hid : id = ⟨call.varName, call.number⟩
        · simp [hid]
        · by_cases hvar : id.varName = call.varName
          · have hfree : tab.chart id = none := by
              rw [PolledTab.chart, hvar, hnone]
              rfl
            simp [hid, hvar, interval_of_lookup htab, hfree]
          · simp [hid, hvar, interval_of_lookup htab]
      · rw [if_neg hkey, if_neg fun h => hkey ⟨h.1, h.2.1⟩]
  · rintro id hid
    obtain rfl := Option.some.inj hid
    exact ⟨hlt, hgone⟩

/-- A call is made, or refused. -/
theorem inv_addChart (tabKey varName : String) (hs : s.Inv) :
    (s.step (.addChart tabKey varName)).Inv := by
  have hsame : (s.addChart tabKey varName = s) ∨ ∃ canvases number, s.addChart tabKey varName =
      { s with
        canvases := canvases
        loading := s.loading ++ [⟨s.steps, tabKey, number, varName⟩] } := by
    unfold addChart
    split
    · split_ifs
      · exact Or.inl rfl
      · split
        · exact Or.inr ⟨_, _, rfl⟩
        · exact Or.inl rfl
    · exact Or.inl rfl
  change Inv { s.addChart tabKey varName with steps := s.steps + 1 }
  rcases hsame with h | ⟨canvases, number, h⟩
  · rw [h]
    exact inv_steps hs
  · rw [h]
    refine ⟨hs.mem_active, hs.owner, hs.connected, hs.polling,
      fun key tab htab => Nat.lt_succ_of_lt (hs.number key tab htab), ?_, ?_⟩
    · intro owner id kept hkept hid
      obtain ⟨hlt, hother⟩ := hs.chart owner id kept hkept hid
      refine ⟨Nat.lt_succ_of_lt hlt, fun call hcall => ?_⟩
      rcases List.mem_append.mp hcall with hcall | hcall
      · exact hother call hcall
      · obtain rfl := List.mem_singleton.mp hcall
        exact Nat.ne_of_gt hlt
    · intro call hcall
      rcases List.mem_append.mp hcall with hcall | hcall
      · exact Nat.lt_succ_of_lt (hs.loading call hcall)
      · obtain rfl := List.mem_singleton.mp hcall
        exact Nat.lt_succ_self s.steps

theorem drawnCall_eq_some {number : ℕ} {drawn : Bool} {call : ChartCall}
    (h : s.drawnCall number drawn = some call) : call ∈ s.loading ∧ call.number = number := by
  obtain ⟨hfind, -⟩ := Option.filter_eq_some_iff.mp h
  exact ⟨List.mem_of_find?_eq_some hfind, by simpa using List.find?_some hfind⟩

theorem inv_arrived (number : ℕ) (hs : s.Inv) : (s.arrived number).Inv := by
  refine ⟨hs.mem_active, hs.owner, hs.connected, hs.polling, hs.number, ?_, ?_⟩
  · intro owner id kept hkept hid
    obtain ⟨hlt, hother⟩ := hs.chart owner id kept hkept hid
    exact ⟨hlt, fun call hcall => hother call (List.mem_of_mem_filter hcall)⟩
  · exact fun call hcall => hs.loading call (List.mem_of_mem_filter hcall)

/-- What the tab of the call keeps, if it is open. -/
theorem isOpen_tab {call : ChartCall} : s.IsOpen ⟨call.tabKey, call.tab, none⟩ ↔
    ∃ tab, s.tabs.lookup call.tabKey = some tab ∧ tab.number = call.tab := by
  constructor
  · intro h
    obtain ⟨kept, hkept⟩ := Option.isSome_iff_exists.mp h
    exact exists_tab_of_interval hkept
  · rintro ⟨tab, htab, hnumber⟩
    unfold IsOpen
    rw [← hnumber, interval_of_lookup htab]
    rfl

/-- The tab that the call has looked up is not open. -/
theorem storeChart_of_not_isOpen {call : ChartCall}
    (htab : ¬ s.IsOpen ⟨call.tabKey, call.tab, none⟩) : s.storeChart call = { s with
      active := s.active ++
        (s.newInterval ⟨call.tabKey, call.tab, some ⟨call.varName, call.number⟩⟩).toList } := by
  unfold storeChart
  cases hlookup : s.tabs.lookup call.tabKey with
  | none => rfl
  | some tab =>
    have hnumber : tab.number ≠ call.tab := fun h => htab (isOpen_tab.mpr ⟨tab, hlookup, h⟩)
    simp [hnumber]

theorem inv_storeChart {call : ChartCall} (hs : s.Inv) (hlt : call.number < s.steps)
    (hgone : ∀ other ∈ s.loading, other.number ≠ call.number)
    (hopen : s.connected = true ∨ s.IsOpen ⟨call.tabKey, call.tab, none⟩)
    (hnone : ∀ tab, s.tabs.lookup call.tabKey = some tab → tab.number = call.tab →
      ∀ chartData, tab.charts.lookup call.varName = some chartData →
        chartData.updateInterval = none) : (s.storeChart call).Inv := by
  by_cases htab : s.IsOpen ⟨call.tabKey, call.tab, none⟩
  · obtain ⟨tab, htab, hnumber⟩ := isOpen_tab.mp htab
    -- what is there for the variable has no timer, and goes first
    have herased : Inv { s with
        tabs := s.tabs.insert call.tabKey { tab with
          charts := tab.charts.erase call.varName } } :=
      inv_eraseChart hs htab fun id => (and_iff_left fun chartData hchart => by
        rw [hnone tab htab hnumber chartData hchart]
        simp).symm
    have hsame : s.storeChart call = storeChart { s with
        tabs := s.tabs.insert call.tabKey { tab with
          charts := tab.charts.erase call.varName } } call := by
      simp [storeChart, htab, hnumber, JsMap.insert_erase, newInterval]
    rw [hsame]
    exact inv_insertChart herased (AList.lookup_insert s.tabs) hnumber
      (by rw [JsMap.lookup_erase, if_pos rfl]) hlt hgone
  · have hconnected := hopen.resolve_right htab
    rw [storeChart_of_not_isOpen htab, newInterval, if_pos hconnected, Option.toList_none,
      List.append_nil]
    exact hs

theorem inv_historyArrived (number : ℕ) (drawn : Bool) (hs : s.Inv)
    (hnone : s.NoTimer (.historyArrived number drawn)) :
    (s.step (.historyArrived number drawn)).Inv := by
  have hsteps : (s.historyArrived number drawn).steps = s.steps := by
    unfold historyArrived
    split <;> rfl
  refine inv_of_act ?_ hsteps
  show (s.historyArrived number drawn).Inv
  unfold historyArrived
  cases hcall : s.drawnCall number drawn with
  | none => exact inv_arrived number hs
  | some call =>
    obtain ⟨hopen, htimer⟩ := hnone call hcall
    obtain ⟨hmem, rfl⟩ := drawnCall_eq_some hcall
    refine inv_storeChart (inv_arrived call.number hs) (hs.loading call hmem) ?_ hopen htimer
    intro other hother
    simpa using (List.mem_filter.mp hother).2

/-- **A history that comes late** leaves a timer for what is not open. -/
theorem not_exclusive_historyArrived {number : ℕ} {drawn : Bool} (hs : s.Inv)
    (hnone : ¬ s.NoTimer (.historyArrived number drawn)) :
    ¬ (s.step (.historyArrived number drawn)).Exclusive := by
  intro hexclusive
  refine hnone fun call hcall => ?_
  obtain ⟨hmem, rfl⟩ := drawnCall_eq_some hcall
  have hstep : s.step (.historyArrived call.number drawn) =
      { (s.arrived call.number).storeChart call with steps := s.steps + 1 } := by
    simp [step, act, historyArrived, hcall]
  rw [hstep] at hexclusive
  constructor
  · by_contra hnot
    obtain ⟨hoff, htab⟩ := not_or.mp hnot
    -- the timer that is armed is of no open tab
    set new : TimerOwner := ⟨call.tabKey, call.tab, some ⟨call.varName, call.number⟩⟩ with hnew
    have hsome : (s.arrived call.number).newInterval new = some ⟨s.steps, new⟩ :=
      newInterval_eq_some.mpr ⟨by simpa [arrived] using hoff, rfl⟩
    have htab' : ¬ (s.arrived call.number).IsOpen ⟨call.tabKey, call.tab, none⟩ := htab
    rw [storeChart_of_not_isOpen htab'] at hexclusive
    have hopen := hexclusive.closed ⟨s.steps, new⟩
      (List.mem_append_right _ (by rw [← hnew, hsome]; exact List.mem_singleton_self _))
    obtain ⟨kept, hkept⟩ := Option.isSome_iff_exists.mp hopen
    have hkept' : s.interval new = some kept := hkept
    exact htab (isOpen_tab.mpr (exists_tab_of_interval hkept'))
  · intro tab htab hnumber chartData hchart
    by_contra hne
    obtain ⟨id, hid⟩ := Option.ne_none_iff_exists'.mp hne
    -- the chart whose place is taken keeps its timer
    have hkept : s.interval ⟨call.tabKey, tab.number, some ⟨call.varName, chartData.call⟩⟩ =
        some (some id) := by
      rw [interval_of_lookup htab]
      simp only [chart_of_lookup hchart, Option.map_some, hid]
    have howner := hs.owner _ id hkept
    have hactive : id ∈ s.active := (hs.mem_active id).mpr (howner ▸ hkept)
    have hother := (hs.chart _ _ _ hkept rfl).2 call hmem
    have hopen := hexclusive.closed id (List.mem_append_left _ hactive)
    obtain ⟨kept, hkept'⟩ := Option.isSome_iff_exists.mp hopen
    rw [howner] at hkept'
    simp only [interval, storeChart, arrived, htab, hnumber, if_true, AList.lookup_insert,
      Option.bind_some, PolledTab.interval] at hkept'
    obtain ⟨kept', hchart', -⟩ := Option.map_eq_some_iff.mp hkept'
    obtain ⟨hlookup, hcall'⟩ := chart_eq_some.mp hchart'
    rw [AList.lookup_insert] at hlookup
    obtain rfl := Option.some.inj hlookup
    exact hother hcall'

theorem inv_removeChart (tabKey varName : String) (hs : s.Inv) :
    (s.step (.removeChart tabKey varName)).Inv := by
  have hsteps : (s.removeChart tabKey varName).steps = s.steps := by
    unfold removeChart
    split
    · split <;> rfl
    · rfl
  refine inv_of_act ?_ hsteps
  show (s.removeChart tabKey varName).Inv
  unfold removeChart
  cases htab : s.tabs.lookup tabKey with
  | none => exact hs
  | some tab =>
    cases hchart : tab.charts.lookup varName with
    | none =>
      simp only [hchart]
      exact inv_document hs
    | some chartData =>
      simp only [hchart]
      refine inv_document (inv_eraseChart hs htab fun id => mem_clearIntervals.trans ?_)
      simp [hchart]

/-! ### The runs -/

theorem inv_step (a : UpdateModeAction) (hs : s.Inv) (hnone : s.NoTimer a) : (s.step a).Inv := by
  cases a with
  | connected => exact inv_onConnected hs hnone
  | error => exact inv_onError hs
  | createTab tabKey => exact inv_createTab tabKey hs hnone
  | closeTab tabKey => exact inv_closeTab tabKey hs
  | addChart tabKey varName => exact inv_addChart tabKey varName hs
  | historyArrived number drawn => exact inv_historyArrived number drawn hs hnone
  | removeChart tabKey varName => exact inv_removeChart tabKey varName hs

theorem not_exclusive_step (a : UpdateModeAction) (hs : s.Inv) (hnone : ¬ s.NoTimer a) :
    ¬ (s.step a).Exclusive := by
  cases a with
  | connected => exact not_exclusive_onConnected hs hnone
  | createTab tabKey => exact not_exclusive_createTab hs hnone
  | historyArrived number drawn => exact not_exclusive_historyArrived hs hnone
  | error | closeTab _ | addChart _ _ | removeChart _ _ => exact absurd trivial hnone

end UpdateMode

end UnisetPanel
