/-
  The dashboards of the browser (`62-dashboard-manager.js`): the map of them, the
  one that is shown, and what `localStorage` has of them.

  The dashboards of the user and those of the server share one map of names, and
  the mark `_server` says whose one is.  A dashboard of the server is fetched
  when it is loaded first; `loadDashboard` is cut there, since other calls come
  while it waits.

  The order of a map and of the stored list matters to nothing but the order of
  the selector, and is not followed.
-/
import UnisetPanel.JsMap
import UnisetPanel.Timer

namespace UnisetPanel

/-- `meta` of a dashboard. -/
structure DashboardMeta where
  name : String
  description : String
  created : Option Time
  modified : Option Time
  deriving DecidableEq, Repr

/-- A widget of a dashboard. -/
structure WidgetConfig where
  id : String
  type : String
  /-- its position and its settings -/
  config : String
  deriving DecidableEq, Repr

/-- A dashboard. -/
structure DashboardConfig where
  info : DashboardMeta
  widgets : List WidgetConfig
  /-- `_server` -/
  server : Bool
  /-- `_loaded` -/
  loaded : Bool
  deriving DecidableEq, Repr

/-- The keys of `WIDGET_TYPES`. -/
def widgetTypes : List String :=
  ["gauge", "level", "led", "label", "divider", "statusbar", "bargraph", "digital", "chart"]

namespace DashboardConfig

/-- What is to be kept of a dashboard. -/
def contents (config : DashboardConfig) : DashboardMeta × List WidgetConfig :=
  (config.info, config.widgets)

/-- The widgets that `renderDashboard` creates: those of a known type. -/
def rendered (config : DashboardConfig) : List WidgetConfig :=
  config.widgets.filter (·.type ∈ widgetTypes)

/-- The dashboard is fetched before it is shown. -/
def Lazy (config : DashboardConfig) : Prop := config.server = true ∧ config.loaded = false

instance (config : DashboardConfig) : Decidable config.Lazy :=
  inferInstanceAs (Decidable (_ ∧ _))

end DashboardConfig

/-- `dashboardState`, the grid of the page and `localStorage`. -/
structure Dashboards where
  dashboards : JsMap DashboardConfig
  currentDashboard : Option String
  /-- the widgets on the grid -/
  widgets : List WidgetConfig
  /-- `user-dashboards` -/
  userDashboards : List String
  /-- `dashboard:` with a name -/
  stored : JsMap DashboardConfig
  /-- `last-dashboard` -/
  lastDashboard : Option String

namespace Dashboards

variable (s : Dashboards)

/-- A browser in which the panel was never opened. -/
def new : Dashboards := ⟨∅, none, [], [], ∅, none⟩

/-- `dashboardState.dashboards.set`. -/
def setDashboard (name : String) (config : DashboardConfig) : Dashboards :=
  { s with dashboards := s.dashboards.insert name config }

/-- `clearDashboard`. -/
def clearDashboard : Dashboards :=
  { s with currentDashboard := none, widgets := [], lastDashboard := none }

/-- The end of `loadDashboard`. -/
def showDashboard (name : String) (config : DashboardConfig) : Dashboards :=
  { s with currentDashboard := some name, widgets := config.rendered, lastDashboard := some name }

/-- `loadDashboard`, up to its request if it makes one. -/
def loadDashboard (name : String) : Dashboards × Bool :=
  if name = "" then (s.clearDashboard, false)
  else
    match s.dashboards.lookup name with
    | none => (s.clearDashboard, false)
    | some config => if config.Lazy then (s, true) else (s.showDashboard name config, false)

/-- `loadDashboard`, from the response on; none if it failed or was an error. -/
def fetched (name : String) : Option DashboardConfig → Dashboards
  | some fullConfig =>
    let config := { fullConfig with server := true, loaded := true }
    (s.setDashboard name config).showDashboard name config
  | none => s.clearDashboard

/-- `loadDashboard` whose request, if it makes one, is answered at once. -/
def loadDashboardNow (name : String) (response : Option DashboardConfig) : Dashboards :=
  match s.loadDashboard name with
  | (t, true) => t.fetched name response
  | (t, false) => t

/-! ### What loading does -/

variable {s}

/-- **What a call does**: it shows the dashboard at once, or fetches it, or there is none. -/
theorem loadDashboard_cases (name : String) :
    (∃ config, name ≠ "" ∧ s.dashboards.lookup name = some config ∧ ¬ config.Lazy ∧
      s.loadDashboard name = (s.showDashboard name config, false)) ∨
    (∃ config, name ≠ "" ∧ s.dashboards.lookup name = some config ∧ config.Lazy ∧
      s.loadDashboard name = (s, true)) ∨
    (name = "" ∨ s.dashboards.lookup name = none) ∧
      s.loadDashboard name = (s.clearDashboard, false) := by
  by_cases hname : name = ""
  · refine Or.inr (Or.inr ⟨Or.inl hname, ?_⟩)
    simp [loadDashboard, hname]
  · cases hconfig : s.dashboards.lookup name with
    | none =>
      refine Or.inr (Or.inr ⟨Or.inr rfl, ?_⟩)
      simp [loadDashboard, hname, hconfig]
    | some config =>
      by_cases hlazy : config.Lazy
      · refine Or.inr (Or.inl ⟨config, hname, rfl, hlazy, ?_⟩)
        simp [loadDashboard, hname, hconfig, hlazy]
      · refine Or.inl ⟨config, hname, rfl, hlazy, ?_⟩
        simp [loadDashboard, hname, hconfig, hlazy]

/-- What is stored of the dashboards does not change with the one that is shown. -/
theorem loadDashboardNow_stored (name : String) (response : Option DashboardConfig) :
    (s.loadDashboardNow name response).userDashboards = s.userDashboards ∧
      (s.loadDashboardNow name response).stored = s.stored := by
  unfold loadDashboardNow
  rcases loadDashboard_cases (s := s) name with ⟨config, -, -, -, h⟩ | ⟨config, -, -, -, h⟩ | ⟨-, h⟩
  · rw [h]
    exact ⟨rfl, rfl⟩
  · rw [h]
    cases response <;> exact ⟨rfl, rfl⟩
  · rw [h]
    exact ⟨rfl, rfl⟩

/-- Loading changes no entry but one that is fetched. -/
theorem lookup_loadDashboardNow (name : String) (response : Option DashboardConfig) {other : String}
    {config : DashboardConfig} (h : s.dashboards.lookup other = some config)
    (hlazy : ¬ config.Lazy) :
    (s.loadDashboardNow name response).dashboards.lookup other = some config := by
  unfold loadDashboardNow
  rcases loadDashboard_cases (s := s) name with ⟨c, -, -, -, hcall⟩ | ⟨c, -, hc, hclazy, hcall⟩ |
    ⟨-, hcall⟩
  · rw [hcall]
    exact h
  · rw [hcall]
    cases response with
    | none => exact h
    | some fullConfig =>
      have hne : other ≠ name := by
        rintro rfl
        rw [h] at hc
        exact hlazy (Option.some.inj hc ▸ hclazy)
      show AList.lookup other (AList.insert name _ s.dashboards) = some config
      rw [JsMap.lookup_insert, if_neg hne, h]
  · rw [hcall]
    exact h

/-- **A dashboard that need not be fetched is shown.** -/
theorem loadDashboardNow_of_not_lazy {name : String} (response : Option DashboardConfig)
    {config : DashboardConfig} (hname : name ≠ "") (h : s.dashboards.lookup name = some config)
    (hlazy : ¬ config.Lazy) :
    s.loadDashboardNow name response = s.showDashboard name config := by
  simp [loadDashboardNow, loadDashboard, hname, h, hlazy]

end Dashboards

end UnisetPanel
