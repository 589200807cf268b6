/-
  The dashboards of the user over reloads of the page (`62-dashboard-manager.js`,
  `63-dashboard-dialogs.js`).

  `localStorage` has each dashboard of the user under its name, and the list of
  their names, which every save writes anew from the map.  A list of the server
  marks the dashboards of its names as its own, also one of the user; from then
  on the name loads what the server has, and the next save of any other
  dashboard writes the list without it.  The dialog that adds a sensor puts an
  empty dashboard over one of the same name (`not_keepsDashboards`).

  What the user has saved is told from the actions (`Dashboards.saves`), not from
  `localStorage`.  All of it is listed and loads, after every reload too, in the
  runs in which neither the server nor that dialog brings a name that is stored
  (`keepsDashboards_of_ownNames`).
-/
import UnisetPanel.Browser.Dashboards
import UnisetPanel.Machine

namespace UnisetPanel

namespace Dashboards

variable (s : Dashboards)

/-- The names of the dashboards of the user. -/
def userNames (dashboards : JsMap DashboardConfig) : List String :=
  (dashboards.entries.filter fun e => !e.2.server).map Sigma.fst

/-- `saveDashboard`. -/
def saveDashboard (name : String) (now : Time) : Dashboards :=
  if name = "" then s
  else
    match s.dashboards.lookup name with
    | none => s
    | some config =>
      if config.server = true then s
      else
        let config := { config with info := { config.info with modified := some now } }
        { s with
          dashboards := s.dashboards.insert name config
          stored := s.stored.insert name config
          userDashboards := userNames (s.dashboards.insert name config) }

/-- `createDashboard`; the name is trimmed. -/
def createDashboard (name : String) (now : Time) : Dashboards :=
  if name = "" ∨ name ∈ s.dashboards then s
  else
    let config : DashboardConfig := ⟨⟨name, "", some now, some now⟩, [], false, false⟩
    ((s.setDashboard name config).saveDashboard name now).loadDashboardNow name none

/-- `addSensorToDashboard`, with the widget it makes of the sensor; `view` is whether the dashboards
are in view. -/
def addSensorToDashboard (name : String) (widget : WidgetConfig) (createNew view : Bool)
    (now : Time) : Dashboards :=
  if name = "" then s
  else if createNew = true then
    -- there is no `updateDashboardList`: the call throws
    s.setDashboard name ⟨⟨name, "", none, none⟩, [], false, false⟩
  else
    let t := { s with currentDashboard := some name }
    let saved :=
      match t.dashboards.lookup name with
      | none => t
      | some dashboard =>
        (t.setDashboard name
          { dashboard with widgets := dashboard.widgets ++ [widget] }).saveDashboard name now
    { saved with
      widgets := if name ∈ s.dashboards ∧ view = true ∧ widget.type ∈ widgetTypes then
          saved.widgets ++ [widget]
        else saved.widgets
      currentDashboard :=
        match s.currentDashboard with
        | some prevDashboard => if prevDashboard ≠ name then some prevDashboard else some name
        | none => some name }

/-- The widgets of the current dashboard are edited, and it is saved. -/
def edit (f : List WidgetConfig → List WidgetConfig) (now : Time) : Dashboards :=
  match s.currentDashboard with
  | none => s
  | some name =>
    match s.dashboards.lookup name with
    | none => s
    | some entry =>
      let dashboard := { entry with widgets := f entry.widgets }
      { s.setDashboard name dashboard with widgets := dashboard.rendered }.saveDashboard name now

/-- The name that `confirmImport` imports under. -/
def importName (replace : Bool) (name : String) : String :=
  match s.currentDashboard with
  | some current => if replace = true then current else name
  | none => name

/-- `confirmImport`. -/
def confirmImport (replace : Bool) (name : String) (config : DashboardConfig) (now : Time)
    (response : Option DashboardConfig) : Dashboards :=
  let name := s.importName replace name
  if name = "" then s
  else
    let config := { config with info := { config.info with name := name, modified := some now } }
    ((s.setDashboard name config).saveDashboard name now).loadDashboardNow name response

/-- `deleteDashboard`, confirmed. -/
def deleteDashboard : Dashboards :=
  match s.currentDashboard with
  | none => s
  | some name =>
    if (s.dashboards.lookup name).any (·.server) = true then s
    else
      { s with
        dashboards := s.dashboards.erase name
        stored := s.stored.erase name
        userDashboards := userNames (s.dashboards.erase name) }.clearDashboard

/-- The map that `loadDashboards` builds of `localStorage`. -/
def restore (names : List String) (stored : JsMap DashboardConfig) : JsMap DashboardConfig :=
  names.foldl (fun dashboards name =>
    match stored.lookup name with
    | some config => dashboards.insert name config
    | none => dashboards) ∅

/-- The page is loaded again: `loadDashboards`, up to the response of `loadServerDashboards`. -/
def loadDashboards (response : Option DashboardConfig) : Dashboards :=
  let t := { s with
    dashboards := restore s.userDashboards s.stored, currentDashboard := none, widgets := [] }
  match s.lastDashboard with
  | some last => if last ≠ "" ∧ last ∈ t.dashboards then t.loadDashboardNow last response else t
  | none => t

/-- One dashboard that the server lists: its name and its description. -/
def addServerDashboard (dashboards : JsMap DashboardConfig) (info : String × String) :
    JsMap DashboardConfig :=
  if info.1 = "" then dashboards
  else
    match dashboards.lookup info.1 with
    | some existing => dashboards.insert info.1 { existing with server := true }
    | none => dashboards.insert info.1 ⟨⟨info.1, info.2, none, none⟩, [], true, false⟩

/-- `loadServerDashboards`, from its response on. -/
def loadServerDashboards (dashboardInfos : List (String × String)) : Dashboards :=
  { s with dashboards := dashboardInfos.foldl addServerDashboard s.dashboards }

end Dashboards

/-- What happens to the dashboards, one at a time. -/
inductive DashboardAction where
  | create (name : String) (now : Time)
  | addSensor (name : String) (widget : WidgetConfig) (createNew view : Bool) (now : Time)
  | edit (f : List WidgetConfig → List WidgetConfig) (now : Time)
  | load (name : String) (response : Option DashboardConfig)
  | confirmImport (replace : Bool) (name : String) (config : DashboardConfig) (now : Time)
      (response : Option DashboardConfig)
  | delete
  | reload (response : Option DashboardConfig)
  | loadServerDashboards (dashboardInfos : List (String × String))

namespace Dashboards

variable (s : Dashboards)

/-- The dashboard of the user as it is after a change of its widgets. -/
def changed (name : String) (f : List WidgetConfig → List WidgetConfig) (now : Time) :
    Option (String × DashboardConfig) :=
  if name = "" then none
  else (s.dashboards.lookup name).bind fun entry =>
    if entry.server = true then none
    else some (name, { entry with
      info := { entry.info with modified := some now }
      widgets := f entry.widgets })

/-- The dashboard that the user saves with an action; what is of the server is not the user's. -/
def saves : DashboardAction → Option (String × DashboardConfig)
  | .create name now =>
    if name = "" ∨ name ∈ s.dashboards then none
    else some (name, ⟨⟨name, "", some now, some now⟩, [], false, false⟩)
  | .addSensor name widget createNew _ now =>
    if createNew = true then none else s.changed name (· ++ [widget]) now
  | .edit f now => s.currentDashboard.bind fun name => s.changed name f now
  | .confirmImport replace name config now _ =>
    if s.importName replace name = "" ∨ config.server = true then none
    else some (s.importName replace name, { config with
      info := { config.info with name := s.importName replace name, modified := some now } })
  | .load _ _ | .delete | .reload _ | .loadServerDashboards _ => none

end Dashboards

/-- The page, and what the user has saved and not deleted, as it was saved last. -/
structure DashboardSession where
  page : Dashboards
  saved : JsMap DashboardConfig

namespace DashboardSession

variable (s : DashboardSession)

/-- The panel was never opened. -/
def new : DashboardSession := ⟨.new, ∅⟩

/-- The page after an action, with what the user saves by it. -/
def record (a : DashboardAction) (page : Dashboards) : DashboardSession :=
  match s.page.saves a with
  | some (name, config) => ⟨page, s.saved.insert name config⟩
  | none => { s with page := page }

/-- One step; an import is under an unused name. -/
def step : DashboardAction → Option DashboardSession
  | .create name now => some (s.record (.create name now) (s.page.createDashboard name now))
  | .addSensor name widget createNew view now =>
    some (s.record (.addSensor name widget createNew view now)
      (s.page.addSensorToDashboard name widget createNew view now))
  | .edit f now => some (s.record (.edit f now) (s.page.edit f now))
  | .load name response => some { s with page := s.page.loadDashboardNow name response }
  | .confirmImport replace name config now response =>
    if s.page.importName replace name ∉ s.page.dashboards then
      some (s.record (.confirmImport replace name config now response)
        (s.page.confirmImport replace name config now response))
    else none
  | .delete =>
    match s.page.currentDashboard with
    | some name =>
      if (s.page.dashboards.lookup name).any (·.server) = true then some s
      else some ⟨s.page.deleteDashboard, s.saved.erase name⟩
    | none => some s
  | .reload response => some { s with page := s.page.loadDashboards response }
  | .loadServerDashboards dashboardInfos =>
    some { s with page := s.page.loadServerDashboards dashboardInfos }

end DashboardSession

/-- The runs from a browser in which the panel was never opened. -/
def dashboardMachine : Machine DashboardSession DashboardAction where
  init := .new
  step := DashboardSession.step

/-- The name is listed, and loads the contents. -/
def Dashboards.Has (s : Dashboards) (name : String) (config : DashboardConfig) : Prop :=
  name ∈ s.dashboards ∧ ∀ response, (s.loadDashboardNow name response).currentDashboard = some name ∧
    (s.loadDashboardNow name response).widgets = config.rendered ∧
    ((s.loadDashboardNow name response).dashboards.lookup name).map DashboardConfig.contents =
      some config.contents

namespace DashboardSession

variable (s : DashboardSession)

/-- **The dashboards of the user are kept**: what was saved and not deleted is listed and loads what
was saved last. -/
def KeepsDashboards : Prop :=
  ∀ name config, s.saved.lookup name = some config → s.page.Has name config

/-- The server lists no name of a dashboard that is stored, and the dialog that adds a sensor makes
no dashboard of such a name. -/
def OwnNames : DashboardAction → Prop
  | .loadServerDashboards dashboardInfos =>
    ∀ name config, s.page.stored.lookup name = some config → name ∉ dashboardInfos.map Prod.fst
  | .addSensor name _ createNew _ _ => createNew = true → s.page.stored.lookup name = none
  | .create _ _ | .edit _ _ | .load _ _ | .confirmImport _ _ _ _ _ | .delete | .reload _ => True

end DashboardSession

/-! ### A name of the server -/

/-- A dashboard is created, and the page is opened again. -/
def createdAndReloaded : List DashboardAction := [.create "a" 0, .reload none]

/-- A dashboard with one widget, and the page is opened again. -/
def editedAndReloaded : List DashboardAction :=
  [.create "a" 0, .edit (· ++ [⟨"w", "led", ""⟩]) 1, .reload none]

/-- **It fails**: the server lists the name after a reload, and the name loads what the server has;
or it does before, another dashboard is created, and after the reload the name is not listed; or the
dialog that adds a sensor makes a dashboard of the name, which then loads without its widgets. -/
theorem not_keepsDashboards :
    (¬ ∀ as s, dashboardMachine.run .new as = some s → ∀ name config,
      s.saved.lookup name = some config →
        ∀ response, (s.page.loadDashboardNow name response).currentDashboard = some name) ∧
    (¬ ∀ as s, dashboardMachine.run .new as = some s → ∀ name config,
      s.saved.lookup name = some config → name ∈ s.page.dashboards) ∧
    ¬ ∀ as s, dashboardMachine.run .new as = some s → ∀ name config,
      s.saved.lookup name = some config →
        ∀ response, (s.page.loadDashboardNow name response).widgets = config.rendered := by
  refine ⟨fun h => ?_, fun h => ?_, fun h => ?_⟩
  · have hload := h (createdAndReloaded ++ [.loadServerDashboards [("a", "")]]) _ rfl "a" _ rfl none
    exact absurd hload (by decide)
  · have hmem := h [.create "a" 0, .loadServerDashboards [("a", "")], .create "b" 0, .reload none] _
      rfl "a" _ rfl
    exact absurd hmem (by decide)
  · have hload := h (editedAndReloaded ++ [.addSensor "a" ⟨"v", "led", ""⟩ true false 2]) _ rfl "a"
      _ rfl none
    exact absurd hload (by decide)

namespace Dashboards

/-! ### What the operations keep -/

/-- All that is stored is on the list, and is a dashboard of the user in the map. -/
def StoredListed (s : Dashboards) : Prop := ∀ name config, s.stored.lookup name = some config →
  name ≠ "" ∧ config.server = false ∧ name ∈ s.userDashboards ∧
    ∃ entry, s.dashboards.lookup name = some entry ∧ entry.server = false

/-- What is stored under the name stays, and so does its entry unless it is fetched. -/
structure Keeps (s t : Dashboards) (name : String) : Prop where
  stored : t.stored.lookup name = s.stored.lookup name
  entry : ∀ config, s.dashboards.lookup name = some config → ¬ config.Lazy →
    t.dashboards.lookup name = some config

variable {s t u : Dashboards}

theorem Keeps.trans {name : String} (h : s.Keeps t name) (h' : t.Keeps u name) :
    s.Keeps u name :=
  ⟨h'.stored.trans h.stored, fun config hc hlazy => h'.entry config (h.entry config hc hlazy) hlazy⟩

theorem not_lazy_of_user {config : DashboardConfig} (h : config.server = false) : ¬ config.Lazy := by
  simp [DashboardConfig.Lazy, h]

theorem mem_userNames {dashboards : JsMap DashboardConfig} {name : String}
    {config : DashboardConfig} (h : dashboards.lookup name = some config)
    (huser : config.server = false) : name ∈ userNames dashboards := by
  have hmem : (⟨name, config⟩ : Sigma fun _ : String => DashboardConfig) ∈ dashboards.entries :=
    AList.mem_lookup_iff.mp h
  refine List.mem_map.mpr ⟨⟨name, config⟩, List.mem_filter.mpr ⟨hmem, ?_⟩, rfl⟩
  simp [huser]

/-- An entry of another name. -/
theorem keeps_insert {name other : String} (config : DashboardConfig) (hne : other ≠ name) :
    s.Keeps (s.setDashboard name config) other := by
  refine ⟨rfl, fun c hc _ => ?_⟩
  show AList.lookup other (AList.insert name config s.dashboards) = some c
  rw [JsMap.lookup_insert, if_neg hne, hc]

/-- The user may write any entry but over a stored one with one of the server. -/
theorem storedListed_insert {name : String} {config : DashboardConfig} (hs : s.StoredListed)
    (h : config.server = false ∨ s.stored.lookup name = none) :
    (s.setDashboard name config).StoredListed := by
  intro other c hc
  obtain ⟨hne, hserver, hlist, entry, hentry, huser⟩ := hs other c hc
  refine ⟨hne, hserver, hlist, ?_⟩
  simp only [setDashboard, JsMap.lookup_insert]
  by_cases hname : other = name
  · rw [if_pos hname]
    rcases h with h | h
    · exact ⟨config, rfl, h⟩
    · have hstored : s.stored.lookup name = some c := hname ▸ hc
      rw [hstored] at h
      simp at h
  · rw [if_neg hname]
    exact ⟨entry, hentry, huser⟩

theorem saveDashboard_cases (name : String) (now : Time) :
    s.saveDashboard name now = s ∨
      ∃ config, name ≠ "" ∧ config.server = false ∧ s.saveDashboard name now =
        { s with
          dashboards := s.dashboards.insert name config
          stored := s.stored.insert name config
          userDashboards := userNames (s.dashboards.insert name config) } := by
  by_cases hname : name = ""
  · exact Or.inl (by simp [saveDashboard, hname])
  · cases hlookup : s.dashboards.lookup name with
    | none => exact Or.inl (by simp [saveDashboard, hlookup])
    | some config =>
      by_cases hserver : config.server = true
      · exact Or.inl (by simp [saveDashboard, hlookup, hserver])
      · refine Or.inr ⟨{ config with info := { config.info with modified := some now } }, hname,
          by simpa using hserver, ?_⟩
        simp [saveDashboard, hname, hlookup, hserver]

/-- **A dashboard of the user is saved** as it is in the map. -/
theorem saveDashboard_of_user {name : String} {config : DashboardConfig} (now : Time)
    (hname : name ≠ "") (hlookup : s.dashboards.lookup name = some config)
    (huser : config.server = false) :
    (s.saveDashboard name now).stored.lookup name =
        some { config with info := { config.info with modified := some now } } ∧
      (s.saveDashboard name now).dashboards.lookup name =
        some { config with info := { config.info with modified := some now } } := by
  simp [saveDashboard, hname, hlookup, huser]

theorem keeps_saveDashboard {name other : String} (now : Time) (hne : other ≠ name) :
    s.Keeps (s.saveDashboard name now) other := by
  rcases saveDashboard_cases (s := s) name now with h | ⟨config, -, -, h⟩
  · rw [h]
    exact ⟨rfl, fun _ hc _ => hc⟩
  · rw [h]
    refine ⟨?_, fun c hc _ => ?_⟩
    · show AList.lookup other (AList.insert name config s.stored) = _
      rw [JsMap.lookup_insert, if_neg hne]
    · show AList.lookup other (AList.insert name config s.dashboards) = some c
      rw [JsMap.lookup_insert, if_neg hne, hc]

/-- **A save** writes the list of all dashboards of the user that are in the map. -/
theorem storedListed_saveDashboard (name : String) (now : Time) (hs : s.StoredListed) :
    (s.saveDashboard name now).StoredListed := by
  rcases saveDashboard_cases (s := s) name now with h | ⟨config, hname, hserver, h⟩
  · rw [h]
    exact hs
  · rw [h]
    intro other c hc
    simp only [JsMap.lookup_insert] at hc ⊢
    by_cases hother : other = name
    · rw [if_pos hother] at hc ⊢
      obtain rfl := Option.some.inj hc
      refine ⟨hother ▸ hname, hserver, ?_, config, rfl, hserver⟩
      rw [hother]
      exact mem_userNames (AList.lookup_insert _) hserver
    · rw [if_neg hother] at hc ⊢
      obtain ⟨hne, hc', -, entry, hentry, huser⟩ := hs other c hc
      refine ⟨hne, hc', ?_, entry, hentry, huser⟩
      have hlookup : AList.lookup other (AList.insert name config s.dashboards) = some entry := by
        rw [JsMap.lookup_insert, if_neg hother, hentry]
      exact mem_userNames hlookup huser

theorem keeps_loadDashboardNow (name other : String) (response : Option DashboardConfig) :
    s.Keeps (s.loadDashboardNow name response) other := by
  refine ⟨?_, fun config hc hlazy => lookup_loadDashboardNow name response hc hlazy⟩
  rw [(loadDashboardNow_stored name response).2]

theorem storedListed_loadDashboardNow (name : String) (response : Option DashboardConfig)
    (hs : s.StoredListed) : (s.loadDashboardNow name response).StoredListed := by
  intro other c hc
  rw [(loadDashboardNow_stored name response).2] at hc
  obtain ⟨hne, hserver, hlist, entry, hentry, huser⟩ := hs other c hc
  refine ⟨hne, hserver, ?_, entry, ?_, huser⟩
  · rw [(loadDashboardNow_stored name response).1]
    exact hlist
  · exact lookup_loadDashboardNow name response hentry (not_lazy_of_user huser)

/-- Only what is stored and listed counts. -/
theorem StoredListed.congr (hs : s.StoredListed) (hstored : t.stored = s.stored)
    (hlist : t.userDashboards = s.userDashboards) (hdashboards : t.dashboards = s.dashboards) :
    t.StoredListed := by
  unfold StoredListed
  rw [hstored, hlist, hdashboards]
  exact hs

theorem Keeps.congr {name : String} (h : s.Keeps t name) (hstored : u.stored = t.stored)
    (hdashboards : u.dashboards = t.dashboards) : s.Keeps u name := by
  refine ⟨?_, ?_⟩
  · rw [hstored]
    exact h.stored
  · rw [hdashboards]
    exact h.entry

/-- A dashboard that is changed in place keeps its mark. -/
theorem storedListed_update {name : String} {entry config : DashboardConfig} (hs : s.StoredListed)
    (hentry : s.dashboards.lookup name = some entry) (hsame : config.server = entry.server) :
    (s.setDashboard name config).StoredListed := by
  refine storedListed_insert hs ?_
  by_cases hserver : entry.server = true
  · right
    cases hstored : s.stored.lookup name with
    | none => rfl
    | some c =>
      obtain ⟨-, -, -, entry', hentry', huser⟩ := hs name c hstored
      obtain rfl := Option.some.inj (hentry.symm.trans hentry')
      simp [hserver] at huser
  · left
    rw [hsame]
    simpa using hserver

/-- What an operation that writes one name does to the others. -/
structure Writes (s t : Dashboards) (name : String) : Prop where
  storedListed : s.StoredListed → t.StoredListed
  keeps : ∀ other, other ≠ name → s.Keeps t other

theorem writes_self (name : String) : s.Writes s name :=
  ⟨fun h => h, fun _ _ => ⟨rfl, fun _ hc _ => hc⟩⟩

theorem Writes.trans {name : String} (h : s.Writes t name) (h' : t.Writes u name) :
    s.Writes u name :=
  ⟨fun hs => h'.storedListed (h.storedListed hs), fun other hne =>
    (h.keeps other hne).trans (h'.keeps other hne)⟩

theorem Writes.congr {name : String} (h : s.Writes t name) (hstored : u.stored = t.stored)
    (hlist : u.userDashboards = t.userDashboards) (hdashboards : u.dashboards = t.dashboards) :
    s.Writes u name :=
  ⟨fun hs => (h.storedListed hs).congr hstored hlist hdashboards,
    fun other hne => (h.keeps other hne).congr hstored hdashboards⟩

theorem writes_saveDashboard (name : String) (now : Time) :
    s.Writes (s.saveDashboard name now) name :=
  ⟨storedListed_saveDashboard name now, fun _ hne => keeps_saveDashboard now hne⟩

theorem writes_loadDashboardNow (name : String) (response : Option DashboardConfig) :
    s.Writes (s.loadDashboardNow name response) name :=
  ⟨storedListed_loadDashboardNow name response, fun other _ =>
    keeps_loadDashboardNow name other response⟩

/-- A new dashboard of the user. -/
theorem writes_setDashboard {name : String} {config : DashboardConfig}
    (huser : config.server = false) : s.Writes (s.setDashboard name config) name :=
  ⟨fun hs => storedListed_insert hs (Or.inl huser), fun _ hne => keeps_insert config hne⟩

/-- A dashboard that is changed in place. -/
theorem writes_update {name : String} {entry config : DashboardConfig}
    (hentry : s.dashboards.lookup name = some entry) (hsame : config.server = entry.server) :
    s.Writes (s.setDashboard name config) name :=
  ⟨fun hs => storedListed_update hs hentry hsame, fun _ hne => keeps_insert config hne⟩

theorem writes_createDashboard (name : String) (now : Time) :
    s.Writes (s.createDashboard name now) name := by
  unfold createDashboard
  split_ifs with hname
  · exact writes_self name
  · exact ((writes_setDashboard rfl).trans (writes_saveDashboard name now)).trans
      (writes_loadDashboardNow name none)

theorem writes_addSensorToDashboard (name : String) (widget : WidgetConfig)
    (createNew view : Bool) (now : Time) :
    s.Writes (s.addSensorToDashboard name widget createNew view now) name := by
  by_cases hname : name = ""
  · rw [addSensorToDashboard, if_pos hname]
    exact writes_self name
  · by_cases hnew : createNew = true
    · rw [addSensorToDashboard, if_neg hname, if_pos hnew]
      exact writes_setDashboard rfl
    · have hcurrent : s.Writes { s with currentDashboard := some name } name :=
        (writes_self name).congr rfl rfl rfl
      rw [addSensorToDashboard, if_neg hname, if_neg hnew]
      cases hentry : s.dashboards.lookup name with
      | none =>
        simp only [hentry]
        exact hcurrent.congr rfl rfl rfl
      | some entry =>
        simp only [hentry]
        have hupdate : s.Writes
            (Dashboards.setDashboard { s with currentDashboard := some name } name
              { entry with widgets := entry.widgets ++ [widget] }) name :=
          hcurrent.trans (writes_update hentry rfl)
        exact (hupdate.trans (writes_saveDashboard name now)).congr rfl rfl rfl

theorem writes_edit {name : String} (f : List WidgetConfig → List WidgetConfig) (now : Time)
    (h : s.currentDashboard = some name) : s.Writes (s.edit f now) name := by
  cases hentry : s.dashboards.lookup name with
  | none =>
    simp only [edit, h, hentry]
    exact writes_self name
  | some entry =>
    have hupdate : s.Writes (s.setDashboard name { entry with widgets := f entry.widgets }) name :=
      writes_update hentry rfl
    simp only [edit, h, hentry]
    refine Writes.trans ?_ (writes_saveDashboard name now)
    exact hupdate.congr rfl rfl rfl

/-- An import under an unused name, also of a dashboard that is marked as one of the server. -/
theorem writes_confirmImport (replace : Bool) (name : String) (config : DashboardConfig)
    (now : Time) (response : Option DashboardConfig)
    (hunused : s.importName replace name ∉ s.dashboards) :
    s.Writes (s.confirmImport replace name config now response) (s.importName replace name) := by
  by_cases hname : s.importName replace name = ""
  · simp only [confirmImport, hname, if_true]
    exact writes_self _
  · have hstored : s.StoredListed → s.stored.lookup (s.importName replace name) = none := by
      intro hs
      cases hstored : s.stored.lookup (s.importName replace name) with
      | none => rfl
      | some c =>
        obtain ⟨-, -, -, entry, hentry, -⟩ := hs _ c hstored
        rw [AList.lookup_eq_none.mpr hunused] at hentry
        simp at hentry
    have hset : ∀ c, s.Writes (s.setDashboard (s.importName replace name) c)
        (s.importName replace name) := fun c =>
      ⟨fun hs => storedListed_insert hs (Or.inr (hstored hs)), fun _ hne => keeps_insert c hne⟩
    rw [confirmImport, if_neg hname]
    exact ((hset _).trans (writes_saveDashboard _ now)).trans (writes_loadDashboardNow _ response)

theorem writes_deleteDashboard {name : String} (h : s.currentDashboard = some name) :
    s.Writes s.deleteDashboard name := by
  unfold deleteDashboard
  simp only [h]
  split_ifs with hserver
  · exact writes_self name
  · refine ⟨?_, ?_⟩
    · intro hs other c hc
      simp only [clearDashboard, JsMap.lookup_erase] at hc ⊢
      split_ifs at hc with hother
      obtain ⟨hne, hc', -, entry, hentry, huser⟩ := hs other c hc
      have hlookup : AList.lookup other (AList.erase name s.dashboards) = some entry := by
        rw [JsMap.lookup_erase, if_neg hother, hentry]
      refine ⟨hne, hc', mem_userNames hlookup huser, entry, ?_, huser⟩
      rw [if_neg hother, hentry]
    · intro other hne
      refine ⟨?_, fun c hc _ => ?_⟩
      · simp only [clearDashboard, JsMap.lookup_erase, if_neg hne]
      · simp only [clearDashboard, JsMap.lookup_erase, if_neg hne, hc]

/-! ### What is saved -/

/-- The dashboard is stored, and in the map. -/
def Holds (s : Dashboards) (name : String) (config : DashboardConfig) : Prop :=
  s.stored.lookup name = some config ∧ s.dashboards.lookup name = some config

theorem Holds.keeps {name : String} {config : DashboardConfig} (h : s.Holds name config)
    (hlazy : ¬ config.Lazy) (hkeeps : s.Keeps t name) : t.Holds name config :=
  ⟨hkeeps.stored.trans h.1, hkeeps.entry config h.2 hlazy⟩

theorem Holds.loadDashboardNow {name : String} {config : DashboardConfig} (h : s.Holds name config)
    (huser : config.server = false) (other : String) (response : Option DashboardConfig) :
    (s.loadDashboardNow other response).Holds name config :=
  h.keeps (not_lazy_of_user huser) (keeps_loadDashboardNow other name response)

theorem changed_eq_some {name name' : String} {f : List WidgetConfig → List WidgetConfig}
    {now : Time} {config : DashboardConfig} (h : s.changed name f now = some (name', config)) :
    name' = name ∧ name ≠ "" ∧ ∃ entry, s.dashboards.lookup name = some entry ∧
      entry.server = false ∧ config = { entry with
        info := { entry.info with modified := some now }
        widgets := f entry.widgets } := by
  unfold changed at h
  obtain ⟨hname, h⟩ := Option.ite_none_left_eq_some.mp h
  obtain ⟨entry, hentry, h⟩ := Option.bind_eq_some_iff.mp h
  obtain ⟨huser, h⟩ := Option.ite_none_left_eq_some.mp h
  obtain ⟨rfl, rfl⟩ := Prod.mk.inj (Option.some.inj h)
  exact ⟨rfl, hname, entry, hentry, by simpa using huser, rfl⟩

/-- What is not saved so has no entry of the user. -/
theorem changed_eq_none {name : String} {f : List WidgetConfig → List WidgetConfig} {now : Time}
    (h : s.changed name f now = none) (hs : s.StoredListed) : s.stored.lookup name = none := by
  cases hstored : s.stored.lookup name with
  | none => rfl
  | some config =>
    obtain ⟨hne, -, -, entry, hentry, huser⟩ := hs name config hstored
    simp [changed, hne, hentry, huser] at h

/-- **What the user saves with an action is stored, and in the map.** -/
theorem holds_of_saves_create {name name' : String} {now : Time} {config : DashboardConfig}
    (h : s.saves (.create name now) = some (name', config)) :
    name' = name ∧ (s.createDashboard name now).Holds name config := by
  obtain ⟨hname, h⟩ := Option.ite_none_left_eq_some.mp h
  obtain ⟨rfl, rfl⟩ := Prod.mk.inj (Option.some.inj h)
  have hnew : (s.setDashboard name ⟨⟨name, "", some now, some now⟩, [], false, false⟩).dashboards.lookup
      name = some ⟨⟨name, "", some now, some now⟩, [], false, false⟩ := AList.lookup_insert _
  have hsaved := saveDashboard_of_user now (fun heq => hname (.inl heq)) hnew rfl
  rw [createDashboard, if_neg hname]
  exact ⟨rfl, Holds.loadDashboardNow hsaved rfl name none⟩

theorem holds_of_saves_addSensor {name name' : String} {widget : WidgetConfig}
    {createNew view : Bool} {now : Time} {config : DashboardConfig}
    (h : s.saves (.addSensor name widget createNew view now) = some (name', config)) :
    name' = name ∧ (s.addSensorToDashboard name widget createNew view now).Holds name config := by
  obtain ⟨hnew, h⟩ := Option.ite_none_left_eq_some.mp h
  obtain ⟨rfl, hname, entry, hentry, huser, rfl⟩ := changed_eq_some h
  have hset : (Dashboards.setDashboard { s with currentDashboard := some name' } name'
      { entry with widgets := entry.widgets ++ [widget] }).dashboards.lookup name' =
      some { entry with widgets := entry.widgets ++ [widget] } := AList.lookup_insert _
  have hsaved := saveDashboard_of_user now hname hset huser
  rw [addSensorToDashboard, if_neg hname, if_neg hnew]
  simp only [hentry]
  exact ⟨trivial, hsaved⟩

theorem holds_of_saves_edit {name : String} {f : List WidgetConfig → List WidgetConfig}
    {now : Time} {config : DashboardConfig} (h : s.saves (.edit f now) = some (name, config)) :
    s.currentDashboard = some name ∧ (s.edit f now).Holds name config := by
  obtain ⟨name', hcurrent, h⟩ := Option.bind_eq_some_iff.mp h
  obtain ⟨rfl, hname, entry, hentry, huser, rfl⟩ := changed_eq_some h
  set dashboard : DashboardConfig := { entry with widgets := f entry.widgets } with hdashboard
  set page : Dashboards := { s.setDashboard name dashboard with widgets := dashboard.rendered }
    with hpage
  have hset : page.dashboards.lookup name = some dashboard := AList.lookup_insert _
  have hedit : s.edit f now = page.saveDashboard name now := by
    simp only [edit, hcurrent, hentry, hpage, hdashboard]
  rw [hedit]
  exact ⟨hcurrent, saveDashboard_of_user now hname hset huser⟩

theorem holds_of_saves_confirmImport {replace : Bool} {name name' : String}
    {config config' : DashboardConfig} {now : Time} {response : Option DashboardConfig}
    (h : s.saves (.confirmImport replace name config now response) = some (name', config')) :
    name' = s.importName replace name ∧
      (s.confirmImport replace name config now response).Holds name' config' := by
  obtain ⟨hno, h⟩ := Option.ite_none_left_eq_some.mp h
  obtain ⟨hname, huser⟩ := not_or.mp hno
  obtain ⟨rfl, rfl⟩ := Prod.mk.inj (Option.some.inj h)
  have huser : config.server = false := by simpa using huser
  have hset : (s.setDashboard (s.importName replace name) { config with info := { config.info with
      name := s.importName replace name, modified := some now } }).dashboards.lookup
      (s.importName replace name) = some { config with info := { config.info with
        name := s.importName replace name, modified := some now } } := AList.lookup_insert _
  rw [confirmImport, if_neg hname]
  exact ⟨rfl, Holds.loadDashboardNow (saveDashboard_of_user now hname hset huser) huser _ response⟩

/-! ### A reload, and the list of the server -/

theorem lookup_restore (names : List String) (stored : JsMap DashboardConfig) (name : String) :
    (restore names stored).lookup name = if name ∈ names then stored.lookup name else none := by
  unfold restore
  induction names using List.reverseRecOn with
  | nil => simp
  | append_singleton names last ih =>
    rw [List.foldl_append, List.foldl_cons, List.foldl_nil]
    cases hlast : stored.lookup last with
    | none =>
      simp only [ih, List.mem_append, List.mem_singleton]
      by_cases hname : name = last
      · rw [hname]
        simp [hlast]
      · simp [hname]
    | some config =>
      simp only [JsMap.lookup_insert, ih, List.mem_append, List.mem_singleton]
      by_cases hname : name = last
      · rw [hname]
        simp [hlast]
      · simp [hname]

/-- **A reload** brings back all that is stored, if it is listed. -/
theorem loadDashboards_spec (response : Option DashboardConfig) (hs : s.StoredListed) :
    (s.loadDashboards response).StoredListed ∧ ∀ name config, s.stored.lookup name = some config →
      (s.loadDashboards response).stored.lookup name = some config ∧
        (s.loadDashboards response).dashboards.lookup name = some config := by
  have hrestored : ∀ name config, s.stored.lookup name = some config →
      (restore s.userDashboards s.stored).lookup name = some config := by
    intro name config h
    rw [lookup_restore, if_pos (hs name config h).2.2.1, h]
  -- before the last dashboard is loaded
  have hbase : StoredListed { s with
      dashboards := restore s.userDashboards s.stored, currentDashboard := none, widgets := [] } := by
    intro name config h
    obtain ⟨hne, hserver, hlist, -⟩ := hs name config h
    exact ⟨hne, hserver, hlist, config, hrestored name config h, hserver⟩
  unfold loadDashboards
  cases s.lastDashboard with
  | none => exact ⟨hbase, fun name config h => ⟨h, hrestored name config h⟩⟩
  | some last =>
    simp only
    split_ifs with hlast
    · refine ⟨storedListed_loadDashboardNow last response hbase, fun name config h => ?_⟩
      exact ⟨(keeps_loadDashboardNow last name response).stored.trans h,
        lookup_loadDashboardNow last response (hrestored name config h)
          (not_lazy_of_user (hs name config h).2.1)⟩
    · exact ⟨hbase, fun name config h => ⟨h, hrestored name config h⟩⟩

/-- A name that the server does not list. -/
theorem lookup_foldl_addServerDashboard (infos : List (String × String))
    (dashboards : JsMap DashboardConfig) {name : String} (hname : name ∉ infos.map Prod.fst) :
    (infos.foldl addServerDashboard dashboards).lookup name = dashboards.lookup name := by
  induction infos generalizing dashboards with
  | nil => rfl
  | cons info infos ih =>
    simp only [List.map_cons, List.mem_cons, not_or] at hname
    rw [List.foldl_cons, ih _ hname.2]
    unfold addServerDashboard
    split_ifs
    · rfl
    · cases dashboards.lookup info.1 with
      | none => simp only [JsMap.lookup_insert, if_neg hname.1]
      | some existing => simp only [JsMap.lookup_insert, if_neg hname.1]

theorem keeps_loadServerDashboards (infos : List (String × String)) {name : String}
    (hname : name ∉ infos.map Prod.fst) : s.Keeps (s.loadServerDashboards infos) name := by
  refine ⟨rfl, fun config hc _ => ?_⟩
  rw [loadServerDashboards, lookup_foldl_addServerDashboard infos s.dashboards hname]
  exact hc

theorem storedListed_loadServerDashboards (infos : List (String × String)) (hs : s.StoredListed)
    (hown : ∀ name config, s.stored.lookup name = some config → name ∉ infos.map Prod.fst) :
    (s.loadServerDashboards infos).StoredListed := by
  intro name config h
  obtain ⟨hne, hserver, hlist, entry, hentry, huser⟩ := hs name config h
  have hkeeps := keeps_loadServerDashboards (s := s) infos (hown name config h)
  exact ⟨hne, hserver, hlist, entry, hkeeps.entry entry hentry (not_lazy_of_user huser), huser⟩

end Dashboards

namespace DashboardSession

variable {s : DashboardSession}

/-! ### The runs -/

/-- What the user has saved is stored, and is in the map as it is stored. -/
structure Inv (s : DashboardSession) : Prop where
  storedListed : s.page.StoredListed
  holds : ∀ name config, s.saved.lookup name = some config → s.page.Holds name config

theorem Inv.not_lazy (hs : s.Inv) {name : String} {config : DashboardConfig}
    (h : s.saved.lookup name = some config) : name ≠ "" ∧ ¬ config.Lazy := by
  obtain ⟨hne, hserver, -⟩ := hs.storedListed name config (hs.holds name config h).1
  exact ⟨hne, Dashboards.not_lazy_of_user hserver⟩

/-- A dashboard that is kept stays as it was saved. -/
theorem Inv.keeps (hs : s.Inv) {name : String} {config : DashboardConfig} {page : Dashboards}
    (h : s.saved.lookup name = some config) (hkeeps : s.page.Keeps page name) :
    page.Holds name config :=
  (hs.holds name config h).keeps (hs.not_lazy h).2 hkeeps

/-- An operation that saves the dashboard that it writes. -/
theorem Inv.save (hs : s.Inv) {name : String} {config : DashboardConfig} {page : Dashboards}
    (hwrites : s.page.Writes page name) (hholds : page.Holds name config) :
    Inv ⟨page, s.saved.insert name config⟩ := by
  refine ⟨hwrites.storedListed hs.storedListed, fun other c h => ?_⟩
  rw [JsMap.lookup_insert] at h
  split_ifs at h with hother
  · obtain rfl := Option.some.inj h
    exact hother ▸ hholds
  · exact hs.keeps h (hwrites.keeps other hother)

/-- An operation that writes a name under which nothing is stored. -/
theorem Inv.write (hs : s.Inv) {name : String} {page : Dashboards}
    (hwrites : s.page.Writes page name) (hnone : s.page.stored.lookup name = none) :
    Inv { s with page := page } := by
  refine ⟨hwrites.storedListed hs.storedListed, fun other c h => ?_⟩
  refine hs.keeps h (hwrites.keeps other ?_)
  rintro rfl
  rw [(hs.holds other c h).1] at hnone
  cases hnone

/-- **An action that writes one name**: what the user saves by it is stored, and where nothing is
saved nothing was stored. -/
theorem Inv.record (hs : s.Inv) {name : String} {a : DashboardAction} {page : Dashboards}
    (hwrites : s.page.Writes page name)
    (hsome : ∀ name' config, s.page.saves a = some (name', config) →
      name' = name ∧ page.Holds name config)
    (hnone : s.page.saves a = none → s.page.stored.lookup name = none) :
    (s.record a page).Inv := by
  unfold DashboardSession.record
  cases hsaves : s.page.saves a with
  | none => exact hs.write hwrites (hnone hsaves)
  | some r =>
    obtain ⟨name', config⟩ := r
    obtain ⟨rfl, hholds⟩ := hsome name' config hsaves
    exact hs.save hwrites hholds

/-- A name that is not in the map is not stored. -/
theorem Inv.stored_eq_none (hs : s.Inv) {name : String} (h : name ∉ s.page.dashboards) :
    s.page.stored.lookup name = none := by
  cases hstored : s.page.stored.lookup name with
  | none => rfl
  | some config =>
    obtain ⟨-, -, -, entry, hentry, -⟩ := hs.storedListed name config hstored
    rw [AList.lookup_eq_none.mpr h] at hentry
    cases hentry

theorem inv_step {t : DashboardSession} (a : DashboardAction) (hs : s.Inv) (hown : s.OwnNames a)
    (hstep : s.step a = some t) : t.Inv := by
  cases a with
  | create name now =>
    obtain rfl := Option.some.inj hstep
    by_cases hname : name = "" ∨ name ∈ s.page.dashboards
    · -- the name is refused
      have hsaves : s.page.saves (.create name now) = none := if_pos hname
      unfold DashboardSession.record
      rw [hsaves]
      have hsame : s.page.createDashboard name now = s.page := if_pos hname
      rw [hsame]
      exact hs
    · exact hs.record (Dashboards.writes_createDashboard name now)
        (fun name' config h => Dashboards.holds_of_saves_create h)
        fun _ => hs.stored_eq_none fun h => hname (.inr h)
  | addSensor name widget createNew view now =>
    obtain rfl := Option.some.inj hstep
    refine hs.record (Dashboards.writes_addSensorToDashboard name widget createNew view now)
      (fun name' config h => Dashboards.holds_of_saves_addSensor h) fun hnone => ?_
    cases createNew with
    | true => exact hown rfl
    | false =>
      have hnone : s.page.changed name (· ++ [widget]) now = none := by
        simpa [Dashboards.saves] using hnone
      exact Dashboards.changed_eq_none hnone hs.storedListed
  | edit f now =>
    obtain rfl := Option.some.inj hstep
    cases hcurrent : s.page.currentDashboard with
    | none =>
      have hsaves : s.page.saves (.edit f now) = none := by simp [Dashboards.saves, hcurrent]
      have hsame : s.page.edit f now = s.page := by simp [Dashboards.edit, hcurrent]
      unfold DashboardSession.record
      rw [hsaves, hsame]
      exact hs
    | some name =>
      refine hs.record (Dashboards.writes_edit f now hcurrent) (fun name' config h => ?_)
        fun hnone => ?_
      · obtain ⟨hcurrent', hholds⟩ := Dashboards.holds_of_saves_edit h
        obtain rfl := Option.some.inj (hcurrent.symm.trans hcurrent')
        exact ⟨rfl, hholds⟩
      · simp only [Dashboards.saves, hcurrent, Option.bind_some] at hnone
        exact Dashboards.changed_eq_none hnone hs.storedListed
  | load name response =>
    obtain rfl := Option.some.inj hstep
    refine ⟨Dashboards.storedListed_loadDashboardNow name response hs.storedListed, ?_⟩
    intro other config h
    exact hs.keeps h (Dashboards.keeps_loadDashboardNow name other response)
  | confirmImport replace name config now response =>
    simp only [step] at hstep
    split_ifs at hstep with hunused
    obtain rfl := Option.some.inj hstep
    refine hs.record (Dashboards.writes_confirmImport replace name config now response hunused)
      (fun name' config' h => ?_) fun _ => hs.stored_eq_none hunused
    obtain ⟨rfl, hholds⟩ := Dashboards.holds_of_saves_confirmImport h
    exact ⟨rfl, hholds⟩
  | delete =>
    simp only [step] at hstep
    cases hcurrent : s.page.currentDashboard with
    | none =>
      simp only [hcurrent] at hstep
      exact Option.some.inj hstep ▸ hs
    | some name =>
      simp only [hcurrent] at hstep
      split_ifs at hstep
      · exact Option.some.inj hstep ▸ hs
      · obtain rfl := Option.some.inj hstep
        have hwrites := Dashboards.writes_deleteDashboard hcurrent
        refine ⟨hwrites.storedListed hs.storedListed, fun other config h => ?_⟩
        rw [JsMap.lookup_erase] at h
        split_ifs at h with hother
        exact hs.keeps h (hwrites.keeps other hother)
  | reload response =>
    obtain rfl := Option.some.inj hstep
    obtain ⟨hlisted, hrestored⟩ := Dashboards.loadDashboards_spec response hs.storedListed
    exact ⟨hlisted, fun name config h => hrestored name config (hs.holds name config h).1⟩
  | loadServerDashboards infos =>
    obtain rfl := Option.some.inj hstep
    refine ⟨Dashboards.storedListed_loadServerDashboards infos hs.storedListed hown, ?_⟩
    intro name config h
    have hstored := (hs.holds name config h).1
    exact hs.keeps h (Dashboards.keeps_loadServerDashboards infos (hown name config hstored))

theorem keepsDashboards_of_inv (hs : s.Inv) : s.KeepsDashboards := by
  intro name config h
  obtain ⟨-, hentry⟩ := hs.holds name config h
  obtain ⟨hne, hlazy⟩ := hs.not_lazy h
  refine ⟨AList.lookup_isSome.mp (by rw [hentry]; rfl), fun response => ?_⟩
  rw [Dashboards.loadDashboardNow_of_not_lazy response hne hentry hlazy]
  refine ⟨rfl, rfl, ?_⟩
  simp only [Dashboards.showDashboard, hentry, Option.map_some]

/-- **The dashboards of the user are kept** in the runs in which neither the server lists a name that
is stored, nor the dialog that adds a sensor makes a dashboard of one. -/
theorem keepsDashboards_of_ownNames {as : List DashboardAction} {s : DashboardSession}
    (hrun : dashboardMachine.run .new as = some s)
    (hown : dashboardMachine.EveryStep OwnNames as) : s.KeepsDashboards := by
  refine keepsDashboards_of_inv (hown.induction (I := Inv) ?_ ?_ hrun)
  · refine ⟨?_, ?_⟩
    · intro name config h
      simp [dashboardMachine, new, Dashboards.new] at h
    · intro name config h
      simp [dashboardMachine, new] at h
  · intro s a t hs ha hstep
    exact inv_step a hs ha hstep

/-- A dashboard gets a widget, the page is opened again, and the server lists another name. -/
theorem keepsDashboards_otherName : ∃ s, dashboardMachine.run .new
    (editedAndReloaded ++ [.loadServerDashboards [("b", "")]]) = some s ∧
      (s.saved.lookup "a").map DashboardConfig.widgets = some [⟨"w", "led", ""⟩] ∧
      s.KeepsDashboards := by
  have hreload : dashboardMachine.EveryStep OwnNames editedAndReloaded :=
    ((Machine.everyStep_nil.concat rfl trivial).concat rfl trivial).concat rfl trivial
  have hown : dashboardMachine.EveryStep OwnNames
      (editedAndReloaded ++ [.loadServerDashboards [("b", "")]]) := by
    refine hreload.concat rfl ?_
    intro name config h hname
    obtain rfl : name = "b" := by simpa using hname
    have hnone : (none : Option DashboardConfig) = some config := h
    simp at hnone
  exact ⟨_, rfl, rfl, keepsDashboards_of_ownNames rfl hown⟩

end DashboardSession

end UnisetPanel
