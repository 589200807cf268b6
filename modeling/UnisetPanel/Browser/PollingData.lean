/-
  What a polling tick of a tab asks for and updates (`50-ui-tabs.js`,
  `40-charts.js`, `04-sse.js`), beside what the event `object_data` does.

  The event finds its tab under the key `serverId:objectName`.  The timer that
  `createTab` arms asks for the data of `displayName`, and looks for a tab under
  that; the timer that `enablePollingFallback` arms does both with the key.
  Neither request has a server, and `GetObjectData` refuses those without one.
  So no tick of any tab delivers what the event would (`not_delivers`): the
  request is never right, and the tab that is updated is the right one just for
  the second kind of timer (`update_iff`).

  The charts of a tab have timers of their own, and are left out.
-/
import UnisetPanel.Browser.Tabs
import UnisetPanel.JsMap

namespace UnisetPanel

variable {δ : Type}

/-- A request for the data of an object; without a server if that was not given, or empty. -/
structure ObjectRequest where
  name : String
  server : Option String
  deriving DecidableEq, Repr

/-- `fetchObjectData`. -/
def fetchObjectData (name : String) (serverId : Option String) : ObjectRequest :=
  ⟨name, serverId.filter (· ≠ "")⟩

/-- `GetObjectData`, by what each server answers about each of its objects. -/
def Servers.objectData (v : Servers) (answers : String → String → Except String δ)
    (request : ObjectRequest) : Except String δ := do
  let serverID := request.server.getD ""
  v.getObjectData request.name serverID
  answers serverID request.name

/-- What `state.tabs` holds about the data of a tab. -/
structure DataTab (δ : Type) extends Tab where
  /-- what `renderer.update` was called with, the oldest first -/
  updates : List δ
  /-- the name that its timer calls `loadObjectData` with -/
  updateInterval : Option String

namespace DataTab

/-- `renderer.update`. -/
def update (tab : DataTab δ) (data : δ) : DataTab δ := { tab with updates := tab.updates ++ [data] }

/-- A tab is kept under its key, and its timer was armed with its name or with its key. -/
structure KeptUnder (key : String) (tab : DataTab δ) : Prop where
  key_eq : key = tabKey tab.serverID tab.displayName
  armed : ∀ name ∈ tab.updateInterval, name = tab.displayName ∨ name = key

end DataTab

/-- `state.tabs`, and whether SSE is connected. -/
structure DataPage (δ : Type) where
  connected : Bool
  tabs : JsMap (DataTab δ)
  kept : ∀ key tab, tabs.lookup key = some tab → tab.KeptUnder key

namespace DataPage

/-- The page as it is opened. -/
def new : DataPage δ := ⟨false, ∅, fun _ _ h => by simp at h⟩

variable (s : DataPage δ)

/-- `createTab`. -/
def createTab (displayName : String) (initialData : Option δ) (serverId : String) : DataPage δ where
  connected := s.connected
  tabs := s.tabs.insert (tabKey serverId displayName)
    { serverID := serverId
      displayName := displayName
      updates := initialData.toList
      updateInterval := if s.connected = true then none else some displayName }
  kept := by
    refine JsMap.forall_insert s.kept ⟨rfl, fun name hname => ?_⟩
    split_ifs at hname
    · simp at hname
    · exact Or.inl (Option.some.inj hname).symm

/-- `enablePollingFallback`. -/
def enablePollingFallback : DataPage δ where
  connected := s.connected
  tabs := s.tabs.mapWithKey fun key tab =>
    { tab with updateInterval := tab.updateInterval.or (some key) }
  kept := by
    refine JsMap.forall_mapWithKey fun key tab htab => ⟨(s.kept key tab htab).key_eq, ?_⟩
    intro name hname
    cases hinterval : tab.updateInterval with
    | none =>
      rw [hinterval] at hname
      exact Or.inr (Option.some.inj hname).symm
    | some armed =>
      rw [hinterval] at hname
      obtain rfl := Option.some.inj hname
      exact (s.kept key tab htab).armed armed hinterval

/-- The renderer of the tab of the key is updated, if there is one. -/
def updateRenderer (key : String) (data : δ) : DataPage δ :=
  match h : s.tabs.lookup key with
  | some tab =>
    { s with
      tabs := s.tabs.insert key (tab.update data)
      kept := JsMap.forall_insert s.kept ⟨(s.kept key tab h).key_eq, (s.kept key tab h).armed⟩ }
  | none => s

/-- The handler of `object_data`. -/
def onObjectData (serverId objectName : String) (data : δ) : DataPage δ :=
  s.updateRenderer (tabKey serverId objectName) data

/-- The request of `loadObjectData`. -/
def objectRequest (name : String) : ObjectRequest := fetchObjectData name none

/-- What `loadObjectData` does with the answer. -/
def onAnswer (name : String) : Except String δ → DataPage δ
  | .ok data => s.updateRenderer name data
  | .error _ => s

/-- `loadObjectData`. -/
def loadObjectData (v : Servers) (answers : String → String → Except String δ) (name : String) :
    DataPage δ :=
  s.onAnswer name (v.objectData answers (objectRequest name))

/-! ### What is wanted -/

/-- **Polling delivers what SSE would**: the tick of a tab asks its server for its object, and does
with the data what `object_data` would. -/
structure Delivers (tab : DataTab δ) (name : String) : Prop where
  request : objectRequest name = ⟨tab.displayName, some tab.serverID⟩
  update : ∀ data, s.onAnswer name (.ok data) = s.onObjectData tab.serverID tab.displayName data

/-! ### Two timers -/

/-- A tab that is opened while SSE is not connected. -/
def openedOffline : DataPage String := new.createTab "TestProc" (some "data") "s1"

/-- A tab whose timer is armed when the attempts to reconnect are used up. -/
def openedOnline : DataPage String :=
  let connected : DataPage String := { new with connected := true }
  ({ connected.createTab "TestProc" none "s1" with connected := false }).enablePollingFallback

/-- **It fails**, whichever code armed the timer. -/
theorem not_forall_delivers :
    (¬ ∀ tab, openedOffline.tabs.lookup "s1:TestProc" = some tab →
      ∀ name ∈ tab.updateInterval, openedOffline.Delivers tab name) ∧
    ¬ ∀ tab, openedOnline.tabs.lookup "s1:TestProc" = some tab →
      ∀ name ∈ tab.updateInterval, openedOnline.Delivers tab name := by
  constructor
  · intro h
    exact absurd (h _ rfl "TestProc" rfl).request (by decide)
  · intro h
    exact absurd (h _ rfl "s1:TestProc" rfl).request (by decide)

/-! ### The request -/

variable {s}

theorem getObjectData_without_server (v : Servers) (name : String) :
    ∃ message, v.getObjectData name "" = .error message := by
  unfold Servers.getObjectData
  by_cases hname : name = ""
  · exact ⟨_, if_pos hname⟩
  · rw [if_neg hname]
    exact ⟨_, if_pos rfl⟩

/-- The request of a timer has no server, and is refused, whatever it asks for. -/
theorem objectData_objectRequest (v : Servers) (answers : String → String → Except String δ)
    (name : String) : ∃ message, v.objectData answers (objectRequest name) = .error message := by
  obtain ⟨message, hmessage⟩ := getObjectData_without_server v name
  refine ⟨message, ?_⟩
  change (v.getObjectData name "" >>= fun _ => answers "" name) = .error message
  rw [hmessage]
  rfl

/-- So no tick changes anything. -/
theorem loadObjectData_eq (v : Servers) (answers : String → String → Except String δ)
    (name : String) : s.loadObjectData v answers name = s := by
  obtain ⟨message, hmessage⟩ := objectData_objectRequest v answers name
  rw [loadObjectData, hmessage, onAnswer]

/-! ### The update -/

theorem lookup_updateRenderer (key other : String) (data : δ) :
    (s.updateRenderer key data).tabs.lookup other =
      if other = key then (s.tabs.lookup key).map (·.update data) else s.tabs.lookup other := by
  unfold updateRenderer
  split
  · next tab htab =>
    rw [JsMap.lookup_insert, htab]
    rfl
  · next hnone =>
    split_ifs with hother
    · rw [hother, hnone]
      rfl
    · rfl

/-- A renderer keeps count of what it was given. -/
theorem update_ne (tab : DataTab δ) (data : δ) : tab.update data ≠ tab := by
  intro h
  have hlen := congrArg (fun tab => tab.updates.length) h
  simp [DataTab.update] at hlen

/-- The event reaches the tab of its server and object, and no other. -/
theorem lookup_onObjectData {key : String} {tab : DataTab δ} (htab : s.tabs.lookup key = some tab)
    (other : String) (data : δ) :
    (s.onObjectData tab.serverID tab.displayName data).tabs.lookup other =
      if other = key then some (tab.update data) else s.tabs.lookup other := by
  unfold onObjectData
  rw [lookup_updateRenderer, ← (s.kept key tab htab).key_eq, htab]
  rfl

/-- **An answer would reach the right tab** just if the timer calls with the key. -/
theorem update_iff {key name : String} {tab : DataTab δ} (htab : s.tabs.lookup key = some tab)
    (data : δ) :
    s.onAnswer name (.ok data) = s.onObjectData tab.serverID tab.displayName data ↔
      name = key := by
  constructor
  · intro h
    by_contra hname
    have hlookup : (s.updateRenderer name data).tabs.lookup key =
        (s.onObjectData tab.serverID tab.displayName data).tabs.lookup key :=
      congrArg (fun page => page.tabs.lookup key) h
    have hkey : key ≠ name := Ne.symm hname
    rw [lookup_updateRenderer, if_neg hkey, htab, lookup_onObjectData htab, if_pos rfl] at hlookup
    exact update_ne tab data (Option.some.inj hlookup).symm
  · rintro rfl
    rw [onObjectData, ← (s.kept _ tab htab).key_eq]
    rfl

/-- The timer that `createTab` arms never finds its own tab. -/
theorem update_iff_displayName {key name : String} {tab : DataTab δ}
    (htab : s.tabs.lookup key = some tab) (harmed : tab.updateInterval = some name) (data : δ) :
    s.onAnswer name (.ok data) = s.onObjectData tab.serverID tab.displayName data ↔
      name ≠ tab.displayName := by
  rw [update_iff htab]
  have hkey := (s.kept key tab htab).key_eq
  constructor
  · rintro rfl hname
    exact tabKey_ne_right tab.serverID tab.displayName (hkey.symm.trans hname)
  · intro hname
    exact ((s.kept key tab htab).armed name harmed).resolve_left hname

/-- **No tick of any tab delivers what the event would.**  Its request is not for the server; it
never does what the event of any data does, whatever the servers answer; and with an answer it
would only if `createTab` had not armed its timer. -/
theorem not_delivers (v : Servers) {key name : String} {tab : DataTab δ}
    (htab : s.tabs.lookup key = some tab) (harmed : tab.updateInterval = some name) :
    ¬ s.Delivers tab name ∧
      (∀ answers data, s.loadObjectData v answers name ≠
        s.onObjectData tab.serverID tab.displayName data) ∧
      ∀ data, s.onAnswer name (.ok data) = s.onObjectData tab.serverID tab.displayName data ↔
        name ≠ tab.displayName := by
  refine ⟨fun h => ?_, fun answers data h => ?_, update_iff_displayName htab harmed⟩
  · have hserver := congrArg ObjectRequest.server h.request
    simp [objectRequest, fetchObjectData] at hserver
  · rw [loadObjectData_eq] at h
    have hlookup := congrArg (fun page => page.tabs.lookup key) h
    simp only [lookup_onObjectData htab, htab] at hlookup
    exact update_ne tab data (Option.some.inj hlookup).symm

/-- A tab that is opened while SSE is not connected. -/
theorem not_delivers_offline : ∃ tab, ¬ openedOffline.Delivers tab "TestProc" :=
  have htab : openedOffline.tabs.lookup "s1:TestProc" =
      some ⟨⟨"s1", "TestProc"⟩, ["data"], some "TestProc"⟩ := rfl
  ⟨_, (not_delivers oneServer htab rfl).1⟩

end DataPage

end UnisetPanel
