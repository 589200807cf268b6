/-
  External sensors: one update from the SharedMemory poller to the charts of the
  browser and to the history (`sm/poller.go`, `sse.go`, `04-sse.js`,
  `41-dialogs.js`, `51-ui-render.js`).

  A tab subscribes sensors for its object, without its server.  The poller saves
  each value under an empty server, which the storage takes for `default`, and
  broadcasts it with the server `sm`, from which the browser makes the key of
  the one tab that it looks for.  The tab itself asks for the history with the
  server it is of.  So an update reaches the chart only of a tab of a server
  `sm`, and such a tab has no history (`routed_iff`): it is routed as it should
  be exactly if no tab waits for it (`everyRouted_iff`).

  Charts of the browser that are not of external sensors are left out, and so is
  what else the pollers save.  The event stream is connected and loses nothing.
-/
import UnisetPanel.Browser.Tabs
import UnisetPanel.Storage

namespace UnisetPanel

/-! ### The poller -/

/-- `sm.SensorValue`, as far as it is used. -/
structure SMSensorValue where
  name : String
  value : Int64
  error : String
  deriving DecidableEq, Repr

/-- `sm.SensorUpdate`. -/
structure SMSensorUpdate where
  objectName : String
  sensor : SMSensorValue
  timestamp : Time
  deriving DecidableEq, Repr

/-- `subscriptions` of the poller: the sensors of each object. -/
abbrev SMSubscriptions := GoMap String (Finset String)

namespace SMSubscriptions

/-- `Subscribe`. -/
def subscribe (subs : SMSubscriptions) (objectName sensorName : String) : SMSubscriptions :=
  subs.insert objectName (insert sensorName ((subs.lookup objectName).getD ∅))

/-- `Unsubscribe`. -/
def unsubscribe (subs : SMSubscriptions) (objectName sensorName : String) : SMSubscriptions :=
  match subs.lookup objectName with
  | none => subs
  | some sensors =>
    if sensors.erase sensorName = ∅ then subs.erase objectName
    else subs.insert objectName (sensors.erase sensorName)

/-- `SubscribeExternalSensors`. -/
def subscribeExternalSensors (subs : SMSubscriptions) (name : String) (sensors : List String) :
    Except String SMSubscriptions :=
  if name = "" then .error "object name required"
  else .ok (sensors.foldl (fun subs sensor => subs.subscribe name sensor) subs)

/-- `UnsubscribeExternalSensor`. -/
def unsubscribeExternalSensor (subs : SMSubscriptions) (name sensor : String) :
    Except String SMSubscriptions :=
  if name = "" ∨ sensor = "" then .error "object name and sensor name required"
  else .ok (subs.unsubscribe name sensor)

end SMSubscriptions

/-- `GetValues`: the values of a response by name, less those with an error. -/
def getValues (sensors : List SMSensorValue) : GoMap String SMSensorValue :=
  sensors.foldl (fun values s => if s.error = "" then values.insert s.name s else values) ∅

/-- The two loops of `poll` visit each sensor and object of a subscription once, in an order that
the maps may give. -/
def IsPollOrder (subs : SMSubscriptions) (order : List (String × String)) : Prop :=
  order.Nodup ∧ (∀ p ∈ order, p.1 ∈ (subs.lookup p.2).getD ∅) ∧
    ∀ objectName ∈ subs.keys, ∀ sensorName ∈ (subs.lookup objectName).getD ∅,
      (sensorName, objectName) ∈ order

instance (subs : SMSubscriptions) (order : List (String × String)) :
    Decidable (IsPollOrder subs order) := inferInstanceAs (Decidable (_ ∧ _))

/-- The updates of one `poll`, each with the name it was asked by; `none` is a request that
failed. -/
def pollUpdates (response : Option (List SMSensorValue)) (order : List (String × String))
    (now : Time) : List (String × SMSensorUpdate) :=
  match response with
  | none => []
  | some sensors => order.filterMap fun p =>
    ((getValues sensors).lookup p.1).map fun value => (p.1, ⟨p.2, value, now⟩)

/-! ### The event -/

/-- `SSEEvent` of a sensor. -/
structure SSEEvent where
  type : String
  serverID : String
  objectName : String
  data : SMSensorValue
  timestamp : Time

/-- `SharedMemoryServerID`. -/
def sharedMemoryServerID : String := "sm"

/-- `BroadcastSensorUpdate`. -/
def broadcastSensorUpdate (update : SMSensorUpdate) : SSEEvent :=
  ⟨"sensor_data", sharedMemoryServerID, update.objectName, update.sensor, update.timestamp⟩

/-! ### The browser -/

/-- A point of a chart. -/
structure ChartPoint where
  x : Time
  y : Float

/-- A tab with its charts. -/
structure ChartTab extends Tab where
  charts : GoMap String (List ChartPoint)

/-- `state.tabs`, in the order in which the tabs were opened. -/
abbrev ChartTabs := List (String × ChartTab)

/-- The number that stands for a sensor's value. -/
def sensorNumber (value : Int64) : Float := Float.ofInt value.toInt

/-- `a || b` of two strings. -/
def orElse (a b : String) : String := if a = "" then b else a

namespace ChartTabs

/-- `findTabKeyByDisplayName`. -/
def findTabKeyByDisplayName (tabs : ChartTabs) (displayName : String) : Option String :=
  match tabs.find? fun e => e.2.displayName = displayName with
  | some e => some e.1
  | none => if (tabs.lookup displayName).isSome then some displayName else none

/-- The tab and the chart that an event is for, if it finds them. -/
def sensorChart (tabs : ChartTabs) (event : SSEEvent) : Option (String × String) :=
  -- the tab is looked up by its name only if the event names no server
  let key := if event.serverID ≠ "" then some (tabKey event.serverID event.objectName)
    else tabs.findTabKeyByDisplayName event.objectName
  key.bind fun key =>
    (tabs.lookup key).bind fun tab =>
      if (tab.charts.lookup ("ext:" ++ event.data.name)).isSome then
        some (key, "ext:" ++ event.data.name)
      else none

/-- A change to the charts of a tab. -/
def modifyCharts (tabs : ChartTabs) (key : String)
    (f : GoMap String (List ChartPoint) → GoMap String (List ChartPoint)) : ChartTabs :=
  tabs.map fun e => if e.1 = key then (e.1, { e.2 with charts := f e.2.charts }) else e

/-- A change to the data of a chart, if there is one. -/
def modifyData (varName : String) (f : List ChartPoint → List ChartPoint)
    (charts : GoMap String (List ChartPoint)) : GoMap String (List ChartPoint) :=
  match charts.lookup varName with
  | none => charts
  | some data => charts.insert varName (f data)

/-- A point at the end of a chart, which keeps at most a thousand. -/
def pushPoint (point : ChartPoint) (data : List ChartPoint) : List ChartPoint :=
  if 1000 < (data ++ [point]).length then (data ++ [point]).tail else data ++ [point]

/-- The listener of `sensor_data`. -/
def onSensorData (tabs : ChartTabs) (event : SSEEvent) : ChartTabs :=
  if event.type ≠ "sensor_data" then tabs
  else match tabs.sensorChart event with
    | none => tabs
    | some (key, varName) => tabs.modifyCharts key
        (modifyData varName (pushPoint ⟨event.timestamp, sensorNumber event.data.value⟩))

end ChartTabs

/-- What a tab gets when it asks for the history of a chart. -/
def askHistory (st : Storage) (key : String) (tab : ChartTab) (varName : String) :
    Except String (List DataPoint) :=
  st.getVariableHistory (orElse tab.displayName key) varName (some 200) tab.serverID

/-! ### The steps -/

/-- The browser, the poller and the storage. -/
structure ExternalState where
  tabs : ChartTabs
  subscriptions : SMSubscriptions
  storage : Storage

/-- What happens to the charts of external sensors. -/
inductive ExternalCall where
  | createTab (name serverID : String)
  | closeTab (key : String)
  /-- of a sensor with this value, at this time of the browser -/
  | addExternalSensor (key sensorName : String) (value : Option Int64) (now : Time)
  | removeExternalSensor (key sensorName : String)
  | updateChart (key varName : String)
  | poll (response : Option (List SMSensorValue)) (order : List (String × String)) (now : Time)

namespace ExternalState

variable (s : ExternalState)

/-- `createTab`, where `openObjectTab` calls it. -/
def createTab (name serverID : String) : ExternalState :=
  if (s.tabs.lookup (tabKey serverID name)).isSome then s
  else { s with tabs := s.tabs ++ [(tabKey serverID name, ⟨⟨serverID, name⟩, ∅⟩)] }

/-- `closeTab`. -/
def closeTab (key : String) : ExternalState :=
  { s with tabs := s.tabs.filter (·.1 ≠ key) }

/-- The object that a tab subscribes for. -/
def objectOf (key : String) : String :=
  match s.tabs.lookup key with
  | none => key
  | some tab => orElse tab.displayName key

/-- `createExternalSensorChart`. -/
def createExternalSensorChart (key sensorName : String) (value : Option Int64) (now : Time) :
    ExternalState :=
  { s with
    tabs := s.tabs.modifyCharts key fun charts =>
      if (charts.lookup ("ext:" ++ sensorName)).isSome then charts
      else charts.insert ("ext:" ++ sensorName)
        (value.map fun v => (⟨now, sensorNumber v⟩ : ChartPoint)).toList }

/-- `subscribeToExternalSensors`; an error is logged. -/
def subscribeToExternalSensors (key : String) (sensorNames : List String) : ExternalState :=
  match s.subscriptions.subscribeExternalSensors (s.objectOf key) sensorNames with
  | .ok subs => { s with subscriptions := subs }
  | .error _ => s

/-- `addExternalSensor`, of a sensor that is known. -/
def addExternalSensor (key sensorName : String) (value : Option Int64) (now : Time) :
    ExternalState :=
  (s.createExternalSensorChart key sensorName value now).subscribeToExternalSensors key [sensorName]

/-- `unsubscribeFromExternalSensor`; an error is logged. -/
def unsubscribeFromExternalSensor (key sensorName : String) : ExternalState :=
  match s.subscriptions.unsubscribeExternalSensor (s.objectOf key) sensorName with
  | .ok subs => { s with subscriptions := subs }
  | .error _ => s

/-- `removeExternalSensor`. -/
def removeExternalSensor (key sensorName : String) : ExternalState :=
  if (s.tabs.lookup key).isNone then s
  else
    { s with tabs := s.tabs.modifyCharts key (·.erase ("ext:" ++ sensorName)) }
      |>.unsubscribeFromExternalSensor key sensorName

/-- `updateChart`, called for a chart of the tab `key`; an error is logged. -/
def updateChart (key varName : String) : ExternalState :=
  let tabKey := (s.tabs.findTabKeyByDisplayName key).getD key
  match s.tabs.lookup tabKey with
  | none => s
  | some tab =>
    if (tab.charts.lookup varName).isNone then s
    else match askHistory s.storage key tab varName with
      | .error _ => s
      | .ok points =>
        { s with
          tabs := s.tabs.modifyCharts key
            (ChartTabs.modifyData varName fun _ => points.map fun p => ⟨p.timestamp, p.value⟩) }

/-- One update of `poll`: it is saved, and the event reaches the browser. -/
def emit (p : String × SMSensorUpdate) : ExternalState :=
  { s with
    -- the server is left empty
    storage := s.storage.save "" p.2.objectName ("ext:" ++ p.1) (sensorNumber p.2.sensor.value)
      p.2.timestamp
    tabs := s.tabs.onSensorData (broadcastSensorUpdate p.2) }

/-- `poll`; the order is one that the maps may give. -/
def poll (response : Option (List SMSensorValue)) (order : List (String × String)) (now : Time) :
    Option ExternalState :=
  if IsPollOrder s.subscriptions order then some ((pollUpdates response order now).foldl emit s)
  else none

end ExternalState

/-- All runs of the browser and the poller, with a storage that is new. -/
def externalMachine (st : Storage) : Machine ExternalState ExternalCall where
  init := ⟨[], ∅, st⟩
  step s
    | .createTab name serverID => some (s.createTab name serverID)
    | .closeTab key => some (s.closeTab key)
    | .addExternalSensor key sensorName value now =>
      some (s.addExternalSensor key sensorName value now)
    | .removeExternalSensor key sensorName => some (s.removeExternalSensor key sensorName)
    | .updateChart key varName => some (s.updateChart key varName)
    | .poll response order now => s.poll response order now

/-- The tab is of the object of an update, and has subscribed its sensor. -/
def Awaits (tab : ChartTab) (p : String × SMSensorUpdate) : Prop :=
  tab.displayName = p.2.objectName ∧ (tab.charts.lookup ("ext:" ++ p.1)).isSome = true

/-- An update finds the chart of every tab that waits for it, and its point is in the history that
the tab then gets. -/
def Routed (s : ExternalState) (p : String × SMSensorUpdate) : Prop :=
  ∀ e ∈ s.tabs, Awaits e.2 p →
    s.tabs.sensorChart (broadcastSensorUpdate p.2) = some (e.1, "ext:" ++ p.1) ∧
    ∃ points, askHistory (s.emit p).storage e.1 e.2 ("ext:" ++ p.1) = .ok points ∧
      ⟨p.2.timestamp, sensorNumber p.2.sensor.value⟩ ∈ points

/-- Every update of a poll is routed so, where it is emitted. -/
def EveryRouted (s : ExternalState) : ExternalCall → Prop
  | .poll response order now => ∀ pre p post, pollUpdates response order now = pre ++ p :: post →
    Routed (pre.foldl ExternalState.emit s) p
  | _ => True

/-- No tab waits for an update of a poll. -/
def NobodyAwaits (s : ExternalState) : ExternalCall → Prop
  | .poll response order now => ∀ p ∈ pollUpdates response order now, ∀ e ∈ s.tabs, ¬ Awaits e.2 p
  | _ => True

/-! ### One tab and one sensor -/

/-- A tab subscribes a sensor, and the poller reads it. -/
def oneSensorRun : List ExternalCall :=
  [.createTab "TestProc" "s1", .addExternalSensor "s1:TestProc" "AI100_AS" none 0,
    .poll (some [⟨"AI100_AS", 5, ""⟩]) [("AI100_AS", "TestProc")] 1]

/-- The event looks for the tab `sm:TestProc`. -/
theorem not_everyRouted : ¬ ∀ (st : Storage),
    (st = .newMemory ∨ ∃ text, st = .newSQLite text) → ∀ calls s,
    (externalMachine st).run (externalMachine st).init calls = some s →
    (externalMachine st).EveryStep EveryRouted calls := by
  intro h
  have hall := h .newMemory (.inl rfl) oneSensorRun _ rfl
  have hpoll := hall (oneSensorRun.take 2) _ [] _ rfl rfl [] _ [] rfl
  obtain ⟨hchart, -⟩ := hpoll _ (List.mem_singleton_self _) ⟨rfl, rfl⟩
  exact absurd hchart (by decide)

/-! ### What the steps leave as it is -/

variable {s s' : ExternalState} {tabs : ChartTabs} {key varName : String}

theorem isSome_modifyData (f : List ChartPoint → List ChartPoint)
    (charts : GoMap String (List ChartPoint)) (v : String) :
    ((ChartTabs.modifyData varName f charts).lookup v).isSome = (charts.lookup v).isSome := by
  unfold ChartTabs.modifyData
  cases h : charts.lookup varName with
  | none => rfl
  | some data =>
    show (Finmap.lookup v (charts.insert varName (f data))).isSome = _
    rw [GoMap.lookup_insert]
    split_ifs with hv
    · rw [hv, h]
      rfl
    · rfl

/-- An event leaves the tabs, and which charts they have. -/
theorem awaits_onSensorData (tabs : ChartTabs) (event : SSEEvent) (p : String × SMSensorUpdate) :
    (∃ e ∈ tabs.onSensorData event, Awaits e.2 p) ↔ ∃ e ∈ tabs, Awaits e.2 p := by
  unfold ChartTabs.onSensorData
  split_ifs with htype
  · rfl
  · cases tabs.sensorChart event with
    | none => rfl
    | some target =>
      simp only [ChartTabs.modifyCharts, List.mem_map, exists_exists_and_eq_and]
      refine exists_congr fun e => and_congr_right fun _ => ?_
      split_ifs with hkey
      · simp only [Awaits, isSome_modifyData]
      · rfl

/-- Every tab is under its own key, and the poller's points are under the default server. -/
structure ExternalInv (s : ExternalState) : Prop where
  key_eq : ∀ e ∈ s.tabs, e.1 = tabKey e.2.serverID e.2.displayName
  saved : s.storage.SavedUnder defaultServerID

theorem key_eq_modifyCharts {f : GoMap String (List ChartPoint) → GoMap String (List ChartPoint)}
    (h : ∀ e ∈ tabs, e.1 = tabKey e.2.serverID e.2.displayName) :
    ∀ e ∈ tabs.modifyCharts key f, e.1 = tabKey e.2.serverID e.2.displayName := by
  intro e he
  obtain ⟨e, hmem, rfl⟩ := List.mem_map.mp he
  have := h e hmem
  split_ifs <;> exact this

theorem key_eq_onSensorData (event : SSEEvent)
    (h : ∀ e ∈ tabs, e.1 = tabKey e.2.serverID e.2.displayName) :
    ∀ e ∈ tabs.onSensorData event, e.1 = tabKey e.2.serverID e.2.displayName := by
  unfold ChartTabs.onSensorData
  split_ifs
  · exact h
  · cases tabs.sensorChart event with
    | none => exact h
    | some target => exact key_eq_modifyCharts h

/-- **One update** keeps the invariant. -/
theorem ExternalInv.emit (h : ExternalInv s) (p : String × SMSensorUpdate) :
    ExternalInv (s.emit p) where
  key_eq := key_eq_onSensorData (broadcastSensorUpdate p.2) h.key_eq
  saved := h.saved.save "" _ _ _ _

theorem ExternalInv.foldl_emit (h : ExternalInv s) (ps : List (String × SMSensorUpdate)) :
    ExternalInv (ps.foldl ExternalState.emit s) := by
  induction ps generalizing s with
  | nil => exact h
  | cons p ps ih => exact ih (h.emit p)

theorem awaits_foldl_emit (ps : List (String × SMSensorUpdate)) (p : String × SMSensorUpdate) :
    (∃ e ∈ (ps.foldl ExternalState.emit s).tabs, Awaits e.2 p) ↔ ∃ e ∈ s.tabs, Awaits e.2 p := by
  induction ps generalizing s with
  | nil => rfl
  | cons q ps ih =>
    exact ih.trans (awaits_onSensorData s.tabs (broadcastSensorUpdate q.2) p)

theorem ExternalInv.modifyCharts (h : ExternalInv s) (key : String)
    (f : GoMap String (List ChartPoint) → GoMap String (List ChartPoint)) :
    ExternalInv { s with tabs := s.tabs.modifyCharts key f } :=
  ⟨key_eq_modifyCharts h.key_eq, h.saved⟩

theorem ExternalInv.subscribe (h : ExternalInv s) (key : String) (sensorNames : List String) :
    ExternalInv (s.subscribeToExternalSensors key sensorNames) := by
  unfold ExternalState.subscribeToExternalSensors
  split
  · exact ⟨h.key_eq, h.saved⟩
  · exact h

theorem ExternalInv.unsubscribe (h : ExternalInv s) (key sensorName : String) :
    ExternalInv (s.unsubscribeFromExternalSensor key sensorName) := by
  unfold ExternalState.unsubscribeFromExternalSensor
  split
  · exact ⟨h.key_eq, h.saved⟩
  · exact h

/-- **Every step** keeps the invariant. -/
theorem ExternalInv.step {st : Storage} {c : ExternalCall} (h : ExternalInv s)
    (hstep : (externalMachine st).step s c = some s') : ExternalInv s' := by
  cases c with
  | createTab name serverID =>
    obtain rfl := Option.some.inj hstep
    unfold ExternalState.createTab
    split_ifs
    · exact h
    · refine ⟨fun e he => ?_, h.saved⟩
      rcases List.mem_append.mp he with he | he
      · exact h.key_eq e he
      · rw [List.mem_singleton.mp he]
  | closeTab key =>
    obtain rfl := Option.some.inj hstep
    exact ⟨fun e he => h.key_eq e (List.mem_of_mem_filter he), h.saved⟩
  | addExternalSensor key sensorName value now =>
    obtain rfl := Option.some.inj hstep
    exact (h.modifyCharts key _).subscribe key [sensorName]
  | removeExternalSensor key sensorName =>
    obtain rfl := Option.some.inj hstep
    unfold ExternalState.removeExternalSensor
    split_ifs
    · exact h
    · exact (h.modifyCharts key _).unsubscribe key sensorName
  | updateChart key varName =>
    obtain rfl := Option.some.inj hstep
    simp only [ExternalState.updateChart]
    split
    · exact h
    · split_ifs
      · exact h
      · split
        · exact h
        · exact h.modifyCharts key _
  | poll response order now =>
    obtain ⟨-, hstep⟩ := Option.ite_none_right_eq_some.mp hstep
    obtain rfl := Option.some.inj hstep
    exact h.foldl_emit _

theorem ExternalInv.of_reachable {st : Storage} (hst : st.SavedUnder defaultServerID)
    (h : (externalMachine st).Reachable s) : ExternalInv s := by
  refine h.induction (P := ExternalInv) ⟨fun e he => ?_, hst⟩ ?_
  · exact absurd he List.not_mem_nil
  · intro s c s' _ hI hstep
    exact hI.step hstep

/-! ### Where an update goes -/

theorem tabKey_inj_left {serverID serverID' name : String}
    (h : tabKey serverID name = tabKey serverID' name) : serverID = serverID' := by
  have hlists := congrArg String.toList h
  simp only [tabKey, String.toList_append, List.append_cancel_right_eq] at hlists
  exact String.toList_injective hlists

/-- The event looks under the server `sm`. -/
theorem key_eq_of_sensorChart {update : SMSensorUpdate} {target : String × String}
    (h : tabs.sensorChart (broadcastSensorUpdate update) = some target) :
    target.1 = tabKey sharedMemoryServerID update.objectName := by
  have hsm : (broadcastSensorUpdate update).serverID ≠ "" := by
    show sharedMemoryServerID ≠ ""
    decide
  simp only [ChartTabs.sensorChart, Option.bind_eq_some_iff] at h
  obtain ⟨key, hkey, tab, -, h⟩ := h
  rw [if_pos hsm] at hkey
  obtain ⟨-, h⟩ := Option.ite_none_right_eq_some.mp h
  rw [← Option.some.inj h, ← Option.some.inj hkey]
  rfl

/-- A tab of the server `sm` has no history. -/
theorem history_eq_nil {st : Storage} (h : st.SavedUnder defaultServerID) {tab : ChartTab}
    (htab : tab.serverID = sharedMemoryServerID) {points : List DataPoint}
    (hask : askHistory st key tab varName = .ok points) : points = [] := by
  have hkey (rest rest' : String) :
      orDefault sharedMemoryServerID ++ ":" ++ rest ≠ defaultServerID ++ ":" ++ rest' := by
    intro heq
    have hlists := congrArg (fun s : String => s.toList.head?) heq
    simp [orDefault, sharedMemoryServerID, defaultServerID] at hlists
  unfold askHistory Storage.getVariableHistory at hask
  split_ifs at hask
  rw [htab, h.getLatest_eq_nil hkey] at hask
  exact (Except.ok.inj hask).symm

/-- **One update** is routed as it should be only if no tab waits for it. -/
theorem routed_iff (hI : ExternalInv s) (p : String × SMSensorUpdate) :
    Routed s p ↔ ∀ e ∈ s.tabs, ¬ Awaits e.2 p := by
  constructor
  · intro h e he hawaits
    obtain ⟨hchart, points, hask, hmem⟩ := h e he hawaits
    have hkey := key_eq_of_sensorChart hchart
    rw [hI.key_eq e he, hawaits.1] at hkey
    rw [history_eq_nil (hI.emit p).saved (tabKey_inj_left hkey) hask] at hmem
    cases hmem
  · exact fun h e he hawaits => absurd hawaits (h e he)

theorem everyRouted_iff_nobodyAwaits (hI : ExternalInv s) (c : ExternalCall) :
    EveryRouted s c ↔ NobodyAwaits s c := by
  cases c with
  | poll response order now =>
    have hsame (pre : List (String × SMSensorUpdate)) (p : String × SMSensorUpdate) :
        Routed (pre.foldl ExternalState.emit s) p ↔ ∀ e ∈ s.tabs, ¬ Awaits e.2 p := by
      have h := awaits_foldl_emit (s := s) pre p
      rw [routed_iff (hI.foldl_emit pre)]
      simpa using not_congr h
    constructor
    · intro h p hp
      obtain ⟨pre, post, hsplit⟩ := List.append_of_mem hp
      exact (hsame pre p).mp (h pre p post hsplit)
    · intro h pre p post hsplit
      exact (hsame pre p).mpr (h p (by simp [hsplit]))
  | _ => exact Iff.rfl

/-- **When updates are routed as they should be**: in the runs in which no tab waits for one. -/
theorem everyRouted_iff {st : Storage}
    (hst : st = .newMemory ∨ ∃ text, st = .newSQLite text) {calls : List ExternalCall}
    (hrun : (externalMachine st).run (externalMachine st).init calls = some s) :
    (externalMachine st).EveryStep EveryRouted calls ↔
      (externalMachine st).EveryStep NobodyAwaits calls := by
  have hsaved : st.SavedUnder defaultServerID := by
    rcases hst with rfl | ⟨text, rfl⟩
    · exact Storage.savedUnder_newMemory _
    · exact Storage.savedUnder_newSQLite _ text
  exact Machine.everyStep_congr
    (fun _ c _ hr _ => everyRouted_iff_nobodyAwaits (.of_reachable hsaved hr) c) hrun

/-- The tab that subscribed is closed, and another one is open when the poller reads the sensor. -/
def closedTabRun : List ExternalCall :=
  [.createTab "TestProc" "s1", .createTab "Pump" "s1",
    .addExternalSensor "s1:TestProc" "AI100_AS" none 0, .closeTab "s1:TestProc",
    .poll (some [⟨"AI100_AS", 5, ""⟩]) [("AI100_AS", "TestProc")] 1]

/-- The update is emitted, and no tab waits for it. -/
theorem everyRouted_closedTab :
    pollUpdates (some [⟨"AI100_AS", 5, ""⟩]) [("AI100_AS", "TestProc")] 1 =
      [("AI100_AS", ⟨"TestProc", ⟨"AI100_AS", 5, ""⟩, 1⟩)] ∧
    (externalMachine .newMemory).EveryStep EveryRouted closedTabRun := by
  refine ⟨rfl, (everyRouted_iff (.inl rfl) rfl).mpr ?_⟩
  refine ((((Machine.everyStep_nil.concat rfl trivial).concat rfl trivial).concat rfl
    trivial).concat rfl trivial).concat rfl ?_
  intro p hp e he hawaits
  obtain rfl := List.mem_singleton.mp hp
  obtain rfl := List.mem_singleton.mp he
  exact absurd hawaits.1 (by decide)

end UnisetPanel
