/-
  The UWebSocketGate poller (`internal/uwsgate/poller.go`).

  It does not poll: a message of the gate reaches `handleData`, which compares
  each sensor with its recorded hash and passes those that changed on, once for
  every object that is subscribed to them.  Subscriptions are by name, and the
  hashes belong to names, not to objects.

  A method returns the poller together with what it hands on: the names for the
  WebSocket client, or the updates for the callback and the records saved.
-/
import UnisetPanel.Recording.Basic

namespace UnisetPanel

/-- `uwsgate.SensorData`. -/
structure SensorData (R : Type) where
  name : String
  value : Int64
  error : AnyValue R
  deriving DecidableEq, Repr

section

variable {R : Type} [Float64 R]

/-- `ErrorCode`. -/
def SensorData.errorCode (s : SensorData R) : Int64 :=
  match s.error with
  | .nil => 0
  | .int v => v
  | .float64 v => Float64.toInt v
  | .string _ => 0
  | _ => 0

/-- The hash that `handleData` records. -/
def SensorData.valueHash (s : SensorData R) : String :=
  toString s.value ++ "|" ++ toString s.errorCode

end

/-- The state of a `uwsgate.Poller`. -/
structure UWSGatePoller (R : Type) where
  serverID : String
  /-- object name → set of sensor names -/
  subscriptions : GoMap String (Finset String)
  /-- sensor name → value hash -/
  lastValues : GoMap String String
  currentValues : GoMap String (SensorData R)
  /-- `SetRecordingManager` was called -/
  recordingMgr : Bool

/-- `NewPoller` and `SetServerID`, as `CreateUWSGatePoller` calls them. -/
def newUWSGatePoller (R : Type) (serverID : String) : UWSGatePoller R where
  serverID := serverID
  subscriptions := ∅
  lastValues := ∅
  currentValues := ∅
  recordingMgr := false

namespace UWSGatePoller

variable {R : Type} (p : UWSGatePoller R)

/-- The sensor names of an object. -/
def sensorsOf (objectName : String) : Finset String := (p.subscriptions.lookup objectName).getD ∅

/-- The sensor is subscribed for the object. -/
def Subscribed (objectName name : String) : Prop := name ∈ p.sensorsOf objectName

instance (objectName name : String) : Decidable (p.Subscribed objectName name) :=
  inferInstanceAs (Decidable (name ∈ p.sensorsOf objectName))

/-! ### Subscriptions -/

/-- One name of the loop of `Subscribe`; `acc` is the set of the object and the new names so far. -/
def subscribeName (acc : Finset String × List String) (name : String) :
    Finset String × List String :=
  if name ∈ acc.1 then acc else (insert name acc.1, acc.2 ++ [name])

/-- `Subscribe`. -/
def subscribe (objectName : String) (sensorNames : List String) : UWSGatePoller R × List String :=
  if sensorNames = [] then (p, [])
  else
    let r := sensorNames.foldl subscribeName (p.sensorsOf objectName, [])
    ({ p with subscriptions := p.subscriptions.insert objectName r.1 }, r.2)

/-- Some object is subscribed to the sensor. -/
def SomeObject (name : String) : Prop := ∃ o ∈ p.subscriptions.keys, p.Subscribed o name

instance (name : String) : Decidable (p.SomeObject name) :=
  inferInstanceAs (Decidable (∃ o ∈ p.subscriptions.keys, p.Subscribed o name))

/-- The set of the object without the name. -/
def remove (objectName name : String) : UWSGatePoller R :=
  { p with subscriptions :=
      p.subscriptions.insert objectName ((p.sensorsOf objectName).erase name) }

/-- The values of a sensor are forgotten. -/
def forget (name : String) : UWSGatePoller R :=
  { p with lastValues := p.lastValues.erase name, currentValues := p.currentValues.erase name }

/-- One name of the loop of `Unsubscribe`; `acc` is the poller and the names to unsubscribe so
far. -/
def unsubscribeName (objectName : String) (acc : UWSGatePoller R × List String) (name : String) :
    UWSGatePoller R × List String :=
  if name ∈ acc.1.sensorsOf objectName then
    if (acc.1.remove objectName name).SomeObject name then (acc.1.remove objectName name, acc.2)
    else ((acc.1.remove objectName name).forget name, acc.2 ++ [name])
  else acc

/-- The entry of an object goes with its last sensor. -/
def dropEmpty (objectName : String) : UWSGatePoller R :=
  if p.sensorsOf objectName = ∅ then
    { p with subscriptions := p.subscriptions.erase objectName }
  else p

/-- `Unsubscribe`. -/
def unsubscribe (objectName : String) (sensorNames : List String) :
    UWSGatePoller R × List String :=
  if sensorNames = [] then (p, [])
  else match p.subscriptions.lookup objectName with
    | none => (p, [])
    | some _ =>
      let r := sensorNames.foldl (unsubscribeName objectName) (p, [])
      (r.1.dropEmpty objectName, r.2)

/-- `UnsubscribeAll`; `sensorNames` are the names of the object, in the order of the `range`
loop. -/
def unsubscribeAll (objectName : String) (sensorNames : List String) :
    UWSGatePoller R × List String :=
  match p.subscriptions.lookup objectName with
  | none => (p, [])
  | some _ => p.unsubscribe objectName sensorNames

/-! ### Data -/

variable [Float64 R]

/-- The loop of `handleData`: the poller, the updates of each object, and the records saved. -/
structure DataLoop (R : Type) where
  poller : UWSGatePoller R
  updatesByObject : GoMap String (List (Update (SensorData R)))
  saved : List (Saved R)

/-- The update of one object, if it is subscribed to the sensor. -/
def addUpdate (sensor : SensorData R) (now : Time)
    (updatesByObject : GoMap String (List (Update (SensorData R)))) (objectName : String) :
    GoMap String (List (Update (SensorData R))) :=
  if p.Subscribed objectName sensor.name then
    updatesByObject.insert objectName
      ((updatesByObject.lookup objectName).getD [] ++ [⟨objectName, sensor, now⟩])
  else updatesByObject

/-- What `handleData` saves by itself: a record for the first object found. -/
def recordSensor (m : RecordingManager) (order : List String) (sensor : SensorData R)
    (now : Time) : List (Saved R) :=
  if p.recordingMgr then
    match order.find? fun o => p.Subscribed o sensor.name with
    | none => []
    | some objName => m.save ⟨.gate p.serverID objName sensor.name,
        ⟨p.serverID, objName, "ws:" ++ sensor.name, .int64 sensor.value, now⟩⟩
  else []

/-- One sensor of a message; `order` are the objects, in the order of the `range` loops. -/
def handleSensor (m : RecordingManager) (order : List String) (now : Time) (acc : DataLoop R)
    (sensor : SensorData R) : DataLoop R :=
  let p := { acc.poller with
    currentValues := acc.poller.currentValues.insert sensor.name sensor }
  if (p.lastValues.lookup sensor.name).getD "" = sensor.valueHash then { acc with poller := p }
  else
    { poller := { p with lastValues := p.lastValues.insert sensor.name sensor.valueHash }
      updatesByObject := order.foldl (p.addUpdate sensor now) acc.updatesByObject
      saved := acc.saved ++ p.recordSensor m order sensor now }

/-- `handleData`: the poller afterwards, the batch for the callback (which is not called for an
empty one), and the records saved on the way. -/
def handleData (m : RecordingManager) (data : List (SensorData R)) (order : List String)
    (now : Time) : UWSGatePoller R × List (Update (SensorData R)) × List (Saved R) :=
  let r := data.foldl (handleSensor m order now) ⟨p, ∅, []⟩
  (r.poller, order.flatMap fun o => (r.updatesByObject.lookup o).getD [], r.saved)

/-! ### The wiring -/

/-- The poller is wired as `CreateUWSGatePoller` does it for `serverID`: nobody calls
`SetRecordingManager`. -/
structure Wired (p : UWSGatePoller R) (serverID : String) : Prop where
  serverID_eq : p.serverID = serverID
  recordingMgr_eq : p.recordingMgr = false

omit [Float64 R]

theorem wired_newUWSGatePoller (serverID : String) : (newUWSGatePoller R serverID).Wired serverID :=
  ⟨rfl, rfl⟩

variable {p} {serverID : String}

theorem Wired.subscribe (h : p.Wired serverID) (o : String) (names : List String) :
    (p.subscribe o names).1.Wired serverID := by
  unfold UWSGatePoller.subscribe
  split_ifs with hnil
  · exact h
  · exact ⟨h.serverID_eq, h.recordingMgr_eq⟩

theorem Wired.foldl_unsubscribeName (o : String) (names : List String)
    (acc : UWSGatePoller R × List String) (h : acc.1.Wired serverID) :
    (names.foldl (unsubscribeName o) acc).1.Wired serverID := by
  induction names generalizing acc with
  | nil => exact h
  | cons name names ih =>
    apply ih
    unfold unsubscribeName
    split_ifs
    · exact ⟨h.serverID_eq, h.recordingMgr_eq⟩
    · exact ⟨h.serverID_eq, h.recordingMgr_eq⟩
    · exact h

theorem Wired.unsubscribe (h : p.Wired serverID) (o : String) (names : List String) :
    (p.unsubscribe o names).1.Wired serverID := by
  unfold UWSGatePoller.unsubscribe
  split_ifs with hnil
  · exact h
  · cases p.subscriptions.lookup o with
    | none => exact h
    | some items =>
      have hloop := foldl_unsubscribeName o names (p, []) h
      show (dropEmpty _ o).Wired serverID
      unfold dropEmpty
      split_ifs
      · exact ⟨hloop.serverID_eq, hloop.recordingMgr_eq⟩
      · exact hloop

theorem Wired.unsubscribeAll (h : p.Wired serverID) (o : String) (names : List String) :
    (p.unsubscribeAll o names).1.Wired serverID := by
  unfold UWSGatePoller.unsubscribeAll
  cases p.subscriptions.lookup o with
  | none => exact h
  | some items => exact h.unsubscribe o names

variable [Float64 R]

/-- A message leaves the wiring alone, and without a recording manager saves nothing on the way. -/
theorem Wired.foldl_handleSensor (m : RecordingManager) (order : List String) (now : Time)
    (data : List (SensorData R)) (acc : DataLoop R) (h : acc.poller.Wired serverID) :
    (data.foldl (handleSensor m order now) acc).poller.Wired serverID ∧
      (data.foldl (handleSensor m order now) acc).saved = acc.saved := by
  induction data generalizing acc with
  | nil => exact ⟨h, rfl⟩
  | cons sensor data ih =>
    have hone : (handleSensor m order now acc sensor).poller.Wired serverID ∧
        (handleSensor m order now acc sensor).saved = acc.saved := by
      unfold handleSensor
      simp only
      split_ifs with hsame
      · exact ⟨⟨h.serverID_eq, h.recordingMgr_eq⟩, rfl⟩
      · -- the recording manager was never set
        refine ⟨⟨h.serverID_eq, h.recordingMgr_eq⟩, ?_⟩
        unfold recordSensor
        rw [if_neg (by simp [h.recordingMgr_eq])]
        exact List.append_nil _
    obtain ⟨hwired, hsaved⟩ := ih (handleSensor m order now acc sensor) hone.1
    exact ⟨hwired, hsaved.trans hone.2⟩

theorem Wired.handleData (h : p.Wired serverID) (m : RecordingManager)
    (data : List (SensorData R)) (order : List String) (now : Time) :
    (p.handleData m data order now).1.Wired serverID ∧
      (p.handleData m data order now).2.2 = [] :=
  foldl_handleSensor m order now data ⟨p, ∅, []⟩ h

end UWSGatePoller

/-! ### The callback -/

/-- The sensor of an update. -/
def gateSource {R : Type} (serverID : String) (u : Update (SensorData R)) : SensorRef :=
  .gate serverID u.objectName u.item.name

/-- The recording part of the UWebSocketGate callback of `main`. -/
def uwsgateCallback {R : Type} (m : RecordingManager) (serverID : String)
    (updates : List (Update (SensorData R))) (now : Time) : List (Saved R) :=
  recordUpdates m (gateSource serverID) (fun u =>
    dataRecord "ws:" SensorData.name (fun sensor => .int64 sensor.value) serverID u now) updates

end UnisetPanel
