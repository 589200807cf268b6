/-
  What is saved when recording is on: `recording.Manager`, the converters that
  `ionc`, `modbus` and `opcua` give to their pollers, and the callbacks of `main`.

  The three sensor pollers are one type, indexed by `Kind`: a `BasePoller` over
  the items of the kind, with the fields that `saveToRecording` reads.  A
  function of the source that exists once per kind is a definition of its own
  here, and the function of the kind selects it.

  `Save` and `SaveBatch` return what they add to the backend.  A record is kept
  with the sensor whose update it was made from (`Saved`); the database itself
  has only the names, which two sensors may share.
-/
import UnisetPanel.Poller.Emit

namespace UnisetPanel

/-! ### Values -/

/-- What the code computes from a `float64`. -/
class Float64 (R : Type) where
  formatFloat64 : R → String
  /-- the conversion `int(v)` -/
  toInt : R → Int64

/-- An `interface{}` with floating-point numbers `R`. -/
inductive AnyValue (R : Type) where
  | nil
  | int (v : Int64)
  | int64 (v : Int64)
  | float64 (v : R)
  | string (v : String)
  | bool (v : Bool)
  /-- an array or an object, by its text -/
  | other (text : String)
  deriving DecidableEq, Repr

/-- `formatInt64`: the least integer stays negative when its sign is changed, and has no digits. -/
def formatInt64 (v : Int64) : String :=
  if v = 0 then "0" else if v < 0 then "-" ++ digits (-v) else digits v
where
  digits (v : Int64) : String := if 0 < v then toString v.toInt else ""

section

variable {R : Type} [Float64 R]

/-- `formatValue`. -/
def formatValue : AnyValue R → String
  | .nil => "nil"
  | .float64 val => Float64.formatFloat64 val
  | .int64 val => formatInt64 val
  | .int val => formatInt64 val
  | .string val => val
  | .bool val => if val then "true" else "false"
  | .other _ => "?"

/-- `formatValueHash`. -/
def formatValueHash (value : AnyValue R) (tick : Int64) : String :=
  formatValue value ++ "|" ++ formatInt64 tick

end

/-! ### The items of each kind -/

/-- `uniset.IONCSensor`. -/
structure IONCSensor where
  id : Int64
  name : String
  value : Int64
  realValue : Int64
  frozen : Bool
  deriving DecidableEq, Repr

/-- `uniset.MBRegister`. -/
structure MBRegister where
  id : Int64
  name : String
  value : Int64
  deriving DecidableEq, Repr

/-- `opcua.OPCUASensor`. -/
structure OPCUASensor (R : Type) where
  id : Int64
  name : String
  value : AnyValue R
  tick : Int64
  deriving DecidableEq, Repr

/-- The methods of `ioncFetcher`. -/
def ioncFetcher : ItemFetcher IONCSensor where
  getItemID := IONCSensor.id
  getValueHash sensor := toString sensor.value ++ "|" ++ toString sensor.realValue

/-- The methods of `modbusFetcher`. -/
def modbusFetcher : ItemFetcher MBRegister where
  getItemID := MBRegister.id
  getValueHash reg := toString reg.value

/-- The methods of `opcuaFetcher`. -/
def opcuaFetcher (R : Type) [Float64 R] : ItemFetcher (OPCUASensor R) where
  getItemID := OPCUASensor.id
  getValueHash sensor := formatValueHash sensor.value sensor.tick

/-- The pollers built on `BasePoller`. -/
inductive Kind where
  | ionc
  | modbus
  | opcua
  deriving DecidableEq, Repr

section

variable (R : Type) [Float64 R]

/-- The items of a kind. -/
abbrev Item : Kind → Type
  | .ionc => IONCSensor
  | .modbus => MBRegister
  | .opcua => OPCUASensor R

/-- The fetcher of a kind. -/
def fetcher : (k : Kind) → ItemFetcher (Item R k)
  | .ionc => ioncFetcher
  | .modbus => modbusFetcher
  | .opcua => opcuaFetcher R

variable {R}

/-- The `Name` of an item. -/
def itemName : (k : Kind) → Item R k → String
  | .ionc => IONCSensor.name
  | .modbus => MBRegister.name
  | .opcua => OPCUASensor.name

/-- The `Value` of an item. -/
def itemValue : (k : Kind) → Item R k → AnyValue R
  | .ionc => fun sensor => .int64 sensor.value
  | .modbus => fun reg => .int64 reg.value
  | .opcua => OPCUASensor.value

end

/-! ### The recording manager -/

/-- `recording.DataRecord`. -/
structure DataRecord (R : Type) where
  serverID : String
  objectName : String
  variableName : String
  value : AnyValue R
  timestamp : Time
  deriving DecidableEq, Repr

/-- A sensor of the panel. -/
inductive SensorRef where
  /-- of a poller built on `BasePoller` -/
  | item (serverID : String) (k : Kind) (r : ItemRef)
  /-- of the UWebSocketGate poller -/
  | gate (serverID objectName name : String)
  deriving DecidableEq, Repr

/-- A saved record, and the sensor it was made for. -/
structure Saved (R : Type) where
  source : SensorRef
  record : DataRecord R
  deriving DecidableEq, Repr

/-- `recording.Manager`; its backend never fails. -/
structure RecordingManager where
  enabled : Bool
  deriving DecidableEq, Repr

namespace RecordingManager

/-- `Start`. -/
def start (m : RecordingManager) : RecordingManager := if m.enabled then m else ⟨true⟩

/-- `Stop`. -/
def stop (m : RecordingManager) : RecordingManager := if m.enabled then ⟨false⟩ else m

@[simp] theorem enabled_start (m : RecordingManager) : m.start.enabled = true := by
  unfold start
  split_ifs with h
  · exact h
  · rfl

@[simp] theorem enabled_stop (m : RecordingManager) : m.stop.enabled = false := by
  unfold stop
  split_ifs with h
  · rfl
  · exact Bool.not_eq_true _ |>.mp h

variable {R : Type}

/-- `Save`. -/
def save (m : RecordingManager) (x : Saved R) : List (Saved R) := if m.enabled then [x] else []

/-- `SaveBatch`. -/
def saveBatch (m : RecordingManager) (xs : List (Saved R)) : List (Saved R) :=
  if m.enabled then xs else []

end RecordingManager

/-! ### Converters and callbacks -/

section

variable {R : Type} {T : Type}

/-- The record of an update, as all converters and callbacks build it: they differ in what stands
before the name and in whose clock they read. -/
def dataRecord (varPrefix : String) (name : T → String) (value : T → AnyValue R)
    (serverID : String) (u : Update T) (timestamp : Time) : DataRecord R where
  serverID := serverID
  objectName := u.objectName
  variableName := varPrefix ++ name u.item
  value := value u.item
  timestamp := timestamp

/-- The recording part of a callback of `main`: each update is saved if recording is on. -/
def recordUpdates (m : RecordingManager) (source : Update T → SensorRef)
    (record : Update T → DataRecord R) (updates : List (Update T)) : List (Saved R) :=
  if m.enabled then updates.flatMap fun u => m.save ⟨source u, record u⟩ else []

theorem recordUpdates_eq (m : RecordingManager) (source : Update T → SensorRef)
    (record : Update T → DataRecord R) (updates : List (Update T)) :
    recordUpdates m source record updates =
      if m.enabled then updates.map fun u => ⟨source u, record u⟩ else [] := by
  unfold recordUpdates RecordingManager.save
  split_ifs with h
  · induction updates with
    | nil => rfl
    | cons u updates ih => rw [List.flatMap_cons, List.map_cons, ih, List.singleton_append]
  · rfl

end

section

variable {R : Type} [Float64 R]

/-- The sensor of an update. -/
def updateSource (k : Kind) (serverID : String) (u : Update (Item R k)) : SensorRef :=
  .item serverID k ⟨u.objectName, (fetcher R k).getItemID u.item⟩

/-- The converter set by `ionc.NewPoller`. -/
def ioncToDataRecord (serverID : String) (update : Update IONCSensor) : DataRecord R :=
  dataRecord "ionc:" IONCSensor.name (fun sensor => .int64 sensor.value) serverID update
    update.timestamp

/-- The converter set by `modbus.NewPoller`. -/
def modbusToDataRecord (serverID : String) (update : Update MBRegister) : DataRecord R :=
  dataRecord "mb:" MBRegister.name (fun reg => .int64 reg.value) serverID update update.timestamp

/-- The converter set by `opcua.NewPoller`. -/
def opcuaToDataRecord (serverID : String) (update : Update (OPCUASensor R)) : DataRecord R :=
  dataRecord "ext:" OPCUASensor.name OPCUASensor.value serverID update update.timestamp

/-- The converter of a kind. -/
def toDataRecord : (k : Kind) → String → Update (Item R k) → DataRecord R
  | .ionc => ioncToDataRecord
  | .modbus => modbusToDataRecord
  | .opcua => opcuaToDataRecord

/-- The recording part of the IONC callback of `main`. -/
def ioncCallback (m : RecordingManager) (serverID : String) (updates : List (Update IONCSensor))
    (now : Time) : List (Saved R) :=
  recordUpdates m (updateSource (R := R) .ionc serverID) (fun u =>
    dataRecord "ionc:" IONCSensor.name (fun sensor => .int64 sensor.value) serverID u now) updates

/-- The recording part of the Modbus callback. -/
def modbusCallback (m : RecordingManager) (serverID : String) (updates : List (Update MBRegister))
    (now : Time) : List (Saved R) :=
  recordUpdates m (updateSource (R := R) .modbus serverID) (fun u =>
    dataRecord "mb:" MBRegister.name (fun reg => .int64 reg.value) serverID u now) updates

/-- The recording part of the OPCUA callback: it writes another prefix than the converter. -/
def opcuaCallback (m : RecordingManager) (serverID : String)
    (updates : List (Update (OPCUASensor R))) (now : Time) : List (Saved R) :=
  recordUpdates m (updateSource .opcua serverID) (fun u =>
    dataRecord "opcua:" OPCUASensor.name OPCUASensor.value serverID u now) updates

/-- The recording part of the callback of a kind. -/
def callback : (k : Kind) → RecordingManager → String → List (Update (Item R k)) → Time →
    List (Saved R)
  | .ionc => ioncCallback
  | .modbus => modbusCallback
  | .opcua => opcuaCallback

/-- The prefix that the converter of a kind writes. -/
def converterPrefix : Kind → String
  | .ionc => "ionc:"
  | .modbus => "mb:"
  | .opcua => "ext:"

/-- The prefix that the callback of a kind writes. -/
def callbackPrefix : Kind → String
  | .ionc => "ionc:"
  | .modbus => "mb:"
  | .opcua => "opcua:"

omit [Float64 R] in
theorem toDataRecord_eq (k : Kind) (serverID : String) (u : Update (Item R k)) :
    toDataRecord k serverID u =
      dataRecord (converterPrefix k) (itemName k) (itemValue k) serverID u u.timestamp := by
  cases k <;> rfl

theorem callback_eq (k : Kind) (m : RecordingManager) (serverID : String)
    (updates : List (Update (Item R k))) (now : Time) :
    callback k m serverID updates now =
      if m.enabled then updates.map fun u => ⟨updateSource k serverID u,
        dataRecord (callbackPrefix k) (itemName k) (itemValue k) serverID u now⟩ else [] := by
  cases k <;> exact recordUpdates_eq m _ _ updates

/-! ### The pollers -/

variable (R) in
/-- A poller of kind `k`, with the fields that `saveToRecording` reads. -/
structure SensorPoller (k : Kind) extends BasePoller (fetcher R k) where
  serverID : String
  /-- `SetRecordingManager` was called -/
  recordingMgr : Bool
  toDataRecord : Option (String → Update (Item R k) → DataRecord R)

variable (R) in
/-- What the environment contributes to one execution of `poll` or `ForceEmitAll`. -/
structure Emission (k : Kind) where
  fetch : Fetch (fetcher R k)
  /-- the copy of the subscriptions -/
  snap : List (String × List Int64)
  /-- the time at its start -/
  now : Time
  /-- the time in the callback -/
  callbackNow : Time

/-- What an operation of the panel passes to the callbacks of `main`, and what it saves. -/
structure Output (R : Type) where
  delivered : List (SensorRef × AnyValue R)
  saved : List (Saved R)

namespace Output

/-- One operation after the other. -/
def append (x y : Output R) : Output R := ⟨x.delivered ++ y.delivered, x.saved ++ y.saved⟩

/-- Nothing. -/
def empty : Output R := ⟨[], []⟩

end Output

variable {k : Kind}

namespace SensorPoller

/-- `saveToRecording`. -/
def saveToRecording (p : SensorPoller R k) (m : RecordingManager)
    (batch : List (Update (Item R k))) : List (Saved R) :=
  match p.toDataRecord with
  | none => []
  | some toDataRecord =>
    if p.recordingMgr = false ∨ batch = [] then []
    else m.saveBatch (batch.map fun u =>
      ⟨updateSource k p.serverID u, toDataRecord p.serverID u⟩)

/-- The batch that an execution emits. -/
def batch (p : SensorPoller R k) (kind : EmitKind) (e : Emission R k) :
    List (Update (Item R k)) :=
  (p.emitSnapshot kind e.fetch e.snap e.now).1

/-- `poll` or `ForceEmitAll` with everything it calls, in the instance of `serverID`: a batch that
is not empty goes to the callback and then to `saveToRecording`. -/
def emit (p : SensorPoller R k) (serverID : String) (m : RecordingManager) (kind : EmitKind)
    (e : Emission R k) : SensorPoller R k × Output R :=
  ({ p with toBasePoller := (p.emitSnapshot kind e.fetch e.snap e.now).2 },
    if p.batch kind e = [] then Output.empty
    else
      { delivered := (p.batch kind e).map fun u => (updateSource k serverID u, itemValue k u.item)
        saved := callback k m serverID (p.batch kind e) e.callbackNow ++
          p.saveToRecording m (p.batch kind e) })

/-- The poller is wired as `NewInstance` and `SetRecordingManager` do it for `serverID`. -/
structure Wired (p : SensorPoller R k) (serverID : String) : Prop where
  serverID_eq : p.serverID = serverID
  recordingMgr_eq : p.recordingMgr = true
  toDataRecord_eq : p.toDataRecord = some (UnisetPanel.toDataRecord k)

end SensorPoller

variable (R k) in
/-- A sensor poller as `NewInstance` creates it and `AddServer` completes it. -/
def newSensorPoller (serverID : String) (batchSize : ℤ) : SensorPoller R k where
  toBasePoller := newBasePoller (fetcher R k) batchSize
  serverID := serverID
  recordingMgr := true
  toDataRecord := some (toDataRecord k)

namespace SensorPoller

theorem wired_newSensorPoller (serverID : String) (batchSize : ℤ) :
    (newSensorPoller R k serverID batchSize).Wired serverID :=
  ⟨rfl, rfl, rfl⟩

variable {p : SensorPoller R k} {serverID : String} {m : RecordingManager}

/-- What a poller delivers, whether or not anything is left to emit. -/
theorem delivered_emit (kind : EmitKind) (e : Emission R k) :
    (p.emit serverID m kind e).2.delivered =
      (p.batch kind e).map fun u => (updateSource k serverID u, itemValue k u.item) := by
  unfold emit
  split_ifs with h
  · rw [h]
    rfl
  · rfl

/-- **Two records for each update**: one by the callback, one by the poller itself. -/
theorem Wired.saved_emit (h : p.Wired serverID) (hm : m.enabled = true) (kind : EmitKind)
    (e : Emission R k) :
    (p.emit serverID m kind e).2.saved =
      ((p.batch kind e).map fun u => ⟨updateSource k serverID u,
        dataRecord (callbackPrefix k) (itemName k) (itemValue k) serverID u e.callbackNow⟩) ++
      (p.batch kind e).map fun u => ⟨updateSource k serverID u,
        dataRecord (converterPrefix k) (itemName k) (itemValue k) serverID u u.timestamp⟩ := by
  unfold emit
  split_ifs with hnil
  · rw [hnil]
    rfl
  · -- the batch goes to the callback, and then to `saveToRecording`
    show callback k m serverID _ _ ++ _ = _
    have hself : p.saveToRecording m (p.batch kind e) = (p.batch kind e).map fun u =>
        ⟨updateSource k serverID u, UnisetPanel.toDataRecord k serverID u⟩ := by
      unfold saveToRecording
      rw [h.toDataRecord_eq, h.recordingMgr_eq, h.serverID_eq]
      show (if true = false ∨ _ then _ else m.saveBatch _) = _
      rw [if_neg (by simp [hnil])]
      exact if_pos hm
    rw [callback_eq, if_pos hm, hself]
    congr 2
    funext u
    rw [UnisetPanel.toDataRecord_eq]

theorem Wired.emit (h : p.Wired serverID) (kind : EmitKind) (e : Emission R k) :
    (p.emit serverID m kind e).1.Wired serverID :=
  ⟨h.serverID_eq, h.recordingMgr_eq, h.toDataRecord_eq⟩

end SensorPoller

end

end UnisetPanel
