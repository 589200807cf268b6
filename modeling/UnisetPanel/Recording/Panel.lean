/-
  The server instances with their pollers, as `main` and `server.Manager` wire
  them, and the recording they share.

  The steps are taken one at a time: the subscription methods of every poller,
  `poll`, `ForceEmitAll`, a message of the gate, `StartRecording` with the
  `ForceEmitAllPollers` it launches, and `StopRecording`.  `exec` gives the panel
  after a step together with what the step delivers to the callbacks and what it
  saves (`Output`).

  `Wired` is the invariant: no step changes how the pollers are set up.
-/
import UnisetPanel.UWSGate.Poller
import UnisetPanel.Poller.Serial
import Mathlib.Data.Fintype.Sets

namespace UnisetPanel

/-- Every fetch succeeds and answers all ids. -/
def Fetch.Complete {T : Type*} {F : ItemFetcher T} (fetch : Fetch F) : Prop :=
  ∀ o ids, ∃ items, fetch.fetchItems o ids = .ok items ∧ ∀ id ∈ ids, ∃ x ∈ items, F.getItemID x = id

variable {R : Type} [Float64 R] {servers : Finset String}

/-! ### The panel -/

variable (R) in
/-- `server.Instance`: its pollers. -/
structure Instance where
  /-- `IONCPoller`, `ModbusPoller` and `OPCUAPoller` -/
  poller : (k : Kind) → SensorPoller R k
  /-- created when it is first asked for -/
  uwsGatePoller : Option (UWSGatePoller R)

variable (R) in
/-- `NewInstance`, completed by `AddServer`. -/
def newInstance (serverID : String) (batchSize : ℤ) : Instance R where
  poller k := newSensorPoller R k serverID batchSize
  uwsGatePoller := none

variable (R) (servers) in
/-- The instances by server id, and the recording manager. -/
structure Panel where
  instances : servers → Instance R
  recordingMgr : RecordingManager

variable (R) (servers) in
/-- The panel as `main` sets it up; recording may be enabled from the start. -/
def newPanel (batchSize : ℤ) (recordingEnabled : Bool) : Panel R servers where
  instances id := newInstance R id batchSize
  recordingMgr := ⟨recordingEnabled⟩

variable (R) (servers) in
/-- One step of the panel. -/
inductive PanelAction where
  | subscribe (id : servers) (k : Kind) (objectName : String) (ids : List Int64)
  | unsubscribe (id : servers) (k : Kind) (objectName : String) (ids : List Int64)
  | unsubscribeAll (id : servers) (k : Kind) (objectName : String)
  /-- `poll` or `ForceEmitAll` -/
  | emit (kind : EmitKind) (id : servers) (k : Kind) (e : Emission R k)
  | subscribeGate (id : servers) (objectName : String) (sensorNames : List String)
  | unsubscribeGate (id : servers) (objectName : String) (sensorNames : List String)
  | unsubscribeAllGate (id : servers) (objectName : String) (sensorNames : List String)
  | handleData (id : servers) (data : List (SensorData R)) (order : List String)
      (now callbackNow : Time)
  /-- `order` are the instances, in the order of the `range` loop -/
  | startRecording (order : List servers) (e : (id : servers) → (k : Kind) → Emission R k)
      (answered : ∀ id k, (e id k).fetch.Complete)
  | stopRecording

/-- The step is `StartRecording`. -/
def PanelAction.isStart : PanelAction R servers → Bool
  | .startRecording _ _ _ => true
  | _ => false

namespace Panel

variable (s : Panel R servers)

/-- One of the sensor pollers. -/
def poller (id : servers) (k : Kind) : SensorPoller R k := (s.instances id).poller k

/-- `GetUWSGatePoller`. -/
def gate (id : servers) : UWSGatePoller R :=
  (s.instances id).uwsGatePoller.getD (newUWSGatePoller R id)

/-- The panel after a sensor poller has changed. -/
def setPoller (id : servers) (k : Kind) (p : SensorPoller R k) : Panel R servers :=
  { s with instances := Function.update s.instances id { s.instances id with
      poller := Function.update (s.instances id).poller k p } }

/-- The panel after the UWebSocketGate poller of an instance has changed. -/
def setGate (id : servers) (g : UWSGatePoller R) : Panel R servers :=
  { s with instances := Function.update s.instances id { s.instances id with
      uwsGatePoller := some g } }

/-- A subscription method of a sensor poller is called. -/
def onPoller (id : servers) (k : Kind)
    (f : BasePoller (fetcher R k) → BasePoller (fetcher R k)) : Panel R servers :=
  s.setPoller id k { s.poller id k with toBasePoller := f (s.poller id k).toBasePoller }

/-- `poll` or `ForceEmitAll` of a sensor poller. -/
def emitAt (kind : EmitKind) (id : servers) (k : Kind) (e : Emission R k) :
    Panel R servers × Output R :=
  let r := (s.poller id k).emit id s.recordingMgr kind e
  (s.setPoller id k r.1, r.2)

/-- `handleData` of a gate poller, with the callback. -/
def onData (id : servers) (data : List (SensorData R)) (order : List String)
    (now callbackNow : Time) : Panel R servers × Output R :=
  let r := (s.gate id).handleData s.recordingMgr data order now
  (s.setGate id r.1,
    { delivered := r.2.1.map fun u => (gateSource id u, .int64 u.item.value)
      saved := r.2.2 ++ uwsgateCallback s.recordingMgr id r.2.1 callbackNow })

/-- `ForceEmitAll` of several pollers, one after the other. -/
def forceEmit (e : (id : servers) → (k : Kind) → Emission R k) :
    List (servers × Kind) → Panel R servers → Panel R servers × Output R
  | [], s => (s, Output.empty)
  | v :: vs, s =>
    let r := s.emitAt .forceEmitAll v.1 v.2 (e v.1 v.2)
    let r' := forceEmit e vs r.1
    (r'.1, r.2.append r'.2)

/-- The pollers that `ForceEmitAllPollers` visits: the UWebSocketGate poller is not among them. -/
def visits (order : List servers) : List (servers × Kind) :=
  order.flatMap fun id => [(id, .ionc), (id, .modbus), (id, .opcua)]

/-- `ForceEmitAllPollers`. -/
def forceEmitAllPollers (order : List servers)
    (e : (id : servers) → (k : Kind) → Emission R k) : Panel R servers × Output R :=
  forceEmit e (visits order) s

/-- `Start`, as the `StartRecording` handler calls it. -/
def start : Panel R servers := { s with recordingMgr := s.recordingMgr.start }

/-- One step, with what it delivers and saves. -/
def exec : PanelAction R servers → Option (Panel R servers × Output R)
  | .subscribe id k o ids => some (s.onPoller id k fun p => p.subscribe o ids, Output.empty)
  | .unsubscribe id k o ids => some (s.onPoller id k fun p => p.unsubscribe o ids, Output.empty)
  | .unsubscribeAll id k o => some (s.onPoller id k fun p => p.unsubscribeAll o, Output.empty)
  | .emit kind id k e =>
    if IsSnapshot (s.poller id k).subscriptions e.snap then some (s.emitAt kind id k e) else none
  | .subscribeGate id o names => some (s.setGate id ((s.gate id).subscribe o names).1, Output.empty)
  | .unsubscribeGate id o names =>
    some (s.setGate id ((s.gate id).unsubscribe o names).1, Output.empty)
  | .unsubscribeAllGate id o names =>
    if names.Nodup ∧ names.toFinset = (s.gate id).sensorsOf o then
      some (s.setGate id ((s.gate id).unsubscribeAll o names).1, Output.empty)
    else none
  | .handleData id data order now callbackNow =>
    if (s.instances id).uwsGatePoller.isSome ∧ order.Nodup ∧
        order.toFinset = (s.gate id).subscriptions.keys then
      some (s.onData id data order now callbackNow)
    else none
  | .startRecording order e _ =>
    if order.Nodup ∧ (∀ id, id ∈ order) ∧
        ∀ v ∈ visits order, IsSnapshot (s.poller v.1 v.2).subscriptions (e v.1 v.2).snap then
      some (s.start.forceEmitAllPollers order e)
    else none
  | .stopRecording => some ({ s with recordingMgr := s.recordingMgr.stop }, Output.empty)

/-- The sensor is subscribed. -/
def Subscribed : SensorRef → Prop
  | .item serverID k r => ∃ h : serverID ∈ servers,
      (s.poller ⟨serverID, h⟩ k).Subscribed r.objectName r.id
  | .gate serverID o name => ∃ h : serverID ∈ servers, (s.gate ⟨serverID, h⟩).Subscribed o name

instance : (r : SensorRef) → Decidable (s.Subscribed r)
  | .item serverID k r => inferInstanceAs (Decidable (∃ h : serverID ∈ servers,
      (s.poller ⟨serverID, h⟩ k).Subscribed r.objectName r.id))
  | .gate serverID o name => inferInstanceAs (Decidable (∃ h : serverID ∈ servers,
      (s.gate ⟨serverID, h⟩).Subscribed o name))

/-! ### Reading the panel after a change -/

variable {s}

/-- What holds of every sensor poller still does after one of them has changed, if it holds of
that. -/
theorem forall_setPoller {P : (id : servers) → (k : Kind) → SensorPoller R k → Prop}
    {id : servers} {k : Kind} {p : SensorPoller R k} (hp : P id k p)
    (h : ∀ id' k', P id' k' (s.poller id' k')) (id' : servers) (k' : Kind) :
    P id' k' ((s.setPoller id k p).poller id' k') := by
  show P id' k' ((Function.update s.instances id _ id').poller k')
  by_cases hid : id' = id
  · -- the same instance: its other pollers are as before
    subst hid
    rw [Function.update_self]
    show P id' k' (Function.update (s.instances id').poller k p k')
    by_cases hk : k' = k
    · subst hk
      rw [Function.update_self]
      exact hp
    · rw [Function.update_of_ne hk]
      exact h id' k'
  · rw [Function.update_of_ne hid]
    exact h id' k'

theorem forall_setGate {P : (id : servers) → UWSGatePoller R → Prop} {id : servers}
    {g : UWSGatePoller R} (hg : P id g) (h : ∀ id', P id' (s.gate id')) (id' : servers) :
    P id' ((s.setGate id g).gate id') := by
  show P id' ((Function.update s.instances id _ id').uwsGatePoller.getD _)
  by_cases hid : id' = id
  · subst hid
    rw [Function.update_self]
    exact hg
  · rw [Function.update_of_ne hid]
    exact h id'

@[simp] theorem poller_setGate (id id' : servers) (k : Kind) (g : UWSGatePoller R) :
    (s.setGate id g).poller id' k = s.poller id' k := by
  show (Function.update s.instances id _ id').poller k = _
  by_cases hid : id' = id
  · subst hid
    rw [Function.update_self]
    rfl
  · rw [Function.update_of_ne hid]
    rfl

@[simp] theorem gate_setPoller (id id' : servers) (k : Kind) (p : SensorPoller R k) :
    (s.setPoller id k p).gate id' = s.gate id' := by
  show (Function.update s.instances id _ id').uwsGatePoller.getD _ = _
  by_cases hid : id' = id
  · subst hid
    rw [Function.update_self]
    rfl
  · rw [Function.update_of_ne hid]
    rfl

@[simp] theorem recordingMgr_forceEmit (e : (id : servers) → (k : Kind) → Emission R k)
    (vs : List (servers × Kind)) : (forceEmit e vs s).1.recordingMgr = s.recordingMgr := by
  induction vs generalizing s with
  | nil => rfl
  | cons v vs ih => exact ih

@[simp] theorem gate_forceEmit (e : (id : servers) → (k : Kind) → Emission R k)
    (vs : List (servers × Kind)) (id : servers) : (forceEmit e vs s).1.gate id = s.gate id := by
  induction vs generalizing s with
  | nil => rfl
  | cons v vs ih => exact ih.trans (gate_setPoller v.1 id v.2 _)

/-- `ForceEmitAll` changes no subscription. -/
theorem subscriptions_emitAt (kind : EmitKind) (id : servers) (k : Kind) (e : Emission R k)
    (id' : servers) (k' : Kind) :
    ((s.emitAt kind id k e).1.poller id' k').subscriptions = (s.poller id' k').subscriptions := by
  refine forall_setPoller (P := fun id' k' p => p.subscriptions = (s.poller id' k').subscriptions)
    ?_ (fun _ _ => rfl) id' k'
  exact BasePoller.subscriptions_emitSnapshot ..

theorem subscriptions_forceEmit (e : (id : servers) → (k : Kind) → Emission R k)
    (vs : List (servers × Kind)) (id : servers) (k : Kind) :
    ((forceEmit e vs s).1.poller id k).subscriptions = (s.poller id k).subscriptions := by
  induction vs generalizing s with
  | nil => rfl
  | cons v vs ih => exact ih.trans (subscriptions_emitAt .forceEmitAll v.1 v.2 _ id k)

/-! ### The wiring -/

variable (s) in
/-- Every poller of the panel is wired. -/
structure Wired : Prop where
  poller : ∀ id k, (s.poller id k).Wired id
  gate : ∀ id, (s.gate id).Wired id

theorem wired_newPanel (batchSize : ℤ) (recordingEnabled : Bool) :
    (newPanel R servers batchSize recordingEnabled).Wired where
  poller id _ := SensorPoller.wired_newSensorPoller (id : String) batchSize
  gate id := UWSGatePoller.wired_newUWSGatePoller (id : String)

theorem Wired.setPoller (h : s.Wired) {id : servers} {k : Kind} {p : SensorPoller R k}
    (hp : p.Wired id) : (s.setPoller id k p).Wired where
  poller := forall_setPoller (P := fun id _ p => p.Wired id) hp h.poller
  gate id' := by
    rw [gate_setPoller]
    exact h.gate id'

theorem Wired.setGate (h : s.Wired) {id : servers} {g : UWSGatePoller R} (hg : g.Wired id) :
    (s.setGate id g).Wired where
  poller id' k' := by
    rw [poller_setGate]
    exact h.poller id' k'
  gate := forall_setGate (P := fun id g => g.Wired id) hg h.gate

theorem Wired.onPoller (h : s.Wired) (id : servers) (k : Kind)
    (f : BasePoller (fetcher R k) → BasePoller (fetcher R k)) : (s.onPoller id k f).Wired :=
  h.setPoller ⟨(h.poller id k).serverID_eq, (h.poller id k).recordingMgr_eq,
    (h.poller id k).toDataRecord_eq⟩

theorem Wired.emitAt (h : s.Wired) (kind : EmitKind) (id : servers) (k : Kind)
    (e : Emission R k) : (s.emitAt kind id k e).1.Wired :=
  h.setPoller ((h.poller id k).emit kind e)

theorem Wired.forceEmit (h : s.Wired) (e : (id : servers) → (k : Kind) → Emission R k)
    (vs : List (servers × Kind)) : (forceEmit e vs s).1.Wired := by
  induction vs generalizing s with
  | nil => exact h
  | cons v vs ih => exact ih (h.emitAt .forceEmitAll v.1 v.2 (e v.1 v.2))

theorem Wired.withManager (h : s.Wired) (m : RecordingManager) :
    Wired { s with recordingMgr := m } :=
  ⟨h.poller, h.gate⟩

/-! ### What a step does -/

variable (s) in
/-- The effect of a step: which panel it leads to and what it outputs. -/
inductive Effect : PanelAction R servers → Panel R servers → Output R → Prop
  /-- a subscription method of a sensor poller -/
  | onPoller {a : PanelAction R servers} (ha : a.isStart = false) (id : servers) (k : Kind)
      (f : BasePoller (fetcher R k) → BasePoller (fetcher R k)) :
      Effect a (s.onPoller id k f) Output.empty
  /-- a subscription method of a gate poller -/
  | setGate {a : PanelAction R servers} (ha : a.isStart = false) (id : servers)
      {g : UWSGatePoller R} (hg : (s.gate id).Wired id → g.Wired id) :
      Effect a (s.setGate id g) Output.empty
  | emit (kind : EmitKind) (id : servers) (k : Kind) (e : Emission R k) :
      Effect (.emit kind id k e) (s.emitAt kind id k e).1 (s.emitAt kind id k e).2
  | handleData (id : servers) (data : List (SensorData R)) (order : List String)
      (now callbackNow : Time) :
      Effect (.handleData id data order now callbackNow)
        (s.onData id data order now callbackNow).1 (s.onData id data order now callbackNow).2
  | start (order : List servers) (e : (id : servers) → (k : Kind) → Emission R k)
      (answered : ∀ id k, (e id k).fetch.Complete) (hall : ∀ id, id ∈ order)
      (hsnap : ∀ v ∈ visits order, IsSnapshot (s.poller v.1 v.2).subscriptions (e v.1 v.2).snap) :
      Effect (.startRecording order e answered) (s.start.forceEmitAllPollers order e).1
        (s.start.forceEmitAllPollers order e).2
  | stop : Effect .stopRecording { s with recordingMgr := s.recordingMgr.stop } Output.empty

variable {t : Panel R servers} {out : Output R}

theorem effect_of_exec {a : PanelAction R servers} (hs : s.exec a = some (t, out)) :
    Effect s a t out := by
  cases a with
  | subscribe id k o ids =>
    obtain ⟨rfl, rfl⟩ := Prod.ext_iff.mp (Option.some.inj hs)
    exact .onPoller rfl id k fun p => p.subscribe o ids
  | unsubscribe id k o ids =>
    obtain ⟨rfl, rfl⟩ := Prod.ext_iff.mp (Option.some.inj hs)
    exact .onPoller rfl id k fun p => p.unsubscribe o ids
  | unsubscribeAll id k o =>
    obtain ⟨rfl, rfl⟩ := Prod.ext_iff.mp (Option.some.inj hs)
    exact .onPoller rfl id k fun p => p.unsubscribeAll o
  | emit kind id k e =>
    obtain ⟨-, hs⟩ := Option.ite_none_right_eq_some.mp hs
    obtain ⟨rfl, rfl⟩ := Prod.ext_iff.mp (Option.some.inj hs)
    exact .emit kind id k e
  | subscribeGate id o names =>
    obtain ⟨rfl, rfl⟩ := Prod.ext_iff.mp (Option.some.inj hs)
    exact .setGate rfl id fun h => h.subscribe o names
  | unsubscribeGate id o names =>
    obtain ⟨rfl, rfl⟩ := Prod.ext_iff.mp (Option.some.inj hs)
    exact .setGate rfl id fun h => h.unsubscribe o names
  | unsubscribeAllGate id o names =>
    obtain ⟨-, hs⟩ := Option.ite_none_right_eq_some.mp hs
    obtain ⟨rfl, rfl⟩ := Prod.ext_iff.mp (Option.some.inj hs)
    exact .setGate rfl id fun h => h.unsubscribeAll o names
  | handleData id data order now callbackNow =>
    obtain ⟨-, hs⟩ := Option.ite_none_right_eq_some.mp hs
    obtain ⟨rfl, rfl⟩ := Prod.ext_iff.mp (Option.some.inj hs)
    exact .handleData id data order now callbackNow
  | startRecording order e answered =>
    obtain ⟨⟨-, hall, hsnap⟩, hs⟩ := Option.ite_none_right_eq_some.mp hs
    obtain ⟨rfl, rfl⟩ := Prod.ext_iff.mp (Option.some.inj hs)
    exact .start order e answered hall hsnap
  | stopRecording =>
    obtain ⟨rfl, rfl⟩ := Prod.ext_iff.mp (Option.some.inj hs)
    exact .stop

/-- **No step changes the wiring.** -/
theorem Wired.exec (h : s.Wired) {a : PanelAction R servers} (hs : s.exec a = some (t, out)) :
    t.Wired := by
  cases effect_of_exec hs with
  | onPoller ha id k f => exact h.onPoller id k f
  | setGate ha id hg => exact h.setGate (hg (h.gate id))
  | emit kind id k e => exact h.emitAt kind id k e
  | handleData id data order now callbackNow =>
    exact h.setGate ((h.gate id).handleData _ data order now).1
  | start order e answered hall hsnap => exact (h.withManager _).forceEmit e _
  | stop => exact h.withManager _

/-- Recording is turned on by `StartRecording` only. -/
theorem enabled_of_exec {a : PanelAction R servers} (hs : s.exec a = some (t, out))
    (ha : a.isStart = false) (ht : t.recordingMgr.enabled = true) :
    s.recordingMgr.enabled = true := by
  cases effect_of_exec hs with
  | onPoller ha id k f => exact ht
  | setGate ha id hg => exact ht
  | emit kind id k e => exact ht
  | handleData id data order now callbackNow => exact ht
  | start order e answered hall hsnap => cases ha
  | stop =>
    rw [show RecordingManager.enabled _ = false from RecordingManager.enabled_stop _] at ht
    cases ht

end Panel

variable (R) (servers) in
/-- The runs of the panel. -/
def panelMachine (batchSize : ℤ) (recordingEnabled : Bool) :
    Machine (Panel R servers) (PanelAction R servers) where
  init := newPanel R servers batchSize recordingEnabled
  step s a := (s.exec a).map Prod.fst

/-! ### A server for examples -/

/-- Whole numbers as floating-point numbers. -/
instance : Float64 ℤ where
  formatFloat64 v := formatInt64 (Int64.ofInt v)
  toInt := Int64.ofInt

/-- An item of a kind with the given id. -/
def zeroItem : (k : Kind) → Int64 → Item ℤ k
  | .ionc, id => ⟨id, "x", 0, 0, false⟩
  | .modbus, id => ⟨id, "x", 0⟩
  | .opcua, id => ⟨id, "x", .nil, 0⟩

@[simp] theorem getItemID_zeroItem (k : Kind) (id : Int64) :
    (fetcher ℤ k).getItemID (zeroItem k id) = id := by
  cases k <;> rfl

/-- A server on which all sensors are zero. -/
def zeroFetch (k : Kind) : Fetch (fetcher ℤ k) where
  fetchItems _ ids := .ok (ids.map (zeroItem k))
  requested := by
    rintro o ids items hitems x hx
    obtain rfl := Except.ok.inj hitems
    obtain ⟨id, hid, rfl⟩ := List.mem_map.mp hx
    rw [getItemID_zeroItem]
    exact hid

theorem complete_zeroFetch (k : Kind) : (zeroFetch k).Complete := by
  intro o ids
  refine ⟨ids.map (zeroItem k), rfl, fun id hid => ?_⟩
  exact ⟨zeroItem k id, List.mem_map_of_mem hid, getItemID_zeroItem k id⟩

/-- The server of the example. -/
def serverS : ({"s"} : Finset String) := ⟨"s", Finset.mem_singleton_self "s"⟩

end UnisetPanel
