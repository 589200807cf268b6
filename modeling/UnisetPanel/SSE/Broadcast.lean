/-
  What the event hub broadcasts, and what its clients receive
  (`internal/api/sse.go`).

  A `Broadcast` method makes one event, or for a batch of updates one for each
  object of the batch (`OnePerObject`), and `Broadcast` sends each event to the
  clients it is for, without waiting for one whose buffer is full.  So a client
  receives a subsequence of the events that are for it, and all of them if its
  buffer was never full (`Received`), and what is broadcast is, call for call,
  the events of the calls (`Hub.Follows`).

  The buffer of a client is a `Mailbox` of ten events.  Calls of the methods run
  beside each other, one event at a time, while clients read at any pace, come
  and go.
-/
import UnisetPanel.Browser.ExternalSensors
import UnisetPanel.Calls
import UnisetPanel.ControlManager.Basic
import UnisetPanel.Journal.Client
import UnisetPanel.Mailbox
import UnisetPanel.UWSGate.Poller

namespace UnisetPanel

namespace EventHub

/-! ### The events -/

/-- `Data` of an event; `D` is the data of an object and `R` the floating-point numbers in
values. -/
inductive EventData (D R : Type) where
  | objectData (data : D)
  | serverStatus (connected : Bool) (lastError : String)
  | objectsList (objects : List String) (connected : Bool)
  | sensor (sensor : SMSensorValue)
  | ioncSensors (sensors : List IONCSensor)
  | modbusRegisters (registers : List MBRegister)
  | opcuaSensors (sensors : List (OPCUASensor R))
  | uwsgateSensors (sensors : List (SensorData R))
  | controlStatus (status : ControlStatus)
  | journalMessages (journalID : String) (messages : List JournalMessage)

/-- `SSEEvent`. -/
structure SSEEvent (D R : Type) where
  type : String
  serverID : String := ""
  serverName : String := ""
  objectName : String := ""
  data : EventData D R
  timestamp : Time

variable {D R : Type}

/-- `isGlobalEvent`. -/
def SSEEvent.isGlobalEvent (event : SSEEvent D R) : Bool :=
  event.type = "server_status" || event.type = "objects_list" || event.type = "control_status"

/-! ### The methods -/

/-- `BroadcastObjectDataWithServer`. -/
def broadcastObjectDataWithServer (now : Time) (serverID serverName objectName : String)
    (data : D) : List (SSEEvent D R) :=
  [{ type := "object_data", serverID, serverName, objectName, data := .objectData data,
     timestamp := now }]

/-- `BroadcastServerStatus`. -/
def broadcastServerStatus (now : Time) (serverID serverName : String) (connected : Bool)
    (lastError : String) : List (SSEEvent D R) :=
  [{ type := "server_status", serverID, serverName, data := .serverStatus connected lastError,
     timestamp := now }]

/-- `BroadcastObjectsList`. -/
def broadcastObjectsList (now : Time) (serverID serverName : String) (objects : List String) :
    List (SSEEvent D R) :=
  [{ type := "objects_list", serverID, serverName, data := .objectsList objects true,
     timestamp := now }]

/-- `BroadcastSensorUpdate`. -/
def broadcastSensorUpdate (update : SMSensorUpdate) : List (SSEEvent D R) :=
  [{ type := "sensor_data", serverID := sharedMemoryServerID, objectName := update.objectName,
     data := .sensor update.sensor, timestamp := update.timestamp }]

/-- `BroadcastControlStatus`. -/
def broadcastControlStatus (now : Time) (status : ControlStatus) : List (SSEEvent D R) :=
  [{ type := "control_status", data := .controlStatus status, timestamp := now }]

/-- `BroadcastJournalMessages`. -/
def broadcastJournalMessages (now : Time) (journalID : String) (messages : List JournalMessage) :
    List (SSEEvent D R) :=
  if messages.length = 0 then []
  else [{ type := "journal_messages", data := .journalMessages journalID messages,
          timestamp := now }]

/-- `byObject` of a batch. -/
def byObject {T : Type} (updates : List (Update T)) : GoMap String (List T) :=
  GoMap.groupBy Update.objectName Update.item updates

/-- A batch, as all of its methods broadcast it: the items of each object in one event, in the order
`range` of the objects. -/
def broadcastBatch {T : Type} (type : String) (data : List T → EventData D R)
    (serverID serverName : String) (updates : List (Update T)) (range : List String) :
    List (SSEEvent D R) :=
  if updates.length = 0 then []
  else
    let timestamp := updates.foldl (fun _ u => u.timestamp) 0
    range.map fun objectName =>
      { type, serverID, serverName, objectName, timestamp
        data := data (((byObject updates).lookup objectName).getD []) }

/-- `BroadcastIONCSensorBatchWithServer`. -/
def broadcastIONCSensorBatchWithServer (serverID serverName : String)
    (updates : List (Update IONCSensor)) (range : List String) : List (SSEEvent D R) :=
  broadcastBatch "ionc_sensor_batch" .ioncSensors serverID serverName updates range

/-- `BroadcastModbusRegisterBatchWithServer`. -/
def broadcastModbusRegisterBatchWithServer (serverID serverName : String)
    (updates : List (Update MBRegister)) (range : List String) : List (SSEEvent D R) :=
  broadcastBatch "modbus_register_batch" .modbusRegisters serverID serverName updates range

/-- `BroadcastOPCUASensorBatchWithServer`. -/
def broadcastOPCUASensorBatchWithServer (serverID serverName : String)
    (updates : List (Update (OPCUASensor R))) (range : List String) : List (SSEEvent D R) :=
  broadcastBatch "opcua_sensor_batch" .opcuaSensors serverID serverName updates range

/-- `BroadcastUWSGateSensorBatchWithServer`. -/
def broadcastUWSGateSensorBatchWithServer (serverID serverName : String)
    (updates : List (Update (SensorData R))) (range : List String) : List (SSEEvent D R) :=
  broadcastBatch "uwsgate_sensor_batch" .uwsgateSensors serverID serverName updates range

/-- A call of one of the methods. -/
inductive BroadcastCall (D R : Type) where
  | objectDataWithServer (serverID serverName objectName : String) (data : D)
  | serverStatus (serverID serverName : String) (connected : Bool) (lastError : String)
  | objectsList (serverID serverName : String) (objects : List String)
  | sensorUpdate (update : SMSensorUpdate)
  | ioncSensorBatch (serverID serverName : String) (updates : List (Update IONCSensor))
  | modbusRegisterBatch (serverID serverName : String) (updates : List (Update MBRegister))
  | opcuaSensorBatch (serverID serverName : String) (updates : List (Update (OPCUASensor R)))
  | uwsgateSensorBatch (serverID serverName : String) (updates : List (Update (SensorData R)))
  | controlStatus (status : ControlStatus)
  | journalMessages (journalID : String) (messages : List JournalMessage)

/-- The names of the objects of a call's batch, whose order the loop of the method chooses. -/
def BroadcastCall.objects : BroadcastCall D R → List String
  | .ioncSensorBatch _ _ updates => updates.map Update.objectName
  | .modbusRegisterBatch _ _ updates => updates.map Update.objectName
  | .opcuaSensorBatch _ _ updates => updates.map Update.objectName
  | .uwsgateSensorBatch _ _ updates => updates.map Update.objectName
  | .objectDataWithServer .. | .serverStatus .. | .objectsList .. | .sensorUpdate _
  | .controlStatus _ | .journalMessages .. => []

/-- The events that a call hands to `Broadcast`, one after the other. -/
def BroadcastCall.events (now : Time) (range : List String) :
    BroadcastCall D R → List (SSEEvent D R)
  | .objectDataWithServer serverID serverName objectName data =>
    broadcastObjectDataWithServer now serverID serverName objectName data
  | .serverStatus serverID serverName connected lastError =>
    broadcastServerStatus now serverID serverName connected lastError
  | .objectsList serverID serverName objects =>
    broadcastObjectsList now serverID serverName objects
  | .sensorUpdate update => broadcastSensorUpdate update
  | .ioncSensorBatch serverID serverName updates =>
    broadcastIONCSensorBatchWithServer serverID serverName updates range
  | .modbusRegisterBatch serverID serverName updates =>
    broadcastModbusRegisterBatchWithServer serverID serverName updates range
  | .opcuaSensorBatch serverID serverName updates =>
    broadcastOPCUASensorBatchWithServer serverID serverName updates range
  | .uwsgateSensorBatch serverID serverName updates =>
    broadcastUWSGateSensorBatchWithServer serverID serverName updates range
  | .controlStatus status => broadcastControlStatus now status
  | .journalMessages journalID messages => broadcastJournalMessages now journalID messages

/-! ### One event for each object -/

section

variable {T : Type} {updates : List (Update T)} {range : List String}

/-- **One event for each object of the batch**, with the items of that object in their order, and
the time of the last update. -/
structure OnePerObject (type : String) (data : List T → EventData D R)
    (serverID serverName : String) (updates : List (Update T)) (events : List (SSEEvent D R)) :
    Prop where
  once : (events.map SSEEvent.objectName).Nodup
  mem_iff : ∀ name, name ∈ events.map SSEEvent.objectName ↔
    name ∈ updates.map Update.objectName
  event : ∀ event ∈ events, event.type = type ∧ event.serverID = serverID ∧
    event.serverName = serverName ∧
    event.data = data ((updates.filter fun u => u.objectName = event.objectName).map Update.item) ∧
    some event.timestamp = updates.getLast?.map Update.timestamp

theorem lookup_byObject (updates : List (Update T)) (name : String) :
    ((byObject updates).lookup name).getD [] =
      (updates.filter fun u => u.objectName = name).map Update.item := by
  unfold byObject
  rw [GoMap.lookup_groupBy]
  split_ifs with hnil
  · rw [hnil]
    rfl
  · rfl

theorem isSome_byObject (updates : List (Update T)) (name : String) :
    ((byObject updates).lookup name).isSome = true ↔ name ∈ updates.map Update.objectName := by
  unfold byObject
  rw [GoMap.lookup_groupBy]
  split_ifs with hnil
  · have hnone := List.filter_eq_nil_iff.mp hnil
    simp only [Option.isSome_none, Bool.false_eq_true, false_iff, List.mem_map, not_exists, not_and]
    intro u hu heq
    exact hnone u hu (decide_eq_true heq)
  · obtain ⟨u, hu⟩ := List.exists_mem_of_ne_nil _ hnil
    obtain ⟨hmem, heq⟩ := List.mem_filter.mp hu
    have hname : name ∈ updates.map Update.objectName :=
      List.mem_map.mpr ⟨u, hmem, of_decide_eq_true heq⟩
    simp [hname]

theorem foldl_timestamp (updates : List (Update T)) (time : Time) :
    updates.foldl (fun _ u => u.timestamp) time =
      (updates.getLast?.map Update.timestamp).getD time := by
  induction updates using List.reverseRecOn with
  | nil => rfl
  | append_singleton updates u ih => simp

/-- **The method of a batch** broadcasts one event for each object. -/
theorem onePerObject_broadcastBatch (type : String) (data : List T → EventData D R)
    (serverID serverName : String) (hrange : (byObject updates).IsRange range) :
    OnePerObject type data serverID serverName updates
      (broadcastBatch type data serverID serverName updates range) := by
  have hmem : ∀ name, name ∈ range ↔ name ∈ updates.map Update.objectName :=
    fun name => (hrange.mem_iff name).trans (isSome_byObject updates name)
  by_cases hempty : updates.length = 0
  · have hnil := List.length_eq_zero_iff.mp hempty
    unfold broadcastBatch
    rw [if_pos hempty, hnil]
    exact ⟨List.nodup_nil, fun name => Iff.rfl, fun event he => absurd he List.not_mem_nil⟩
  · unfold broadcastBatch
    rw [if_neg hempty]
    have hnames : ∀ time : Time, ((range.map fun objectName => ({
        type, serverID, serverName, objectName, timestamp := time
        data := data (((byObject updates).lookup objectName).getD []) } :
          SSEEvent D R)).map SSEEvent.objectName) = range := by
      intro time
      rw [List.map_map]
      exact List.map_id range
    constructor
    · rw [hnames]
      exact hrange.1
    · intro name
      rw [hnames]
      exact hmem name
    · intro event he
      obtain ⟨name, -, rfl⟩ := List.mem_map.mp he
      refine ⟨rfl, rfl, rfl, congrArg data (lookup_byObject updates name), ?_⟩
      show some (updates.foldl (fun _ u => u.timestamp) 0) = _
      rw [foldl_timestamp]
      cases hlast : updates.getLast? with
      | none => exact absurd (List.getLast?_eq_none_iff.mp hlast) (by simpa using hempty)
      | some u => rfl

end

/-! ### The hub -/

/-- The buffer of a client. -/
def bufferSize : ℕ := 10

/-- `sseClient`, as far as events go. -/
structure EventClient (D R : Type) where
  objectName : String
  events : Mailbox (SSEEvent D R)
  /-- the client is in the map of the hub -/
  registered : Bool
  /-- how many events had been broadcast when it was added -/
  since : ℕ

/-- The test of `Broadcast`: the event is for the client. -/
def EventClient.isFor (client : EventClient D R) (event : SSEEvent D R) : Bool :=
  event.isGlobalEvent || client.objectName = "" || client.objectName = event.objectName

/-- The hub with all clients it has had, all calls so far with the events they still have to
broadcast, and all events that were broadcast, each with the number of its call. -/
structure Hub (D R : Type) where
  clients : List (EventClient D R)
  calls : List (List (SSEEvent D R))
  broadcasts : List (ℕ × SSEEvent D R)

/-- What happens at the hub. -/
inductive EventAction (D R : Type) where
  | addClient (objectName : String)
  | removeClient (i : ℕ)
  /-- a method is called; `range` is the order of its loop -/
  | call (call : BroadcastCall D R) (now : Time) (range : List String)
  /-- the `i`-th call broadcasts its next event -/
  | broadcast (i : ℕ)
  /-- the `i`-th client reads an event -/
  | read (i : ℕ)

namespace Hub

/-- `AddClientWithToken`. -/
def addClient (h : Hub D R) (objectName : String) : Hub D R :=
  { h with clients := h.clients ++ [⟨objectName, .new, true, h.broadcasts.length⟩] }

/-- `Broadcast`. -/
def broadcast (h : Hub D R) (event : SSEEvent D R) : Hub D R :=
  { h with
    clients := h.clients.map fun client =>
      if client.registered && client.isFor event then
        { client with events := client.events.send bufferSize event }
      else client }

/-- One step. -/
def step (h : Hub D R) : EventAction D R → Option (Hub D R)
  | .addClient objectName => some (h.addClient objectName)
  | .removeClient i => h.clients[i]?.map fun client =>
    { h with clients := h.clients.set i { client with registered := false } }
  | .call call now range =>
    if range.Nodup ∧ range.toFinset = call.objects.toFinset then
      some { h with calls := h.calls ++ [call.events now range] }
    else none
  | .broadcast i => h.calls[i]?.bind fun
    | [] => none
    | event :: events => some { h.broadcast event with
        calls := h.calls.set i events
        broadcasts := h.broadcasts ++ [(i, event)] }
  | .read i => h.clients[i]?.bind fun client => client.events.receive.map fun events =>
    { h with clients := h.clients.set i { client with events } }

end Hub

/-- The runs of a hub, from no client on. -/
def eventMachine (D R : Type) : Machine (Hub D R) (EventAction D R) where
  init := ⟨[], [], []⟩
  step := Hub.step

/-! ### What is broadcast -/

/-- The events of the calls of a run. -/
def calledEvents : List (EventAction D R) → List (List (SSEEvent D R))
  | [] => []
  | .call call now range :: as => call.events now range :: calledEvents as
  | .addClient _ :: as | .removeClient _ :: as | .broadcast _ :: as | .read _ :: as =>
    calledEvents as

theorem calledEvents_append (as bs : List (EventAction D R)) :
    calledEvents (as ++ bs) = calledEvents as ++ calledEvents bs := by
  induction as with
  | nil => rfl
  | cons a as ih => cases a <;> simp [calledEvents, ih]

/-- What the `i`-th call has broadcast. -/
def Hub.broadcastsOf (h : Hub D R) (i : ℕ) : List (SSEEvent D R) :=
  (h.broadcasts.filter fun b => b.1 = i).map Prod.snd

/-- **The hub follows the calls**: what a call has broadcast and what it has ahead of it are its
events, and nothing else is broadcast. -/
structure Hub.Follows (h : Hub D R) (as : List (EventAction D R)) : Prop where
  length : h.calls.length = (calledEvents as).length
  events : ∀ i ahead, h.calls[i]? = some ahead →
    (calledEvents as)[i]? = some (h.broadcastsOf i ++ ahead)
  known : ∀ b ∈ h.broadcasts, b.1 < h.calls.length

/-- A step that calls nothing and broadcasts nothing. -/
theorem Hub.Follows.keep {h h' : Hub D R} {as : List (EventAction D R)} {a : EventAction D R}
    (hf : h.Follows as) (ha : calledEvents [a] = []) (hcalls : h'.calls = h.calls)
    (hbroadcasts : h'.broadcasts = h.broadcasts) : h'.Follows (as ++ [a]) := by
  have hsame : calledEvents (as ++ [a]) = calledEvents as := by
    rw [calledEvents_append, ha, List.append_nil]
  refine ⟨?_, fun i ahead hi => ?_, fun b hb => ?_⟩
  · rw [hsame, hcalls]
    exact hf.length
  · rw [hcalls] at hi
    unfold Hub.broadcastsOf
    rw [hsame, hbroadcasts]
    exact hf.events i ahead hi
  · rw [hbroadcasts] at hb
    rw [hcalls]
    exact hf.known b hb

/-- A call begins, with all of its events ahead. -/
theorem Hub.Follows.begin {h : Hub D R} {as : List (EventAction D R)} (hf : h.Follows as)
    (call : BroadcastCall D R) (now : Time) (range : List String) :
    Hub.Follows { h with calls := h.calls ++ [call.events now range] }
      (as ++ [.call call now range]) := by
  have hmore : calledEvents (as ++ [.call call now range]) =
      calledEvents as ++ [call.events now range] := calledEvents_append as _
  refine ⟨?_, fun i ahead hi => ?_, fun b hb => ?_⟩
  · rw [hmore, List.length_append, List.length_append, hf.length]
  · rw [hmore]
    rw [Calls.getElem?_append_singleton] at hi ⊢
    rw [← hf.length]
    split_ifs at hi ⊢ with hnew
    · -- nothing was broadcast for a call that is new
      subst hnew
      have hnone : h.broadcasts.filter (fun b => b.1 = h.calls.length) = [] :=
        List.filter_eq_nil_iff.mpr fun b hb heq =>
          absurd (of_decide_eq_true heq) (Nat.ne_of_lt (hf.known b hb))
      obtain rfl := Option.some.inj hi
      show some _ = some ((h.broadcasts.filter _).map Prod.snd ++ _)
      rw [hnone]
      rfl
    · exact hf.events i ahead hi
  · rw [List.length_append]
    exact Nat.lt_add_right 1 (hf.known b hb)

/-- The next event of a call is broadcast. -/
theorem Hub.Follows.broadcast {h : Hub D R} {as : List (EventAction D R)} (hf : h.Follows as)
    {i : ℕ} {event : SSEEvent D R} {events : List (SSEEvent D R)}
    (hi : h.calls[i]? = some (event :: events)) :
    Hub.Follows { h.broadcast event with
      calls := h.calls.set i events
      broadcasts := h.broadcasts ++ [(i, event)] } (as ++ [.broadcast i]) := by
  have hsame : calledEvents (as ++ [.broadcast i]) = calledEvents as := by
    rw [calledEvents_append]
    exact List.append_nil _
  have hlt : i < h.calls.length := (List.getElem?_eq_some_iff.mp hi).1
  refine ⟨?_, fun j ahead hj => ?_, fun b hb => ?_⟩
  · rw [hsame, List.length_set]
    exact hf.length
  · rw [Calls.getElem?_set_of_getElem? hi] at hj
    rw [hsame]
    show _ = some (((h.broadcasts ++ [(i, event)]).filter fun b => b.1 = j).map Prod.snd ++ ahead)
    rw [List.filter_append, List.map_append]
    split_ifs at hj with hji
    · -- the event goes from what is ahead to what has been broadcast
      subst hji
      obtain rfl := Option.some.inj hj
      rw [hf.events j _ hi, List.filter_cons_of_pos (by simp), List.append_assoc]
      rfl
    · have hno : ([(i, event)].filter fun b => b.1 = j) = [] :=
        List.filter_cons_of_neg (by simpa using Ne.symm hji)
      rw [hf.events j ahead hj, hno, List.map_nil, List.append_nil]
      rfl
  · rw [List.length_set]
    rcases List.mem_append.mp hb with hb | hb
    · exact hf.known b hb
    · rw [List.mem_singleton.mp hb]
      exact hlt

theorem Hub.Follows.step {h h' : Hub D R} {as : List (EventAction D R)} {a : EventAction D R}
    (hf : h.Follows as) (hstep : h.step a = some h') : h'.Follows (as ++ [a]) := by
  cases a with
  | addClient objectName =>
    obtain rfl := Option.some.inj hstep
    exact hf.keep rfl rfl rfl
  | removeClient i =>
    obtain ⟨client, -, rfl⟩ := Option.map_eq_some_iff.mp hstep
    exact hf.keep rfl rfl rfl
  | call call now range =>
    obtain ⟨-, heq⟩ := Option.ite_none_right_eq_some.mp hstep
    obtain rfl := Option.some.inj heq
    exact hf.begin call now range
  | broadcast i =>
    obtain ⟨events, hi, hnext⟩ := Option.bind_eq_some_iff.mp hstep
    cases events with
    | nil => cases hnext
    | cons event events =>
      obtain rfl := Option.some.inj hnext
      exact hf.broadcast hi
  | read i =>
    obtain ⟨client, -, hread⟩ := Option.bind_eq_some_iff.mp hstep
    obtain ⟨events, -, rfl⟩ := Option.map_eq_some_iff.mp hread
    exact hf.keep rfl rfl rfl

theorem follows_of_run {as : List (EventAction D R)} {h : Hub D R}
    (hrun : (eventMachine D R).run (eventMachine D R).init as = some h) : h.Follows as := by
  refine Machine.history_induction (M := eventMachine D R) (P := fun as h => h.Follows as) ?_ ?_
    hrun
  · exact ⟨rfl, fun i ahead hi => absurd hi (by simp [eventMachine]), List.forall_mem_nil _⟩
  · intro as s a t _ ih hstep
    exact ih.step hstep

/-! ### What a client receives -/

/-- The events broadcast since the client was added that are for it. -/
def Hub.eventsFor (h : Hub D R) (client : EventClient D R) : List (SSEEvent D R) :=
  ((h.broadcasts.drop client.since).map Prod.snd).filter client.isFor

/-- **A client receives** a subsequence of the events that are for it, in their order; if its buffer
was never full, all of them but for those that are still in the buffer. -/
structure Received (h : Hub D R) (client : EventClient D R) : Prop where
  sublist : client.events.received.Sublist (h.eventsFor client)
  all : client.registered = true → client.events.wasFull = false →
    client.events.received ++ client.events.queue = h.eventsFor client

/-- The buffer was offered the events for the client, up to its removal. -/
structure ClientInv (h : Hub D R) (client : EventClient D R) : Prop where
  since_le : client.since ≤ h.broadcasts.length
  mailbox : client.events.Inv bufferSize
  offered : client.events.offered.Sublist (h.eventsFor client)
  registered : client.registered = true → client.events.offered = h.eventsFor client

variable {h h' : Hub D R} {client : EventClient D R}

theorem ClientInv.received (hc : ClientInv h client) : Received h client where
  sublist := (List.sublist_append_left _ _).trans (hc.mailbox.sublist.trans hc.offered)
  all hreg hfull := (hc.mailbox.all hfull).trans (hc.registered hreg)

theorem Hub.eventsFor_broadcast (hc : client.since ≤ h.broadcasts.length) {i : ℕ}
    {event : SSEEvent D R} (hh : h'.broadcasts = h.broadcasts ++ [(i, event)]) :
    h'.eventsFor client = h.eventsFor client ++ [event].filter client.isFor := by
  unfold Hub.eventsFor
  rw [hh, List.drop_append_of_le_length hc, List.map_append, List.filter_append]
  rfl

/-- **A broadcast** is offered to the clients that it is for. -/
theorem ClientInv.broadcast (hc : ClientInv h client) {i : ℕ} {event : SSEEvent D R}
    (hh : h'.broadcasts = h.broadcasts ++ [(i, event)]) :
    ClientInv h'
      (if client.registered && client.isFor event then
        { client with events := client.events.send bufferSize event }
      else client) := by
  have hevents := Hub.eventsFor_broadcast hc.since_le hh
  have hle : client.since ≤ h'.broadcasts.length := by
    have := hc.since_le
    rw [hh, List.length_append]
    omega
  split_ifs with hfor
  · obtain ⟨hreg, hfor⟩ := Bool.and_eq_true_iff.mp hfor
    have hoffered : (client.events.send bufferSize event).offered = h'.eventsFor client := by
      rw [Mailbox.offered_send, hc.registered hreg, hevents]
      simp [hfor]
    exact ⟨hle, hc.mailbox.send event, hoffered ▸ List.Sublist.refl _, fun _ => hoffered⟩
  -- a client that is not sent the event is removed, or the event is not for it
  · refine ⟨hle, hc.mailbox, ?_, ?_⟩
    · rw [hevents]
      exact hc.offered.trans (List.sublist_append_left _ _)
    · intro hreg
      have hnot : client.isFor event = false := by simpa [hreg] using hfor
      rw [hevents, hc.registered hreg]
      simp [hnot]

/-- **The step lemma.** -/
theorem clientInv_step {a : EventAction D R} (hall : ∀ client ∈ h.clients, ClientInv h client)
    (hstep : h.step a = some h') : ∀ client ∈ h'.clients, ClientInv h' client := by
  cases a with
  | addClient objectName =>
    obtain rfl := Option.some.inj hstep
    intro client hmem
    rcases List.mem_append.mp hmem with hmem | hmem
    · exact ⟨(hall client hmem).since_le, (hall client hmem).mailbox, (hall client hmem).offered,
        (hall client hmem).registered⟩
    · obtain rfl := List.mem_singleton.mp hmem
      -- nothing has been broadcast since it was added
      have hnone : (h.addClient objectName).eventsFor
          ⟨objectName, .new, true, h.broadcasts.length⟩ = [] := by
        show ((h.broadcasts.drop h.broadcasts.length).map Prod.snd).filter _ = []
        rw [List.drop_length]
        rfl
      exact ⟨Nat.le_refl _, Mailbox.inv_new _, List.nil_sublist _, fun _ => hnone.symm⟩
  | removeClient i =>
    obtain ⟨client, hclient, rfl⟩ := Option.map_eq_some_iff.mp hstep
    refine Calls.forall_mem_set hclient ?_ (fun j x _ hx => ?_)
    · have hc := hall client (List.mem_of_getElem? hclient)
      exact ⟨hc.since_le, hc.mailbox, hc.offered, fun hreg => by cases hreg⟩
    · have hc := hall x (List.mem_of_getElem? hx)
      exact ⟨hc.since_le, hc.mailbox, hc.offered, hc.registered⟩
  | call call now range =>
    obtain ⟨-, heq⟩ := Option.ite_none_right_eq_some.mp hstep
    obtain rfl := Option.some.inj heq
    intro client hmem
    have hc := hall client hmem
    exact ⟨hc.since_le, hc.mailbox, hc.offered, hc.registered⟩
  | broadcast i =>
    obtain ⟨events, -, hnext⟩ := Option.bind_eq_some_iff.mp hstep
    cases events with
    | nil => cases hnext
    | cons event events =>
      obtain rfl := Option.some.inj hnext
      intro client hmem
      obtain ⟨old, hold, rfl⟩ := List.mem_map.mp hmem
      exact (hall old hold).broadcast rfl
  | read i =>
    obtain ⟨client, hclient, hread⟩ := Option.bind_eq_some_iff.mp hstep
    obtain ⟨events, hevents, rfl⟩ := Option.map_eq_some_iff.mp hread
    refine Calls.forall_mem_set hclient ?_ (fun j x _ hx => ?_)
    · have hc := hall client (List.mem_of_getElem? hclient)
      obtain ⟨x, queue, -, rfl⟩ := Mailbox.receive_eq_some hevents
      exact ⟨hc.since_le, hc.mailbox.receive hevents, hc.offered, hc.registered⟩
    · have hc := hall x (List.mem_of_getElem? hx)
      exact ⟨hc.since_le, hc.mailbox, hc.offered, hc.registered⟩

/-- **What is broadcast, and what is received.** A batch is broadcast as one event for each of its
objects. In every run the hub broadcasts the events of the calls, and every client receives the
events for it, in their order, but for those that find its buffer full. -/
theorem broadcast_delivers (D R : Type) :
    (∀ (serverID serverName : String) (updates : List (Update IONCSensor)) (range : List String),
      (byObject updates).IsRange range →
      OnePerObject (D := D) (R := R) "ionc_sensor_batch" .ioncSensors serverID serverName updates
        (broadcastIONCSensorBatchWithServer serverID serverName updates range)) ∧
    (∀ (serverID serverName : String) (updates : List (Update MBRegister)) (range : List String),
      (byObject updates).IsRange range →
      OnePerObject (D := D) (R := R) "modbus_register_batch" .modbusRegisters serverID serverName
        updates (broadcastModbusRegisterBatchWithServer serverID serverName updates range)) ∧
    (∀ (serverID serverName : String) (updates : List (Update (OPCUASensor R)))
      (range : List String), (byObject updates).IsRange range →
      OnePerObject (D := D) "opcua_sensor_batch" .opcuaSensors serverID serverName updates
        (broadcastOPCUASensorBatchWithServer serverID serverName updates range)) ∧
    (∀ (serverID serverName : String) (updates : List (Update (SensorData R)))
      (range : List String), (byObject updates).IsRange range →
      OnePerObject (D := D) "uwsgate_sensor_batch" .uwsgateSensors serverID serverName updates
        (broadcastUWSGateSensorBatchWithServer serverID serverName updates range)) ∧
    ∀ (as : List (EventAction D R)) (h : Hub D R),
      (eventMachine D R).run (eventMachine D R).init as = some h →
      h.Follows as ∧ ∀ client ∈ h.clients, Received h client := by
  refine ⟨?_, ?_, ?_, ?_, ?_⟩
  · exact fun _ _ _ _ hrange => onePerObject_broadcastBatch _ _ _ _ hrange
  · exact fun _ _ _ _ hrange => onePerObject_broadcastBatch _ _ _ _ hrange
  · exact fun _ _ _ _ hrange => onePerObject_broadcastBatch _ _ _ _ hrange
  · exact fun _ _ _ _ hrange => onePerObject_broadcastBatch _ _ _ _ hrange
  · intro as h hrun
    refine ⟨follows_of_run hrun, fun client hmem => ?_⟩
    have hinv : ∀ client ∈ h.clients, ClientInv h client :=
      Machine.run_induction (P := fun h : Hub D R => ∀ client ∈ h.clients, ClientInv h client)
        (fun _ _ _ hall hstep => clientInv_step hall hstep) hrun
        (fun client hmem => absurd hmem List.not_mem_nil)
    exact (hinv client hmem).received

/-- Three updates of two objects. -/
def twoObjects {T : Type} (item : T) : List (Update T) :=
  [⟨"a", item, 1⟩, ⟨"b", item, 2⟩, ⟨"a", item, 3⟩]

/-- Such a batch is broadcast to a client of `a`, which reads its event. -/
def readRun : List (EventAction Unit Unit) :=
  [.addClient "a", .call (.ioncSensorBatch "s" "S" (twoObjects ⟨1, "x", 5, 5, false⟩)) 0 ["b", "a"],
    .broadcast 0, .broadcast 0, .read 0]

/-- Such batches; and the client has received the two items of its object in one event. -/
theorem broadcast_delivers_twoObjects :
    OnePerObject (D := Unit) (R := Unit) "ionc_sensor_batch" .ioncSensors "s" "S"
      (twoObjects ⟨1, "x", 5, 5, false⟩)
      (broadcastIONCSensorBatchWithServer "s" "S" (twoObjects ⟨1, "x", 5, 5, false⟩) ["b", "a"]) ∧
    OnePerObject (D := Unit) (R := Unit) "modbus_register_batch" .modbusRegisters "s" "S"
      (twoObjects ⟨1, "x", 5⟩)
      (broadcastModbusRegisterBatchWithServer "s" "S" (twoObjects ⟨1, "x", 5⟩) ["b", "a"]) ∧
    OnePerObject (D := Unit) (R := Unit) "opcua_sensor_batch" .opcuaSensors "s" "S"
      (twoObjects ⟨1, "x", .nil, 5⟩)
      (broadcastOPCUASensorBatchWithServer "s" "S" (twoObjects ⟨1, "x", .nil, 5⟩) ["b", "a"]) ∧
    OnePerObject (D := Unit) (R := Unit) "uwsgate_sensor_batch" .uwsgateSensors "s" "S"
      (twoObjects ⟨"x", 5, .nil⟩)
      (broadcastUWSGateSensorBatchWithServer "s" "S" (twoObjects ⟨"x", 5, .nil⟩) ["b", "a"]) ∧
    ∃ h : Hub Unit Unit, (eventMachine Unit Unit).run (eventMachine Unit Unit).init readRun =
        some h ∧ h.clients.map (fun client => client.events.received) =
          [[⟨"ionc_sensor_batch", "s", "S", "a",
            .ioncSensors [⟨1, "x", 5, 5, false⟩, ⟨1, "x", 5, 5, false⟩], 3⟩]] ∧
        h.Follows readRun ∧ ∀ client ∈ h.clients, Received h client := by
  obtain ⟨hionc, hmodbus, hopcua, huwsgate, hruns⟩ := broadcast_delivers Unit Unit
  refine ⟨hionc _ _ _ _ (by decide), hmodbus _ _ _ _ (by decide), hopcua _ _ _ _ (by decide),
    huwsgate _ _ _ _ (by decide), ?_⟩
  have hrun : (eventMachine Unit Unit).run (eventMachine Unit Unit).init readRun = some _ := rfl
  exact ⟨_, hrun, rfl, hruns readRun _ hrun⟩

end EventHub

end UnisetPanel
