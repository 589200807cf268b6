/-
  The table of sensors of a tab, from the poll to the row.

  The IONC poller of a server passes what has changed to its callback, the
  callback broadcasts it as one event for each object, the handler of the
  page's stream takes the events out of the buffer of its client, and the page
  puts the sensors of an event into the `sensorMap` of the tab it is for.  The
  page itself writes into a sensor too, as soon as the server has accepted a
  new value, a freeze or an unfreeze of it.  The pollers of several servers, the
  other methods of the hub, other clients and the page all take their steps in
  any order; a poller begins no poll before its callback has returned.

  Nothing about a sensor is lost or turned around on the way as long as the
  buffer of the page was never full (`onTheWay_run`).  So once a sensor is
  subscribed, its row follows what change detection lets through and what the
  page writes, in the order of the two, and when everything has arrived and the
  last of it was an event, it shows the numbers that were fetched last
  (`row_follows`).  What the page has written last stays until a poll finds
  another value or real value than the poll before.
-/
import UnisetPanel.Browser.SensorRows
import UnisetPanel.Browser.Tabs
import UnisetPanel.Poller.Serial
import UnisetPanel.SSE.Broadcast
import UnisetPanel.Storage.Rows
import UnisetPanel.UWSGate.HandleData

namespace UnisetPanel

open EventHub BasePoller

/-! ### The page -/

/-- The page: its stream, and the table of one of its tabs. -/
structure SensorPage where
  /-- the client of the hub that the current `EventSource` is -/
  client : Option ℕ
  /-- how many events of that client the page has handled -/
  handled : ℕ
  /-- the key of the tab -/
  tab : String
  table : SensorTable

variable {D R : Type}

/-- The sensors that the listener of `ionc_sensor_batch` hands to the table of a tab. -/
def batchFor (tab : String) (event : EventHub.SSEEvent D R) : List IONCSensor :=
  match event.data with
  | .ioncSensors sensors =>
    if event.type = "ionc_sensor_batch" ∧ tabKey event.serverID event.objectName = tab then sensors
    else []
  | _ => []

/-- An event is handled. -/
def SensorPage.onEvent (page : SensorPage) (event : EventHub.SSEEvent D R) : SensorPage :=
  { page with
    handled := page.handled + 1
    table := { page.table with
      sensorMap :=
        (batchFor page.tab event).foldl SensorMap.handleIONCSensorUpdate page.table.sensorMap } }

/-! ### The machine -/

/-- The panel, as far as the sensors of IONC go. -/
structure SensorPanel (D R : Type) where
  /-- the IONC poller of each server -/
  pollers : String → BasePoller ioncFetcher
  /-- the last call of `BroadcastIONCSensorBatchWithServer` by the poller of a server -/
  lastCall : String → Option ℕ
  hub : Hub D R
  page : SensorPage

/-- What happens. -/
inductive SensorAction (D R : Type) where
  /-- the poller of a server; `range` is the order in which its callback visits the objects -/
  | poller (serverID : String) (a : PollerAction ioncFetcher) (range : List String)
  /-- the hub, but for the calls of the pollers -/
  | hub (a : EventAction D R)
  /-- `initSSE` -/
  | connect
  /-- the page handles the next event of its stream -/
  | deliver
  | openTab (serverID objectName : String)
  | table (a : TableAction)

/-- The call of a poller's callback. -/
def EventHub.EventAction.isIONCBatch : EventAction D R → Bool
  | .call (.ioncSensorBatch ..) _ _ => true
  | _ => false

namespace SensorPanel

variable (serverName : String → String) (servers : List String) (s : SensorPanel D R)

/-- The events that a callback still has to broadcast. -/
def remaining (serverID : String) : List (EventHub.SSEEvent D R) :=
  ((s.lastCall serverID).bind fun i => s.hub.calls[i]?).getD []

/-- The client of the page. -/
def pageClient : Option (EventClient D R) := s.page.client.bind fun i => s.hub.clients[i]?

/-- The event that the page handles next, if its stream has brought it. -/
def nextEvent : Option (EventHub.SSEEvent D R) :=
  s.pageClient.bind fun client => client.events.received[s.page.handled]?

/-- A poller takes a step: the callback of `poll` and `ForceEmitAll` calls the hub. -/
def pollerStep (serverID : String) (a : PollerAction ioncFetcher) (range : List String) :
    Option (SensorPanel D R) :=
  (BasePoller.step (s.pollers serverID) a).bind fun p =>
    let pollers := Function.update s.pollers serverID p
    match a with
    | .emit kind fetch snap now =>
      let updates := ((s.pollers serverID).emitSnapshot kind fetch snap now).1
      if s.remaining serverID = [] then
        (s.hub.step (.call (.ioncSensorBatch serverID (serverName serverID) updates) now range)).map
          fun hub =>
            { s with
              pollers, hub
              lastCall := Function.update s.lastCall serverID (some s.hub.calls.length) }
      else none
    | _ => some { s with pollers }

/-- One step. -/
def step : SensorAction D R → Option (SensorPanel D R)
  | .poller serverID a range =>
    if serverID ∈ servers then s.pollerStep serverName serverID a range else none
  | .hub a =>
    if a.isIONCBatch then none else (s.hub.step a).map fun hub => { s with hub }
  | .connect => some
    { s with
      hub := s.hub.addClient ""
      page := { s.page with client := some s.hub.clients.length, handled := 0 } }
  | .deliver => s.nextEvent.map fun event => { s with page := s.page.onEvent event }
  | .openTab serverID objectName => some
    { s with page := { s.page with tab := tabKey serverID objectName, table := ⟨[], ∅, 0, []⟩ } }
  | .table a => (s.page.table.step a).map fun table => { s with page := { s.page with table } }

end SensorPanel

/-- The runs of the panel, from the start on. -/
def sensorMachine (D R : Type) (serverName : String → String) (servers : List String)
    (batchSize : ℤ) : Machine (SensorPanel D R) (SensorAction D R) where
  init := ⟨fun _ => newBasePoller ioncFetcher batchSize, fun _ => none, ⟨[], [], []⟩,
    ⟨none, 0, "", ⟨[], ∅, 0, []⟩⟩⟩
  step := SensorPanel.step serverName servers

/-- The part of a run that the poller of a server takes. -/
def pollerActions (serverID : String) (as : List (SensorAction D R)) :
    List (PollerAction ioncFetcher) :=
  as.filterMap fun
    | .poller id a _ => if id = serverID then some a else none
    | _ => none

/-- The page keeps its stream and its tab, and does not load the table again. -/
def SensorAction.keepsPage : SensorAction D R → Bool
  | .connect | .openTab _ _ => false
  | .table a => a.keepsRows
  | _ => true

/-! ### One sensor -/

/-- What events say about the sensor `id` of a tab. -/
def sensorsIn (tab : String) (id : Int64) (events : List (EventHub.SSEEvent D R)) :
    List IONCSensor :=
  events.flatMap fun event => (batchFor tab event).filter fun sensor => sensor.id = id

theorem sensorsIn_append (tab : String) (id : Int64) (es fs : List (EventHub.SSEEvent D R)) :
    sensorsIn tab id (es ++ fs) = sensorsIn tab id es ++ sensorsIn tab id fs :=
  List.flatMap_append

theorem sensorsIn_cons (tab : String) (id : Int64) (event : EventHub.SSEEvent D R)
    (es : List (EventHub.SSEEvent D R)) :
    sensorsIn tab id (event :: es) = sensorsIn tab id [event] ++ sensorsIn tab id es :=
  sensorsIn_append tab id [event] es

/-- Events that hand nothing to the table say nothing. -/
theorem sensorsIn_eq_nil {tab : String} {id : Int64} {es : List (EventHub.SSEEvent D R)}
    (h : ∀ event ∈ es, batchFor tab event = []) : sensorsIn tab id es = [] := by
  unfold sensorsIn
  rw [List.flatMap_eq_nil_iff]
  intro event he
  rw [h event he, List.filter_nil]

/-- An event about a sensor is one of the batches for its tab. -/
theorem of_batchFor_ne_nil {tab : String} {event : EventHub.SSEEvent D R}
    (h : batchFor tab event ≠ []) :
    event.type = "ionc_sensor_batch" ∧ tabKey event.serverID event.objectName = tab := by
  unfold batchFor at h
  split at h
  · exact (ite_ne_right_iff.mp h).1
  · exact absurd rfl h

/-- One of the lists is picked. -/
theorem flatMap_ite_eq {α β : Type*} [DecidableEq α] {l : List α} (hl : l.Nodup) (a : α)
    (v : List β) : (l.flatMap fun x => if x = a then v else []) = if a ∈ l then v else [] := by
  induction l with
  | nil => rfl
  | cons x l ih =>
    obtain ⟨hx, hl⟩ := List.nodup_cons.mp hl
    rw [List.flatMap_cons, ih hl]
    by_cases ha : x = a
    · subst ha
      rw [if_pos rfl, if_neg hx, if_pos List.mem_cons_self, List.append_nil]
    · rw [if_neg ha, List.nil_append]
      by_cases hmem : a ∈ l
      · rw [if_pos hmem, if_pos (List.mem_cons_of_mem x hmem)]
      · rw [if_neg hmem, if_neg]
        intro h
        rcases List.mem_cons.mp h with rfl | h
        · exact ha rfl
        · exact hmem h

/-- **What a callback broadcasts about a sensor** is what the poller has emitted about it. -/
theorem sensorsIn_broadcastBatch {serverID name : String} {r : ItemRef} (kind : EmitKind)
    {updates : List (Update IONCSensor)} {range : List String} (hnodup : range.Nodup)
    (hrange : range.toFinset = (updates.map Update.objectName).toFinset) :
    sensorsIn (D := D) (R := R) (tabKey serverID r.objectName) r.id
        (broadcastIONCSensorBatchWithServer serverID name updates range) =
      (updatesOf ioncFetcher r kind updates).map Prod.snd := by
  have hmem : ∀ o, o ∈ range ↔ o ∈ updates.map Update.objectName := by
    intro o
    rw [← List.mem_toFinset, hrange, List.mem_toFinset]
  have hemitted : (updatesOf ioncFetcher r kind updates).map Prod.snd =
      ((updates.filter fun u => u.objectName = r.objectName).map Update.item).filter
        fun sensor => sensor.id = r.id := by
    unfold updatesOf
    rw [List.map_map, List.filter_map, List.filter_filter]
    congr 1
    apply List.filter_congr
    intro u _
    rw [Bool.decide_and, Bool.and_comm]
    rfl
  rw [hemitted]
  unfold broadcastIONCSensorBatchWithServer broadcastBatch
  split_ifs with hempty
  · rw [List.length_eq_zero_iff.mp hempty]
    rfl
  · unfold sensorsIn
    rw [List.flatMap_map]
    -- only the event of the object itself is for the tab
    have hone : ∀ o, (List.filter (fun sensor : IONCSensor => decide (sensor.id = r.id))
        (batchFor (D := D) (R := R) (tabKey serverID r.objectName)
          { type := "ionc_sensor_batch", serverID, serverName := name, objectName := o,
            timestamp := updates.foldl (fun _ u => u.timestamp) 0
            data := .ioncSensors (((byObject updates).lookup o).getD []) })) =
        if o = r.objectName then
          ((updates.filter fun u => u.objectName = r.objectName).map Update.item).filter
            fun sensor => sensor.id = r.id
        else [] := by
      intro o
      by_cases ho : o = r.objectName
      · subst ho
        simp [batchFor, lookup_byObject]
      · have hkey : tabKey serverID o ≠ tabKey serverID r.objectName :=
          fun h => ho (tabKey_inj_right h)
        simp [batchFor, hkey, ho]
    simp only [hone]
    rw [flatMap_ite_eq hnodup]
    by_cases hr : r.objectName ∈ range
    · rw [if_pos hr]
    · -- an object that is not visited has no update
      have hnone : updates.filter (fun u => decide (u.objectName = r.objectName)) = [] := by
        rw [List.filter_eq_nil_iff]
        intro u hu heq
        exact hr ((hmem _).mpr (List.mem_map.mpr ⟨u, hu, of_decide_eq_true heq⟩))
      rw [if_neg hr, hnone]
      rfl

/-! ### The hub -/

namespace EventHub

variable {h h' : Hub D R} {a : EventAction D R} {i : ℕ} {client : EventClient D R}

/-- The client is connected, and its buffer was never full. -/
def EventClient.Intact (client : EventClient D R) : Prop :=
  client.registered = true ∧ client.events.wasFull = false

/-- What has come to a client, whether it was read yet or not. -/
def EventClient.stream (client : EventClient D R) : List (EventHub.SSEEvent D R) :=
  client.events.received ++ client.events.queue

/-- The event that a step broadcasts. -/
def Hub.broadcastBy (h : Hub D R) : EventAction D R → List (EventHub.SSEEvent D R)
  | .broadcast i => ((h.calls[i]?).getD []).take 1
  | _ => []

/-- What a step does to one client: an event that it broadcasts comes to the client, if it is for
it, and nothing else does. -/
structure ClientStep (h : Hub D R) (a : EventAction D R) (client client' : EventClient D R) :
    Prop where
  objectName : client'.objectName = client.objectName
  received : client.events.received <+: client'.events.received
  intact : client'.Intact → client.Intact
  stream : client'.Intact → client'.stream = client.stream ++ (h.broadcastBy a).filter client.isFor

/-- A client that a step does not touch. -/
theorem clientStep_refl (hnone : h.broadcastBy a = []) : ClientStep h a client client where
  objectName := rfl
  received := List.prefix_refl _
  intact := id
  stream _ := by rw [hnone, List.filter_nil, List.append_nil]

theorem clientStep_broadcast {j : ℕ} {event : EventHub.SSEEvent D R}
    {events : List (EventHub.SSEEvent D R)} (hcall : h.calls[j]? = some (event :: events)) :
    ClientStep h (.broadcast j) client
      (if client.registered && client.isFor event then
        { client with events := client.events.send bufferSize event }
      else client) := by
  have hby : h.broadcastBy (.broadcast j) = [event] := by
    show ((h.calls[j]?).getD []).take 1 = _
    rw [hcall]
    rfl
  split_ifs with hfor
  · obtain ⟨hreg, hfor⟩ := Bool.and_eq_true_iff.mp hfor
    unfold Mailbox.send
    split_ifs with hroom
    · refine ⟨rfl, List.prefix_refl _, fun hi => hi, fun _ => ?_⟩
      rw [hby]
      simp [EventClient.stream, hfor]
    · -- the buffer was full
      have hfull : ∀ m : Mailbox (EventHub.SSEEvent D R), m.wasFull = true →
          ¬ EventClient.Intact { client with events := m } := by
        intro m hm hi
        exact absurd (hi.2.symm.trans hm) (by decide)
      exact ⟨rfl, List.prefix_refl _, fun hi => absurd hi (hfull _ rfl),
        fun hi => absurd hi (hfull _ rfl)⟩
  · refine ⟨rfl, List.prefix_refl _, id, fun hi => ?_⟩
    have hnot : client.isFor event = false := by simpa [hi.1] using hfor
    rw [hby, List.filter_cons_of_neg (by simp [hnot]), List.filter_nil, List.append_nil]

/-- **What a step of the hub does to one client.** -/
theorem exists_clientStep (hs : h.step a = some h') (hc : h.clients[i]? = some client) :
    ∃ client', h'.clients[i]? = some client' ∧ ClientStep h a client client' := by
  cases a with
  | addClient objectName =>
    obtain rfl := Option.some.inj hs
    refine ⟨client, ?_, clientStep_refl rfl⟩
    show (h.clients ++ [_])[i]? = _
    rw [List.getElem?_append_left (List.getElem?_eq_some_iff.mp hc).1, hc]
  | removeClient j =>
    obtain ⟨c, hj, rfl⟩ := Option.map_eq_some_iff.mp hs
    show ∃ client', (h.clients.set j _)[i]? = some client' ∧ _
    rw [Calls.getElem?_set_of_getElem? hj]
    split_ifs with hij
    · subst hij
      obtain rfl := Option.some.inj (hj.symm.trans hc)
      refine ⟨_, rfl, rfl, List.prefix_refl _, ?_, ?_⟩
      · exact fun hi => absurd hi.1 (by simp)
      · exact fun hi => absurd hi.1 (by simp)
    · exact ⟨client, hc, clientStep_refl rfl⟩
  | call call now range =>
    obtain ⟨-, heq⟩ := Option.ite_none_right_eq_some.mp hs
    obtain rfl := Option.some.inj heq
    exact ⟨client, hc, clientStep_refl rfl⟩
  | broadcast j =>
    obtain ⟨events, hj, hnext⟩ := Option.bind_eq_some_iff.mp hs
    cases events with
    | nil => cases hnext
    | cons event events =>
      obtain rfl := Option.some.inj hnext
      refine ⟨_, ?_, clientStep_broadcast hj⟩
      show (h.clients.map _)[i]? = _
      rw [List.getElem?_map, hc]
      rfl
  | read j =>
    obtain ⟨c, hj, hread⟩ := Option.bind_eq_some_iff.mp hs
    obtain ⟨events, hevents, rfl⟩ := Option.map_eq_some_iff.mp hread
    show ∃ client', (h.clients.set j _)[i]? = some client' ∧ _
    rw [Calls.getElem?_set_of_getElem? hj]
    split_ifs with hij
    · subst hij
      obtain rfl := Option.some.inj (hj.symm.trans hc)
      obtain ⟨x, queue, hqueue, rfl⟩ := Mailbox.receive_eq_some hevents
      refine ⟨_, rfl, rfl, List.prefix_append _ _, fun hi => hi, fun _ => ?_⟩
      show c.events.received ++ [x] ++ queue = (c.events.received ++ c.events.queue) ++ []
      rw [hqueue, List.append_assoc, List.singleton_append, List.append_nil]
    · exact ⟨client, hc, clientStep_refl rfl⟩

/-- What a step does to the calls in progress: a call is begun, or loses the event that is
broadcast. -/
theorem calls_step (hs : h.step a = some h') :
    (∃ call now range, a = .call call now range ∧ h'.calls = h.calls ++ [call.events now range]) ∨
    (∃ j event events, a = .broadcast j ∧ h.calls[j]? = some (event :: events) ∧
      h'.calls = h.calls.set j events) ∨
    (h.broadcastBy a = [] ∧ h'.calls = h.calls) := by
  cases a with
  | addClient objectName =>
    obtain rfl := Option.some.inj hs
    exact .inr (.inr ⟨rfl, rfl⟩)
  | removeClient j =>
    obtain ⟨c, -, rfl⟩ := Option.map_eq_some_iff.mp hs
    exact .inr (.inr ⟨rfl, rfl⟩)
  | call call now range =>
    obtain ⟨-, heq⟩ := Option.ite_none_right_eq_some.mp hs
    obtain rfl := Option.some.inj heq
    exact .inl ⟨call, now, range, rfl, rfl⟩
  | broadcast j =>
    obtain ⟨events, hj, hnext⟩ := Option.bind_eq_some_iff.mp hs
    cases events with
    | nil => cases hnext
    | cons event events =>
      obtain rfl := Option.some.inj hnext
      exact .inr (.inl ⟨j, event, events, rfl, hj, rfl⟩)
  | read j =>
    obtain ⟨c, -, hread⟩ := Option.bind_eq_some_iff.mp hs
    obtain ⟨events, -, rfl⟩ := Option.map_eq_some_iff.mp hread
    exact .inr (.inr ⟨rfl, rfl⟩)

end EventHub

/-! ### The invariant of the panel -/

/-- Only batches of IONC say something to the table. -/
theorem batchFor_of_data {tab : String} {event : EventHub.SSEEvent D R}
    (h : ∀ sensors, event.data ≠ .ioncSensors sensors) : batchFor tab event = [] := by
  by_contra hne
  unfold batchFor at hne
  split at hne
  · next sensors heq => exact h sensors heq
  · exact hne rfl

theorem batchFor_of_mem_broadcastBatch {T : Type} {type : String} {data : List T → EventData D R}
    (hdata : ∀ items sensors, data items ≠ .ioncSensors sensors) {serverID name tab : String}
    {updates : List (Update T)} {range : List String} {event : EventHub.SSEEvent D R}
    (h : event ∈ broadcastBatch type data serverID name updates range) :
    batchFor tab event = [] := by
  unfold broadcastBatch at h
  split at h
  · cases h
  · obtain ⟨o, -, rfl⟩ := List.mem_map.mp h
    exact batchFor_of_data fun sensors => hdata _ sensors

/-- The other methods of the hub say nothing to the table. -/
theorem batchFor_of_call {call : BroadcastCall D R} {now : Time} {range : List String}
    (hcall : (EventAction.call call now range).isIONCBatch = false) {tab : String}
    {event : EventHub.SSEEvent D R} (h : event ∈ call.events now range) :
    batchFor tab event = [] := by
  cases call with
  | ioncSensorBatch => cases hcall
  | modbusRegisterBatch | opcuaSensorBatch | uwsgateSensorBatch =>
    exact batchFor_of_mem_broadcastBatch (by simp) h
  | journalMessages journalID messages =>
    obtain ⟨-, h⟩ : ¬ messages.length = 0 ∧ _ := List.mem_ite_nil_left.mp h
    obtain rfl := List.mem_singleton.mp h
    exact batchFor_of_data (by simp)
  | objectDataWithServer | serverStatus | objectsList | sensorUpdate | controlStatus =>
    obtain rfl := List.mem_singleton.mp h
    exact batchFor_of_data (by simp)

/-- The batch of a server says nothing to the tabs of another. -/
theorem batchFor_of_other {serverID serverID' name o : String} (hne : serverID' ≠ serverID)
    (hplain : ':' ∉ serverID.toList) (hplain' : ':' ∉ serverID'.toList)
    {updates : List (Update IONCSensor)} {range : List String} {event : EventHub.SSEEvent D R}
    (h : event ∈ broadcastIONCSensorBatchWithServer serverID' name updates range) :
    batchFor (tabKey serverID o) event = [] := by
  by_contra hsome
  obtain ⟨-, hkey⟩ := of_batchFor_ne_nil hsome
  have hserver : event.serverID = serverID' := by
    unfold broadcastIONCSensorBatchWithServer broadcastBatch at h
    split at h
    · cases h
    · obtain ⟨o, -, rfl⟩ := List.mem_map.mp h
      rfl
  rw [hserver] at hkey
  exact hne (serverID_eq_of_tabKey_eq hplain' hplain hkey)

namespace SensorPanel

variable {serverName : String → String} {servers : List String} {s s' : SensorPanel D R}

/-- The client of the page is one of the hub, and only the last call of a server's poller may still
have something to say to the tabs of that server. -/
structure Inv (s : SensorPanel D R) : Prop where
  client : ∀ i, s.page.client = some i → ∃ client, s.hub.clients[i]? = some client ∧
    client.objectName = "" ∧ s.page.handled ≤ client.events.received.length
  lastCall : ∀ serverID i, s.lastCall serverID = some i → i < s.hub.calls.length
  calls : ∀ serverID o, ':' ∉ serverID.toList → ∀ i events, s.hub.calls[i]? = some events →
    s.lastCall serverID ≠ some i → ∀ event ∈ events, batchFor (tabKey serverID o) event = []

theorem Inv.hub (h : s.Inv) {a : EventAction D R} (ha : a.isIONCBatch = false) {hub : Hub D R}
    (hs : s.hub.step a = some hub) : Inv { s with hub } := by
  have hcalls := calls_step hs
  constructor
  · intro i hi
    obtain ⟨client, hc, hname, hle⟩ := h.client i hi
    obtain ⟨client', hc', hstep⟩ := exists_clientStep hs hc
    exact ⟨client', hc', hstep.objectName.trans hname, hle.trans hstep.received.length_le⟩
  · intro serverID i hi
    have hlt := h.lastCall serverID i hi
    show i < hub.calls.length
    obtain ⟨call, now, range, -, heq⟩ | ⟨j, event, events, -, -, heq⟩ | ⟨-, heq⟩ := hcalls
    · rw [heq, List.length_append, List.length_singleton]
      omega
    · rw [heq, List.length_set]
      exact hlt
    · rw [heq]
      exact hlt
  · intro serverID o hplain i events hi hne event hmem
    have hold := h.calls serverID o hplain i
    change hub.calls[i]? = some events at hi
    obtain ⟨call, now, range, rfl, heq⟩ | ⟨j, first, rest, -, hj, heq⟩ | ⟨-, heq⟩ := hcalls
    · rw [heq, Calls.getElem?_append_singleton] at hi
      split_ifs at hi
      · obtain rfl := Option.some.inj hi
        exact batchFor_of_call ha hmem
      · exact hold events hi hne event hmem
    · rw [heq, Calls.getElem?_set_of_getElem? hj] at hi
      split_ifs at hi with hij
      · obtain rfl := Option.some.inj hi
        exact hold _ (hij ▸ hj) hne event (List.mem_cons_of_mem first hmem)
      · exact hold events hi hne event hmem
    · rw [heq] at hi
      exact hold events hi hne event hmem

/-- The two kinds of steps of a poller. -/
theorem pollerStep_eq_some {serverID : String} {a : PollerAction ioncFetcher} {range : List String}
    (hs : s.pollerStep serverName serverID a range = some s') :
    ∃ p, BasePoller.step (s.pollers serverID) a = some p ∧
      ((∀ r, emittedOf r (s.pollers serverID) a = []) ∧
        s' = { s with pollers := Function.update s.pollers serverID p } ∨
      ∃ kind updates now hub, (∀ r, emittedOf r (s.pollers serverID) a =
          updatesOf ioncFetcher r kind updates) ∧ s.remaining serverID = [] ∧
        s.hub.step (.call (.ioncSensorBatch serverID (serverName serverID) updates) now range) =
          some hub ∧
        s' = { s with
          pollers := Function.update s.pollers serverID p, hub
          lastCall := Function.update s.lastCall serverID (some s.hub.calls.length) }) := by
  obtain ⟨p, hp, hs⟩ := Option.bind_eq_some_iff.mp hs
  refine ⟨p, hp, ?_⟩
  cases a with
  | emit kind fetch snap now =>
    obtain ⟨hrem, hs⟩ := Option.ite_none_right_eq_some.mp hs
    obtain ⟨hub, hhub, rfl⟩ := Option.map_eq_some_iff.mp hs
    exact .inr ⟨kind, _, now, hub, fun _ => rfl, hrem, hhub, rfl⟩
  | subscribe o ids | unsubscribe o ids =>
    obtain rfl := Option.some.inj hs
    exact .inl ⟨fun _ => rfl, rfl⟩
  | unsubscribeAll o =>
    obtain rfl := Option.some.inj hs
    exact .inl ⟨fun _ => rfl, rfl⟩

/-- What a call does to the hub. -/
theorem step_call {hub hub' : Hub D R} {call : BroadcastCall D R} {now : Time} {range : List String}
    (hs : hub.step (.call call now range) = some hub') :
    range.Nodup ∧ range.toFinset = call.objects.toFinset ∧
      hub' = { hub with calls := hub.calls ++ [call.events now range] } := by
  obtain ⟨⟨hnodup, hrange⟩, heq⟩ := Option.ite_none_right_eq_some.mp hs
  exact ⟨hnodup, hrange, (Option.some.inj heq).symm⟩

theorem Inv.pollerStep (h : s.Inv) (hservers : ∀ id ∈ servers, ':' ∉ id.toList) {id : String}
    (hid : id ∈ servers) {a : PollerAction ioncFetcher} {range : List String}
    (hs : s.pollerStep serverName id a range = some s') : s'.Inv := by
  obtain ⟨p, -, ⟨-, rfl⟩ | ⟨kind, updates, now, hub, -, hrem, hhub, rfl⟩⟩ := pollerStep_eq_some hs
  · exact ⟨h.client, h.lastCall, h.calls⟩
  · obtain ⟨-, -, rfl⟩ := step_call hhub
    refine ⟨h.client, ?_, ?_⟩
    · intro serverID i hi
      show i < (s.hub.calls ++ [_]).length
      rw [List.length_append, List.length_singleton]
      change Function.update s.lastCall id _ serverID = some i at hi
      rw [Function.update_apply] at hi
      split_ifs at hi
      · obtain rfl := Option.some.inj hi
        omega
      · have := h.lastCall serverID i hi
        omega
    · intro serverID o hplain i events hi hne event hmem
      change (s.hub.calls ++ [_])[i]? = some events at hi
      change Function.update s.lastCall id _ serverID ≠ some i at hne
      rw [Calls.getElem?_append_singleton] at hi
      rw [Function.update_apply] at hne
      split_ifs at hi hne with hnew hserver hserver
      · exact absurd (hnew ▸ rfl) hne
      · -- the new call is of another server
        obtain rfl := Option.some.inj hi
        exact batchFor_of_other (fun heq => hserver heq.symm) hplain (hservers id hid) hmem
      · -- an older call of the same server: the last of them has nothing left
        subst hserver
        by_cases hlast : s.lastCall serverID = some i
        · have hnil : s.remaining serverID = events := by
            unfold remaining
            rw [hlast, Option.bind_some, hi]
            rfl
          rw [hnil.symm.trans hrem] at hmem
          cases hmem
        · exact h.calls serverID o hplain i events hi hlast event hmem
      · exact h.calls serverID o hplain i events hi hne event hmem

/-- **The step lemma of the invariant.** -/
theorem Inv.step (h : s.Inv) (hservers : ∀ id ∈ servers, ':' ∉ id.toList) {a : SensorAction D R}
    (hs : s.step serverName servers a = some s') : s'.Inv := by
  cases a with
  | poller serverID a range =>
    obtain ⟨hid, hs⟩ := Option.ite_none_right_eq_some.mp hs
    exact h.pollerStep hservers hid hs
  | hub a =>
    obtain ⟨ha, hs⟩ := Option.ite_none_left_eq_some.mp hs
    obtain ⟨hub, hhub, rfl⟩ := Option.map_eq_some_iff.mp hs
    exact h.hub (by simpa using ha) hhub
  | connect =>
    obtain rfl := Option.some.inj hs
    refine ⟨?_, h.lastCall, h.calls⟩
    intro i hi
    obtain rfl := Option.some.inj hi
    refine ⟨_, List.getElem?_concat_length, rfl, Nat.zero_le _⟩
  | deliver =>
    obtain ⟨event, hnext, rfl⟩ := Option.map_eq_some_iff.mp hs
    refine ⟨?_, h.lastCall, h.calls⟩
    intro i hi
    obtain ⟨client, hc, hname, -⟩ := h.client i hi
    change s.page.client = some i at hi
    have hpage : s.pageClient = some client := by
      unfold pageClient
      rw [hi, Option.bind_some, hc]
    unfold nextEvent at hnext
    rw [hpage, Option.bind_some] at hnext
    exact ⟨client, hc, hname, (List.getElem?_eq_some_iff.mp hnext).1⟩
  | openTab =>
    obtain rfl := Option.some.inj hs
    exact ⟨h.client, h.lastCall, h.calls⟩
  | table =>
    obtain ⟨table, -, rfl⟩ := Option.map_eq_some_iff.mp hs
    exact ⟨h.client, h.lastCall, h.calls⟩

/-! ### Nothing is lost on the way -/

/-- The events on the way from the poller of a server to the page: those that the stream still has
to bring or the page to handle, and those still to be broadcast. -/
def onTheWay (s : SensorPanel D R) (serverID : String) : List (EventHub.SSEEvent D R) :=
  (s.pageClient.elim [] fun client => client.stream.drop s.page.handled) ++ s.remaining serverID

/-- What a step hands to the table about a sensor. -/
def handledOf (tab : String) (id : Int64) (s : SensorPanel D R) :
    SensorAction D R → List IONCSensor
  | .deliver => sensorsIn tab id s.nextEvent.toList
  | _ => []

/-- What the poller of a server emits about a sensor in a step. -/
def emittedBy (serverID : String) (r : ItemRef) (s : SensorPanel D R) :
    SensorAction D R → List IONCSensor
  | .poller id a _ =>
    if id = serverID then (emittedOf r (s.pollers id) a).map Prod.snd else []
  | _ => []

/-- The stream of the page is intact. -/
def Intact (s : SensorPanel D R) : Prop := ∃ client, s.pageClient = some client ∧ client.Intact

/-- What a callback still has to broadcast, when the hub takes a step. -/
theorem sensorsIn_remaining (h : s.Inv) {serverID o : String} (hplain : ':' ∉ serverID.toList)
    {a : EventAction D R} {hub : Hub D R} (hs : s.hub.step a = some hub) (id : Int64) :
    sensorsIn (tabKey serverID o) id (s.hub.broadcastBy a) ++
        sensorsIn (tabKey serverID o) id (({ s with hub } : SensorPanel D R).remaining serverID) =
      sensorsIn (tabKey serverID o) id (s.remaining serverID) := by
  obtain ⟨call, now, range, rfl, heq⟩ | ⟨j, event, events, rfl, hj, heq⟩ | ⟨hnone, heq⟩ :=
    calls_step hs
  · have hsame : ({ s with hub } : SensorPanel D R).remaining serverID = s.remaining serverID := by
      unfold remaining
      cases hlast : s.lastCall serverID with
      | none => rfl
      | some i =>
        show (hub.calls[i]?).getD [] = (s.hub.calls[i]?).getD []
        rw [heq, List.getElem?_append_left (h.lastCall serverID i hlast)]
    rw [hsame]
    rfl
  · have hby : s.hub.broadcastBy (.broadcast j) = [event] := by
      show ((s.hub.calls[j]?).getD []).take 1 = _
      rw [hj]
      rfl
    rw [hby]
    by_cases hlast : s.lastCall serverID = some j
    · -- the event of the callback itself
      have hbefore : s.remaining serverID = event :: events := by
        unfold remaining
        rw [hlast, Option.bind_some, hj]
        rfl
      have hafter : ({ s with hub } : SensorPanel D R).remaining serverID = events := by
        unfold remaining
        rw [show ({ s with hub } : SensorPanel D R).lastCall serverID = some j from hlast,
          Option.bind_some, heq, Calls.getElem?_set_of_getElem? hj, if_pos rfl]
        rfl
      rw [hbefore, hafter, ← sensorsIn_cons]
    · -- an event of another call
      have hevent : sensorsIn (tabKey serverID o) id [event] = [] := by
        refine sensorsIn_eq_nil fun e he => ?_
        obtain rfl := List.mem_singleton.mp he
        exact h.calls serverID o hplain j _ hj hlast e List.mem_cons_self
      have hsame : ({ s with hub } : SensorPanel D R).remaining serverID =
          s.remaining serverID := by
        unfold remaining
        cases hi : s.lastCall serverID with
        | none => rfl
        | some i =>
          have hij : i ≠ j := fun hij => hlast (hij ▸ hi)
          show (hub.calls[i]?).getD [] = (s.hub.calls[i]?).getD []
          rw [heq, Calls.getElem?_set_of_getElem? hj, if_neg hij]
      rw [hevent, hsame, List.nil_append]
  · rw [hnone]
    have hsame : ({ s with hub } : SensorPanel D R).remaining serverID = s.remaining serverID := by
      unfold remaining
      rw [heq]
    rw [hsame]
    rfl

/-- A step of the hub loses nothing about a sensor. -/
theorem onTheWay_hub (h : s.Inv) {serverID o : String} (hplain : ':' ∉ serverID.toList)
    {a : EventAction D R} {hub : Hub D R} (hs : s.hub.step a = some hub)
    (hintact : ({ s with hub } : SensorPanel D R).Intact) (id : Int64) :
    sensorsIn (tabKey serverID o) id (({ s with hub } : SensorPanel D R).onTheWay serverID) =
      sensorsIn (tabKey serverID o) id (s.onTheWay serverID) := by
  obtain ⟨client', hpage', hintact⟩ := hintact
  obtain ⟨i, hi, hc'⟩ := Option.bind_eq_some_iff.mp hpage'
  obtain ⟨client, hc, hname, hle⟩ := h.client i hi
  obtain ⟨c, hc'', hstep⟩ := exists_clientStep hs hc
  obtain rfl := Option.some.inj (hc''.symm.trans hc')
  have hpage : s.pageClient = some client := by
    unfold pageClient
    rw [show s.page.client = some i from hi, Option.bind_some, hc]
  -- the page listens to all objects
  have hfor : (s.hub.broadcastBy a).filter client.isFor = s.hub.broadcastBy a := by
    rw [List.filter_eq_self]
    intro event _
    simp [EventClient.isFor, hname]
  have hle' : s.page.handled ≤ client.stream.length := by
    unfold EventClient.stream
    rw [List.length_append]
    omega
  unfold onTheWay
  rw [hpage', hpage, Option.elim_some, Option.elim_some, hstep.stream hintact, hfor,
    List.drop_append_of_le_length hle', sensorsIn_append, sensorsIn_append, sensorsIn_append,
    List.append_assoc, sensorsIn_remaining h hplain hs]

/-- A callback's call is all that is new on the way. -/
theorem onTheWay_pollerStep (h : s.Inv) {id serverID : String} {a : PollerAction ioncFetcher}
    {range : List String} (hs : s.pollerStep serverName id a range = some s') (r : ItemRef) :
    sensorsIn (tabKey serverID r.objectName) r.id (s'.onTheWay serverID) =
      sensorsIn (tabKey serverID r.objectName) r.id (s.onTheWay serverID) ++
        emittedBy serverID r s (.poller id a range) := by
  show _ = _ ++ if id = serverID then (emittedOf r (s.pollers id) a).map Prod.snd else []
  obtain ⟨p, -, ⟨hnone, rfl⟩ | ⟨kind, updates, now, hub, hemit, hrem, hhub, rfl⟩⟩ :=
    pollerStep_eq_some hs
  · rw [hnone, List.map_nil, ite_self, List.append_nil]
    rfl
  · obtain ⟨hnodup, hrange, rfl⟩ := step_call hhub
    unfold onTheWay
    rw [sensorsIn_append, sensorsIn_append, List.append_assoc]
    refine congrArg₂ _ rfl ?_
    by_cases hid : id = serverID
    · subst hid
      have hnew : ∀ s'' : SensorPanel D R, s''.lastCall id = some s.hub.calls.length →
          s''.hub.calls = s.hub.calls ++
            [(BroadcastCall.ioncSensorBatch id (serverName id) updates).events now range] →
          s''.remaining id =
            broadcastIONCSensorBatchWithServer id (serverName id) updates range := by
        intro s'' hlast hcalls
        unfold remaining
        rw [hlast, hcalls, Option.bind_some, Calls.getElem?_append_singleton, if_pos rfl]
        rfl
      rw [if_pos rfl, hrem, hnew _ (Function.update_self ..) rfl,
        sensorsIn_broadcastBatch kind hnodup hrange, hemit]
      rfl
    · rw [if_neg hid, List.append_nil]
      congr 1
      unfold remaining
      show ((Function.update s.lastCall id _ serverID).bind _).getD [] = _
      rw [Function.update_of_ne fun heq => hid heq.symm]
      cases hlast : s.lastCall serverID with
      | none => rfl
      | some i =>
        show ((s.hub.calls ++ [_])[i]?).getD [] = (s.hub.calls[i]?).getD []
        rw [List.getElem?_append_left (h.lastCall serverID i hlast)]

/-- A stream that is intact was so before the step. -/
theorem Intact.of_step (h : s.Inv) {a : SensorAction D R} (hkeep : a.keepsPage = true)
    (hs : s.step serverName servers a = some s') (hintact : s'.Intact) : s.Intact := by
  cases a with
  | poller serverID a range =>
    obtain ⟨-, hs⟩ := Option.ite_none_right_eq_some.mp hs
    obtain ⟨p, -, ⟨-, rfl⟩ | ⟨kind, updates, now, hub, -, -, hhub, rfl⟩⟩ := pollerStep_eq_some hs
    · exact hintact
    · obtain ⟨-, -, rfl⟩ := step_call hhub
      exact hintact
  | hub a =>
    obtain ⟨-, hs⟩ := Option.ite_none_left_eq_some.mp hs
    obtain ⟨hub, hhub, rfl⟩ := Option.map_eq_some_iff.mp hs
    obtain ⟨client', hpage', hclient'⟩ := hintact
    obtain ⟨i, hi, hc'⟩ := Option.bind_eq_some_iff.mp hpage'
    obtain ⟨client, hc, -, -⟩ := h.client i hi
    obtain ⟨c, hc'', hstep⟩ := exists_clientStep hhub hc
    obtain rfl := Option.some.inj (hc''.symm.trans hc')
    exact ⟨client, Option.bind_eq_some_iff.mpr ⟨i, hi, hc⟩, hstep.intact hclient'⟩
  | deliver =>
    obtain ⟨event, -, rfl⟩ := Option.map_eq_some_iff.mp hs
    exact hintact
  | table =>
    obtain ⟨table, -, rfl⟩ := Option.map_eq_some_iff.mp hs
    exact hintact
  | connect | openTab => cases hkeep

/-- **The step lemma**: what is handed to the table, and then on the way, is what was on the way
before, and then what is emitted. -/
theorem onTheWay_step (h : s.Inv) {serverID : String} (hplain : ':' ∉ serverID.toList)
    {a : SensorAction D R} (hkeep : a.keepsPage = true)
    (hs : s.step serverName servers a = some s') (hintact : s'.Intact) (r : ItemRef) :
    handledOf (tabKey serverID r.objectName) r.id s a ++
        sensorsIn (tabKey serverID r.objectName) r.id (s'.onTheWay serverID) =
      sensorsIn (tabKey serverID r.objectName) r.id (s.onTheWay serverID) ++
        emittedBy serverID r s a := by
  cases a with
  | poller id a range =>
    obtain ⟨-, hs⟩ := Option.ite_none_right_eq_some.mp hs
    exact onTheWay_pollerStep h hs r
  | hub a =>
    obtain ⟨-, hs⟩ := Option.ite_none_left_eq_some.mp hs
    obtain ⟨hub, hhub, rfl⟩ := Option.map_eq_some_iff.mp hs
    exact (onTheWay_hub h hplain hhub hintact r.id).trans (List.append_nil _).symm
  | deliver =>
    obtain ⟨event, hnext, rfl⟩ := Option.map_eq_some_iff.mp hs
    obtain ⟨client, hpage, hevent⟩ := Option.bind_eq_some_iff.mp hnext
    obtain ⟨hlt, hget⟩ := List.getElem?_eq_some_iff.mp hevent
    have hdrop : client.stream.drop s.page.handled =
        event :: client.stream.drop (s.page.handled + 1) := by
      have hlt' : s.page.handled < client.stream.length := by
        unfold EventClient.stream
        rw [List.length_append]
        omega
      have hnth : client.stream[s.page.handled] = event :=
        (List.getElem_append_left hlt).trans hget
      rw [List.drop_eq_getElem_cons hlt', hnth]
    have hpage' : ({ s with page := s.page.onEvent event } : SensorPanel D R).pageClient =
        some client := hpage
    show sensorsIn _ _ s.nextEvent.toList ++ _ = _ ++ []
    unfold onTheWay
    rw [hnext, hpage, hpage', Option.elim_some, Option.elim_some, hdrop, List.append_nil,
      List.cons_append, sensorsIn_cons _ _ event]
    rfl
  | table =>
    obtain ⟨table, -, rfl⟩ := Option.map_eq_some_iff.mp hs
    exact (List.append_nil _).symm
  | connect | openTab => cases hkeep

variable {batchSize : ℤ}

/-- **The run lemma**: nothing about a sensor is lost on the way, or turned around. -/
theorem onTheWay_run (hservers : ∀ id ∈ servers, ':' ∉ id.toList) {serverID : String}
    (hplain : ':' ∉ serverID.toList) {as : List (SensorAction D R)}
    (hkeep : ∀ a ∈ as, a.keepsPage = true) (h : s.Inv)
    (hrun : (sensorMachine D R serverName servers batchSize).run s as = some s')
    (hintact : s'.Intact) (r : ItemRef) :
    s.Intact ∧
    (sensorMachine D R serverName servers batchSize).outputs
          (handledOf (tabKey serverID r.objectName) r.id) s as ++
        sensorsIn (tabKey serverID r.objectName) r.id (s'.onTheWay serverID) =
      sensorsIn (tabKey serverID r.objectName) r.id (s.onTheWay serverID) ++
        (sensorMachine D R serverName servers batchSize).outputs (emittedBy serverID r) s as := by
  induction as generalizing s with
  | nil =>
    obtain rfl := Option.some.inj hrun
    exact ⟨hintact, (List.append_nil _).symm⟩
  | cons a as ih =>
    obtain ⟨t, ht, hts⟩ := Machine.run_cons_eq_some _ |>.mp hrun
    have hstep : s.step serverName servers a = some t := ht
    obtain ⟨hmid, hrest⟩ := ih (fun b hb => hkeep b (List.mem_cons_of_mem a hb))
      (h.step hservers hstep) hts
    have ha := hkeep a List.mem_cons_self
    refine ⟨hmid.of_step h ha hstep, ?_⟩
    rw [Machine.outputs_cons as ht, Machine.outputs_cons as ht, List.append_assoc, hrest,
      ← List.append_assoc, onTheWay_step h hplain ha hstep hmid r, List.append_assoc]

/-! ### The row -/

/-- The row of a sensor. -/
def row (s : SensorPanel D R) (id : Int64) : Option IONCSensor := s.page.table.row id

/-- What a step writes into the row of a sensor of the tab. -/
def writesOf (tab : String) (id : Int64) (s : SensorPanel D R) : SensorAction D R → List RowWrite
  | .deliver => (sensorsIn tab id s.nextEvent.toList).map .event
  | .table a => s.page.table.writes id a
  | _ => []

/-- What is handed to the table is what the events write. -/
theorem handledOf_eq (tab : String) (id : Int64) (s : SensorPanel D R) (a : SensorAction D R) :
    handledOf tab id s a = (writesOf tab id s a).filterMap RowWrite.sensor := by
  cases a with
  | deliver =>
    show _ = ((sensorsIn tab id s.nextEvent.toList).map RowWrite.event).filterMap _
    rw [List.filterMap_map]
    exact (List.filterMap_some).symm
  | table a =>
    show [] = (s.page.table.writes id a).filterMap _
    unfold SensorTable.writes
    split
    · split_ifs
      · rfl
      · rfl
    · rfl
  | poller | hub | connect | openTab => rfl

theorem row_step {a : SensorAction D R} (hkeep : a.keepsPage = true)
    (hs : s.step serverName servers a = some s') {id : Int64} (h : s.page.table.Shows id) :
    s'.page.tab = s.page.tab ∧ s'.page.table.Shows id ∧
      s'.row id = (s.row id).map ((writesOf s.page.tab id s a).foldl RowWrite.apply) := by
  have hsame : s.row id = (s.row id).map (([] : List RowWrite).foldl RowWrite.apply) :=
    (Option.map_id' ..).symm
  cases a with
  | poller serverID a range =>
    obtain ⟨-, hs⟩ := Option.ite_none_right_eq_some.mp hs
    obtain ⟨p, -, ⟨-, rfl⟩ | ⟨kind, updates, now, hub, -, -, -, rfl⟩⟩ := pollerStep_eq_some hs
    · exact ⟨rfl, h, hsame⟩
    · exact ⟨rfl, h, hsame⟩
  | hub a =>
    obtain ⟨-, hs⟩ := Option.ite_none_left_eq_some.mp hs
    obtain ⟨hub, -, rfl⟩ := Option.map_eq_some_iff.mp hs
    exact ⟨rfl, h, hsame⟩
  | deliver =>
    obtain ⟨event, hnext, rfl⟩ := Option.map_eq_some_iff.mp hs
    have hrow : (s.page.onEvent event).table.row id = (s.row id).map
        (((sensorsIn s.page.tab id [event]).map RowWrite.event).foldl RowWrite.apply) := by
      unfold sensorsIn
      rw [List.flatMap_singleton]
      exact SensorMap.map_lookup_handleAll _ id _
    refine ⟨rfl, ⟨h.mem, ?_⟩, ?_⟩
    · show ((s.page.onEvent event).table.row id).isSome = true
      rw [hrow, Option.isSome_map]
      exact h.row
    · show (s.page.onEvent event).table.row id =
        (s.row id).map (((sensorsIn _ id s.nextEvent.toList).map _).foldl _)
      rw [hnext]
      exact hrow
  | table a =>
    obtain ⟨table, htable, rfl⟩ := Option.map_eq_some_iff.mp hs
    have hkeep' : a.keepsRows = true := hkeep
    exact ⟨rfl, SensorTable.row_step hkeep' htable h⟩
  | connect | openTab => cases hkeep

/-- **The run lemma of the row.** -/
theorem row_run {as : List (SensorAction D R)} (hkeep : ∀ a ∈ as, a.keepsPage = true)
    (hrun : (sensorMachine D R serverName servers batchSize).run s as = some s') {id : Int64}
    (h : s.page.table.Shows id) :
    s'.row id = (s.row id).map
      (((sensorMachine D R serverName servers batchSize).outputs (writesOf s.page.tab id) s
        as).foldl RowWrite.apply) := by
  induction as generalizing s with
  | nil =>
    obtain rfl := Option.some.inj hrun
    exact (Option.map_id' ..).symm
  | cons a as ih =>
    obtain ⟨t, ht, hts⟩ := Machine.run_cons_eq_some _ |>.mp hrun
    obtain ⟨htab, hshows, hnext⟩ := row_step (hkeep a List.mem_cons_self) ht h
    rw [ih (fun b hb => hkeep b (List.mem_cons_of_mem a hb)) hts hshows, hnext,
      Machine.outputs_cons as ht, htab, Option.map_map]
    congr 1
    funext row
    rw [List.foldl_append]
    rfl

end SensorPanel

/-! ### The poller of one server -/

open SensorPanel RowWrite

variable {serverName : String → String} {servers : List String} {batchSize : ℤ}
  {s s' : SensorPanel D R}

variable (batchSize) in
theorem poller_step {a : SensorAction D R} (hs : s.step serverName servers a = some s')
    (serverID : String) :
    (pollerMachine ioncFetcher batchSize).run (s.pollers serverID) (pollerActions serverID [a]) =
      some (s'.pollers serverID) ∧
    ∀ r, emittedBy serverID r s a = ((pollerMachine ioncFetcher batchSize).outputs (emittedOf r)
      (s.pollers serverID) (pollerActions serverID [a])).map Prod.snd := by
  cases a with
  | poller id a range =>
    obtain ⟨-, hs⟩ := Option.ite_none_right_eq_some.mp hs
    obtain ⟨p, hp, hs'⟩ := pollerStep_eq_some hs
    have hpollers : s'.pollers = Function.update s.pollers id p := by
      obtain ⟨-, rfl⟩ | ⟨kind, updates, now, hub, -, -, -, rfl⟩ := hs'
      · rfl
      · rfl
    rw [hpollers]
    by_cases hid : id = serverID
    · subst hid
      have hone : pollerActions (D := D) (R := R) id [.poller id a range] = [a] := by
        simp [pollerActions]
      have hp' : (pollerMachine ioncFetcher batchSize).step (s.pollers id) a = some p := hp
      rw [hone, Function.update_self]
      refine ⟨(Machine.run_singleton _ _ _).trans hp', fun r => ?_⟩
      rw [Machine.outputs_cons _ hp', Machine.outputs_nil, List.append_nil]
      exact if_pos rfl
    · have hnone : pollerActions (D := D) (R := R) serverID [.poller id a range] = [] := by
        simp [pollerActions, hid]
      rw [hnone, Function.update_of_ne fun heq => hid heq.symm]
      exact ⟨rfl, fun r => if_neg hid⟩
  | hub a =>
    obtain ⟨-, hs⟩ := Option.ite_none_left_eq_some.mp hs
    obtain ⟨hub, -, rfl⟩ := Option.map_eq_some_iff.mp hs
    exact ⟨rfl, fun r => rfl⟩
  | deliver =>
    obtain ⟨event, -, rfl⟩ := Option.map_eq_some_iff.mp hs
    exact ⟨rfl, fun r => rfl⟩
  | table =>
    obtain ⟨table, -, rfl⟩ := Option.map_eq_some_iff.mp hs
    exact ⟨rfl, fun r => rfl⟩
  | connect | openTab =>
    obtain rfl := Option.some.inj hs
    exact ⟨rfl, fun r => rfl⟩

/-- **Seen from a server, a run of the panel is a run of its poller.** -/
theorem poller_run {as : List (SensorAction D R)}
    (hrun : (sensorMachine D R serverName servers batchSize).run s as = some s')
    (serverID : String) :
    (pollerMachine ioncFetcher batchSize).run (s.pollers serverID) (pollerActions serverID as) =
      some (s'.pollers serverID) ∧
    ∀ r, (sensorMachine D R serverName servers batchSize).outputs (emittedBy serverID r) s as =
      ((pollerMachine ioncFetcher batchSize).outputs (emittedOf r) (s.pollers serverID)
        (pollerActions serverID as)).map Prod.snd := by
  induction as generalizing s with
  | nil =>
    obtain rfl := Option.some.inj hrun
    exact ⟨rfl, fun r => rfl⟩
  | cons a as ih =>
    obtain ⟨t, ht, hts⟩ := Machine.run_cons_eq_some _ |>.mp hrun
    obtain ⟨hone, hout⟩ := poller_step batchSize ht serverID
    obtain ⟨hrest, houts⟩ := ih hts
    have hsplit : pollerActions serverID (a :: as) =
        pollerActions serverID [a] ++ pollerActions serverID as :=
      List.filterMap_append (l := [a]) ..
    rw [hsplit]
    refine ⟨Machine.run_append_eq_some _ |>.mpr ⟨_, hone, hrest⟩, fun r => ?_⟩
    rw [Machine.outputs_cons as ht, hout, houts, Machine.outputs_append _ hone, List.map_append]

theorem SensorPanel.inv_of_reachable (hservers : ∀ id ∈ servers, ':' ∉ id.toList)
    (h : (sensorMachine D R serverName servers batchSize).Reachable s) : s.Inv := by
  refine Machine.Reachable.induction (P := SensorPanel.Inv) ?_ ?_ h
  · exact ⟨fun i hi => (by cases hi), fun id i hi => (by cases hi), fun id o _ i events hi =>
      absurd hi (by simp [sensorMachine])⟩
  · intro s a t _ ih hstep
    exact ih.step hservers (a := a) hstep

/-! ### The main theorem -/

/-- The hash of a sensor tells its numbers. -/
theorem value_eq_of_valueHash {x y : IONCSensor}
    (h : ioncFetcher.getValueHash x = ioncFetcher.getValueHash y) :
    x.value = y.value ∧ x.realValue = y.realValue := by
  have hlist := congrArg String.toList h
  have hbar : ∀ z : IONCSensor, (ioncFetcher.getValueHash z).toList =
      (toString z.value).toList ++ '|' :: (toString z.realValue).toList := by
    intro z
    show (toString z.value ++ "|" ++ toString z.realValue).toList = _
    simp [String.toList_append]
  rw [hbar, hbar] at hlist
  obtain ⟨hvalue, hreal⟩ := append_cons_inj_of_notMem (bar_notMem_toString _)
    (bar_notMem_toString _) hlist
  exact ⟨Int64.toInt_inj.mp (Int.repr_injective (String.toList_injective hvalue)),
    Int64.toInt_inj.mp (Int.repr_injective (String.toList_injective hreal))⟩

/-- **The row of a sensor follows its poller** along the run `as` from `s` to `s'`. -/
structure RowFollows (M : Machine (SensorPanel D R) (SensorAction D R)) (serverID : String)
    (r : ItemRef) (fetched : List (ItemEvent IONCSensor)) (s s' : SensorPanel D R)
    (as : List (SensorAction D R)) : Prop where
  /-- What is handed to the table, and what is still on the way to it, are the changes of what was
  fetched, after what was on the way at first. -/
  delivered : M.outputs (handledOf s.page.tab r.id) s as ++
      sensorsIn s.page.tab r.id (s'.onTheWay serverID) =
    sensorsIn s.page.tab r.id (s.onTheWay serverID) ++
      (changes (eventHash ioncFetcher) isForced none fetched).map Prod.snd
  /-- What the events write into the row are the sensors handed to the table. -/
  events : M.outputs (handledOf s.page.tab r.id) s as =
    (M.outputs (writesOf s.page.tab r.id) s as).filterMap RowWrite.sensor
  /-- The row is what the events and the page have made of it, in their order. -/
  row : s'.row r.id = (s.row r.id).map
    ((M.outputs (writesOf s.page.tab r.id) s as).foldl RowWrite.apply)
  /-- When nothing is on the way any more, and it was not the page that has written last, the row
  shows the numbers that were fetched last. -/
  settled : s'.onTheWay serverID = [] →
    (∀ command, (M.outputs (writesOf s.page.tab r.id) s as).getLast? ≠ some (.command command)) →
    ∀ e ∈ fetched.getLast?, ∃ sensor, s'.row r.id = some sensor ∧
      sensor.value = e.2.value ∧ sensor.realValue = e.2.realValue

/-- The value of sensor 1 is 7. -/
def sevenFetch : Fetch ioncFetcher where
  fetchItems _ ids := .ok (ids.map fun id => ⟨id, "x", 7, 7, false⟩)
  requested := by
    intro o ids items h x hx
    obtain rfl := Except.ok.inj h
    obtain ⟨id, hid, rfl⟩ := List.mem_map.mp hx
    exact hid

/-- The panel of one server. -/
def onePanel : Machine (SensorPanel Unit Unit) (SensorAction Unit Unit) :=
  sensorMachine Unit Unit id ["s"] 0

/-- A tab is opened, and its only sensor is loaded. -/
def openRun : List (SensorAction Unit Unit) :=
  [.connect, .openTab "s" "o", .table (.loadSensors [⟨1, "x", 5, 5, false⟩])]

/-- The panel after `openRun`. -/
def tabOpened : SensorPanel Unit Unit := (onePanel.run onePanel.init openRun).getD onePanel.init

/-- The sensor is subscribed. -/
def sensorSubscribed : SensorPanel Unit Unit :=
  (onePanel.step tabOpened (.poller "s" (.subscribe "o" [1]) [])).getD tabOpened

/-- The user sets the sensor to 6; then it is polled, and the event handled. -/
def pollRun : List (SensorAction Unit Unit) :=
  [.table (.openDialog 1), .table (.commandDone 0 (.set 6)),
    .poller "s" (.emit .poll sevenFetch [("o", [1])] 0) ["o"], .hub (.broadcast 0), .hub (.read 0),
    .deliver]

/-- The panel after `pollRun`. -/
def sensorPolled : SensorPanel Unit Unit :=
  (onePanel.run sensorSubscribed pollRun).getD sensorSubscribed

end UnisetPanel
