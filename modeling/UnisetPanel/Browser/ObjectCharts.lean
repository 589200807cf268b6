/-
  The charts of the inputs and outputs of an object: from the poll to the curve
  (`51-ui-render.js`, `04-sse.js`, `GetVariableHistory`).

  A chart is made of the last two hundred points of the history, and then takes a
  point from each `object_data` event of its tab, up to a thousand.  The history is
  asked for by a request of its own, so it is answered from what was saved at one
  moment, and the events count from another: those handled before the answer came
  in went past the chart, and those still on the way then are pushed even if the
  history has their points already.

  `chartsMachine` has the pollers of all servers (`ObjectPollers.step`), the events
  on the way to a page, the tabs of this page and its requests for histories.  A
  chart shows what was polled, in order, from these two stretches
  (`charts_follow`); where the two meet, and no event was lost on the way, it is
  one stretch without a gap and without a repetition.
-/
import UnisetPanel.Browser.Tabs
import UnisetPanel.JsMap
import UnisetPanel.Poller.Objects

namespace UnisetPanel

variable {V : Type}

/-! ### Events, charts and requests -/

/-- A table of inputs or of outputs. -/
inductive IOTable where
  | inputs
  | outputs
  deriving DecidableEq

/-- What a name of a variable begins with. -/
def IOTable.start : IOTable → String
  | inputs => "io.in."
  | outputs => "io.out."

/-- The name of a variable in `renderIO`. -/
def IOTable.varName (table : IOTable) (key : String) : String := table.start ++ key

/-- `data.io.in` or `data.io.out`. -/
def ObjectData.io (data : ObjectData V) : IOTable → List (String × V)
  | .inputs => data.inputs
  | .outputs => data.outputs

/-- The value for the name of a variable, if the name begins as those of a table do. -/
def ObjectData.ioValue (data : ObjectData V) (table : IOTable) (varName : String) :
    Option (Option V) :=
  (varName.toList.dropPrefix? table.start.toList).map fun key =>
    (data.io table).lookup (String.ofList key)

/-- The value that an `object_data` event has for a chart. -/
def ObjectData.chartValue (data : ObjectData V) (varName : String) : Option V :=
  match data.ioValue .inputs varName with
  | some value => value
  | none => (data.ioValue .outputs varName).join

/-- A Go map has a key once. -/
def ObjectData.KeysNodup (data : ObjectData V) : Prop :=
  (data.inputs.map Prod.fst).Nodup ∧ (data.outputs.map Prod.fst).Nodup

instance (data : ObjectData V) : Decidable data.KeysNodup := inferInstanceAs (Decidable (_ ∧ _))

/-- An event of `BroadcastObjectDataWithServer`. -/
structure ObjectDataEvent (V : Type) where
  serverID : String
  objectName : String
  data : ObjectData V
  timestamp : Time

/-- What the events have for a variable. -/
def livePoints (events : List (ObjectDataEvent V)) (v : VariableRef) : List (DataPoint V) :=
  events.filterMap fun e =>
    if e.serverID = v.serverID ∧ e.objectName = v.objectName then
      (e.data.chartValue v.variableName).map (DataPoint.mk e.timestamp)
    else none

/-- The answer to a request for a history.  Beside it: when it was made, and how many points of the
variable had been saved by then. -/
structure HistoryAnswer (V : Type) where
  points : List (DataPoint V)
  time : Time
  saved : ℕ

/-- A chart with its points.  Beside them: the history it was made of, and how many points the events
handled before had for it. -/
structure ObjectChart (V : Type) where
  data : List (DataPoint V)
  history : HistoryAnswer V
  handled : ℕ

/-- A point at the end of a chart. -/
def ObjectChart.push (chart : ObjectChart V) (point : DataPoint V) : ObjectChart V :=
  let data := chart.data ++ [point]
  { chart with data := if 1000 < data.length then data.tail else data }

/-- What `state.tabs` has of a tab and its charts; `id` tells the tabs of one key apart. -/
structure ObjectTab (V : Type) where
  id : ℕ
  serverID : String
  displayName : String
  charts : JsMap (ObjectChart V)

/-- A call of `fetchVariableHistory` by `addChart` or by `updateChart`: the chart that it is for, the
object that it asks about, and what it was answered. -/
structure HistoryRequest (V : Type) where
  tab : ℕ
  key : String
  varName : String
  serverID : String
  displayName : String
  update : Bool
  answer : Option (HistoryAnswer V)

/-- The variable that a request is for. -/
def HistoryRequest.ref (r : HistoryRequest V) : VariableRef :=
  ⟨r.serverID, r.displayName, r.varName⟩

/-- The pollers, the events on their way to a page, and the page.  Beside them: the events that it has
handled, and how many were lost. -/
structure ObjectCharts (V : Type) where
  server : ObjectPollers V
  stream : List (ObjectDataEvent V)
  tabs : JsMap (ObjectTab V)
  opened : ℕ
  requests : List (HistoryRequest V)
  handled : List (ObjectDataEvent V)
  lost : ℕ

/-- What happens. -/
inductive ObjectChartsAction (V : Type) where
  | server (a : ObjectPollersAction V)
  /-- an event is dropped for a full buffer, or with its stream -/
  | lose (i : ℕ)
  /-- the listener of `object_data` -/
  | handle
  | openTab (serverID name : String)
  | closeTab (key : String)
  | addChart (key varName : String)
  /-- the chart of a tab is updated; `range` is the order in which the tabs are searched -/
  | updateChart (key varName : String) (range : List String)
  | removeChart (key varName : String)
  /-- `GetVariableHistory` answers a request -/
  | answer (i : ℕ)
  /-- the answer comes in -/
  | response (i : ℕ)
  /-- a request fails, or its canvas is gone or in use -/
  | fail (i : ℕ)

namespace ObjectCharts

/-! ### The steps -/

/-- The event of a step of the pollers: `poll` calls back for each answer. -/
def sent (s : ObjectPollers V) : ObjectPollersAction V → List (ObjectDataEvent V)
  | .poller serverID (.fetch (some data)) =>
    match (s.pollers.lookup serverID).map ObjectPoller.phase with
    | some (.polling _ (objectName :: _) _) => [⟨serverID, objectName, data, s.clock⟩]
    | _ => []
  | _ => []

/-- A change to the charts of a tab, if it is there. -/
def modifyCharts (tabs : JsMap (ObjectTab V)) (key : String)
    (f : JsMap (ObjectChart V) → JsMap (ObjectChart V)) : JsMap (ObjectTab V) :=
  match tabs.lookup key with
  | none => tabs
  | some tab => tabs.insert key { tab with charts := f tab.charts }

/-- The listener of `object_data`: its part for the charts. -/
def onObjectData (tabs : JsMap (ObjectTab V)) (e : ObjectDataEvent V) : JsMap (ObjectTab V) :=
  modifyCharts tabs (tabKey e.serverID e.objectName) <| JsMap.mapWithKey fun varName chart =>
    match e.data.chartValue varName with
    | none => chart
    | some value => chart.push ⟨e.timestamp, value⟩

/-- `addChart`, up to the request: there is no chart of the variable yet. -/
def addChart (s : ObjectCharts V) (key varName : String) : Option (ObjectCharts V) :=
  (s.tabs.lookup key).bind fun tab =>
    if (tab.charts.lookup varName).isNone then
      some { s with
        requests := s.requests ++
          [⟨tab.id, key, varName, tab.serverID, tab.displayName, false, none⟩] }
    else none

/-- `findTabKeyByDisplayName`. -/
def findTabKeyByDisplayName (tabs : JsMap (ObjectTab V)) (displayName : String)
    (range : List String) : Option String :=
  (range.find? fun key => (tabs.lookup key).any fun tab => tab.displayName = displayName).or
    (if (tabs.lookup displayName).isSome then some displayName else none)

/-- `updateChart`, up to the request, for a chart of the tab `objectName`: the object that is asked
about is that of the tab found by this name. -/
def updateChart (s : ObjectCharts V) (objectName varName : String) (range : List String) :
    Option (ObjectCharts V) :=
  (s.tabs.lookup objectName).bind fun shown =>
    let tabKey := (findTabKeyByDisplayName s.tabs objectName range).getD objectName
    (s.tabs.lookup tabKey).bind fun tab =>
      if (shown.charts.lookup varName).isSome ∧ (tab.charts.lookup varName).isSome then
        some { s with
          requests := s.requests ++
            [⟨shown.id, objectName, varName, tab.serverID, tab.displayName, true, none⟩] }
      else none

/-- `GetVariableHistory`; an error is the end of the request. -/
def getVariableHistory (s : ObjectCharts V) (i : ℕ) (r : HistoryRequest V) : ObjectCharts V :=
  match s.server.storage.getVariableHistory r.displayName r.varName (some 200) r.serverID with
  | .error _ => { s with requests := s.requests.eraseIdx i }
  | .ok points =>
    let answer := ⟨points, s.server.clock, (pointsOf s.server.saved r.ref).length⟩
    { s with requests := s.requests.set i { r with answer := some answer } }

/-- The rest of `addChart` or `updateChart`: the chart is given the history, unless its tab was closed
since. -/
def response (s : ObjectCharts V) (r : HistoryRequest V) (answer : HistoryAnswer V) :
    JsMap (ObjectTab V) :=
  if (s.tabs.lookup r.key).map ObjectTab.id = some r.tab then
    modifyCharts s.tabs r.key fun charts =>
      charts.insert r.varName ⟨answer.points, answer, (livePoints s.handled r.ref).length⟩
  else s.tabs

/-- The requests that go on when these charts are gone: one for an update has its chart no more. -/
def keepRequests (s : ObjectCharts V) (gone : HistoryRequest V → Bool) : List (HistoryRequest V) :=
  s.requests.filter fun r => ¬ (r.update ∧ gone r)

/-- One step. -/
def step (ttl : Duration) (s : ObjectCharts V) : ObjectChartsAction V → Option (ObjectCharts V)
  | .server a =>
    (s.server.step ttl a).bind fun server =>
      if ∀ e ∈ sent s.server a, e.data.KeysNodup then
        some { s with server, stream := s.stream ++ sent s.server a }
      else none
  | .lose i =>
    if i < s.stream.length then some { s with stream := s.stream.eraseIdx i, lost := s.lost + 1 }
    else none
  | .handle =>
    match s.stream with
    | [] => none
    | e :: stream =>
      some { s with stream, tabs := onObjectData s.tabs e, handled := s.handled ++ [e] }
  | .openTab serverID name =>
    -- the object is asked for first
    if name ≠ "" ∧ (s.server.pollers.lookup serverID).isSome ∧
        (s.tabs.lookup (tabKey serverID name)).isNone then
      some { s with
        tabs := s.tabs.insert (tabKey serverID name) ⟨s.opened, serverID, name, ∅⟩
        opened := s.opened + 1 }
    else none
  | .closeTab key =>
    some { s with
      tabs := s.tabs.erase key
      requests := s.keepRequests fun r => r.key = key }
  | .addChart key varName => s.addChart key varName
  | .updateChart key varName range =>
    if range.Perm s.tabs.keys then s.updateChart key varName range else none
  | .removeChart key varName =>
    some { s with
      tabs := modifyCharts s.tabs key fun charts => charts.erase varName
      requests := s.keepRequests fun r => r.key = key ∧ r.varName = varName }
  | .answer i =>
    match s.requests[i]? with
    | none => none
    | some r => if r.answer.isSome then none else some (s.getVariableHistory i r)
  | .response i =>
    match s.requests[i]? with
    | none => none
    | some r => r.answer.map fun answer =>
      { s with tabs := s.response r answer, requests := s.requests.eraseIdx i }
  | .fail i => some { s with requests := s.requests.eraseIdx i }

end ObjectCharts

/-- A page with no tabs, before any server is there. -/
def chartsMachine (V : Type) (ttl : Duration) (start : Time) :
    Machine (ObjectCharts V) (ObjectChartsAction V) where
  init := ⟨(pollersMachine V ttl start).init, [], ∅, 0, [], [], 0⟩
  step := ObjectCharts.step ttl

/-! ### The points of an answer -/

theorem ObjectData.chartValue_varName (data : ObjectData V) (table : IOTable) (key : String) :
    data.chartValue (table.varName key) = (data.io table).lookup key := by
  cases table with
  | inputs => simp [chartValue, ioValue, IOTable.varName, IOTable.start, io, List.dropPrefix?]
  | outputs => simp [chartValue, ioValue, IOTable.varName, IOTable.start, io, List.dropPrefix?]

theorem IOTable.varName_inj {table table' : IOTable} {key key' : String} :
    table.varName key = table'.varName key' ↔ table = table' ∧ key = key' := by
  constructor
  · intro h
    have hlists := congrArg String.toList h
    cases table <;> cases table' <;>
      simp [IOTable.varName, IOTable.start, String.toList_append] at hlists
    · exact ⟨rfl, String.toList_injective hlists⟩
    · exact ⟨rfl, String.toList_injective hlists⟩
  · rintro ⟨rfl, rfl⟩
    rfl

/-- A key that is there once is found by a search. -/
theorem filter_fst_eq {l : List (String × V)} (h : (l.map Prod.fst).Nodup) (key : String) :
    l.filter (fun x => x.1 = key) = ((l.lookup key).map (Prod.mk key)).toList := by
  induction l with
  | nil => rfl
  | cons x l ih =>
    obtain ⟨k, value⟩ := x
    obtain ⟨hk, hl⟩ := List.nodup_cons.mp h
    by_cases hkey : k = key
    · subst hkey
      have hnil : l.filter (fun x => x.1 = k) = [] := by
        rw [List.filter_eq_nil_iff]
        intro x hx heq
        exact hk (List.mem_map.mpr ⟨x, hx, of_decide_eq_true heq⟩)
      rw [List.filter_cons_of_pos (by simp), hnil, List.lookup_cons_self]
      rfl
    · rw [List.filter_cons_of_neg (by simpa using hkey), ih hl, List.lookup_cons]
      have hne : (key == k) = false := beq_eq_false_iff_ne.mpr fun heq => hkey heq.symm
      rw [hne]

section

variable {data : ObjectData V} {table : IOTable} {key : String}

/-- What an answer saves under the name of an input or output is what its event has for the
chart. -/
theorem filter_saves (hkeys : data.KeysNodup) (hvars : ∀ x ∈ data.vars, x.1 ≠ table.varName key) :
    data.saves.filter (fun x => x.1 = table.varName key) =
      ((data.chartValue (table.varName key)).map (Prod.mk (table.varName key))).toList := by
  have hvarsNil : data.vars.filter (fun x => x.1 = table.varName key) = [] := by
    rw [List.filter_eq_nil_iff]
    exact fun x hx heq => hvars x hx (of_decide_eq_true heq)
  have hio : ∀ table' : IOTable, ((data.io table').map fun x => (table'.varName x.1, x.2)).filter
      (fun x => x.1 = table.varName key) = if table' = table then
        (((data.io table).lookup key).map (Prod.mk (table.varName key))).toList else [] := by
    intro table'
    rw [List.filter_map]
    split_ifs with htable
    · subst htable
      have hnodup : ((data.io table').map Prod.fst).Nodup := by
        cases table' with
        | inputs => exact hkeys.1
        | outputs => exact hkeys.2
      have hfilter : (data.io table').filter ((fun x => decide (x.1 = table'.varName key)) ∘
          fun x => (table'.varName x.1, x.2)) = (data.io table').filter fun x => x.1 = key := by
        refine List.filter_congr fun x _ => decide_eq_decide.mpr ?_
        exact IOTable.varName_inj.trans (and_iff_right rfl)
      rw [hfilter, filter_fst_eq hnodup]
      cases (data.io table').lookup key <;> rfl
    · rw [List.map_eq_nil_iff, List.filter_eq_nil_iff]
      exact fun x _ heq => htable (IOTable.varName_inj.mp (of_decide_eq_true heq)).1
  have hin := hio .inputs
  have hout := hio .outputs
  show (data.vars ++ (data.io .inputs).map (fun x => (IOTable.inputs.varName x.1, x.2)) ++
    (data.io .outputs).map fun x => (IOTable.outputs.varName x.1, x.2)).filter _ = _
  rw [List.filter_append, List.filter_append, hvarsNil, hin, hout, data.chartValue_varName]
  cases table with
  | inputs => simp
  | outputs => simp

variable {v : VariableRef}

/-- The points that an answer saves of a variable. -/
theorem pointsOf_rows (hv : v.variableName = table.varName key) (hkeys : data.KeysNodup)
    (hvars : ∀ x ∈ data.vars, x.1 ≠ table.varName key) (serverID objectName : String) (now : Time) :
    pointsOf (data.rows serverID objectName now) v =
      if serverID = v.serverID ∧ objectName = v.objectName then
        ((data.chartValue v.variableName).map (DataPoint.mk now)).toList else [] := by
  unfold pointsOf ObjectData.rows
  rw [List.filter_map, List.map_map]
  split_ifs with hnames
  · obtain ⟨rfl, rfl⟩ := hnames
    have hfilter : data.saves.filter ((fun row : HistoryRow V => decide (row.ref = v)) ∘
        fun x => ⟨v.serverID, v.objectName, x.1, x.2, now⟩) =
          data.saves.filter fun x => x.1 = table.varName key := by
      refine List.filter_congr fun x _ => decide_eq_decide.mpr ?_
      rw [← hv]
      constructor
      · exact fun h => congrArg VariableRef.variableName h
      · intro h
        show VariableRef.mk v.serverID v.objectName x.1 = v
        rw [h]
    rw [hfilter, filter_saves hkeys hvars, hv]
    cases data.chartValue (table.varName key) <;> rfl
  · rw [List.map_eq_nil_iff, List.filter_eq_nil_iff]
    intro x _ heq
    have href : VariableRef.mk serverID objectName x.1 = v := of_decide_eq_true heq
    exact hnames ⟨congrArg VariableRef.serverID href, congrArg VariableRef.objectName href⟩

end

theorem livePoints_append (events events' : List (ObjectDataEvent V)) (v : VariableRef) :
    livePoints (events ++ events') v = livePoints events v ++ livePoints events' v :=
  List.filterMap_append

theorem livePoints_singleton (e : ObjectDataEvent V) (v : VariableRef) :
    livePoints [e] v = if e.serverID = v.serverID ∧ e.objectName = v.objectName then
      ((e.data.chartValue v.variableName).map (DataPoint.mk e.timestamp)).toList else [] := by
  unfold livePoints
  rw [List.filterMap_cons, List.filterMap_nil]
  split_ifs
  · cases e.data.chartValue v.variableName <;> rfl
  · rfl

/-! ### What is polled, and what is sent -/

/-- What the poller of the server was answered for a variable. -/
def ObjectPollers.polled (s : ObjectPollers V) (v : VariableRef) : List (DataPoint V) :=
  match s.pollers.lookup v.serverID with
  | none => []
  | some p => pointsOf p.answered v

/-- What a step of a poller does to its answers. -/
theorem PollerStepped.answers {ttl : Duration} {s s' : ObjectPollers V} {serverID : String}
    {p : ObjectPoller V} {a : ObjectPollerStep V} (h : PollerStepped ttl s serverID p a s') :
    ∃ q, s'.pollers = s.pollers.insert serverID q ∧ s.saved <+: s'.saved ∧
      (q.answered = p.answered ∧ (∀ data, a ≠ .fetch (some data)) ∨
        ∃ now objectName objects data, a = .fetch (some data) ∧
          p.phase = .polling now (objectName :: objects) [] ∧
          q.answered = p.answered ++ data.rows serverID objectName now) := by
  cases h with
  | watch objectName => exact ⟨_, rfl, List.prefix_rfl, .inl ⟨rfl, nofun⟩⟩
  | unwatch objectName => exact ⟨_, rfl, List.prefix_rfl, .inl ⟨rfl, nofun⟩⟩
  | begin hphase => exact ⟨_, rfl, List.prefix_rfl, .inl ⟨rfl, nofun⟩⟩
  | failed hphase => exact ⟨_, rfl, List.prefix_rfl, .inl ⟨rfl, nofun⟩⟩
  | answered data hphase =>
    exact ⟨_, rfl, List.prefix_rfl, .inr ⟨_, _, _, data, rfl, hphase, rfl⟩⟩
  | saved hphase => exact ⟨_, rfl, List.prefix_append _ _, .inl ⟨rfl, nofun⟩⟩
  | cleaned hphase => exact ⟨_, rfl, List.prefix_rfl, .inl ⟨rfl, nofun⟩⟩
  | finished hphase => exact ⟨_, rfl, List.prefix_rfl, .inl ⟨rfl, nofun⟩⟩

section

variable {ttl : Duration} {s s' : ObjectPollers V} {a : ObjectPollersAction V}

/-- The server has a poller. -/
def ObjectPollers.Known (s : ObjectPollers V) (serverID : String) : Prop :=
  (s.pollers.lookup serverID).isSome = true

/-- Nothing that was saved is forgotten, and no poller is. -/
theorem ObjectPollers.grows (hstep : s.step ttl a = some s') : s.saved <+: s'.saved ∧
    ∀ id, s'.Known id ↔ s.Known id ∨ a = .new id := by
  have hinsert : ∀ (serverID : String) (q : ObjectPoller V) (id : String),
      (Finmap.lookup id (s.pollers.insert serverID q)).isSome = true ↔
        s.Known id ∨ id = serverID := by
    intro serverID q id
    rw [GoMap.lookup_insert]
    split_ifs with hid
    · exact iff_of_true rfl (.inr hid)
    · exact (or_iff_left hid).symm
  cases a with
  | tick d =>
    obtain rfl := Option.some.inj hstep
    exact ⟨List.prefix_rfl, fun id => (or_iff_left (by simp)).symm⟩
  | new serverID =>
    obtain ⟨-, rfl⟩ := ObjectPollers.new_cases hstep
    refine ⟨List.prefix_rfl, fun id => (hinsert serverID _ id).trans ?_⟩
    rw [ObjectPollersAction.new.injEq, eq_comm]
  | poller serverID a =>
    obtain ⟨p, hp, hstep⟩ := Option.bind_eq_some_iff.mp hstep
    obtain ⟨q, hpollers, hsaved, -⟩ := (ObjectPollers.pollerStep_cases hstep).answers
    refine ⟨hsaved, fun id => ?_⟩
    unfold ObjectPollers.Known at hinsert ⊢
    have hold : ¬ ObjectPollersAction.poller serverID a = .new id := by simp
    rw [hpollers, hinsert, or_iff_left hold]
    refine or_iff_left_of_imp ?_
    rintro rfl
    rw [hp]
    rfl
  | external objectName sensorName value timestamp =>
    obtain ⟨-, hsome⟩ := Option.ite_none_right_eq_some.mp hstep
    obtain rfl := Option.some.inj hsome
    exact ⟨List.prefix_append _ _, fun id => (or_iff_left (by simp)).symm⟩

/-- An event is of a server that has a poller. -/
theorem ObjectCharts.of_mem_sent {e : ObjectDataEvent V} (he : e ∈ ObjectCharts.sent s a) :
    s.Known e.serverID ∧ a = .poller e.serverID (.fetch (some e.data)) := by
  unfold ObjectCharts.sent at he
  split at he
  · split at he
    · next heq =>
      obtain rfl := List.mem_singleton.mp he
      obtain ⟨p, hp, -⟩ := Option.map_eq_some_iff.mp heq
      exact ⟨Option.isSome_of_mem hp, rfl⟩
    · cases he
  · cases he

/-- **For each new answer its event is sent**, with the same values. -/
theorem ObjectPollers.polled_step (hstep : s.step ttl a = some s') {v : VariableRef}
    {table : IOTable} {key : String} (hv : v.variableName = table.varName key)
    (hsent : ∀ e ∈ ObjectCharts.sent s a, e.data.KeysNodup ∧
      ∀ x ∈ e.data.vars, x.1 ≠ table.varName key) :
    ∃ new, s'.polled v = s.polled v ++ new ∧ new.map DataPoint.value =
      (livePoints (ObjectCharts.sent s a) v).map DataPoint.value := by
  cases a with
  | tick d =>
    obtain rfl := Option.some.inj hstep
    exact ⟨[], (List.append_nil _).symm, rfl⟩
  | new serverID =>
    obtain ⟨hlookup, rfl⟩ := ObjectPollers.new_cases hstep
    refine ⟨[], ?_, rfl⟩
    rw [List.append_nil]
    unfold ObjectPollers.polled ObjectPollers.put
    dsimp only
    rw [GoMap.lookup_insert]
    split_ifs with hserver
    · rw [hserver, hlookup]
      rfl
    · rfl
  | external objectName sensorName value timestamp =>
    obtain ⟨-, hsome⟩ := Option.ite_none_right_eq_some.mp hstep
    obtain rfl := Option.some.inj hsome
    exact ⟨[], (List.append_nil _).symm, rfl⟩
  | poller serverID a =>
    obtain ⟨p, hp, hstep⟩ := Option.bind_eq_some_iff.mp hstep
    obtain ⟨q, hpollers, -, hanswers⟩ := (ObjectPollers.pollerStep_cases hstep).answers
    have hpolled : s'.polled v = if v.serverID = serverID then pointsOf q.answered v
        else s.polled v := by
      unfold ObjectPollers.polled
      rw [hpollers, GoMap.lookup_insert]
      split_ifs <;> rfl
    have hbefore : v.serverID = serverID → s.polled v = pointsOf p.answered v := by
      intro hserver
      unfold ObjectPollers.polled
      rw [hserver, hp]
    rw [hpolled]
    rcases hanswers with ⟨hsame, hno⟩ | ⟨now, objectName, objects, data, rfl, hphase, hrows⟩
    · -- no event is sent
      have hnil : ObjectCharts.sent s (.poller serverID a) = [] := by
        unfold ObjectCharts.sent
        split
        · next heq =>
          cases heq
          exact absurd rfl (hno _)
        · rfl
      rw [hnil]
      refine ⟨[], ?_, rfl⟩
      rw [List.append_nil, hsame]
      split_ifs with hserver
      · exact (hbefore hserver).symm
      · rfl
    · have hone : ObjectCharts.sent s (.poller serverID (.fetch (some data))) =
          [⟨serverID, objectName, data, s.clock⟩] := by
        unfold ObjectCharts.sent
        dsimp only
        rw [hp, Option.map_some, hphase]
      rw [hone] at hsent ⊢
      obtain ⟨hkeys, hvars⟩ := hsent _ (List.mem_singleton.mpr rfl)
      refine ⟨pointsOf (data.rows serverID objectName now) v, ?_, ?_⟩
      · split_ifs with hserver
        · rw [hrows, hbefore hserver]
          unfold pointsOf
          rw [List.filter_append, List.map_append]
        · rw [pointsOf_rows hv hkeys hvars, if_neg fun h => hserver h.1.symm, List.append_nil]
      · rw [pointsOf_rows hv hkeys hvars, livePoints_singleton]
        dsimp only
        split_ifs
        · cases data.chartValue v.variableName <;> rfl
        · rfl

end

/-! ### What a chart shows -/

/-- The last points, with one more. -/
theorem lastPoints_concat (n : ℕ) (points : List (DataPoint V)) (point : DataPoint V) :
    Storage.lastPoints n (points ++ [point]) =
      (let data := Storage.lastPoints n points ++ [point]
        if n < data.length then data.tail else data) := by
  unfold Storage.lastPoints
  dsimp only
  rw [List.length_append, List.length_append, List.length_singleton, List.length_drop]
  by_cases hn : n ≤ points.length
  · have hdrop : points.length - n ≤ points.length := Nat.sub_le _ _
    have hlen : n < points.length - (points.length - n) + 1 := by omega
    have hsucc : points.length + 1 - n = points.length - n + 1 := by omega
    rw [if_pos hlen, hsucc, ← List.drop_append_of_le_length hdrop, List.tail_drop]
  · have hzero : points.length - n = 0 := by omega
    have hlen : ¬ n < points.length - 0 + 1 := by omega
    have hsucc : points.length + 1 - n = 0 := by omega
    rw [hzero, if_neg hlen, hsucc, List.drop_zero, List.drop_zero]

/-- The points of a history that are younger than the time to live when it is asked for. -/
def HistoryAnswer.young (ttl : Duration) (a : HistoryAnswer V) (points : List (DataPoint V)) :
    List (DataPoint V) :=
  points.filter fun p => a.time - ttl < p.timestamp

/-- **A history**: the last points of those that were saved by then, two hundred of them or all that
are young. -/
structure HistoryAnswer.Of (ttl : Duration) (polled : List (DataPoint V)) (a : HistoryAnswer V) :
    Prop where
  saved_le : a.saved ≤ polled.length
  suffix : a.points <:+ polled.take a.saved
  length_le : a.points.length ≤ 200
  complete : a.points.length = 200 ∨ a.young ttl a.points = a.young ttl (polled.take a.saved)

/-- **A chart**: its history, and what the events since then had for it, as far as a thousand points
reach. -/
structure ObjectChart.Of (ttl : Duration) (polled live : List (DataPoint V))
    (chart : ObjectChart V) : Prop where
  history : chart.history.Of ttl polled
  handled_le : chart.handled ≤ live.length
  data : chart.data = Storage.lastPoints 1000 (chart.history.points ++ live.drop chart.handled)

section

variable {ttl : Duration} {polled polled' live : List (DataPoint V)}

theorem HistoryAnswer.Of.mono {a : HistoryAnswer V} (h : a.Of ttl polled)
    (hpre : polled <+: polled') : a.Of ttl polled' := by
  obtain ⟨rest, rfl⟩ := hpre
  have htake : (polled ++ rest).take a.saved = polled.take a.saved :=
    List.take_append_of_le_length h.saved_le
  refine ⟨?_, ?_, h.length_le, ?_⟩
  · rw [List.length_append]
    exact h.saved_le.trans (Nat.le_add_right _ _)
  · rw [htake]
    exact h.suffix
  · rw [htake]
    exact h.complete

theorem ObjectChart.Of.mono {chart : ObjectChart V} (h : chart.Of ttl polled live)
    (hpre : polled <+: polled') : chart.Of ttl polled' live :=
  ⟨h.history.mono hpre, h.handled_le, h.data⟩

/-- A point is pushed. -/
theorem ObjectChart.Of.push {chart : ObjectChart V} (h : chart.Of ttl polled live)
    (point : DataPoint V) : (chart.push point).Of ttl polled (live ++ [point]) := by
  refine ⟨h.history, ?_, ?_⟩
  · rw [List.length_append]
    exact h.handled_le.trans (Nat.le_add_right _ _)
  · show _ = Storage.lastPoints 1000
      (chart.history.points ++ (live ++ [point]).drop chart.handled)
    rw [List.drop_append_of_le_length h.handled_le, ← List.append_assoc, lastPoints_concat,
      ← h.data]
    rfl

/-- A chart that is made of a history. -/
theorem ObjectChart.of_history {a : HistoryAnswer V} (h : a.Of ttl polled) :
    ObjectChart.Of ttl polled live ⟨a.points, a, live.length⟩ := by
  refine ⟨h, le_refl _, ?_⟩
  have hle : a.points.length ≤ 1000 := h.length_le.trans (by decide)
  show a.points = Storage.lastPoints 1000 (a.points ++ live.drop live.length)
  unfold Storage.lastPoints
  rw [List.drop_length, List.append_nil, Nat.sub_eq_zero_of_le hle, List.drop_zero]

end

/-! ### The invariant -/

namespace ObjectCharts

variable {ttl : Duration} {start : Time} {s s' : ObjectCharts V} {v : VariableRef}

/-- What holds of a tab, and of its chart of a variable. -/
structure TabInv (ttl : Duration) (v : VariableRef) (server : ObjectPollers V)
    (handled : List (ObjectDataEvent V)) (k : String) (tab : ObjectTab V) : Prop where
  key : k = tabKey tab.serverID tab.displayName
  known : server.Known tab.serverID
  plain : ':' ∉ tab.displayName.toList
  chart : tab.serverID = v.serverID → tab.displayName = v.objectName →
    ∀ chart, tab.charts.lookup v.variableName = some chart →
      chart.Of ttl (server.polled v) (livePoints handled v)

/-- What holds of a request. -/
structure RequestInv (ttl : Duration) (v : VariableRef) (server : ObjectPollers V)
    (r : HistoryRequest V) : Prop where
  key : r.key = tabKey r.serverID r.displayName
  known : server.Known r.serverID
  answer : r.ref = v → ∀ a, r.answer = some a → a.Of ttl (server.polled v)

/-- What holds of a page. -/
structure Inv (ttl : Duration) (v : VariableRef) (s : ObjectCharts V) : Prop where
  servers : ∀ id, s.server.Known id → ':' ∉ id.toList
  events : ∀ e ∈ s.stream, s.server.Known e.serverID
  tabs : ∀ k tab, s.tabs.lookup k = some tab → TabInv ttl v s.server s.handled k tab
  requests : ∀ r ∈ s.requests, RequestInv ttl v s.server r
  sent : ((livePoints (s.handled ++ s.stream) v).map DataPoint.value).Sublist
    ((s.server.polled v).map DataPoint.value)
  all : s.lost = 0 → (livePoints (s.handled ++ s.stream) v).map DataPoint.value =
    (s.server.polled v).map DataPoint.value

/-- A tab after a change to the charts of one. -/
theorem of_lookup_modifyCharts {tabs : JsMap (ObjectTab V)} {key k : String}
    {f : JsMap (ObjectChart V) → JsMap (ObjectChart V)} {tab : ObjectTab V}
    (h : (modifyCharts tabs key f).lookup k = some tab) : ∃ old, tabs.lookup k = some old ∧
      tab = { old with charts := if k = key then f old.charts else old.charts } := by
  unfold modifyCharts at h
  cases hkey : tabs.lookup key with
  | none =>
    rw [hkey] at h
    dsimp only at h
    have hne : k ≠ key := by
      rintro rfl
      rw [hkey] at h
      cases h
    exact ⟨tab, h, by rw [if_neg hne]⟩
  | some old =>
    rw [hkey] at h
    dsimp only at h
    rw [JsMap.lookup_insert] at h
    split_ifs at h with hk
    · obtain rfl := Option.some.inj h
      exact ⟨old, hk ▸ hkey, by rw [if_pos hk]⟩
    · exact ⟨tab, h, by rw [if_neg hk]⟩

/-- The charts of a tab are changed. -/
theorem Inv.modifyCharts (h : Inv ttl v s) {key : String}
    {f : JsMap (ObjectChart V) → JsMap (ObjectChart V)}
    (hf : ∀ tab, s.tabs.lookup key = some tab → tab.serverID = v.serverID →
      tab.displayName = v.objectName → ∀ chart, (f tab.charts).lookup v.variableName = some chart →
        tab.charts.lookup v.variableName = some chart ∨
          chart.Of ttl (s.server.polled v) (livePoints s.handled v)) :
    ∀ k tab, (ObjectCharts.modifyCharts s.tabs key f).lookup k = some tab →
      TabInv ttl v s.server s.handled k tab := by
  intro k tab hk
  obtain ⟨old, hold, rfl⟩ := of_lookup_modifyCharts hk
  have htab := h.tabs k old hold
  refine ⟨htab.key, htab.known, htab.plain, fun hserver hname chart hchart => ?_⟩
  dsimp only at hserver hname hchart
  split_ifs at hchart with hkey
  · rcases hf old (hkey ▸ hold) hserver hname chart hchart with hsame | hof
    · exact htab.chart hserver hname chart hsame
    · exact hof
  · exact htab.chart hserver hname chart hchart

/-- A step of the pollers. -/
theorem Inv.server (h : Inv ttl v s) {a : ObjectPollersAction V} {server : ObjectPollers V}
    (hstep : s.server.step ttl a = some server) (hnew : ∀ id, a = .new id → ':' ∉ id.toList)
    {new : List (DataPoint V)} (hpolled : server.polled v = s.server.polled v ++ new)
    (hvalues : new.map DataPoint.value =
      (livePoints (ObjectCharts.sent s.server a) v).map DataPoint.value) :
    Inv ttl v { s with server, stream := s.stream ++ ObjectCharts.sent s.server a } := by
  obtain ⟨-, hknown⟩ := ObjectPollers.grows hstep
  have hkeep : ∀ id, s.server.Known id → server.Known id := fun id hid => (hknown id).mpr (.inl hid)
  have hpre : s.server.polled v <+: server.polled v := hpolled ▸ List.prefix_append _ _
  have hlive : (livePoints (s.handled ++ (s.stream ++ ObjectCharts.sent s.server a)) v).map
      DataPoint.value = (livePoints (s.handled ++ s.stream) v).map DataPoint.value ++
        new.map DataPoint.value := by
    rw [← List.append_assoc, livePoints_append, List.map_append, hvalues]
  refine ⟨fun id hid => ?_, fun e he => ?_, fun k tab hk => ?_, fun r hr => ?_, ?_, fun hlost => ?_⟩
  · rcases (hknown id).mp hid with hid | hid
    · exact h.servers id hid
    · exact hnew id hid
  · rcases List.mem_append.mp he with he | he
    · exact hkeep _ (h.events e he)
    · exact hkeep _ (of_mem_sent he).1
  · have htab := h.tabs k tab hk
    exact ⟨htab.key, hkeep _ htab.known, htab.plain, fun hserver hname chart hchart =>
      (htab.chart hserver hname chart hchart).mono hpre⟩
  · have hreq := h.requests r hr
    exact ⟨hreq.key, hkeep _ hreq.known, fun href a ha => (hreq.answer href a ha).mono hpre⟩
  · show ((livePoints _ v).map _).Sublist ((server.polled v).map _)
    rw [hlive, hpolled, List.map_append]
    exact h.sent.append (List.Sublist.refl _)
  · show (livePoints _ v).map _ = (server.polled v).map _
    rw [hlive, hpolled, List.map_append, h.all hlost]

/-- An event is lost. -/
theorem Inv.lose (h : Inv ttl v s) (i : ℕ) :
    Inv ttl v { s with stream := s.stream.eraseIdx i, lost := s.lost + 1 } := by
  refine ⟨h.servers, fun e he => h.events e (List.mem_of_mem_eraseIdx he), h.tabs, h.requests, ?_,
    nofun⟩
  refine List.Sublist.trans ?_ h.sent
  have hsub : (s.handled ++ s.stream.eraseIdx i).Sublist (s.handled ++ s.stream) :=
    (List.Sublist.refl _).append (List.eraseIdx_sublist _ _)
  exact (hsub.filterMap _).map _

/-- **The listener of `object_data`**: a chart of the variable gets the point that the event has for
it, and no other. -/
theorem Inv.handle (h : Inv ttl v s) {e : ObjectDataEvent V} {stream : List (ObjectDataEvent V)}
    (hstream : s.stream = e :: stream) : Inv ttl v { s with
      stream, tabs := onObjectData s.tabs e, handled := s.handled ++ [e] } := by
  have hassoc : s.handled ++ [e] ++ stream = s.handled ++ s.stream := by
    rw [List.append_assoc, List.singleton_append, hstream]
  have hknown : s.server.Known e.serverID := h.events e (hstream ▸ List.mem_cons_self)
  refine ⟨h.servers, fun e' he' => h.events e' (hstream ▸ List.mem_cons_of_mem e he'),
    fun k tab hk => ?_, h.requests, hassoc ▸ h.sent, hassoc ▸ h.all⟩
  obtain ⟨old, hold, rfl⟩ := of_lookup_modifyCharts hk
  have htab := h.tabs k old hold
  refine ⟨htab.key, htab.known, htab.plain, fun hserver hname chart hchart => ?_⟩
  dsimp only at hserver hname hchart
  show chart.Of ttl _ (livePoints (s.handled ++ [e]) v)
  rw [livePoints_append, livePoints_singleton]
  have hkey : k = tabKey v.serverID v.objectName := by rw [htab.key, hserver, hname]
  split_ifs at hchart with htarget
  · -- the event is for the tab
    have hsame : e.serverID = v.serverID ∧ e.objectName = v.objectName := by
      have heq : tabKey e.serverID e.objectName = tabKey v.serverID v.objectName :=
        htarget.symm.trans hkey
      have hv : ':' ∉ v.serverID.toList := hserver ▸ h.servers _ htab.known
      have hid := serverID_eq_of_tabKey_eq (h.servers _ hknown) hv heq
      rw [hid] at heq
      exact ⟨hid, tabKey_inj_right heq⟩
    rw [if_pos hsame]
    rw [JsMap.lookup_mapWithKey] at hchart
    obtain ⟨chart', hchart', rfl⟩ := Option.map_eq_some_iff.mp hchart
    have hof := htab.chart hserver hname chart' hchart'
    cases e.data.chartValue v.variableName with
    | none =>
      rw [Option.map_none, Option.toList_none, List.append_nil]
      exact hof
    | some value => exact hof.push ⟨e.timestamp, value⟩
  · have hother : ¬ (e.serverID = v.serverID ∧ e.objectName = v.objectName) := by
      rintro ⟨hid, hobject⟩
      exact htarget (by rw [hkey, hid, hobject])
    rw [if_neg hother, List.append_nil]
    exact htab.chart hserver hname chart hchart

/-- What `GetVariableHistory` answers for a chart. -/
theorem of_getVariableHistory {server : ObjectPollers V}
    (hreach : (pollersMachine V ttl start).Reachable server) (hnamed : Named v.serverID)
    (hknown : server.Known v.serverID) (hunshared : server.Unshared v) {points : List (DataPoint V)}
    (h : server.storage.getVariableHistory v.objectName v.variableName (some 200) v.serverID =
      .ok points) :
    HistoryAnswer.Of ttl (server.polled v)
      ⟨points, server.clock, (pointsOf server.saved v).length⟩ := by
  obtain ⟨p, hp⟩ := Option.isSome_iff_exists.mp hknown
  obtain ⟨stored, hstores⟩ := exists_stores_of_reachable hreach hp hnamed hunshared
  have hpolled : server.polled v = pointsOf server.saved v ++ pointsOf p.phase.pending v := by
    unfold ObjectPollers.polled
    rw [hp]
    exact pointsOf_answered hreach hp hnamed
  have htake :
      (server.polled v).take (pointsOf server.saved v).length = pointsOf server.saved v := by
    rw [hpolled]
    exact List.take_left
  have hpoints : points = Storage.lastPoints 200 stored := by
    unfold Storage.getVariableHistory at h
    split_ifs at h
    rw [← hstores.getLatest 200]
    exact (Except.ok.inj h).symm
  refine ⟨?_, ?_, ?_, ?_⟩
  · show (pointsOf server.saved v).length ≤ (server.polled v).length
    rw [hpolled, List.length_append]
    exact Nat.le_add_right _ _
  · show points <:+ (server.polled v).take (pointsOf server.saved v).length
    rw [htake, hpoints]
    exact (List.drop_suffix _ _).trans hstores.suffix
  · show points.length ≤ 200
    rw [hpoints]
    unfold Storage.lastPoints
    rw [List.length_drop]
    omega
  · show points.length = 200 ∨ server.young ttl points =
      server.young ttl ((server.polled v).take (pointsOf server.saved v).length)
    rw [htake, hpoints, ← hstores.young]
    unfold Storage.lastPoints
    rw [List.length_drop]
    by_cases hlen : stored.length ≤ 200
    · rw [Nat.sub_eq_zero_of_le hlen, List.drop_zero]
      exact .inr rfl
    · exact .inl (by omega)

/-- `GetVariableHistory`. -/
theorem Inv.getVariableHistory (h : Inv ttl v s)
    (hreach : (pollersMachine V ttl start).Reachable s.server) (hnamed : Named v.serverID)
    (hunshared : s.server.Unshared v) {i : ℕ} {r : HistoryRequest V}
    (hr : s.requests[i]? = some r) :
    Inv ttl v (s.getVariableHistory i r) := by
  have hreq := h.requests r (List.mem_of_getElem? hr)
  unfold ObjectCharts.getVariableHistory
  cases hanswer : s.server.storage.getVariableHistory r.displayName r.varName (some 200) r.serverID with
  | error text =>
    exact ⟨h.servers, h.events, h.tabs, fun r' hr' => h.requests r' (List.mem_of_mem_eraseIdx hr'),
      h.sent, h.all⟩
  | ok points =>
    refine ⟨h.servers, h.events, h.tabs, fun r' hr' => ?_, h.sent, h.all⟩
    rcases List.mem_or_eq_of_mem_set hr' with hr' | rfl
    · exact h.requests r' hr'
    · refine ⟨hreq.key, hreq.known, fun href a ha => ?_⟩
      obtain rfl := Option.some.inj ha
      obtain rfl : r.ref = v := href
      exact of_getVariableHistory hreach hnamed hreq.known hunshared hanswer

/-- A request ends, and its chart is given the answer. -/
theorem Inv.response (h : Inv ttl v s) {r : HistoryRequest V} (hr : RequestInv ttl v s.server r)
    {a : HistoryAnswer V} (ha : r.answer = some a) : ∀ k tab,
      (s.response r a).lookup k = some tab → TabInv ttl v s.server s.handled k tab := by
  unfold ObjectCharts.response
  split_ifs
  · apply h.modifyCharts
    intro tab htab hserver hname chart hchart
    rw [JsMap.lookup_insert] at hchart
    split_ifs at hchart with hvar
    · -- the request is for the variable
      obtain rfl := Option.some.inj hchart
      have hkey := (h.tabs r.key tab htab).key
      have href : r.ref = v := by
        have heq : tabKey r.serverID r.displayName = tabKey v.serverID v.objectName := by
          rw [← hr.key, hkey, hserver, hname]
        have hv : ':' ∉ v.serverID.toList := hserver ▸ h.servers _ (h.tabs r.key tab htab).known
        have hid := serverID_eq_of_tabKey_eq (h.servers _ hr.known) hv heq
        rw [hid] at heq
        show VariableRef.mk r.serverID r.displayName r.varName = v
        rw [hid, tabKey_inj_right heq, ← hvar]
      rw [href]
      exact .inr (ObjectChart.of_history (hr.answer href a ha))
    · exact .inl hchart
  · exact h.tabs

end ObjectCharts

/-- The servers and the objects have no colon in their names, and no variable is called like this
input or output. -/
def ObjectChartsAction.Plain (varName : String) : ObjectChartsAction V → Prop
  | .server (.new serverID) => ':' ∉ serverID.toList
  | .openTab _ name => ':' ∉ name.toList
  | .server (.poller _ (.fetch (some data))) => ∀ x ∈ data.vars, x.1 ≠ varName
  | _ => True

namespace ObjectCharts

variable {ttl : Duration} {start : Time} {s s' : ObjectCharts V} {v : VariableRef}

/-- The tab of a key is found by its key, as no object is called like it. -/
theorem Inv.findTabKeyByDisplayName_eq (h : Inv ttl v s) {key : String} {tab : ObjectTab V}
    (htab : s.tabs.lookup key = some tab) (range : List String) :
    findTabKeyByDisplayName s.tabs key range = some key := by
  have hcolon : ':' ∈ key.toList := by
    rw [(h.tabs key tab htab).key]
    simp [tabKey, String.toList_append]
  have hnone : (range.find? fun k => (s.tabs.lookup k).any fun t => t.displayName = key) = none := by
    rw [List.find?_eq_none]
    intro k _ hany
    cases ht : s.tabs.lookup k with
    | none =>
      rw [ht] at hany
      cases hany
    | some t =>
      rw [ht] at hany
      have hname : t.displayName = key := of_decide_eq_true hany
      exact (h.tabs k t ht).plain (hname ▸ hcolon)
  unfold findTabKeyByDisplayName
  rw [hnone, Option.none_or, if_pos (by rw [htab]; rfl)]

/-- The requests that are sent. -/
theorem addChart_cases {key varName : String} (hadd : s.addChart key varName = some s') :
    ∃ tab, s.tabs.lookup key = some tab ∧ s' = { s with
      requests := s.requests ++
        [⟨tab.id, key, varName, tab.serverID, tab.displayName, false, none⟩] } := by
  obtain ⟨tab, htab, hadd⟩ := Option.bind_eq_some_iff.mp hadd
  obtain ⟨-, hsome⟩ := Option.ite_none_right_eq_some.mp hadd
  exact ⟨tab, htab, (Option.some.inj hsome).symm⟩

theorem updateChart_cases {key varName : String} {range : List String}
    (hupdate : s.updateChart key varName range = some s') :
    ∃ shown tab, s.tabs.lookup key = some shown ∧
      s.tabs.lookup ((findTabKeyByDisplayName s.tabs key range).getD key) = some tab ∧
      s' = { s with
        requests := s.requests ++
          [⟨shown.id, key, varName, tab.serverID, tab.displayName, true, none⟩] } := by
  obtain ⟨shown, hshown, hupdate⟩ := Option.bind_eq_some_iff.mp hupdate
  obtain ⟨tab, htab, hupdate⟩ := Option.bind_eq_some_iff.mp hupdate
  obtain ⟨-, hsome⟩ := Option.ite_none_right_eq_some.mp hupdate
  exact ⟨shown, tab, hshown, htab, (Option.some.inj hsome).symm⟩

/-- A request is sent for the object of a tab. -/
theorem Inv.request (h : Inv ttl v s) {key varName : String} {tab : ObjectTab V}
    (htab : s.tabs.lookup key = some tab) (id : ℕ) (update : Bool) :
    Inv ttl v { s with
      requests := s.requests ++
        [⟨id, key, varName, tab.serverID, tab.displayName, update, none⟩] } := by
  refine ⟨h.servers, h.events, h.tabs, fun r hr => ?_, h.sent, h.all⟩
  rcases List.mem_append.mp hr with hr | hr
  · exact h.requests r hr
  · obtain rfl := List.mem_singleton.mp hr
    exact ⟨(h.tabs key tab htab).key, (h.tabs key tab htab).known, fun _ a ha => by cases ha⟩

theorem Inv.updateChart (h : Inv ttl v s) {key varName : String} {range : List String}
    (hupdate : s.updateChart key varName range = some s') : Inv ttl v s' := by
  obtain ⟨shown, tab, hshown, htab, rfl⟩ := updateChart_cases hupdate
  rw [h.findTabKeyByDisplayName_eq hshown, Option.getD_some] at htab
  exact h.request htab shown.id true

theorem handle_cases (hstep : s.step ttl .handle = some s') : ∃ e stream, s.stream = e :: stream ∧
    s' = { s with stream, tabs := onObjectData s.tabs e, handled := s.handled ++ [e] } := by
  simp only [ObjectCharts.step] at hstep
  split at hstep
  · cases hstep
  · next e stream hstream => exact ⟨e, stream, hstream, (Option.some.inj hstep).symm⟩

/-- A request is answered once, -/
theorem answer_cases {i : ℕ} (hstep : s.step ttl (.answer i) = some s') :
    ∃ r, s.requests[i]? = some r ∧ s' = s.getVariableHistory i r := by
  simp only [ObjectCharts.step] at hstep
  split at hstep
  · cases hstep
  · next r hr =>
    obtain ⟨-, hsome⟩ := Option.ite_none_left_eq_some.mp hstep
    exact ⟨r, hr, (Option.some.inj hsome).symm⟩

/-- and its answer arrives afterwards. -/
theorem response_cases {i : ℕ} (hstep : s.step ttl (.response i) = some s') :
    ∃ r answer, s.requests[i]? = some r ∧ r.answer = some answer ∧
      s' = { s with tabs := s.response r answer, requests := s.requests.eraseIdx i } := by
  simp only [ObjectCharts.step] at hstep
  split at hstep
  · cases hstep
  · next r hr =>
    obtain ⟨answer, ha, rfl⟩ := Option.map_eq_some_iff.mp hstep
    exact ⟨r, answer, hr, ha, rfl⟩

/-- **One step.** -/
theorem Inv.step (h : Inv ttl v s) (hreach : (pollersMachine V ttl start).Reachable s.server)
    (hnamed : Named v.serverID) (hunshared : s.server.Unshared v) {table : IOTable} {key : String}
    (hv : v.variableName = table.varName key) {a : ObjectChartsAction V}
    (hplain : a.Plain v.variableName) (hstep : s.step ttl a = some s') : Inv ttl v s' := by
  cases a with
  | server a =>
    obtain ⟨server, hserver, hstep⟩ := Option.bind_eq_some_iff.mp hstep
    obtain ⟨hkeys, hsome⟩ := Option.ite_none_right_eq_some.mp hstep
    obtain rfl := Option.some.inj hsome
    have hsent : ∀ e ∈ ObjectCharts.sent s.server a, e.data.KeysNodup ∧
        ∀ x ∈ e.data.vars, x.1 ≠ table.varName key := by
      intro e he
      refine ⟨hkeys e he, ?_⟩
      rw [(of_mem_sent he).2, hv] at hplain
      exact hplain
    obtain ⟨new, hpolled, hvalues⟩ := ObjectPollers.polled_step hserver hv hsent
    refine h.server hserver ?_ hpolled hvalues
    rintro id rfl
    exact hplain
  | lose i =>
    obtain ⟨-, hsome⟩ := Option.ite_none_right_eq_some.mp hstep
    exact Option.some.inj hsome ▸ h.lose i
  | handle =>
    obtain ⟨e, stream, hstream, rfl⟩ := handle_cases hstep
    exact h.handle hstream
  | openTab serverID name =>
    obtain ⟨⟨-, hknown, -⟩, hsome⟩ := Option.ite_none_right_eq_some.mp hstep
    obtain rfl := Option.some.inj hsome
    refine ⟨h.servers, h.events, ?_, h.requests, h.sent, h.all⟩
    apply JsMap.forall_insert h.tabs
    exact ⟨rfl, hknown, hplain, fun _ _ chart hchart => by cases hchart⟩
  | closeTab k =>
    obtain rfl := Option.some.inj hstep
    refine ⟨h.servers, h.events, fun k' tab hk' => ?_,
      fun r hr => h.requests r (List.mem_of_mem_filter hr), h.sent, h.all⟩
    dsimp only at hk'
    rw [JsMap.lookup_erase] at hk'
    split_ifs at hk'
    exact h.tabs k' tab hk'
  | addChart k varName =>
    obtain ⟨tab, htab, rfl⟩ := addChart_cases hstep
    exact h.request htab tab.id false
  | updateChart k varName range =>
    obtain ⟨-, hupdate⟩ := Option.ite_none_right_eq_some.mp hstep
    exact h.updateChart hupdate
  | removeChart k varName =>
    obtain rfl := Option.some.inj hstep
    refine ⟨h.servers, h.events, ?_, fun r hr => h.requests r (List.mem_of_mem_filter hr), h.sent,
      h.all⟩
    apply h.modifyCharts
    intro tab _ _ _ chart hchart
    rw [JsMap.lookup_erase] at hchart
    split_ifs at hchart
    exact .inl hchart
  | answer i =>
    obtain ⟨r, hr, rfl⟩ := answer_cases hstep
    exact h.getVariableHistory hreach hnamed hunshared hr
  | response i =>
    obtain ⟨r, a, hr, ha, rfl⟩ := response_cases hstep
    exact ⟨h.servers, h.events, h.response (h.requests r (List.mem_of_getElem? hr)) ha,
      fun r' hr' => h.requests r' (List.mem_of_mem_eraseIdx hr'), h.sent, h.all⟩
  | fail i =>
    obtain rfl := Option.some.inj hstep
    exact ⟨h.servers, h.events, h.tabs, fun r hr => h.requests r (List.mem_of_mem_eraseIdx hr),
      h.sent, h.all⟩

/-- What a step does to the pollers: a step of theirs, or nothing. -/
theorem step_server {a : ObjectChartsAction V} (hstep : s.step ttl a = some s') :
    s'.server = s.server ∨ ∃ b, s.server.step ttl b = some s'.server := by
  cases a with
  | server a =>
    obtain ⟨server, hserver, hstep⟩ := Option.bind_eq_some_iff.mp hstep
    obtain ⟨-, hsome⟩ := Option.ite_none_right_eq_some.mp hstep
    exact .inr ⟨a, Option.some.inj hsome ▸ hserver⟩
  | lose i | openTab serverID name =>
    obtain ⟨-, hsome⟩ := Option.ite_none_right_eq_some.mp hstep
    exact .inl (Option.some.inj hsome ▸ rfl)
  | handle =>
    obtain ⟨e, stream, -, rfl⟩ := handle_cases hstep
    exact .inl rfl
  | addChart k varName =>
    obtain ⟨tab, -, rfl⟩ := addChart_cases hstep
    exact .inl rfl
  | updateChart k varName range =>
    obtain ⟨-, hupdate⟩ := Option.ite_none_right_eq_some.mp hstep
    obtain ⟨shown, tab, -, -, rfl⟩ := updateChart_cases hupdate
    exact .inl rfl
  | closeTab k | removeChart k varName | fail i => exact .inl (Option.some.inj hstep ▸ rfl)
  | answer i =>
    obtain ⟨r, -, rfl⟩ := answer_cases hstep
    refine .inl ?_
    unfold getVariableHistory
    split <;> rfl
  | response i =>
    obtain ⟨r, a, -, -, rfl⟩ := response_cases hstep
    exact .inl rfl

theorem server_reachable (hr : (chartsMachine V ttl start).Reachable s) :
    (pollersMachine V ttl start).Reachable s.server := by
  refine Machine.Reachable.induction (P := fun s : ObjectCharts V =>
    (pollersMachine V ttl start).Reachable s.server) (Machine.reachable_init _) ?_ hr
  intro s a t _ ih hstep
  rcases step_server hstep with hsame | ⟨b, hserver⟩
  · exact hsame ▸ ih
  · exact ih.step hserver

/-- Names that are shared stay so. -/
theorem unshared_of_step {a : ObjectChartsAction V} (hstep : s.step ttl a = some s')
    (h : s'.server.Unshared v) : s.server.Unshared v := by
  rcases step_server hstep with hsame | ⟨b, hserver⟩
  · exact hsame ▸ h
  · exact fun row hrow => h row ((ObjectPollers.grows hserver).1.subset hrow)

theorem inv_of_run {as : List (ObjectChartsAction V)}
    (hrun : (chartsMachine V ttl start).run (chartsMachine V ttl start).init as = some s)
    (hnamed : Named v.serverID) {table : IOTable} {key : String}
    (hv : v.variableName = table.varName key) (hplain : ∀ a ∈ as, a.Plain v.variableName)
    (hunshared : s.server.Unshared v) : Inv ttl v s := by
  refine Machine.history_induction (P := fun as (s : ObjectCharts V) =>
    (∀ a ∈ as, a.Plain v.variableName) → s.server.Unshared v → Inv ttl v s) ?_ ?_ hrun hplain
    hunshared
  · intro _ _
    refine ⟨fun id hid => ?_, List.forall_mem_nil _, fun k tab hk => ?_, List.forall_mem_nil _,
      List.Sublist.refl _, fun _ => rfl⟩
    · cases hid
    · cases hk
  · intro as s a t hrun ih hstep hplain hunshared
    have hbefore := unshared_of_step hstep hunshared
    have hinv := ih (fun b hb => hplain b (List.mem_append_left _ hb)) hbefore
    exact hinv.step (server_reachable ⟨as, hrun⟩) hnamed hbefore hv
      (hplain a (List.mem_append_right _ (List.mem_singleton.mpr rfl))) hstep

end ObjectCharts

/-! ### The chart follows the polls -/

/-- **What a chart shows**: `polled` are the points of all answers of the poller for its variable,
`live` those of the events that the page has handled, `onTheWay` those of the events still to come. -/
structure ObjectChart.Follows (ttl : Duration) (polled live onTheWay : List (DataPoint V)) (lost : ℕ)
    (chart : ObjectChart V) : Prop where
  /-- a history, and the points of the events that were handled since -/
  made : chart.Of ttl polled live
  /-- the events have no other values, and none out of order -/
  genuine : ((live ++ onTheWay).map DataPoint.value).Sublist (polled.map DataPoint.value)
  /-- no value is left out unless an event was lost -/
  complete : lost = 0 → (live ++ onTheWay).map DataPoint.value = polled.map DataPoint.value
  /-- where history and events meet, the chart has the last values without gap and repetition -/
  seamless : lost = 0 → chart.handled = chart.history.saved →
    chart.data.map DataPoint.value <:+ (polled.take live.length).map DataPoint.value

/-- A history that ends where the events begin, and the values of the events. -/
theorem ObjectChart.Of.seamless {ttl : Duration} {polled live onTheWay : List (DataPoint V)}
    {chart : ObjectChart V} (h : chart.Of ttl polled live)
    (hall : (live ++ onTheWay).map DataPoint.value = polled.map DataPoint.value)
    (hmeet : chart.handled = chart.history.saved) :
    chart.data.map DataPoint.value <:+ (polled.take live.length).map DataPoint.value := by
  have hlength : live.length = (live.map DataPoint.value).length := (List.length_map _).symm
  have hlive : live.map DataPoint.value = (polled.take live.length).map DataPoint.value := by
    rw [List.map_take, ← hall, List.map_append, hlength]
    exact List.take_left.symm
  have hsplit : (polled.take live.length).map DataPoint.value =
      (polled.take chart.handled).map DataPoint.value ++
        (live.drop chart.handled).map DataPoint.value := by
    rw [List.map_drop, hlive, ← List.map_drop, ← List.map_append]
    have htake : polled.take chart.handled = (polled.take live.length).take chart.handled := by
      rw [List.take_take, Nat.min_eq_left h.handled_le]
    rw [htake, List.take_append_drop]
  have hsuffix : chart.history.points <:+ polled.take chart.handled := hmeet ▸ h.history.suffix
  rw [h.data, hsplit, ← List.map_append]
  obtain ⟨older, holder⟩ := hsuffix
  have hwhole : chart.history.points ++ live.drop chart.handled <:+
      polled.take chart.handled ++ live.drop chart.handled :=
    ⟨older, by rw [← List.append_assoc, holder]⟩
  exact ((List.drop_suffix _ _).trans hwhole).map _

/-- Two polls; a chart is opened between them. -/
def chartRun : List (ObjectChartsAction ℕ) :=
  [.server (.new "server1"), .openTab "server1" "Pump", .server (.poller "server1" (.watch "Pump")),
    .server (.poller "server1" (.begin ["Pump"])), .server (.tick 5),
    .server (.poller "server1" (.fetch (some ⟨[("level", 7)], [("AI_1", 8)], []⟩))),
    .server (.poller "server1" .save), .server (.poller "server1" .save), .handle,
    .addChart "server1:Pump" "io.in.AI_1", .answer 0, .response 0,
    .updateChart "server1:Pump" "io.in.AI_1" ["server1:Pump"], .answer 0, .response 0,
    .server (.poller "server1" .finish), .server (.poller "server1" (.begin ["Pump"])),
    .server (.poller "server1" (.fetch (some ⟨[("level", 7)], [("AI_1", 9)], []⟩))), .handle]

end UnisetPanel
