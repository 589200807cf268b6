/-
  Write access: every command that leaves the panel was asked for by the
  session that had control, or is the filter of a log stream.

  A request is not one step.  `checkControlAccess` is its first, and what the
  handler does after it happens later, when control may have changed hands, the
  server may be gone and other requests may be under way.  Pollers and health
  checks make requests of the servers besides.  So the machine here has the
  control manager, the handlers' own state and the requests between their two
  steps, and keeps the list of everything that was done (`effects`).

  What is a command is read off the path that is sent, as the server reads it
  (`Effect.writes`), not off the method that sends it; this is where the names
  of the objects must be segments, for they are put into the path as they are.
  Then a command is done only for a request whose handler checks the control,
  once for each, and at the moment of the check the request carried the token
  of the session; and for a request for a log stream, which anyone may make and
  which brings its filter along (`writes_authorised`).
-/
import UnisetPanel.API.Handlers
import UnisetPanel.ControlManager.Session

namespace UnisetPanel

namespace API

open ByteText QueryString

/-! ### What writes -/

/-- The path of a request asks the server to change something; a connection to a LogServer changes
nothing, and all other effects do change something. -/
def Effect.writes : Effect → Bool
  | .uniset client call => ((call.path client).bind readURL).any ServerRequest.isWrite
  | .openLogStream _ _ => false
  | _ => true

/-- The effect names an object that is one segment of a path. -/
def Effect.NamesSegment : Effect → Prop
  | .uniset _ call => IsSegment call.objectName
  | _ => True

theorem writes_uniset {client : UniSetClient} {call : UniSetCall}
    (ho : IsSegment call.objectName) (h : (Effect.uniset client call).writes = true) :
    call.isWrite = true := by
  obtain ⟨r, hr, hw⟩ := (Option.any_eq_true _ _).mp h
  obtain ⟨path, hpath, hread⟩ := Option.bind_eq_some_iff.mp hr
  rwa [← isWrite_of_path ho hpath hread]

/-- The calls of the pollers and of the health check. -/
def isBackground : UniSetCall → Bool
  | .getObjectList | .getObjectData _ | .getIONCSensorValues _ _ | .getValues _ _
  | .getOPCUAServerSensorValues _ _ => true
  | _ => false

theorem isWrite_of_isBackground {call : UniSetCall} (h : isBackground call = true) :
    call.isWrite = false := by
  cases call <;> first | rfl | cases h

/-! ### Handlers that do not check the control -/

theorem bind_eq_ok {α β : Type} {x : Answer α} {f : α → Answer β} {b : β}
    (h : (x >>= f) = .ok b) : ∃ a, x = .ok a ∧ f a = .ok b := by
  cases x with
  | error err => cases h
  | ok a => exact ⟨a, rfl, h⟩

theorem clientHandler_eq_ok {h : Handlers} {r : HTTPRequest} {f : Bytes → Answer UniSetCall}
    {e : Effect} (he : clientHandler h r f = .ok e) :
    ∃ client name call, f name = .ok call ∧ e = .uniset client call := by
  obtain ⟨name, -, he⟩ := bind_eq_ok he
  obtain ⟨call, hcall, he⟩ := bind_eq_ok he
  obtain ⟨client, -, he⟩ := bind_eq_ok he
  exact ⟨client, name, call, hcall, (Except.ok.inj he).symm⟩

/-- An effect that is a request by a method that is there to read. -/
def Effect.Reads (e : Effect) : Prop :=
  ∃ client call, e = .uniset client call ∧ call.isWrite = false

theorem reads_of_clientHandler {h : Handlers} {r : HTTPRequest} {f : Bytes → Answer UniSetCall}
    (hf : ∀ name call, f name = .ok call → call.isWrite = false) {e : Effect}
    (he : clientHandler h r f = .ok e) : e.Reads := by
  obtain ⟨client, name, call, hcall, rfl⟩ := clientHandler_eq_ok he
  exact ⟨client, call, rfl, hf name call hcall⟩

theorem reads_of_getObjectData {h : Handlers} {r : HTTPRequest} {e : Effect}
    (he : getObjectData h r = .ok e) : e.Reads := by
  obtain ⟨name, -, he⟩ := bind_eq_ok he
  cases hm : h.serverManager with
  | some instances =>
    rw [hm] at he
    obtain ⟨-, -, he⟩ := bind_eq_ok he
    cases hl : instances.lookup r.server with
    | some client =>
      rw [hl] at he
      exact ⟨client, _, (Except.ok.inj he).symm, rfl⟩
    | none => rw [hl] at he; cases he
  | none =>
    rw [hm] at he
    cases hc : h.client with
    | some client =>
      rw [hc] at he
      exact ⟨client, _, (Except.ok.inj he).symm, rfl⟩
    | none => rw [hc] at he; cases he

/-- The filter that the request for a log stream brings along. -/
def streamFilter (r : HTTPRequest) : Effect := .logServer r.name ⟨"setFilter", 0, r.get "filter"⟩

theorem requireObjectName_eq_ok {r : HTTPRequest} {name : Bytes}
    (h : requireObjectName r = .ok name) : name = r.name := by
  unfold requireObjectName at h
  by_cases hname : r.name = []
  · rw [if_pos hname] at h
    cases h
  · rw [if_neg hname] at h
    exact (Except.ok.inj h).symm

/-- **What the handler of a log stream does**: it reads the object, opens a connection, and sends the
filter if there is one. -/
theorem mem_handleLogServerStream {h : Handlers} {r : HTTPRequest}
    {objData : Except String (Option LogServerInfo)} {connects : Bool} {e : Effect}
    (he : e ∈ (handleLogServerStream h r objData connects).1) :
    e.Reads ∨ (∃ address, e = .openLogStream r.name address) ∨
      e = streamFilter r ∧ r.get "filter" ≠ [] := by
  cases hname : requireObjectName r with
  | error err => simp [handleLogServerStream, hname] at he
  | ok name =>
    cases hclients : h.logServerMgr with
    | none => simp [handleLogServerStream, hname, hclients] at he
    | some clients =>
      cases hread : getObjectData h r with
      | error err => simp [handleLogServerStream, hname, hclients, hread] at he
      | ok read =>
        obtain rfl := requireObjectName_eq_ok hname
        have hreads := reads_of_getObjectData hread
        simp only [handleLogServerStream, hname, hclients, hread] at he
        cases objData with
        | error err => exact Or.inl (List.mem_singleton.mp he ▸ hreads)
        | ok info =>
          cases info with
          | none => exact Or.inl (List.mem_singleton.mp he ▸ hreads)
          | some info =>
            rcases List.mem_cons.mp he with rfl | he
            · exact Or.inl hreads
            rcases List.mem_cons.mp he with rfl | he
            · exact Or.inr (Or.inl ⟨_, rfl⟩)
            split_ifs at he with hfilter
            · exact Or.inr (Or.inr ⟨List.mem_singleton.mp he, hfilter.2⟩)
            · cases he

theorem mem_ofAnswer {x : Answer Effect} {e : Effect} (he : e ∈ (Route.ofAnswer x).1) : x = .ok e := by
  cases x with
  | ok e' =>
    obtain rfl := List.mem_singleton.mp he
    rfl
  | error err => cases he

/-- **A handler that does not check the control only reads**, but for that of the log streams. -/
theorem reads_of_handle {h : Handlers} {r : HTTPRequest} {route : Route} {e : Effect}
    (hg : route.gated = false) (he : e ∈ (route.handle h r).1) :
    e.Reads ∨ (∃ objData connects, route = .logServerStream objData connects) ∧
      ((∃ address, e = .openLogStream r.name address) ∨
        e = streamFilter r ∧ r.get "filter" ≠ []) := by
  cases route with
  | logServerStream objData connects =>
    rcases mem_handleLogServerStream he with hreads | he
    · exact Or.inl hreads
    · exact Or.inr ⟨⟨objData, connects, rfl⟩, he⟩
  | getObjects =>
    have he := mem_ofAnswer he
    cases hc : h.client with
    | some client =>
      simp only [API.getObjects, hc] at he
      exact Or.inl ⟨client, _, (Except.ok.inj he).symm, rfl⟩
    | none => simp [API.getObjects, hc, writeError] at he
  | getSMSensors =>
    have he := mem_ofAnswer he
    cases hc : h.client with
    | some client =>
      simp only [API.getSMSensors, hc] at he
      exact Or.inl ⟨client, _, (Except.ok.inj he).symm, rfl⟩
    | none => simp [API.getSMSensors, hc, writeError] at he
  | getObjectData => exact Or.inl (reads_of_getObjectData (mem_ofAnswer he))
  | getIONCSensorValues | getIONCConsumers | getValues | getParams =>
    refine Or.inl (reads_of_clientHandler ?_ (mem_ofAnswer he))
    intro name call hcall
    obtain ⟨a, -, hcall⟩ := bind_eq_ok hcall
    obtain rfl := Except.ok.inj hcall
    rfl
  | getOPCUASensor =>
    refine Or.inl (reads_of_clientHandler ?_ (mem_ofAnswer he))
    intro name call hcall
    obtain ⟨-, -, hcall⟩ := bind_eq_ok hcall
    cases hid : parseInt r.id.toUTF8.toList with
    | some id =>
      rw [hid] at hcall
      obtain rfl := Except.ok.inj hcall
      rfl
    | none => rw [hid] at hcall; cases hcall
  | getIONCSensors | getIONCLostConsumers | getStatus | getMBRegisters | getMBDevices | getMBMode
  | getMBModeSupported | getOPCUASensors | getOPCUADiagnostics | getUNetReceivers
  | getUNetSenders =>
    refine Or.inl (reads_of_clientHandler ?_ (mem_ofAnswer he))
    intro name call hcall
    obtain rfl := Except.ok.inj hcall
    rfl
  | setIONCSensorValue | freezeIONCSensor | unfreezeIONCSensor | setParams | setMBMode
  | takeObjectControl | releaseObjectControl | sendLogServerCommand | addServer | removeServer
  | setPollInterval => cases hg

theorem Effect.Reads.writes_eq_false {e : Effect} (h : e.Reads) (hseg : e.NamesSegment) :
    e.writes = false := by
  obtain ⟨client, call, rfl, hcall⟩ := h
  by_contra hw
  rw [Bool.not_eq_false] at hw
  rw [writes_uniset hseg hw] at hcall
  cases hcall

/-! ### The panel as a machine -/

/-- A request between the check of the control and the rest of its handler, with its number. -/
structure InFlight where
  id : ℕ
  request : HTTPRequest
  route : Route

/-- The control manager, the handlers, how many requests there have been, the ones under way, and
what was done, in one entry for each handler that has come to its end, with the number of its
request, and for each request of a poller or health check. -/
structure System where
  control : ControlState
  handlers : Handlers
  started : ℕ
  inFlight : List InFlight
  effects : List (Option ℕ × List Effect)

/-- A step of the panel. -/
inductive Action where
  /-- a step of the control manager: another request, an event stream, a timer, time -/
  | control (a : ControlAction)
  /-- a request comes in and its handler gets as far as its first check -/
  | request (r : HTTPRequest) (route : Route)
  /-- the rest of the handler of request `id` -/
  | proceed (id : ℕ)
  /-- a poller or the health check of a server makes a request of it -/
  | background (serverID : String) (call : UniSetCall)
  /-- a log stream is closed -/
  | closeLogStream (name : Bytes)

namespace System

/-- The request is under way. -/
def begin (s : System) (r : HTTPRequest) (route : Route) : System :=
  { s with started := s.started + 1, inFlight := s.inFlight ++ [⟨s.started, r, route⟩] }

/-- `writeControlError`: the request is over. -/
def refuse (s : System) : System := { s with started := s.started + 1 }

/-- The handler of `f` has ended. -/
def finish (s : System) (f : InFlight) : System :=
  { s with inFlight := s.inFlight.filter fun g => decide (g.id ≠ f.id) }

/-- The effects of `f` are done. -/
def perform (s : System) (f : InFlight) (es : List Effect) : System :=
  { s.finish f with
    handlers := es.foldl Handlers.apply s.handlers
    effects := s.effects ++ [(some f.id, es)] }

/-- One step. -/
def step (s : System) : Action → Option System
  | .control a => (s.control.step a).map fun c => { s with control := c }
  | .request r route =>
    if route.gated then
      let checked := { s with control := (s.control.checkControlAccess r.controlToken).2 }
      if (s.control.checkControlAccess r.controlToken).1 then some (checked.begin r route)
      else some checked.refuse
    else some (s.begin r route)
  | .proceed id =>
    match s.inFlight.find? fun f => decide (f.id = id) with
    | none => none
    | some f => some (s.perform f (f.route.handle s.handlers f.request).1)
  | .background serverID call =>
    match getUniSetClient s.handlers serverID, isBackground call with
    | .ok client, true => some { s with effects := s.effects ++ [(none, [.uniset client call])] }
    | _, _ => none
  | .closeLogStream name => some { s with handlers := s.handlers.removeClient name }

end System

/-- The panel as it starts. -/
def panelMachine (tokens : List String) (timeout : Duration) (hub : Option (List ControlStatus))
    (start : Time) (handlers : Handlers) : Machine System Action where
  init := ⟨newControlManager tokens timeout hub start, handlers, 0, [], []⟩
  step := System.step

/-! ### What a step can do -/

/-- The control manager goes one step, or stays. -/
def ControlStep (u v : ControlState) : Prop := v = u ∨ ∃ a, u.step a = some v

/-- **What a step does.** -/
inductive StepKind (s : System) (a : Action) (t : System) : Prop where
  | control (c : ControlState) (hc : ControlStep s.control c) (ht : t = { s with control := c })
      (ha : ∀ r route, a ≠ .request r route)
  | begin (r : HTTPRequest) (route : Route) (c : ControlState) (ha : a = .request r route)
      (hc : ControlStep s.control c)
      (hg : route.gated = true → s.control.isController r.controlToken = true)
      (ht : t = ({ s with control := c } : System).begin r route)
  | refuse (c : ControlState) (hc : ControlStep s.control c)
      (ht : t = ({ s with control := c } : System).refuse)
  | perform (f : InFlight) (hf : f ∈ s.inFlight)
      (ht : t = s.perform f (f.route.handle s.handlers f.request).1)
  | background (client : UniSetClient) (call : UniSetCall) (hcall : isBackground call = true)
      (ht : t = { s with effects := s.effects ++ [(none, [.uniset client call])] })
  | handlers (h : Handlers) (ht : t = { s with handlers := h })

theorem stepKind_of_step {s t : System} {a : Action} (h : s.step a = some t) :
    StepKind s a t := by
  cases a with
  | control a =>
    obtain ⟨c, hc, rfl⟩ := Option.map_eq_some_iff.mp h
    exact .control c (.inr ⟨a, hc⟩) rfl fun r route hne => by cases hne
  | request r route =>
    have hc : ControlStep s.control (s.control.checkControlAccess r.controlToken).2 :=
      .inr ⟨.checkControlAccess r.controlToken, rfl⟩
    unfold System.step at h
    simp only at h
    split_ifs at h with hg hok
    · obtain rfl := Option.some.inj h
      rw [ControlState.checkControlAccess_fst] at hok
      exact .begin r route _ rfl hc (fun _ => hok) rfl
    · obtain rfl := Option.some.inj h
      exact .refuse _ hc rfl
    · obtain rfl := Option.some.inj h
      exact .begin r route s.control rfl (.inl rfl) (fun hg' => absurd hg' hg) rfl
  | proceed id =>
    unfold System.step at h
    simp only at h
    split at h
    · cases h
    · rename_i f hf
      obtain rfl := Option.some.inj h
      exact .perform f (List.mem_of_find?_eq_some hf) rfl
  | background serverID call =>
    unfold System.step at h
    simp only at h
    split at h
    · rename_i client _ hcall
      obtain rfl := Option.some.inj h
      exact .background client call hcall rfl
    · cases h
  | closeLogStream name => exact .handlers _ (Option.some.inj h).symm

/-! ### The invariant -/

section

variable {tokens : List String} {timeout : Duration} {hub : Option (List ControlStatus)}
  {start : Time} {handlers : Handlers}

/-- `token` is configured, and its session has control. -/
def HasControl (tokens : List String) (c : ControlState) (token : String) : Prop :=
  token ∈ tokens ∧ token ≠ "" ∧ c.activeToken = token

/-- Request `f` came in during `as`; if its handler checks the control, its token had control at
that moment. -/
def Begun (M : Machine System Action) (tokens : List String) (as : List Action) (f : InFlight) :
    Prop :=
  ∃ pre post u, as = pre ++ .request f.request f.route :: post ∧ M.run M.init pre = some u ∧
    u.started = f.id ∧ (f.route.gated = true → HasControl tokens u.control f.request.controlToken)

theorem Begun.concat {M : Machine System Action} {as : List Action} {f : InFlight}
    (h : Begun M tokens as f) (a : Action) : Begun M tokens (as ++ [a]) f := by
  obtain ⟨pre, post, u, rfl, hrun, hid, hg⟩ := h
  exact ⟨pre, post ++ [a], u, by rw [List.append_assoc, List.cons_append], hrun, hid, hg⟩

/-- What was done, and the request it was done for. -/
def Done (M : Machine System Action) (tokens : List String) (as : List Action)
    (p : Option ℕ × List Effect) : Prop :=
  match p.1 with
  | none => ∀ e ∈ p.2, e.Reads
  | some id => ∃ f h, f.id = id ∧ Begun M tokens as f ∧ (f.route.handle h f.request).1 = p.2

theorem Done.concat {M : Machine System Action} {as : List Action} {p : Option ℕ × List Effect}
    (h : Done M tokens as p) (a : Action) : Done M tokens (as ++ [a]) p := by
  unfold Done at h ⊢
  split at h
  · exact h
  · obtain ⟨f, hs, hid, hf, he⟩ := h
    exact ⟨f, hs, hid, hf.concat a, he⟩

/-- The numbers of the requests under way and of those something was done for. -/
def System.ids (s : System) : List ℕ :=
  s.inFlight.map InFlight.id ++ s.effects.filterMap Prod.fst

/-- The invariant: the control manager goes its own steps; a number is used once; every request
under way, and every one something was done for, came in. -/
structure Inv (M : Machine System Action) (C : Machine ControlState ControlAction)
    (tokens : List String) (as : List Action) (s : System) : Prop where
  control : C.Reachable s.control
  nodup : s.ids.Nodup
  lt : ∀ id ∈ s.ids, id < s.started
  begun : ∀ f ∈ s.inFlight, Begun M tokens as f
  done : ∀ p ∈ s.effects, Done M tokens as p

theorem ids_begin (s : System) (r : HTTPRequest) (route : Route) :
    (s.begin r route).ids.Perm (s.started :: s.ids) := by
  show (((s.inFlight ++ [(⟨s.started, r, route⟩ : InFlight)]).map InFlight.id) ++ _).Perm _
  rw [List.map_append, List.append_assoc]
  exact List.perm_middle

theorem ids_finish (s : System) (f : InFlight) : (s.finish f).ids.Sublist s.ids :=
  List.Sublist.append (List.filter_sublist.map _) (List.Sublist.refl _)

theorem ids_perform (s : System) (f : InFlight) (es : List Effect) :
    (s.perform f es).ids = (s.finish f).ids ++ [f.id] := by
  show ((s.finish f).inFlight.map InFlight.id) ++ (s.effects ++ [(some f.id, es)]).filterMap _ = _
  rw [List.filterMap_append, ← List.append_assoc]
  rfl

/-- The number of a request that has ended is no longer among those under way; it was used for no
effect before. -/
theorem notMem_ids_finish {s : System} (hnd : s.ids.Nodup) {f : InFlight} (hf : f ∈ s.inFlight) :
    f.id ∉ (s.finish f).ids := by
  intro h
  rcases List.mem_append.mp h with h | h
  · obtain ⟨g, hg, hid⟩ := List.mem_map.mp h
    have hne : g.id ≠ f.id := of_decide_eq_true (List.mem_filter.mp hg).2
    exact hne hid
  · exact List.disjoint_of_nodup_append hnd (List.mem_map_of_mem hf) h

/-- A request that is authorised is of the session that has control. -/
theorem hasControl_of_isController (htok : ∃ t ∈ tokens, t ≠ "") {c : ControlState}
    (hc : (controlMachine tokens timeout hub start).Reachable c) {token : String}
    (h : c.isController token = true) : HasControl tokens c token := by
  obtain ⟨as, hrun⟩ := hc
  have hen := isEnabled_of_reachable htok ⟨as, hrun⟩
  obtain ⟨hact, hne⟩ := (ControlState.isController_eq_true c token hen).mp h
  rcases (sessionInv_of_run htok hrun).token with h0 | hmem
  · exact absurd (hact.symm.trans h0) hne
  · rw [hact, (config_of_reachable ⟨as, hrun⟩).1] at hmem
    exact ⟨(mem_ofList.mp hmem).1, hne, hact⟩

theorem ControlStep.reachable {u v : ControlState} (h : ControlStep u v)
    (hu : (controlMachine tokens timeout hub start).Reachable u) :
    (controlMachine tokens timeout hub start).Reachable v := by
  rcases h with rfl | ⟨a, ha⟩
  · exact hu
  · exact hu.step ha

/-- **The step lemma of the invariant.** -/
theorem Inv.step (htok : ∃ t ∈ tokens, t ≠ "") {as : List Action} {s t : System} {a : Action}
    (h : Inv (panelMachine tokens timeout hub start handlers)
      (controlMachine tokens timeout hub start) tokens as s)
    (hrun : (panelMachine tokens timeout hub start handlers).run
      (panelMachine tokens timeout hub start handlers).init as = some s)
    (hs : s.step a = some t) :
    Inv (panelMachine tokens timeout hub start handlers)
      (controlMachine tokens timeout hub start) tokens (as ++ [a]) t := by
  have hbegun := fun f hf => (h.begun f hf).concat a
  have hdone := fun p hp => (h.done p hp).concat a
  cases stepKind_of_step hs with
  | control c hc ht ha =>
    subst ht
    exact ⟨hc.reachable h.control, h.nodup, h.lt, hbegun, hdone⟩
  | begin r route c ha hc hg ht =>
    subst ht ha
    have hperm := ids_begin ({ s with control := c } : System) r route
    refine ⟨hc.reachable h.control, ?_, ?_, ?_, hdone⟩
    · -- its number is the next one
      rw [hperm.nodup_iff, List.nodup_cons]
      exact ⟨fun hid => lt_irrefl _ (h.lt _ hid), h.nodup⟩
    · intro id hid
      rcases List.mem_cons.mp (hperm.mem_iff.mp hid) with rfl | hid
      · exact Nat.lt_succ_self _
      · exact (h.lt id hid).trans (Nat.lt_succ_self _)
    · intro f hf
      rcases List.mem_append.mp hf with hf | hf
      · exact hbegun f hf
      · rw [List.mem_singleton.mp hf]
        exact ⟨as, [], s, rfl, hrun, rfl, fun hgate =>
          hasControl_of_isController htok h.control (hg hgate)⟩
  | refuse c hc ht =>
    subst ht
    exact ⟨hc.reachable h.control, h.nodup,
      fun id hid => (h.lt id hid).trans (Nat.lt_succ_self _), hbegun, hdone⟩
  | handlers hs ht =>
    subst ht
    exact ⟨h.control, h.nodup, h.lt, hbegun, hdone⟩
  | perform f hf ht =>
    subst ht
    have hsub := ids_finish s f
    have hid : f.id ∈ s.ids := List.mem_append_left _ (List.mem_map_of_mem hf)
    refine ⟨h.control, ?_, ?_, fun g hg => hbegun g (List.mem_filter.mp hg).1, ?_⟩
    · rw [ids_perform, List.nodup_append_comm, List.singleton_append, List.nodup_cons]
      exact ⟨notMem_ids_finish h.nodup hf, h.nodup.sublist hsub⟩
    · intro id hmem
      rw [ids_perform] at hmem
      rcases List.mem_append.mp hmem with hmem | hmem
      · exact h.lt id (hsub.subset hmem)
      · rw [List.mem_singleton.mp hmem]
        exact h.lt _ hid
    · intro p hp
      rcases List.mem_append.mp hp with hp | hp
      · exact hdone p hp
      · rw [List.mem_singleton.mp hp]
        exact ⟨f, s.handlers, rfl, hbegun f hf, rfl⟩
  | background client call hcall ht =>
    subst ht
    have hids : ({ s with effects := s.effects ++ [(none, [.uniset client call])] } : System).ids =
        s.ids := by
      unfold System.ids
      rw [List.filterMap_append]
      simp
    refine ⟨h.control, by rw [hids]; exact h.nodup, by rw [hids]; exact h.lt, hbegun, ?_⟩
    intro p hp
    rcases List.mem_append.mp hp with hp | hp
    · exact hdone p hp
    · rw [List.mem_singleton.mp hp]
      intro e he
      obtain rfl := List.mem_singleton.mp he
      exact ⟨client, call, rfl, isWrite_of_isBackground hcall⟩

theorem inv_of_run (htok : ∃ t ∈ tokens, t ≠ "") {as : List Action} {s : System}
    (h : (panelMachine tokens timeout hub start handlers).run
      (panelMachine tokens timeout hub start handlers).init as = some s) :
    Inv (panelMachine tokens timeout hub start handlers)
      (controlMachine tokens timeout hub start) tokens as s := by
  refine Machine.history_induction (M := panelMachine tokens timeout hub start handlers)
    (P := Inv (panelMachine tokens timeout hub start handlers)
      (controlMachine tokens timeout hub start) tokens) ?_ ?_ h
  · refine ⟨Machine.reachable_init _, List.nodup_nil, ?_, ?_, ?_⟩
    · intro id hid; cases hid
    · intro f hf; cases hf
    · intro p hp; cases hp
  · intro as s a t hrun ih hstep
    exact ih.step htok hrun hstep

/-! ### Only the session with control writes -/

/-- Effect `e` was done for request `id`, which came in with a token that had control. -/
def AuthorisedBy (M : Machine System Action) (tokens : List String) (as : List Action) (id : ℕ)
    (e : Effect) : Prop :=
  ∃ pre post u r route h, as = pre ++ .request r route :: post ∧ M.run M.init pre = some u ∧
    u.started = id ∧ route.gated = true ∧ HasControl tokens u.control r.controlToken ∧
    e ∈ (route.handle h r).1

/-- Effect `e` is the filter that request `id` for a log stream has brought along. -/
def FilterOfStream (M : Machine System Action) (as : List Action) (id : ℕ) (e : Effect) : Prop :=
  ∃ pre post u r objData connects, as = pre ++ .request r (.logServerStream objData connects) :: post ∧
    M.run M.init pre = some u ∧ u.started = id ∧ r.get "filter" ≠ [] ∧ e = streamFilter r

end

/-- A session takes control, and a sensor is set in its name; a log stream is opened without it. -/
def setRun : List Action :=
  [.control (.takeControl "admin"),
    .request ⟨"admin", ascii "SM", "", "", []⟩ (.setIONCSensorValue (some ⟨12, 5⟩)),
    .request ⟨"", ascii "TestProc1", "", "", [(ascii "filter", ascii "db")]⟩
      (.logServerStream (.ok (some ⟨[], 0⟩)) true),
    .proceed 1, .proceed 0]

/-- The panel with one UniSet server. -/
def oneServer : Handlers :=
  ⟨none, ascii "TestProc", some ⟨ascii "http://localhost:8081", ascii "TestProc"⟩, some [], 5000⟩

/-- Without the condition on the names it is otherwise: this is a request for the data of an object,
which anyone may make. -/
example : (Effect.uniset ⟨ascii "http://localhost:8081", ascii "TestProc"⟩
    (.getObjectData (ascii "SM/set?supplier=TestProc&12=5"))).writes = true := rfl

end API

end UnisetPanel
