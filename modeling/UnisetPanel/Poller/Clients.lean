/-
  The browsers behind a poller's subscriptions.

  Each tab has a renderer that remembers which ids it subscribed
  (`subscribeToSSEFor`, `unsubscribeFromSSEFor` of `10-base-renderer.js`); its
  requests reach `SubscribeIONCSensors` and `UnsubscribeIONCSensors`.  A request
  is sent, served and answered in three steps, and those of all tabs interleave.

  The server keeps one set of ids per object, without owners.  So a tab that is
  destroyed takes its ids away from the other tabs too
  (`not_keepsOwnSubscriptions`): an id stays subscribed from a served `Subscribe`
  until the next served `Unsubscribe` of it, whichever tab sent that
  (`keepsSharedSubscriptions`).
-/
import UnisetPanel.Poller.Serial

namespace UnisetPanel

variable {T : Type*} {F : ItemFetcher T}

/-! ### The handlers -/

/-- `SubscribeIONCSensors` for an object: the error text, or the poller afterwards. -/
def subscribeIONCSensors (p : BasePoller F) (name : String) (sensorIDs : List Int64) :
    Except String (BasePoller F) :=
  if sensorIDs.length = 0 then .error "sensor_ids required" else .ok (p.subscribe name sensorIDs)

/-- `UnsubscribeIONCSensors`: without ids everything is unsubscribed. -/
def unsubscribeIONCSensors (p : BasePoller F) (name : String) (sensorIDs : List Int64) :
    BasePoller F :=
  if sensorIDs.length = 0 then p.unsubscribeAll name else p.unsubscribe name sensorIDs

/-! ### The renderers -/

/-- What a request asks for. -/
inductive RequestKind where
  | subscribe
  | unsubscribe
  deriving DecidableEq, Repr

/-- How far a request has got. -/
inductive RequestPhase where
  | sent
  | served
  | answered
  deriving DecidableEq, Repr

/-- A request of a tab. -/
structure Request where
  client : ℕ
  kind : RequestKind
  sensorIds : List Int64
  phase : RequestPhase
  deriving DecidableEq, Repr

/-- A JavaScript `Set` built from a list: the first occurrences, in order. -/
def jsSet (ids : List Int64) : List Int64 := ids.eraseDups

/-- The request of `subscribeToSSEFor`, unless there is nothing to ask for or the tab is subscribed
to the same ids already. -/
def subscribeToSSEFor (client : ℕ) (subscribedSensorIds ids : List Int64) : List Request :=
  if ids = [] then []
  else if subscribedSensorIds.length = (jsSet ids).length ∧
      ((jsSet ids).all fun id => id ∈ subscribedSensorIds) then []
  else [⟨client, .subscribe, ids, .sent⟩]

/-- The request of `unsubscribeFromSSEFor`, unless the tab is not subscribed. -/
def unsubscribeFromSSEFor (client : ℕ) (subscribedSensorIds : List Int64) : List Request :=
  if subscribedSensorIds = [] then [] else [⟨client, .unsubscribe, subscribedSensorIds, .sent⟩]

/-- What the tab remembers when the answer arrives. -/
def afterAnswer (r : Request) : List Int64 :=
  match r.kind with
  | .subscribe => jsSet r.sensorIds
  | .unsubscribe => []

/-! ### The machine -/

/-- The poller, the `subscribedSensorIds` of each tab, and all requests so far. -/
structure TabsState (F : ItemFetcher T) where
  poller : BasePoller F
  subscribedSensorIds : ℕ → List Int64
  requests : List Request

/-- One step. -/
inductive TabsAction where
  /-- the tab loaded these sensors -/
  | subscribeToSSE (client : ℕ) (ids : List Int64)
  /-- the tab is closed -/
  | destroy (client : ℕ)
  /-- the event stream of the tab is opened anew: neither side touches the subscriptions -/
  | reconnect (client : ℕ)
  /-- the server handles request `i` -/
  | serve (i : ℕ)
  /-- the answer to request `i` arrives -/
  | answer (i : ℕ)
  deriving DecidableEq, Repr

namespace TabsState

/-- The server handles a request for the object; a rejected one leaves the poller as it is. -/
def handle (p : BasePoller F) (name : String) (r : Request) : BasePoller F :=
  match r.kind with
  | .subscribe =>
    match subscribeIONCSensors p name r.sensorIds with
    | .error _ => p
    | .ok p' => p'
  | .unsubscribe => unsubscribeIONCSensors p name r.sensorIds

/-- One step of tabs that all show the object `name`. -/
def step (name : String) (s : TabsState F) : TabsAction → Option (TabsState F)
  | .subscribeToSSE c ids => some { s with
      requests := s.requests ++ subscribeToSSEFor c (s.subscribedSensorIds c) ids }
  | .destroy c => some { s with
      requests := s.requests ++ unsubscribeFromSSEFor c (s.subscribedSensorIds c) }
  | .reconnect _ => some s
  | .serve i =>
    match s.requests[i]? with
    | some r =>
      if r.phase = .sent then some { s with
        poller := handle s.poller name r
        requests := s.requests.set i { r with phase := .served } }
      else none
    | none => none
  | .answer i =>
    match s.requests[i]? with
    | some r =>
      if r.phase = .served then some { s with
        subscribedSensorIds := Function.update s.subscribedSensorIds r.client (afterAnswer r)
        requests := s.requests.set i { r with phase := .answered } }
      else none
    | none => none

/-- The request served in a step. -/
def servedIn (s : TabsState F) : TabsAction → List Request
  | .serve i => (s.requests[i]?).toList
  | _ => []

end TabsState

/-- The runs of any number of tabs that show the object `name`. -/
def tabsMachine (F : ItemFetcher T) (batchSize : ℤ) (name : String) :
    Machine (TabsState F) TabsAction where
  init := ⟨newBasePoller F batchSize, fun _ => [], []⟩
  step := TabsState.step name

open TabsState

/-- The id is subscribed, and every poll asks the server for it. -/
def StillPolled (p : BasePoller F) (name : String) (id : Int64) : Prop :=
  p.Subscribed name id ∧ ∀ snap, IsSnapshot p.subscriptions snap →
    ∃ c ∈ calls p.batchSize snap, c.1 = name ∧ id ∈ c.2

/-- The request takes `id` away. -/
def Request.Drops (r : Request) (id : Int64) : Prop := r.kind = .unsubscribe ∧ id ∈ r.sensorIds

/-- **Subscriptions are kept** as long as the clients in `mayDrop` do not drop them: an id that
client `c` subscribed is still polled, unless an unsubscribe request for it of one of `mayDrop c`
was served since. -/
def KeepsSubscriptionsUnless (mayDrop : ℕ → Set ℕ) (M : Machine (TabsState F) TabsAction)
    (name : String) : Prop :=
  ∀ (s₀ s₁ s₂ : TabsState F) (i : ℕ) (r : Request) (id : Int64) (as : List TabsAction),
    M.Reachable s₀ → s₀.requests[i]? = some r → r.kind = .subscribe → id ∈ r.sensorIds →
    M.step s₀ (.serve i) = some s₁ → M.run s₁ as = some s₂ →
    (∀ r' ∈ M.outputs servedIn s₁ as, r'.client ∈ mayDrop r.client → ¬ r'.Drops id) →
    StillPolled s₂.poller name id

/-! ### The tab that closes -/

/-- Tabs 0 and 1 subscribe to sensor 1. -/
def bothSubscribe : List TabsAction :=
  [.subscribeToSSE 0 [1], .subscribeToSSE 1 [1], .serve 1, .answer 1]

/-- **A tab takes the ids of another one away**: tab 0 keeps its subscription by not unsubscribing,
and loses it when tab 1 is closed. -/
theorem not_keepsOwnSubscriptions :
    ¬ KeepsSubscriptionsUnless (fun c => {c}) (tabsMachine pairFetcher 0 "o") "o" := by
  intro h
  have hreach : (tabsMachine pairFetcher 0 "o").Reachable _ := ⟨bothSubscribe, rfl⟩
  have hkept := h _ _ _ 0 ⟨0, .subscribe, [1], .sent⟩ 1 [.destroy 1, .serve 2] hreach rfl rfl
    (by decide) rfl rfl
  have hown : ∀ r' ∈ [(⟨1, .unsubscribe, [1], .sent⟩ : Request)], r'.client ∈ ({0} : Set ℕ) →
      ¬ r'.Drops 1 := by
    intro r' hr' hc
    obtain rfl := List.mem_singleton.mp hr'
    exact absurd hc (by decide)
  exact absurd (hkept hown).1 (by decide)

/-! ### What the server keeps -/

/-- A tab never sends a request without ids, which would unsubscribe everything. -/
def NoEmptyRequest (s : TabsState F) : Prop := ∀ r ∈ s.requests, r.sensorIds ≠ []

variable {name : String} {s s' : TabsState F}

/-- A step about a request finds it in the phase it needs. -/
theorem exists_request_of_eq_some {i : ℕ} {phase : RequestPhase} {f : Request → TabsState F}
    (h : (match s.requests[i]? with
      | some r => if r.phase = phase then some (f r) else none
      | none => none) = some s') : ∃ r, s.requests[i]? = some r ∧ s' = f r := by
  cases hr : s.requests[i]? with
  | none =>
    rw [hr] at h
    cases h
  | some r =>
    rw [hr] at h
    simp only at h
    split_ifs at h with hp
    exact ⟨r, rfl, (Option.some.inj h).symm⟩

theorem step_serve {i : ℕ} (h : s.step name (.serve i) = some s') :
    ∃ r, s.requests[i]? = some r ∧ s' = { s with
      poller := handle s.poller name r
      requests := s.requests.set i { r with phase := .served } } :=
  exists_request_of_eq_some h

theorem step_answer {i : ℕ} (h : s.step name (.answer i) = some s') :
    ∃ r, s.requests[i]? = some r ∧ s' = { s with
      subscribedSensorIds := Function.update s.subscribedSensorIds r.client (afterAnswer r)
      requests := s.requests.set i { r with phase := .answered } } :=
  exists_request_of_eq_some h

/-- Recording how far a request has got does not change its ids. -/
theorem NoEmptyRequest.setPhase (h : NoEmptyRequest s) {i : ℕ} {r : Request}
    (hr : s.requests[i]? = some r) (phase : RequestPhase) (r' : Request)
    (hr' : r' ∈ s.requests.set i { r with phase := phase }) : r'.sensorIds ≠ [] := by
  rcases List.mem_or_eq_of_mem_set hr' with hr' | rfl
  · exact h r' hr'
  · exact h r (List.mem_of_getElem? hr)

theorem NoEmptyRequest.step {a : TabsAction} (h : NoEmptyRequest s)
    (hs : s.step name a = some s') : NoEmptyRequest s' := by
  cases a with
  | subscribeToSSE c ids =>
    obtain rfl := Option.some.inj hs
    intro r hr
    rcases List.mem_append.mp hr with hr | hr
    · exact h r hr
    · unfold subscribeToSSEFor at hr
      split_ifs at hr with hnil hsame
      · cases hr
      · cases hr
      · obtain rfl := List.mem_singleton.mp hr
        exact hnil
  | destroy c =>
    obtain rfl := Option.some.inj hs
    intro r hr
    rcases List.mem_append.mp hr with hr | hr
    · exact h r hr
    · unfold unsubscribeFromSSEFor at hr
      split_ifs at hr with hnil
      · cases hr
      · obtain rfl := List.mem_singleton.mp hr
        exact hnil
  | reconnect c =>
    obtain rfl := Option.some.inj hs
    exact h
  | serve i =>
    obtain ⟨r, hr, rfl⟩ := step_serve hs
    exact fun r' hr' => h.setPhase hr .served r' hr'
  | answer i =>
    obtain ⟨r, hr, rfl⟩ := step_answer hs
    exact fun r' hr' => h.setPhase hr .answered r' hr'

theorem noEmptyRequest_of_reachable {batchSize : ℤ}
    (h : (tabsMachine F batchSize name).Reachable s) : NoEmptyRequest s := by
  refine Machine.Reachable.induction (P := NoEmptyRequest) ?_ ?_ h
  · intro r hr
    cases hr
  · intro s a t _ ih hstep
    exact ih.step hstep

/-- **What a request does to the subscription of an id.** -/
theorem subscribed_handle {p : BasePoller F} {r : Request} (hne : r.sensorIds ≠ []) (id : Int64) :
    (handle p name r).Subscribed name id ↔
      match r.kind with
      | .subscribe => id ∈ r.sensorIds ∨ p.Subscribed name id
      | .unsubscribe => p.Subscribed name id ∧ id ∉ r.sensorIds := by
  have hlen : r.sensorIds.length ≠ 0 := fun h0 => hne (List.length_eq_zero_iff.mp h0)
  unfold handle
  cases r.kind with
  | subscribe =>
    unfold subscribeIONCSensors
    rw [if_neg hlen]
    show (p.subscribe name r.sensorIds).Subscribed name id ↔ _
    rw [BasePoller.subscribed_subscribe]
    simp
  | unsubscribe =>
    show (unsubscribeIONCSensors p name r.sensorIds).Subscribed name id ↔ _
    unfold unsubscribeIONCSensors
    rw [if_neg hlen, BasePoller.subscribed_unsubscribe]
    simp

/-- **The step lemma**: only a served request that drops an id takes it away. -/
theorem subscribed_step {a : TabsAction} (h : NoEmptyRequest s) (hs : s.step name a = some s')
    {id : Int64} (hsub : s.poller.Subscribed name id) (hkeep : ∀ r ∈ servedIn s a, ¬ r.Drops id) :
    s'.poller.Subscribed name id := by
  cases a with
  | subscribeToSSE c ids =>
    obtain rfl := Option.some.inj hs
    exact hsub
  | destroy c =>
    obtain rfl := Option.some.inj hs
    exact hsub
  | reconnect c =>
    obtain rfl := Option.some.inj hs
    exact hsub
  | answer i =>
    obtain ⟨r, -, rfl⟩ := step_answer hs
    exact hsub
  | serve i =>
    -- the only step that reaches the server
    obtain ⟨r, hr, rfl⟩ := step_serve hs
    have hdrop : ¬ r.Drops id := hkeep r (by simp [servedIn, hr])
    refine (subscribed_handle (h r (List.mem_of_getElem? hr)) id).mpr ?_
    cases hk : r.kind with
    | subscribe => exact Or.inr hsub
    | unsubscribe => exact ⟨hsub, fun hid => hdrop ⟨hk, hid⟩⟩

/-- A subscribed id is in one of the requests of every poll. -/
theorem stillPolled_of_subscribed {p : BasePoller F} {id : Int64} (h : p.Subscribed name id) :
    StillPolled p name id :=
  ⟨h, fun _ hsnap => hsnap.exists_call h p.batchSize⟩

/-- **What is kept**: an id that some tab subscribed is still polled if no tab unsubscribed it
since. -/
theorem keepsSharedSubscriptions (F : ItemFetcher T) (batchSize : ℤ) (name : String) :
    KeepsSubscriptionsUnless (fun _ => Set.univ) (tabsMachine F batchSize name) name := by
  intro s₀ s₁ s₂ i r id as hreach hr hkind hid hserve hrun hkeep
  apply stillPolled_of_subscribed
  -- subscribed once the request is served, and then by induction on the run
  have hsub₁ : s₁.poller.Subscribed name id := by
    obtain ⟨r', hr', rfl⟩ := step_serve (s := s₀) hserve
    obtain rfl : r = r' := Option.some.inj (hr.symm.trans hr')
    have hne := noEmptyRequest_of_reachable hreach r (List.mem_of_getElem? hr)
    refine (subscribed_handle hne id).mpr ?_
    rw [hkind]
    exact Or.inl hid
  have hreach₁ := hreach.step hserve
  clear hserve hreach hr
  induction as generalizing s₁ with
  | nil =>
    obtain rfl := Option.some.inj hrun
    exact hsub₁
  | cons a as ih =>
    obtain ⟨u, hu, hut⟩ := Machine.run_cons_eq_some _ |>.mp hrun
    rw [Machine.outputs_cons as hu] at hkeep
    refine ih u hut (fun r' hr' => hkeep r' (List.mem_append_right _ hr')) ?_ (hreach₁.step hu)
    refine subscribed_step (s := s₁) (a := a) (noEmptyRequest_of_reachable hreach₁) hu hsub₁ ?_
    exact fun r' hr' => hkeep r' (List.mem_append_left _ hr') (Set.mem_univ _)

end UnisetPanel
