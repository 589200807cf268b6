/-
  Change detection over whole runs, one operation at a time.

  `pollerMachine` runs `Subscribe`, `Unsubscribe`, `UnsubscribeAll`, `poll` and
  `ForceEmitAll` in any order.  Seen from one sensor, a period in which it stays
  subscribed is a stream of fetched items, cut into pieces by the executions;
  the recorded hash is what change detection has to remember between them
  (`event_step`).  So over the whole period the updates are the `changes` of the
  stream (`run_refines_changes`), however it is cut.

  `changeDetection` collects the result together with what a failed request
  does (nothing) and what `ForceEmitAll` emits (everything).
-/
import UnisetPanel.Poller.Emit
import UnisetPanel.Machine

namespace UnisetPanel

variable {T : Type*} {F : ItemFetcher T}

/-! ### What a copy of the subscriptions contains -/

theorem mem_requests {batchSize : ℤ} {ids r : List Int64} (hr : r ∈ requests batchSize ids)
    {id : Int64} (hid : id ∈ r) : id ∈ ids := by
  rw [← flatten_requests batchSize ids]
  exact List.mem_flatten.mpr ⟨r, hr, hid⟩

theorem mem_calls {batchSize : ℤ} {snap : List (String × List Int64)}
    {c : String × List Int64} :
    c ∈ calls batchSize snap ↔ ∃ e ∈ snap, c.1 = e.1 ∧ c.2 ∈ requests batchSize e.2 := by
  unfold calls
  rw [List.mem_flatMap]
  constructor
  · rintro ⟨e, he, hc⟩
    obtain ⟨ids, hids, rfl⟩ := List.mem_map.mp hc
    exact ⟨e, he, rfl, hids⟩
  · rintro ⟨e, he, h1, h2⟩
    exact ⟨e, he, List.mem_map.mpr ⟨c.2, h2, Prod.ext h1.symm rfl⟩⟩

theorem mem_fetchedItems {fetch : Fetch F} {batchSize : ℤ} {snap : List (String × List Int64)}
    {x : String × T} (h : x ∈ fetchedItems fetch.fetchItems batchSize snap) :
    ∃ c ∈ calls batchSize snap, c.1 = x.1 ∧ F.getItemID x.2 ∈ c.2 ∧
      ∃ items, fetch.fetchItems c.1 c.2 = .ok items := by
  obtain ⟨c, hc, hx⟩ := List.mem_flatMap.mp h
  unfold answer at hx
  cases hf : fetch.fetchItems c.1 c.2 with
  | error err =>
    rw [hf] at hx
    cases hx
  | ok items =>
    rw [hf] at hx
    obtain ⟨y, hy, rfl⟩ := List.mem_map.mp hx
    exact ⟨c, hc, rfl, fetch.requested c.1 c.2 items hf y hy, items, hf⟩

namespace IsSnapshot

variable {p : BasePoller F} {snap : List (String × List Int64)}

theorem subscribed_of_mem_call (h : IsSnapshot p.subscriptions snap) {batchSize : ℤ}
    {c : String × List Int64} (hc : c ∈ calls batchSize snap) {id : Int64} (hid : id ∈ c.2) :
    p.Subscribed c.1 id := by
  obtain ⟨e, he, h1, h2⟩ := mem_calls.mp hc
  obtain ⟨-, hitems⟩ := h.2.1 e he
  rw [h1]
  exact BasePoller.subscribed_iff.mpr ⟨_, hitems, List.mem_toFinset.mpr (mem_requests h2 hid)⟩

/-- Every subscribed id is in some request. -/
theorem exists_call (h : IsSnapshot p.subscriptions snap) {o : String} {id : Int64}
    (hsub : p.Subscribed o id) (batchSize : ℤ) :
    ∃ c ∈ calls batchSize snap, c.1 = o ∧ id ∈ c.2 := by
  obtain ⟨items, hitems, hid⟩ := BasePoller.subscribed_iff.mp hsub
  have hkey : o ∈ snap.map Prod.fst :=
    h.2.2 o (Finmap.mem_keys.mpr (Finmap.mem_of_lookup_eq_some hitems))
  obtain ⟨e, he, rfl⟩ := List.mem_map.mp hkey
  have hids : id ∈ e.2 := by
    obtain ⟨-, hset⟩ := h.2.1 e he
    obtain rfl : items = e.2.toFinset := Option.some.inj (hitems.symm.trans hset)
    exact List.mem_toFinset.mp hid
  rw [← flatten_requests batchSize e.2] at hids
  obtain ⟨r, hr, hidr⟩ := List.mem_flatten.mp hids
  exact ⟨(e.1, r), mem_calls.mpr ⟨e, he, rfl, hr⟩, rfl, hidr⟩

/-- Only subscribed items are fetched. -/
theorem subscribed_of_mem_fetchedItems (h : IsSnapshot p.subscriptions snap) {fetch : Fetch F}
    {batchSize : ℤ} {x : String × T} (hx : x ∈ fetchedItems fetch.fetchItems batchSize snap) :
    p.Subscribed x.1 (F.getItemID x.2) := by
  obtain ⟨c, hc, hcx, hid, -⟩ := mem_fetchedItems hx
  rw [← hcx]
  exact h.subscribed_of_mem_call hc hid

/-- Every sensor is in one request only. -/
theorem call_unique (h : IsSnapshot p.subscriptions snap) {batchSize : ℤ}
    {c c' : String × List Int64} (hc : c ∈ calls batchSize snap) (hc' : c' ∈ calls batchSize snap)
    (ho : c.1 = c'.1) {id : Int64} (hid : id ∈ c.2) (hid' : id ∈ c'.2) : c = c' := by
  obtain ⟨e, he, h1, h2⟩ := mem_calls.mp hc
  obtain ⟨e', he', h1', h2'⟩ := mem_calls.mp hc'
  -- the two requests are about one object
  have hee : e = e' := List.inj_on_of_nodup_map h.1 he he' (by rw [← h1, ← h1', ho])
  subst hee
  -- and its slices do not overlap
  have hnodup : (requests batchSize e.2).flatten.Nodup := by
    rw [flatten_requests]
    exact (h.2.1 e he).1
  have hdisj := (List.nodup_flatten.mp hnodup).2
  by_contra hne
  have hne2 : c.2 ≠ c'.2 := fun h2 => hne (Prod.ext ho h2)
  have : Std.Symm (List.Disjoint (α := Int64)) := ⟨fun _ _ hd => hd.symm⟩
  exact hdisj.forall h2 h2' hne2 hid hid'

end IsSnapshot

/-! ### The machine -/

/-- One operation of a poller. -/
inductive PollerAction (F : ItemFetcher T) where
  | subscribe (objectName : String) (ids : List Int64)
  | unsubscribe (objectName : String) (ids : List Int64)
  | unsubscribeAll (objectName : String)
  /-- `poll` or `ForceEmitAll` -/
  | emit (kind : EmitKind) (fetch : Fetch F) (snap : List (String × List Int64)) (now : Time)

namespace BasePoller

/-- One step. -/
def step (p : BasePoller F) : PollerAction F → Option (BasePoller F)
  | .subscribe o ids => some (p.subscribe o ids)
  | .unsubscribe o ids => some (p.unsubscribe o ids)
  | .unsubscribeAll o => some (p.unsubscribeAll o)
  | .emit kind fetch snap now =>
    if IsSnapshot p.subscriptions snap then some (p.emitSnapshot kind fetch snap now).2 else none

variable {p q : BasePoller F}

theorem step_emit {kind : EmitKind} {fetch : Fetch F} {snap : List (String × List Int64)}
    {now : Time} (h : p.step (.emit kind fetch snap now) = some q) :
    IsSnapshot p.subscriptions snap ∧ q = (p.emitSnapshot kind fetch snap now).2 := by
  obtain ⟨hs, h⟩ := Option.ite_none_right_eq_some.mp h
  exact ⟨hs, (Option.some.inj h).symm⟩

/-- The items about `r` that a step fetches. -/
def fetchedOf (r : ItemRef) (p : BasePoller F) : PollerAction F → List (ItemEvent T)
  | .emit kind fetch snap _ => itemsOf F r kind (fetchedItems fetch.fetchItems p.batchSize snap)
  | _ => []

/-- The updates about `r` that a step passes to the callback. -/
def emittedOf (r : ItemRef) (p : BasePoller F) : PollerAction F → List (ItemEvent T)
  | .emit kind fetch snap now => updatesOf F r kind (p.emitSnapshot kind fetch snap now).1
  | _ => []

/-! ### The invariant -/

theorem Clean.foldl_emitItem (kind : EmitKind) (now : Time) (xs : List (String × T))
    (acc : List (Update T) × BasePoller F) (h : acc.2.Clean)
    (hxs : ∀ x ∈ xs, acc.2.Subscribed x.1 (F.getItemID x.2)) :
    (xs.foldl (emitItem kind now) acc).2.Clean := by
  induction xs generalizing acc with
  | nil => exact h
  | cons x xs ih =>
    apply ih
    · exact h.observe kind (hxs x List.mem_cons_self)
    · intro y hy
      have hsub : (emitItem kind now acc x).2.subscriptions = acc.2.subscriptions :=
        subscriptions_observe acc.2 kind x.1 x.2
      rw [subscribed_congr hsub]
      exact hxs y (List.mem_cons_of_mem x hy)

theorem Clean.step {a : PollerAction F} (h : p.Clean) (hs : p.step a = some q) : q.Clean := by
  cases a with
  | subscribe o ids =>
    obtain rfl := Option.some.inj hs
    exact h.subscribe o ids
  | unsubscribe o ids =>
    obtain rfl := Option.some.inj hs
    exact h.unsubscribe o ids
  | unsubscribeAll o =>
    obtain rfl := Option.some.inj hs
    exact h.unsubscribeAll o
  | emit kind fetch snap now =>
    obtain ⟨hsnap, rfl⟩ := step_emit hs
    rw [emitSnapshot_eq]
    exact h.foldl_emitItem kind now _ ([], p) fun x hx => hsnap.subscribed_of_mem_fetchedItems hx

/-! ### One period -/

/-- **The step lemma of a period**: a step that leaves `r` subscribed emits the changes of the items
it fetches, and keeps the hash of the last one. -/
theorem event_step {a : PollerAction F} (hs : p.step a = some q) {r : ItemRef}
    (hsub : q.Subscribed r.objectName r.id) :
    emittedOf r p a = changes (eventHash F) isForced (p.lastValue r.objectName r.id)
        (fetchedOf r p a) ∧
      q.lastValue r.objectName r.id =
        lastKey (eventHash F) (p.lastValue r.objectName r.id) (fetchedOf r p a) := by
  cases a with
  | subscribe o ids =>
    obtain rfl := Option.some.inj hs
    exact ⟨rfl, lastValue_subscribe p o r.objectName ids r.id⟩
  | unsubscribe o ids =>
    obtain rfl := Option.some.inj hs
    exact ⟨rfl, lastValue_unsubscribe_of_subscribed hsub⟩
  | unsubscribeAll o =>
    obtain rfl := Option.some.inj hs
    refine ⟨rfl, ?_⟩
    rw [lastValue_unsubscribeAll, if_neg (subscribed_unsubscribeAll.mp hsub).2]
    rfl
  | emit kind fetch snap now =>
    obtain ⟨-, rfl⟩ := step_emit hs
    exact updatesOf_emitSnapshot p r kind fetch snap now

end BasePoller

/-- The runs of a poller that `NewBasePoller` returns. -/
def pollerMachine (F : ItemFetcher T) (batchSize : ℤ) :
    Machine (BasePoller F) (PollerAction F) where
  init := newBasePoller F batchSize
  step := BasePoller.step

open BasePoller

variable {batchSize : ℤ}

theorem clean_of_reachable {p : BasePoller F} (h : (pollerMachine F batchSize).Reachable p) :
    p.Clean := by
  refine Machine.Reachable.induction (P := BasePoller.Clean) (clean_newBasePoller batchSize) ?_ h
  intro s a t _ ih hstep
  exact ih.step hstep

/-- In the run `as` from `s`, the sensor stays subscribed after every step. -/
def StaysSubscribed (M : Machine (BasePoller F) (PollerAction F)) (r : ItemRef)
    (s : BasePoller F) (as : List (PollerAction F)) : Prop :=
  ∀ m₁ m₂ u, as = m₁ ++ m₂ → M.run s m₁ = some u → u.Subscribed r.objectName r.id

/-- **The run lemma of a period**: as long as `r` stays subscribed, what is emitted about it is the
changes of what is fetched, and the recorded hash is that of the last item. -/
theorem run_refines_changes {r : ItemRef} {s t : BasePoller F} {as : List (PollerAction F)}
    (h : (pollerMachine F batchSize).run s as = some t)
    (hsub : StaysSubscribed (pollerMachine F batchSize) r s as) :
    (pollerMachine F batchSize).outputs (emittedOf r) s as =
        changes (eventHash F) isForced (s.lastValue r.objectName r.id)
          ((pollerMachine F batchSize).outputs (fetchedOf r) s as) ∧
      t.lastValue r.objectName r.id = lastKey (eventHash F) (s.lastValue r.objectName r.id)
        ((pollerMachine F batchSize).outputs (fetchedOf r) s as) := by
  induction as generalizing s with
  | nil =>
    obtain rfl := Option.some.inj h
    exact ⟨rfl, rfl⟩
  | cons a as ih =>
    obtain ⟨u, hu, hut⟩ := Machine.run_cons_eq_some _ |>.mp h
    have hsub' : StaysSubscribed (pollerMachine F batchSize) r u as := by
      intro m₁ m₂ v has hv
      exact hsub (a :: m₁) m₂ v (by rw [has]; rfl) (Machine.run_cons_eq_some _ |>.mpr ⟨u, hu, hv⟩)
    have husub : u.Subscribed r.objectName r.id :=
      hsub [a] as u rfl (Machine.run_cons_eq_some _ |>.mpr ⟨u, hu, rfl⟩)
    obtain ⟨hemit, hlast⟩ := event_step (p := s) (a := a) hu husub
    obtain ⟨ihemit, ihlast⟩ := ih hut hsub'
    rw [Machine.outputs_cons as hu, Machine.outputs_cons as hu, changes_append, lastKey_append,
      ← hemit, ← hlast]
    exact ⟨congrArg _ ihemit, ihlast⟩

/-! ### The main theorem -/

/-- **Change detection** over the runs of `M`. -/
structure ChangeDetection (M : Machine (BasePoller F) (PollerAction F)) : Prop where
  /-- In a period that starts with a `Subscribe` and in which `r` stays subscribed, the updates
  about `r` are the items fetched about it without those of `poll` whose hash is that of the item
  before. -/
  period : ∀ (r : ItemRef) (s₀ s₁ s₂ : BasePoller F) (ids : List Int64)
    (as : List (PollerAction F)), M.Reachable s₀ → ¬ s₀.Subscribed r.objectName r.id →
    r.id ∈ ids → M.step s₀ (.subscribe r.objectName ids) = some s₁ → M.run s₁ as = some s₂ →
    StaysSubscribed M r s₁ as →
    M.outputs (emittedOf r) s₁ as =
      changes (eventHash F) isForced none (M.outputs (fetchedOf r) s₁ as)
  /-- Where only `poll` fetched, consecutive duplicates are removed. -/
  polled : ∀ (r : ItemRef) (s₀ s₁ s₂ : BasePoller F) (ids : List Int64)
    (as : List (PollerAction F)), M.Reachable s₀ → ¬ s₀.Subscribed r.objectName r.id →
    r.id ∈ ids → M.step s₀ (.subscribe r.objectName ids) = some s₁ → M.run s₁ as = some s₂ →
    StaysSubscribed M r s₁ as → (∀ e ∈ M.outputs (fetchedOf r) s₁ as, e.1 = .poll) →
    M.outputs (emittedOf r) s₁ as =
      (M.outputs (fetchedOf r) s₁ as).destutter fun x y => eventHash F x ≠ eventHash F y
  /-- `ForceEmitAll` emits every item it fetches. -/
  forced : ∀ (s : BasePoller F) (fetch : Fetch F) (snap : List (String × List Int64)) (now : Time),
    (s.forceEmitAll fetch snap now).1 =
      (fetchedItems fetch.fetchItems s.batchSize snap).map fun x => ⟨x.1, x.2, now⟩
  /-- A failed request emits nothing about its ids and leaves their hashes alone. -/
  failed : ∀ (s s' : BasePoller F) (kind : EmitKind) (fetch : Fetch F)
    (snap : List (String × List Int64)) (now : Time) (c : String × List Int64) (err : String),
    M.step s (.emit kind fetch snap now) = some s' → c ∈ calls s.batchSize snap →
    fetch.fetchItems c.1 c.2 = .error err → ∀ id ∈ c.2,
      emittedOf ⟨c.1, id⟩ s (.emit kind fetch snap now) = [] ∧
        s'.lastValue c.1 id = s.lastValue c.1 id

/-- No item about the ids of a failed request is fetched. -/
theorem itemsOf_eq_nil_of_error {p : BasePoller F} {fetch : Fetch F}
    {snap : List (String × List Int64)} {c : String × List Int64} {err : String} {id : Int64}
    (hsnap : IsSnapshot p.subscriptions snap) (hc : c ∈ calls p.batchSize snap)
    (hf : fetch.fetchItems c.1 c.2 = .error err) (hid : id ∈ c.2) (kind : EmitKind) :
    itemsOf F ⟨c.1, id⟩ kind (fetchedItems fetch.fetchItems p.batchSize snap) = [] := by
  unfold itemsOf
  rw [List.map_eq_nil_iff, List.filter_eq_nil_iff]
  intro x hx hmatch
  obtain ⟨hobj, hxid⟩ : x.1 = c.1 ∧ F.getItemID x.2 = id := by simpa using hmatch
  obtain ⟨c', hc', hcx, hid', items, hok⟩ := mem_fetchedItems hx
  obtain rfl : c = c' := hsnap.call_unique hc hc' (by rw [hcx, hobj]) hid (by rw [← hxid]; exact hid')
  rw [hf] at hok
  cases hok

/-- **`BasePoller` detects changes**: each period of a sensor refines change detection on the stream
of its items, for every item type, hash, batch size and order of the operations. -/
theorem changeDetection (F : ItemFetcher T) (batchSize : ℤ) :
    ChangeDetection (pollerMachine F batchSize) := by
  have hperiod : ∀ (r : ItemRef) (s₀ s₁ s₂ : BasePoller F) (ids : List Int64)
      (as : List (PollerAction F)), (pollerMachine F batchSize).Reachable s₀ →
      ¬ s₀.Subscribed r.objectName r.id → r.id ∈ ids →
      (pollerMachine F batchSize).step s₀ (.subscribe r.objectName ids) = some s₁ →
      (pollerMachine F batchSize).run s₁ as = some s₂ →
      StaysSubscribed (pollerMachine F batchSize) r s₁ as →
      (pollerMachine F batchSize).outputs (emittedOf r) s₁ as =
        changes (eventHash F) isForced none
          ((pollerMachine F batchSize).outputs (fetchedOf r) s₁ as) := by
    intro r s₀ s₁ s₂ ids as hreach hnot _ hs hrun hsub
    -- nothing is recorded when the period starts
    have hnone : s₁.lastValue r.objectName r.id = none := by
      obtain rfl : s₀.subscribe r.objectName ids = s₁ := Option.some.inj hs
      rw [lastValue_subscribe]
      by_contra hne
      exact hnot (clean_of_reachable hreach _ _ hne)
    rw [← hnone]
    exact (run_refines_changes hrun hsub).1
  refine ⟨hperiod, ?_, forceEmitAll_fst, ?_⟩
  · intro r s₀ s₁ s₂ ids as hreach hnot hid hs hrun hsub hpoll
    rw [hperiod r s₀ s₁ s₂ ids as hreach hnot hid hs hrun hsub]
    apply changes_eq_destutter
    intro e he
    unfold isForced
    rw [hpoll e he]
    rfl
  · intro s s' kind fetch snap now c err hs hc hf id hid
    obtain ⟨hsnap, rfl⟩ := step_emit (p := s) hs
    obtain ⟨hemit, hlast⟩ := updatesOf_emitSnapshot s ⟨c.1, id⟩ kind fetch snap now
    rw [itemsOf_eq_nil_of_error hsnap hc hf hid] at hemit hlast
    exact ⟨hemit, hlast⟩

end UnisetPanel
