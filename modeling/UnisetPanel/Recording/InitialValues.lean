/-
  A recording should start from a known state: `StartRecording` launches
  `ForceEmitAllPollers`, which saves "the initial values of all subscribed
  sensors", and from then on change detection saves what changes.

  `Watched` runs the panel and remembers what an operator has seen: the value of
  each sensor that was delivered last since it was subscribed, and the records
  saved since the last `StartRecording`.  `KnownState` says that the newest record
  of every sensor on display carries its value.

  The sensors of the UWebSocketGate poller are not emitted again
  (`not_startsFromKnownState`).  They are all that is missing: a run keeps the
  recording in step with the display exactly if no such sensor is on display
  when a recording starts (`knownState_iff`).
-/
import UnisetPanel.Recording.Panel

namespace UnisetPanel

variable {R : Type}

/-! ### The last entry about a sensor -/

/-- The last element about `r`. -/
def lastAbout {β : Type} (source : β → SensorRef) (r : SensorRef) (xs : List β) : Option β :=
  (xs.filter fun x => source x = r).getLast?

/-- The newest record of `r`. -/
def newest (r : SensorRef) (records : List (Saved R)) : Option (Saved R) :=
  lastAbout Saved.source r records

/-- The value that an operation delivers last for `r`. -/
def lastShown (r : SensorRef) (delivered : List (SensorRef × AnyValue R)) :
    Option (AnyValue R) :=
  (lastAbout Prod.fst r delivered).map Prod.snd

section

variable {β γ : Type} (source : β → SensorRef) (r : SensorRef)

theorem lastAbout_append (xs ys : List β) :
    lastAbout source r (xs ++ ys) = (lastAbout source r ys).or (lastAbout source r xs) := by
  unfold lastAbout
  rw [List.filter_append, List.getLast?_append]

theorem lastAbout_map (f : γ → β) (xs : List γ) :
    lastAbout source r (xs.map f) = (lastAbout (source ∘ f) r xs).map f := by
  unfold lastAbout
  rw [List.filter_map, List.getLast?_map]
  rfl

theorem source_of_lastAbout {xs : List β} {x : β} (h : lastAbout source r xs = some x) :
    x ∈ xs ∧ source x = r := by
  obtain ⟨hmem, hsource⟩ := List.mem_filter.mp (List.mem_of_getLast? h)
  exact ⟨hmem, of_decide_eq_true hsource⟩

theorem lastAbout_ne_none {xs : List β} {x : β} (hx : x ∈ xs) (hsource : source x = r) :
    lastAbout source r xs ≠ none := by
  unfold lastAbout
  rw [Ne, List.getLast?_eq_none_iff]
  exact List.ne_nil_of_mem (List.mem_filter.mpr ⟨hx, decide_eq_true hsource⟩)

theorem lastAbout_eq_none {xs : List β} (h : ∀ x ∈ xs, source x ≠ r) :
    lastAbout source r xs = none := by
  unfold lastAbout
  rw [List.getLast?_eq_none_iff, List.filter_eq_nil_iff]
  intro x hx
  simpa using h x hx

end

/-! ### Delivered and saved -/

/-- The server of a sensor. -/
def SensorRef.serverID : SensorRef → String
  | .item serverID _ _ => serverID
  | .gate serverID _ _ => serverID

/-- The object of a sensor. -/
def SensorRef.objectName : SensorRef → String
  | .item _ _ r => r.objectName
  | .gate _ objectName _ => objectName

/-- The record is about the server and the object of its sensor. -/
def Saved.Proper (x : Saved R) : Prop :=
  x.record.serverID = x.source.serverID ∧ x.record.objectName = x.source.objectName

namespace Output

/-- What is saved matches what is delivered: the newest record of each sensor carries the value
delivered last. -/
structure Faithful (out : Output R) : Prop where
  value_newest : ∀ r, (newest r out.saved).map (fun x => x.record.value) = lastShown r out.delivered
  proper : ∀ x ∈ out.saved, x.Proper

theorem faithful_empty : (empty : Output R).Faithful :=
  ⟨fun _ => rfl, fun _ hx => absurd hx List.not_mem_nil⟩

theorem lastShown_append (r : SensorRef) (x y : Output R) :
    lastShown r (x.append y).delivered =
      (lastShown r y.delivered).or (lastShown r x.delivered) := by
  show (lastAbout Prod.fst r (x.delivered ++ y.delivered)).map Prod.snd = _
  rw [lastAbout_append, Option.map_or]
  rfl

theorem Faithful.append {x y : Output R} (hx : x.Faithful) (hy : y.Faithful) :
    (x.append y).Faithful where
  value_newest r := by
    rw [lastShown_append, ← hx.value_newest, ← hy.value_newest, ← Option.map_or]
    exact congrArg _ (lastAbout_append Saved.source r x.saved y.saved)
  proper z hz := by
    rcases List.mem_append.mp hz with hz | hz
    · exact hx.proper z hz
    · exact hy.proper z hz

/-- A batch of which every record list is made update by update. -/
theorem lastAbout_batch {T : Type} (source : T → SensorRef) (value : T → AnyValue R)
    (record : T → DataRecord R) (hvalue : ∀ u, (record u).value = value u) (r : SensorRef)
    (batch : List T) :
    (newest r (batch.map fun u => (⟨source u, record u⟩ : Saved R))).map
        (fun x => x.record.value) =
      lastShown r (batch.map fun u => (source u, value u)) := by
  unfold newest lastShown
  rw [lastAbout_map, lastAbout_map, Option.map_map, Option.map_map]
  show (lastAbout source r batch).map _ = (lastAbout source r batch).map _
  congr 1
  funext u
  exact hvalue u

end Output

variable [Float64 R] {servers : Finset String}

/-- **A sensor poller saves what it delivers.** -/
theorem SensorPoller.Wired.faithful_emit {k : Kind} {p : SensorPoller R k} {serverID : String}
    (h : p.Wired serverID) {m : RecordingManager} (hm : m.enabled = true) (kind : EmitKind)
    (e : Emission R k) : (p.emit serverID m kind e).2.Faithful where
  value_newest r := by
    rw [h.saved_emit hm kind e, SensorPoller.delivered_emit]
    unfold newest
    rw [lastAbout_append, Option.map_or]
    -- both lists of records agree with the batch
    have hcallback := Output.lastAbout_batch (updateSource k serverID)
      (fun u : Update (Item R k) => itemValue k u.item)
      (fun u => dataRecord (callbackPrefix k) (itemName k) (itemValue k) serverID u e.callbackNow)
      (fun _ => rfl) r (p.batch kind e)
    have hself := Output.lastAbout_batch (updateSource k serverID)
      (fun u : Update (Item R k) => itemValue k u.item)
      (fun u => dataRecord (converterPrefix k) (itemName k) (itemValue k) serverID u u.timestamp)
      (fun _ => rfl) r (p.batch kind e)
    unfold newest at hcallback hself
    rw [hcallback, hself, Option.or_self]
  proper x hx := by
    rw [h.saved_emit hm kind e] at hx
    rcases List.mem_append.mp hx with hx | hx
    · obtain ⟨u, -, rfl⟩ := List.mem_map.mp hx
      exact ⟨rfl, rfl⟩
    · obtain ⟨u, -, rfl⟩ := List.mem_map.mp hx
      exact ⟨rfl, rfl⟩

/-! ### The watched panel -/

variable (R) (servers) in
/-- The panel, with what an operator has seen and what was recorded. -/
structure Watched where
  panel : Panel R servers
  /-- the value delivered last, since the sensor was subscribed -/
  shown : SensorRef → Option (AnyValue R)
  /-- the records saved since the last `StartRecording` -/
  recorded : List (Saved R)

namespace Watched

/-- What is remembered after a step that leads to `t` with the output `out`. -/
def after (w : Watched R servers) (a : PanelAction R servers) (t : Panel R servers)
    (out : Output R) : Watched R servers where
  panel := t
  shown r := if t.Subscribed r then (lastShown r out.delivered).or (w.shown r) else none
  recorded := (if a.isStart then [] else w.recorded) ++ out.saved

/-- One step. -/
def step (w : Watched R servers) (a : PanelAction R servers) : Option (Watched R servers) :=
  (w.panel.exec a).map fun r => w.after a r.1 r.2

/-- **The recording shows the state**: while it is on, every subscribed sensor with a value on
display has a record, and the newest one carries that value. -/
def KnownState (w : Watched R servers) : Prop :=
  w.panel.recordingMgr.enabled = true → ∀ r v, w.panel.Subscribed r → w.shown r = some v →
    ∃ x, newest r w.recorded = some x ∧ x.record.value = v ∧ x.Proper

/-- No sensor of a UWebSocketGate poller is on display. -/
def NoGateShown (w : Watched R servers) : Prop :=
  ∀ serverID o name, w.panel.Subscribed (.gate serverID o name) →
    w.shown (.gate serverID o name) = none

end Watched

variable (R) (servers) in
/-- The runs of the panel, watched from the start. -/
def watchedMachine (batchSize : ℤ) (recordingEnabled : Bool) :
    Machine (Watched R servers) (PanelAction R servers) where
  init := ⟨newPanel R servers batchSize recordingEnabled, fun _ => none, []⟩
  step := Watched.step

/-- **A recording starts from a known state**: it shows the state at every point of every run. -/
def StartsFromKnownState (M : Machine (Watched R servers) (PanelAction R servers)) : Prop :=
  ∀ w, M.Reachable w → w.KnownState

/-! ### The gate that is left out -/

/-- An operator subscribes a sensor of the gate and sees its value 5; then a recording starts. -/
def gateThenStart : List (PanelAction ℤ {"s"}) :=
  [.subscribeGate serverS "o" ["x"], .handleData serverS [⟨"x", 5, .nil⟩] ["o"] 1 1,
    .startRecording [serverS] (fun _ k => ⟨zeroFetch k, [], 2, 2⟩) fun _ => complete_zeroFetch]

/-- **The recording does not know what the operator sees.** -/
theorem not_startsFromKnownState : ¬ StartsFromKnownState (watchedMachine ℤ {"s"} 0 false) := by
  intro h
  have hreach : (watchedMachine ℤ {"s"} 0 false).Reachable _ := ⟨gateThenStart, rfl⟩
  obtain ⟨x, hx, -⟩ := h _ hreach rfl (.gate "s" "o" "x") (.int64 5) (by decide) (by decide)
  exact Option.some_ne_none x (hx.symm.trans rfl)

/-! ### What is not left out -/

/-- In the run `as`, no sensor of a UWebSocketGate poller is on display when a recording starts. -/
def NoGateShownAtStarts (M : Machine (Watched R servers) (PanelAction R servers))
    (as : List (PanelAction R servers)) : Prop :=
  ∀ m₁ a m₂ u, as = m₁ ++ a :: m₂ → a.isStart = true → M.run M.init m₁ = some u → u.NoGateShown

/-- The recording shows the state at every point of the run `as`. -/
def KnownThroughout (M : Machine (Watched R servers) (PanelAction R servers))
    (as : List (PanelAction R servers)) : Prop :=
  ∀ m₁ m₂ u, as = m₁ ++ m₂ → M.run M.init m₁ = some u → u.KnownState

namespace Panel

variable {s t : Panel R servers} {out : Output R}

/-- **A subscribed sensor is in the batch of `ForceEmitAll`.** -/
theorem exists_mem_batch {k : Kind} {p : SensorPoller R k} {e : Emission R k}
    (hsnap : IsSnapshot p.subscriptions e.snap) (hfetch : e.fetch.Complete) {o : String}
    {id : Int64} (hsub : p.Subscribed o id) :
    ∃ u ∈ p.batch .forceEmitAll e, u.objectName = o ∧ (fetcher R k).getItemID u.item = id := by
  obtain ⟨c, hc, hco, hid⟩ := hsnap.exists_call hsub p.batchSize
  obtain ⟨items, hok, hall⟩ := hfetch c.1 c.2
  obtain ⟨x, hx, hxid⟩ := hall id hid
  refine ⟨⟨c.1, x, e.now⟩, ?_, hco, hxid⟩
  have hbatch : p.batch .forceEmitAll e =
      (fetchedItems e.fetch.fetchItems p.batchSize e.snap).map fun x => ⟨x.1, x.2, e.now⟩ :=
    BasePoller.forceEmitAll_fst p.toBasePoller e.fetch e.snap e.now
  rw [hbatch]
  refine List.mem_map.mpr ⟨(c.1, x), List.mem_flatMap.mpr ⟨c, hc, ?_⟩, rfl⟩
  unfold answer
  rw [hok]
  exact List.mem_map_of_mem hx

/-- **Every subscribed sensor of a visited poller is delivered.** -/
theorem exists_delivered_forceEmit {e : (id : servers) → (k : Kind) → Emission R k}
    {vs : List (servers × Kind)}
    (hsnap : ∀ v ∈ vs, IsSnapshot (s.poller v.1 v.2).subscriptions (e v.1 v.2).snap)
    (hfetch : ∀ id k, (e id k).fetch.Complete) {id : servers} {k : Kind} (hv : (id, k) ∈ vs)
    {r : ItemRef} (hsub : (s.poller id k).Subscribed r.objectName r.id) :
    ∃ y ∈ (forceEmit e vs s).2.delivered, y.1 = .item id k r := by
  induction vs generalizing s with
  | nil => cases hv
  | cons v vs ih =>
    rcases List.mem_cons.mp hv with rfl | hv
    · -- the poller itself: the sensor is in its batch
      obtain ⟨u, hu, ho, hid⟩ :=
        exists_mem_batch (hsnap (id, k) List.mem_cons_self) (hfetch id k) hsub
      refine ⟨(updateSource k id u, itemValue k u.item), List.mem_append_left _ ?_, ?_⟩
      · rw [show (s.emitAt .forceEmitAll id k (e id k)).2.delivered = _ from
          SensorPoller.delivered_emit _ _]
        exact List.mem_map_of_mem hu
      · show SensorRef.item id k ⟨u.objectName, _⟩ = _
        rw [ho, hid]
    · -- a later one, whose subscriptions are still the same
      have hsame := fun w : servers × Kind =>
        subscriptions_emitAt (s := s) .forceEmitAll v.1 v.2 (e v.1 v.2) w.1 w.2
      obtain ⟨y, hy, hyr⟩ := ih (s := (s.emitAt .forceEmitAll v.1 v.2 (e v.1 v.2)).1)
        (fun w hw => by rw [hsame w]; exact hsnap w (List.mem_cons_of_mem _ hw)) hv
        ((BasePoller.subscribed_congr (hsame (id, k)) _ _).mpr hsub)
      exact ⟨y, List.mem_append_right _ hy, hyr⟩

/-- `ForceEmitAllPollers` delivers nothing of the gates. -/
theorem not_gate_forceEmit (e : (id : servers) → (k : Kind) → Emission R k)
    (vs : List (servers × Kind)) (serverID o name : String) :
    ∀ y ∈ (forceEmit e vs s).2.delivered, y.1 ≠ .gate serverID o name := by
  induction vs generalizing s with
  | nil => exact fun y hy => absurd hy List.not_mem_nil
  | cons v vs ih =>
    intro y hy
    rcases List.mem_append.mp hy with hy | hy
    · rw [show (s.emitAt .forceEmitAll v.1 v.2 (e v.1 v.2)).2.delivered = _ from
        SensorPoller.delivered_emit _ _] at hy
      obtain ⟨u, -, rfl⟩ := List.mem_map.mp hy
      exact SensorRef.noConfusion
    · exact ih y hy

theorem Wired.faithful_forceEmit (h : s.Wired) (hm : s.recordingMgr.enabled = true)
    (e : (id : servers) → (k : Kind) → Emission R k) (vs : List (servers × Kind)) :
    (Panel.forceEmit e vs s).2.Faithful := by
  induction vs generalizing s with
  | nil => exact Output.faithful_empty
  | cons v vs ih =>
    exact ((h.poller v.1 v.2).faithful_emit hm .forceEmitAll (e v.1 v.2)).append
      (ih (h.emitAt .forceEmitAll v.1 v.2 (e v.1 v.2)) hm)

omit [Float64 R] in
/-- The callback of the gate saves what it is given. -/
theorem faithful_handleData (m : RecordingManager) (hm : m.enabled = true) (serverID : String)
    (updates : List (Update (SensorData R))) (now : Time) :
    Output.Faithful
      { delivered := updates.map fun u => (gateSource serverID u, .int64 u.item.value)
        saved := uwsgateCallback m serverID updates now } where
  value_newest r := by
    show (newest r (uwsgateCallback m serverID updates now)).map _ = _
    unfold uwsgateCallback
    rw [recordUpdates_eq, if_pos hm]
    exact Output.lastAbout_batch (gateSource serverID) (fun u => .int64 u.item.value) _
      (fun _ => rfl) r updates
  proper x hx := by
    have hx : x ∈ uwsgateCallback m serverID updates now := hx
    unfold uwsgateCallback at hx
    rw [recordUpdates_eq, if_pos hm] at hx
    obtain ⟨u, -, rfl⟩ := List.mem_map.mp hx
    exact ⟨rfl, rfl⟩

/-- **Every step that ends with recording on saves what it delivers.** -/
theorem Wired.faithful_exec (h : s.Wired) {a : PanelAction R servers}
    (hs : s.exec a = some (t, out)) (ht : t.recordingMgr.enabled = true) : out.Faithful := by
  cases effect_of_exec hs with
  | onPoller ha id k f => exact Output.faithful_empty
  | setGate ha id hg => exact Output.faithful_empty
  | emit kind id k e => exact (h.poller id k).faithful_emit ht kind e
  | handleData id data order now callbackNow =>
    show Output.Faithful ⟨_, ((s.gate id).handleData s.recordingMgr data order now).2.2 ++ _⟩
    rw [((h.gate id).handleData s.recordingMgr data order now).2, List.nil_append]
    exact faithful_handleData s.recordingMgr ht id _ callbackNow
  | start order e answered hall hsnap =>
    exact (h.withManager _).faithful_forceEmit (RecordingManager.enabled_start _) e _
  | stop => exact Output.faithful_empty

/-- After `StartRecording` every subscribed sensor of a sensor poller has been delivered, and no
sensor of a gate. -/
theorem start_effect {a : PanelAction R servers} (hs : s.exec a = some (t, out))
    (ha : a.isStart = true) :
    t.recordingMgr.enabled = true ∧
      (∀ serverID k r, t.Subscribed (.item serverID k r) →
        lastShown (.item serverID k r) out.delivered ≠ none) ∧
      ∀ serverID o name, (t.Subscribed (.gate serverID o name) ↔
          s.Subscribed (.gate serverID o name)) ∧
        lastShown (.gate serverID o name) out.delivered = none := by
  cases effect_of_exec hs with
  | onPoller ha' => rw [ha'] at ha; cases ha
  | setGate ha' => rw [ha'] at ha; cases ha
  | emit => cases ha
  | handleData => cases ha
  | stop => cases ha
  | start order e answered hall hsnap =>
    refine ⟨?_, ?_, ?_⟩
    · show (Panel.forceEmit e (visits order) s.start).1.recordingMgr.enabled = true
      rw [recordingMgr_forceEmit]
      exact RecordingManager.enabled_start s.recordingMgr
    · -- a sensor poller: `ForceEmitAll` visits it
      rintro serverID k r ⟨hmem, hsub⟩
      have hv : ((⟨serverID, hmem⟩ : servers), k) ∈ visits order := by
        refine List.mem_flatMap.mpr ⟨⟨serverID, hmem⟩, hall _, ?_⟩
        cases k <;> simp
      have hsub₀ := (BasePoller.subscribed_congr
        (subscriptions_forceEmit (s := s.start) e (visits order) ⟨serverID, hmem⟩ k) _ _).mp hsub
      obtain ⟨y, hy, hyr⟩ :=
        exists_delivered_forceEmit (s := s.start) (e := e) hsnap answered hv hsub₀
      unfold lastShown
      rw [Ne, Option.map_eq_none_iff]
      exact lastAbout_ne_none Prod.fst _ hy hyr
    · intro serverID o name
      constructor
      · show (∃ h : serverID ∈ servers,
          ((Panel.forceEmit e (visits order) s.start).1.gate ⟨serverID, h⟩).Subscribed o name) ↔ _
        simp only [gate_forceEmit]
        rfl
      · have hnone := lastAbout_eq_none Prod.fst _
          (not_gate_forceEmit (s := s.start) e (visits order) serverID o name)
        exact Option.map_eq_none_iff.mpr hnone

end Panel

/-! ### The step of a watched run -/

namespace Watched

variable {w w' : Watched R servers} {a : PanelAction R servers}

theorem step_eq_some (h : w.step a = some w') :
    ∃ t out, w.panel.exec a = some (t, out) ∧ w' = w.after a t out := by
  obtain ⟨⟨t, out⟩, hexec, rfl⟩ := Option.map_eq_some_iff.mp h
  exact ⟨t, out, hexec, rfl⟩

/-- What is on display is subscribed. -/
theorem subscribed_of_shown_step (h : w.step a = some w') {r : SensorRef} {v : AnyValue R}
    (hv : w'.shown r = some v) : w'.panel.Subscribed r := by
  obtain ⟨t, out, -, rfl⟩ := step_eq_some h
  by_contra hsub
  rw [show (w.after a t out).shown r = none from if_neg hsub] at hv
  cases hv

theorem shown_after {t : Panel R servers} {out : Output R} {r : SensorRef}
    (hsub : t.Subscribed r) :
    (w.after a t out).shown r = (lastShown r out.delivered).or (w.shown r) :=
  if_pos hsub

/-- **A recorded step keeps the recording in step with the display.** -/
theorem KnownState.step (hwired : w.panel.Wired)
    (hshown : ∀ r v, w.shown r = some v → w.panel.Subscribed r) (hk : w.KnownState)
    (ha : a.isStart = false) (h : w.step a = some w') : w'.KnownState := by
  obtain ⟨t, out, hexec, rfl⟩ := step_eq_some h
  intro hon r v hsub hv
  have hfaithful := hwired.faithful_exec hexec hon
  rw [shown_after (t := t) hsub] at hv
  have hnew : newest r (w.after a t out).recorded =
      (newest r out.saved).or (newest r w.recorded) := by
    show newest r ((if a.isStart then [] else w.recorded) ++ out.saved) = _
    rw [ha]
    exact lastAbout_append Saved.source r w.recorded out.saved
  rw [hnew]
  cases hs : newest r out.saved with
  | some x =>
    -- delivered in this step
    rw [← hfaithful.value_newest, hs] at hv
    refine ⟨x, rfl, Option.some.inj hv, hfaithful.proper x ?_⟩
    exact (source_of_lastAbout Saved.source r hs).1
  | none =>
    -- still on display from before
    rw [← hfaithful.value_newest, hs] at hv
    exact hk (Panel.enabled_of_exec hexec ha hon) r v (hshown r v hv) hv

/-- **A recording that starts without a gate on display starts from a known state.** -/
theorem NoGateShown.start (hwired : w.panel.Wired) (hno : w.NoGateShown)
    (ha : a.isStart = true) (h : w.step a = some w') : w'.KnownState := by
  obtain ⟨t, out, hexec, rfl⟩ := step_eq_some h
  intro hon r v hsub hv
  have hfaithful := hwired.faithful_exec hexec hon
  obtain ⟨-, hitem, hgate⟩ := Panel.start_effect hexec ha
  rw [shown_after (t := t) hsub] at hv
  have hnew : newest r (w.after a t out).recorded = newest r out.saved := by
    show newest r ((if a.isStart then [] else w.recorded) ++ out.saved) = _
    rw [ha]
    rfl
  rw [hnew]
  have hdelivered : lastShown r out.delivered = some v := by
    cases r with
    | item serverID k r =>
      obtain ⟨v', hv'⟩ := Option.ne_none_iff_exists'.mp (hitem serverID k r hsub)
      rw [hv'] at hv ⊢
      exact hv
    | gate serverID o name =>
      obtain ⟨hiff, hnone⟩ := hgate serverID o name
      rw [hnone, hno serverID o name (hiff.mp hsub)] at hv
      cases hv
  rw [← hfaithful.value_newest] at hdelivered
  obtain ⟨x, hx, hxv⟩ := Option.map_eq_some_iff.mp hdelivered
  exact ⟨x, hx, hxv, hfaithful.proper x (source_of_lastAbout Saved.source r hx).1⟩

/-- **A gate on display when a recording starts is missing from it.** -/
theorem noGateShown_of_start (hwired : w.panel.Wired) (ha : a.isStart = true)
    (h : w.step a = some w') (hk : w'.KnownState) : w.NoGateShown := by
  obtain ⟨t, out, hexec, rfl⟩ := step_eq_some h
  obtain ⟨hon, -, hgate⟩ := Panel.start_effect hexec ha
  intro serverID o name hsub
  obtain ⟨hiff, hnone⟩ := hgate serverID o name
  by_contra hne
  obtain ⟨v, hv⟩ := Option.ne_none_iff_exists'.mp hne
  have hsub' : t.Subscribed (.gate serverID o name) := hiff.mpr hsub
  -- it stays on display, so there should be a record
  obtain ⟨x, hx, -⟩ := hk hon (.gate serverID o name) v hsub' (by
    rw [shown_after hsub', hnone]
    exact hv)
  have hnew : newest (.gate serverID o name) out.saved = some x := by
    rw [← hx]
    show _ = newest _ ((if a.isStart then [] else w.recorded) ++ out.saved)
    rw [ha]
    rfl
  have hvalue := (hwired.faithful_exec hexec hon).value_newest (.gate serverID o name)
  rw [hnew, hnone] at hvalue
  cases hvalue

end Watched

/-! ### Runs -/

variable {batchSize : ℤ} {recordingEnabled : Bool}

theorem wired_of_reachable {w : Watched R servers}
    (h : (watchedMachine R servers batchSize recordingEnabled).Reachable w) : w.panel.Wired := by
  refine Machine.Reachable.induction (P := fun w => w.panel.Wired)
    (Panel.wired_newPanel batchSize recordingEnabled) ?_ h
  intro w a w' _ ih hstep
  obtain ⟨t, out, hexec, rfl⟩ := Watched.step_eq_some (w := w) hstep
  exact ih.exec hexec

theorem subscribed_of_shown {w : Watched R servers}
    (h : (watchedMachine R servers batchSize recordingEnabled).Reachable w) {r : SensorRef}
    {v : AnyValue R} (hv : w.shown r = some v) : w.panel.Subscribed r := by
  revert r v
  refine Machine.Reachable.induction
    (P := fun w => ∀ {r v}, w.shown r = some v → w.panel.Subscribed r) ?_ ?_ h
  · intro r v hv
    cases hv
  · intro w a w' _ _ hstep r v hv
    exact Watched.subscribed_of_shown_step (w := w) hstep hv

/-- **When a recording shows what the operators see**: at every point of a run, exactly if no sensor
of a UWebSocketGate poller is on display at a `StartRecording` of the run. -/
theorem knownThroughout_iff {as : List (PanelAction R servers)} {w : Watched R servers}
    (h : (watchedMachine R servers batchSize recordingEnabled).run
      (watchedMachine R servers batchSize recordingEnabled).init as = some w) :
    KnownThroughout (watchedMachine R servers batchSize recordingEnabled) as ↔
      NoGateShownAtStarts (watchedMachine R servers batchSize recordingEnabled) as := by
  constructor
  · intro hknown m₁ a m₂ u has ha hu
    subst has
    obtain ⟨u', hu', hrest⟩ := (Machine.run_append_eq_some _).mp h
    obtain rfl : u = u' := Option.some.inj (hu.symm.trans hu')
    obtain ⟨t, hstep, -⟩ := (Machine.run_cons_eq_some _).mp hrest
    have ht : (watchedMachine R servers batchSize recordingEnabled).run
        (watchedMachine R servers batchSize recordingEnabled).init (m₁ ++ [a]) = some t :=
      (Machine.run_concat_eq_some _).mpr ⟨u, hu, hstep⟩
    have hk := hknown (m₁ ++ [a]) m₂ t (by simp) ht
    exact Watched.noGateShown_of_start (wired_of_reachable ⟨m₁, hu⟩) ha hstep hk
  · intro hno m₁ m₂ u has hu
    have hno₁ : NoGateShownAtStarts (watchedMachine R servers batchSize recordingEnabled) m₁ := by
      intro l₁ a l₂ v hl ha hv
      exact hno l₁ a (l₂ ++ m₂) v (by rw [has, hl]; simp) ha hv
    clear has hno h
    -- by induction on the run up to this point
    refine Machine.history_induction (M := watchedMachine R servers batchSize recordingEnabled)
      (P := fun as w => NoGateShownAtStarts (watchedMachine R servers batchSize recordingEnabled) as →
        w.KnownState) ?_ ?_ hu hno₁
    · intro _ _ r v _ hv
      cases hv
    · intro as w a t hw ih hstep hnoall
      have hreach := Machine.reachable_of_run hw
      cases ha : a.isStart with
      | true =>
        exact (hnoall as a [] w rfl ha hw).start (wired_of_reachable hreach) ha hstep
      | false =>
        refine Watched.KnownState.step (wired_of_reachable hreach)
          (fun r v => subscribed_of_shown hreach) (ih ?_) ha hstep
        intro l₁ b l₂ v hl hb hv
        exact hnoall l₁ b (l₂ ++ [a]) v (by rw [hl]; simp) hb hv

/-- The run of the counterexample, on which both sides fail. -/
theorem knownThroughout_iff_gateThenStart :
    KnownThroughout (watchedMachine ℤ {"s"} 0 false) gateThenStart ↔
      NoGateShownAtStarts (watchedMachine ℤ {"s"} 0 false) gateThenStart :=
  knownThroughout_iff (w := Option.get _ (rfl : Option.isSome _ = true)) (Option.some_get _).symm

end UnisetPanel
