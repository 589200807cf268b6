/-
  What a subscriber of the UWebSocketGate poller is shown.

  `handleData` compares a message with one hash for each sensor, and hands a
  value that differs to every object subscribed at that moment.  An object that
  subscribes later, to a sensor whose hash is recorded already, is told nothing
  while the value stays as it is (`not_shownThroughout`).

  Along with the poller the state here has, for each object and sensor, whether
  the sensor has been in a message since the current subscription began
  (`told`), and the value delivered last since then (`shown`).  What is shown is
  the current value throughout a run if and only if in the first message after
  each subscription some value is not the recorded one (`shownThroughout_iff`).
-/
import UnisetPanel.UWSGate.HandleData
import UnisetPanel.Recording.Panel

namespace UnisetPanel

variable {R : Type} [Float64 R]

/-- A poller, and what its subscribers know. -/
structure DeliveryState (R : Type) where
  poller : UWSGatePoller R
  /-- object and sensor: a message about it was handled since the current subscription began -/
  told : String → String → Bool
  /-- the value delivered last since then -/
  shown : String → String → Option Int64

/-- One step; the methods execute one at a time. -/
inductive DeliveryAction (R : Type) where
  | subscribe (objectName : String) (sensorNames : List String)
  | unsubscribe (objectName : String) (sensorNames : List String)
  | unsubscribeAll (objectName : String) (range : List String)
  | handleData (data : List (SensorData R)) (order : List String) (now : Time)

namespace DeliveryState

variable (s : DeliveryState R)

omit [Float64 R] in
/-- The subscriptions change: what is known of a subscription goes with it. -/
def withPoller (p : UWSGatePoller R) : DeliveryState R where
  poller := p
  told o x := s.told o x && decide (p.Subscribed o x)
  shown o x := if p.Subscribed o x then s.shown o x else none

/-- The callback gets the batch of `handleData`. -/
def onData (m : RecordingManager) (data : List (SensorData R)) (order : List String) (now : Time) :
    DeliveryState R :=
  let r := s.poller.handleData m data order now
  { poller := r.1
    told := fun o x => s.told o x ||
      (decide (s.poller.Subscribed o x) && data.any fun d => d.name = x)
    shown := fun o x => lastKey (fun u : Update (SensorData R) => u.item.value) (s.shown o x)
      (UWSGatePoller.delivered o x r.2.1) }

/-- One step. -/
def step (m : RecordingManager) : DeliveryAction R → Option (DeliveryState R)
  | .subscribe o names => some (s.withPoller (s.poller.subscribe o names).1)
  | .unsubscribe o names => some (s.withPoller (s.poller.unsubscribe o names).1)
  | .unsubscribeAll o range =>
    if range.Nodup ∧ range.toFinset = s.poller.sensorsOf o then
      some (s.withPoller (s.poller.unsubscribeAll o range).1)
    else none
  | .handleData data order now =>
    if s.poller.IsRange order then some (s.onData m data order now) else none

omit [Float64 R] in
/-- **Subscribers see the current value**, once a message about the sensor was handled. -/
def ShowsCurrent (s : DeliveryState R) : Prop :=
  ∀ o x, s.poller.Subscribed o x → s.told o x = true →
    ∃ d ∈ s.poller.currentValues.lookup x, s.shown o x = some d.value

/-- In the first message about a sensor after its subscription, some value is not the recorded
one. -/
def FirstDiffers (s : DeliveryState R) : DeliveryAction R → Prop
  | .handleData data _ _ => ∀ o x, s.poller.Subscribed o x → s.told o x = false →
      (∃ d ∈ data, d.name = x) →
        ∃ d ∈ data, d.name = x ∧ s.poller.lastValues.lookup x ≠ some d.valueHash
  | _ => True

end DeliveryState

variable (R) in
/-- A poller and its subscribers, from the start. -/
def deliveryMachine (m : RecordingManager) (serverID : String) :
    Machine (DeliveryState R) (DeliveryAction R) where
  init := ⟨newUWSGatePoller R serverID, fun _ _ => false, fun _ _ => none⟩
  step s := s.step m

/-- After every step of every run the subscribers see the current values. -/
def ShownThroughout (M : Machine (DeliveryState R) (DeliveryAction R)) : Prop :=
  ∀ as s, M.run M.init as = some s → s.ShowsCurrent

/-! ### The late subscriber -/

/-- Object `a` gets value 5 of sensor `x`; object `b` subscribes to it, and the next message repeats
the value. -/
def lateSubscriberRun : List (DeliveryAction ℤ) :=
  [.subscribe "a" ["x"], .handleData [⟨"x", 5, .nil⟩] ["a"] 0,
    .subscribe "b" ["x"], .handleData [⟨"x", 5, .nil⟩] ["a", "b"] 1]

/-- **It fails**: object `b` is shown nothing. -/
theorem not_shownThroughout : ¬ ShownThroughout (deliveryMachine ℤ ⟨false⟩ "s") := by
  intro h
  exact absurd (h lateSubscriberRun _ rfl "b" "x" (by decide) (by decide)) (by decide)

/-! ### The invariant -/

namespace DeliveryState

open UWSGatePoller

/-- The recorded hash is that of the current value, and every subscriber that was told about a
sensor is shown its current value. -/
structure ShownInv (s : DeliveryState R) : Prop where
  recorded : ∀ x, s.poller.lastValues.lookup x =
    (s.poller.currentValues.lookup x).map SensorData.valueHash
  subscribed : ∀ o x, s.told o x = true → s.poller.Subscribed o x
  current : ∀ o x, s.told o x = true →
    ∃ d ∈ s.poller.currentValues.lookup x, s.shown o x = some d.value
  untold : ∀ o x, s.told o x = false → s.shown o x = none

variable {s s' : DeliveryState R}

/-- The subscriptions change, and what stays subscribed keeps its values. -/
theorem ShownInv.withPoller (h : s.ShownInv) {p : UWSGatePoller R}
    (hrecorded : ∀ x, p.lastValues.lookup x = (p.currentValues.lookup x).map SensorData.valueHash)
    (hkept : ∀ o x, p.Subscribed o x → p.currentValues.lookup x = s.poller.currentValues.lookup x) :
    (s.withPoller p).ShownInv := by
  have htold : ∀ o x, (s.withPoller p).told o x = true ↔ s.told o x = true ∧ p.Subscribed o x := by
    intro o x
    show (s.told o x && decide (p.Subscribed o x)) = true ↔ _
    rw [Bool.and_eq_true, decide_eq_true_iff]
  constructor
  · exact hrecorded
  · exact fun o x ht => ((htold o x).mp ht).2
  · intro o x ht
    obtain ⟨ht, hsub⟩ := (htold o x).mp ht
    obtain ⟨d, hd, hshown⟩ := h.current o x ht
    refine ⟨d, (hkept o x hsub).trans hd, ?_⟩
    exact (if_pos hsub).trans hshown
  · intro o x ht
    show (if p.Subscribed o x then s.shown o x else none) = none
    split_ifs with hsub
    · refine h.untold o x ?_
      by_contra hne
      rw [Bool.not_eq_false] at hne
      exact Bool.false_ne_true (ht.symm.trans ((htold o x).mpr ⟨hne, hsub⟩))
    · rfl

theorem ShownInv.unsubscribe (h : s.ShownInv) (o : String) (names : List String) :
    (s.withPoller (s.poller.unsubscribe o names).1).ShownInv := by
  refine h.withPoller (fun x => ?_) fun o' x hsub => ?_
  · obtain ⟨hlast, hcurrent⟩ := values_unsubscribe s.poller o names x
    rw [hlast, hcurrent]
    split_ifs
    · rfl
    · exact h.recorded x
  · rw [(values_unsubscribe s.poller o names x).2, if_neg (notMem_unsubscribe_snd hsub)]

/-- What is shown after a message is the last of the new values. -/
theorem shown_onData (m : RecordingManager) (data : List (SensorData R)) {order : List String}
    (horder : s.poller.IsRange order) (now : Time) (o x : String) :
    (s.onData m data order now).shown o x = if s.poller.Subscribed o x then
      lastKey SensorData.value (s.shown o x) (s.poller.newValues x data) else s.shown o x := by
  show lastKey (fun u : Update (SensorData R) => u.item.value) (s.shown o x)
    (delivered o x (s.poller.handleData m data order now).2.1) = _
  rw [delivered_handleData s.poller m data horder now]
  split_ifs
  · exact lastKey_map ..
  · rfl

theorem newValues_eq_nil_iff {p : UWSGatePoller R} {x : String} {data : List (SensorData R)} :
    p.newValues x data = [] ↔
      ∀ d ∈ data, d.name = x → p.lastValues.lookup x = some d.valueHash := by
  unfold newValues about
  rw [changes_eq_nil_iff _ _ fun _ _ => rfl]
  simp

/-- A message about the sensor makes the last value in it the current one. -/
theorem ShownInv.onData_current (h : s.ShownInv) {x : String} {data : List (SensorData R)} {o : String}
    (hfirst : s.told o x = false → s.poller.newValues x data ≠ []) {last : SensorData R}
    (hlast : (about x data).getLast? = some last) :
    lastKey SensorData.value (s.shown o x) (s.poller.newValues x data) = some last.value := by
  have hhash : lastKey SensorData.valueHash (s.poller.lastValues.lookup x)
      (s.poller.newValues x data) = some last.valueHash := by
    unfold newValues
    rw [lastKey_changes, lastKey, hlast]
    rfl
  unfold lastKey at hhash ⊢
  cases hnew : (s.poller.newValues x data).getLast? with
  | some e =>
    -- the last new value has the hash of the last value
    rw [hnew] at hhash
    exact congrArg some (SensorData.value_eq_of_valueHash (Option.some.inj hhash))
  | none =>
    -- nothing new: the recorded value is repeated, and it was shown before
    have hnil := List.getLast?_eq_none_iff.mp hnew
    have htold : s.told o x = true := by
      by_contra hne
      exact hfirst (Bool.not_eq_true _ ▸ hne) hnil
    obtain ⟨d, hd, hshown⟩ := h.current o x htold
    rw [hnew] at hhash
    have hd' : s.poller.currentValues.lookup x = some d := hd
    have hrec : some last.valueHash = some d.valueHash := by
      rw [← hhash, Option.map_none, Option.none_or, h.recorded, hd', Option.map_some]
    rw [Option.map_none, Option.none_or, hshown]
    exact congrArg some (SensorData.value_eq_of_valueHash (Option.some.inj hrec)).symm

/-- **A message that meets the condition.** -/
theorem ShownInv.onData (h : s.ShownInv) (m : RecordingManager) {data : List (SensorData R)}
    {order : List String} (horder : s.poller.IsRange order) (now : Time)
    (hfirst : s.FirstDiffers (.handleData data order now)) :
    (s.onData m data order now).ShownInv := by
  obtain ⟨hsubs, hvalues⟩ := poller_handleData s.poller m data horder now
  have hsub : ∀ o x, (s.onData m data order now).poller.Subscribed o x ↔
      s.poller.Subscribed o x := by
    intro o x
    show x ∈ sensorsOf (s.poller.handleData m data order now).1 o ↔ _
    unfold sensorsOf
    rw [hsubs]
    rfl
  have habout : ∀ x, data.any (fun d => d.name = x) = true ↔ (about x data).getLast? ≠ none := by
    intro x
    rw [Ne, List.getLast?_eq_none_iff, about, List.filter_eq_nil_iff]
    simp
  have htold : ∀ o x, (s.onData m data order now).told o x = true ↔
      s.told o x = true ∨ s.poller.Subscribed o x ∧ (about x data).getLast? ≠ none := by
    intro o x
    show (s.told o x || (decide (s.poller.Subscribed o x) && data.any fun d => d.name = x)) = true ↔ _
    rw [Bool.or_eq_true, Bool.and_eq_true, decide_eq_true_iff, habout]
  have hsubscribed : ∀ o x, (s.onData m data order now).told o x = true →
      s.poller.Subscribed o x := by
    intro o x ht
    rcases (htold o x).mp ht with hold | ⟨hox, -⟩
    · exact h.subscribed o x hold
    · exact hox
  have hnew : ∀ o x, s.poller.Subscribed o x → (about x data).getLast? ≠ none →
      s.told o x = false → s.poller.newValues x data ≠ [] := by
    intro o x hox hne hf hnil
    obtain ⟨d, hd, hname⟩ := List.any_eq_true.mp ((habout x).mpr hne)
    obtain ⟨e, he, hename, hdiff⟩ := hfirst o x hox hf ⟨d, hd, of_decide_eq_true hname⟩
    exact hdiff (newValues_eq_nil_iff.mp hnil e he hename)
  constructor
  · intro x
    show Finmap.lookup x (s.poller.handleData m data order now).1.lastValues =
      (Finmap.lookup x (s.poller.handleData m data order now).1.currentValues).map _
    rw [(hvalues x).1, (hvalues x).2, lastKey, h.recorded]
    cases (about x data).getLast? with
    | none => rfl
    | some last => rfl
  · intro o x ht
    exact (hsub o x).mpr (hsubscribed o x ht)
  · intro o x ht
    have hox := hsubscribed o x ht
    rw [shown_onData m data horder, if_pos hox]
    show ∃ d ∈ Finmap.lookup x (s.poller.handleData m data order now).1.currentValues, _
    rw [(hvalues x).2]
    cases hlast : (about x data).getLast? with
    | some last =>
      have hne : (about x data).getLast? ≠ none := by
        rw [hlast]
        exact Option.some_ne_none last
      exact ⟨last, rfl, h.onData_current (hnew o x hox hne) hlast⟩
    | none =>
      -- the message is not about the sensor
      have ht' : s.told o x = true := ((htold o x).mp ht).resolve_right fun hc => hc.2 hlast
      have hnil : s.poller.newValues x data = [] := by
        unfold newValues
        rw [List.getLast?_eq_none_iff.mp hlast]
        rfl
      rw [hnil]
      exact h.current o x ht'
  · intro o x ht
    have hnot : ¬ (s.told o x = true ∨
        s.poller.Subscribed o x ∧ (about x data).getLast? ≠ none) := by
      rw [← htold, ht]
      exact Bool.false_ne_true
    obtain ⟨hf, hother⟩ := not_or.mp hnot
    rw [shown_onData m data horder]
    split_ifs with hox
    · have hnone : (about x data).getLast? = none := by
        by_contra hne
        exact hother ⟨hox, hne⟩
      unfold newValues
      rw [List.getLast?_eq_none_iff.mp hnone]
      exact h.untold o x (Bool.not_eq_true _ ▸ hf)
    · exact h.untold o x (Bool.not_eq_true _ ▸ hf)

/-- **The step lemma.** -/
theorem ShownInv.step (h : s.ShownInv) {m : RecordingManager} {a : DeliveryAction R}
    (hfirst : s.FirstDiffers a) (hs : s.step m a = some s') : s'.ShownInv := by
  cases a with
  | subscribe o names =>
    obtain rfl := (Option.some.inj hs).symm
    obtain ⟨hlast, hcurrent⟩ := values_subscribe s.poller o names
    refine h.withPoller (fun x => ?_) fun _ _ _ => ?_
    · rw [hlast, hcurrent]
      exact h.recorded x
    · rw [hcurrent]
  | unsubscribe o names =>
    obtain rfl := (Option.some.inj hs).symm
    exact h.unsubscribe o names
  | unsubscribeAll o range =>
    obtain ⟨-, hs⟩ := Option.ite_none_right_eq_some.mp hs
    obtain rfl := (Option.some.inj hs).symm
    unfold UWSGatePoller.unsubscribeAll
    cases s.poller.subscriptions.lookup o with
    | none => exact h.withPoller h.recorded fun _ _ _ => rfl
    | some items => exact h.unsubscribe o range
  | handleData data order now =>
    obtain ⟨horder, hs⟩ := Option.ite_none_right_eq_some.mp hs
    obtain rfl := (Option.some.inj hs).symm
    exact h.onData m horder now hfirst

/-- A message that repeats the recorded value to a new subscriber: it is told, and shown nothing. -/
theorem ShownInv.not_showsCurrent (h : s.ShownInv) {m : RecordingManager} {a : DeliveryAction R}
    (hfirst : ¬ s.FirstDiffers a) (hs : s.step m a = some s') : ¬ s'.ShowsCurrent := by
  cases a with
  | subscribe o names => exact absurd trivial hfirst
  | unsubscribe o names => exact absurd trivial hfirst
  | unsubscribeAll o range => exact absurd trivial hfirst
  | handleData data order now =>
    obtain ⟨horder, hs⟩ := Option.ite_none_right_eq_some.mp hs
    obtain rfl := (Option.some.inj hs).symm
    unfold FirstDiffers at hfirst
    push Not at hfirst
    obtain ⟨o, x, hox, hf, ⟨d, hd, hname⟩, hsame⟩ := hfirst
    intro hall
    obtain ⟨hsubs, -⟩ := poller_handleData s.poller m data horder now
    obtain ⟨e, -, hshown⟩ := hall o x (by
        show x ∈ sensorsOf (s.poller.handleData m data order now).1 o
        unfold sensorsOf
        rw [hsubs]
        exact hox) (by
      show (s.told o x || (decide (s.poller.Subscribed o x) && data.any fun d => d.name = x)) = true
      rw [decide_eq_true hox, Bool.true_and,
        List.any_eq_true.mpr ⟨d, hd, decide_eq_true hname⟩, Bool.or_true])
    rw [shown_onData m data horder, if_pos hox, newValues_eq_nil_iff.mpr hsame, lastKey_nil,
      h.untold o x hf] at hshown
    cases hshown

end DeliveryState

/-! ### The main theorem -/

/-- **When subscribers see the current value.** They do throughout a run if and only if in the first
message about a sensor after each subscription to it, some value is not the recorded one. -/
theorem shownThroughout_iff {m : RecordingManager} {serverID : String}
    (as : List (DeliveryAction R)) {s : DeliveryState R}
    (hrun : (deliveryMachine R m serverID).run (deliveryMachine R m serverID).init as = some s) :
    (deliveryMachine R m serverID).Throughout DeliveryState.ShowsCurrent as ↔
      (deliveryMachine R m serverID).EveryStep DeliveryState.FirstDiffers as := by
  refine Machine.throughout_iff_everyStep (I := DeliveryState.ShownInv) ?_ ?_ ?_ ?_ hrun
  · exact ⟨fun _ => rfl, nofun, nofun, fun _ _ _ => rfl⟩
  · exact fun _ _ _ h hfirst hs => h.step hfirst hs
  · exact fun _ h o x _ ht => h.current o x ht
  · exact fun _ _ _ h hfirst hs => h.not_showsCurrent hfirst hs

/-- In `lateSubscriberRun` the last message repeats the recorded value. -/
theorem not_everyStep_lateSubscriberRun :
    ¬ (deliveryMachine ℤ ⟨false⟩ "s").EveryStep DeliveryState.FirstDiffers lateSubscriberRun := by
  intro h
  have hall := (shownThroughout_iff lateSubscriberRun rfl).mpr h
  exact absurd (hall.last rfl "b" "x" (by decide) (by decide)) (by decide)

end UnisetPanel
