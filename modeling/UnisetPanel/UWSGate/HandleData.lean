/-
  What `handleData` of the UWebSocketGate poller hands on.

  A message is compared entry by entry with one hash for each sensor.  For one
  sensor the message is a stream of its values, and what an object that is
  subscribed to it gets are the `changes` of this stream
  (`delivered_handleData`); the hash of the last value is recorded, and the last
  value is stored (`poller_handleData`).  Nothing after this module unfolds the
  loop.
-/
import UnisetPanel.UWSGate.Subscriptions
import UnisetPanel.Changes
import Mathlib

namespace UnisetPanel

/-! ### Hashes -/

section

variable {R : Type} [Float64 R]

/-- The digits of a number have no bar. -/
theorem bar_notMem_toString (v : Int64) : '|' ∉ (toString v).toList := by
  have hnat : ∀ n : ℕ, '|' ∉ n.repr.toList := by
    intro n hn
    rw [Nat.toList_repr] at hn
    exact absurd (Nat.isDigit_of_mem_toDigits (by decide) (by decide) hn) (by decide)
  show '|' ∉ (Int.repr v.toInt).toList
  rw [Int.repr_eq_if]
  split_ifs
  · exact hnat _
  · rw [String.toList_append]
    simpa using hnat _

/-- A hash tells the value. -/
theorem SensorData.value_eq_of_valueHash {s t : SensorData R} (h : s.valueHash = t.valueHash) :
    s.value = t.value := by
  have hlist := congrArg String.toList h
  have hbar : ∀ u : SensorData R, u.valueHash.toList =
      (toString u.value).toList ++ '|' :: (toString u.errorCode).toList := by
    intro u
    unfold valueHash
    simp [String.toList_append]
  rw [hbar, hbar] at hlist
  obtain ⟨hvalue, -, -⟩ := (List.append_cons_inj_of_notMem (bar_notMem_toString _)
    (bar_notMem_toString _)).mp hlist
  exact Int64.toInt_inj.mp (Int.repr_injective (String.toList_injective hvalue))

theorem SensorData.valueHash_ne_empty (s : SensorData R) : s.valueHash ≠ "" := by
  intro h
  have := congrArg String.toList h
  unfold valueHash at this
  simp at this

end

/-! ### What `handleData` does for one object and one sensor -/

namespace UWSGatePoller

variable {R : Type} [Float64 R]

/-- The part of a message that is about a sensor. -/
def about (x : String) (data : List (SensorData R)) : List (SensorData R) :=
  data.filter fun d => d.name = x

/-- The values of a sensor that differ from the one before. -/
def newValues (p : UWSGatePoller R) (x : String) (data : List (SensorData R)) :
    List (SensorData R) :=
  changes SensorData.valueHash (fun _ => false) (p.lastValues.lookup x) (about x data)

/-- The updates collected for an object. -/
def updatesFor (r : DataLoop R) (o : String) : List (Update (SensorData R)) :=
  (r.updatesByObject.lookup o).getD []

omit [Float64 R] in
theorem lookup_foldl_addUpdate (p : UWSGatePoller R) (sensor : SensorData R) (now : Time)
    {order : List String} (hnodup : order.Nodup)
    (us : GoMap String (List (Update (SensorData R)))) (o : String) :
    ((order.foldl (p.addUpdate sensor now) us).lookup o).getD [] = (us.lookup o).getD [] ++
      if o ∈ order ∧ p.Subscribed o sensor.name then [⟨o, sensor, now⟩] else [] := by
  induction order generalizing us with
  | nil => simp
  | cons o' order ih =>
    obtain ⟨hnot, hnodup⟩ := List.nodup_cons.mp hnodup
    rw [List.foldl_cons, ih hnodup]
    unfold addUpdate
    by_cases hsub : p.Subscribed o' sensor.name
    · rw [if_pos hsub, GoMap.lookup_insert]
      by_cases ho : o = o'
      · subst ho
        simp [hnot, hsub]
      · simp [ho]
    · rw [if_neg hsub]
      by_cases ho : o = o'
      · subst ho
        simp [hnot, hsub]
      · simp [ho]

/-- The order of the map iterations is one of the objects with subscriptions. -/
def IsRange (p : UWSGatePoller R) (order : List String) : Prop :=
  order.Nodup ∧ order.toFinset = p.subscriptions.keys

omit [Float64 R] in
instance (p : UWSGatePoller R) (order : List String) : Decidable (p.IsRange order) :=
  inferInstanceAs (Decidable (_ ∧ _))

omit [Float64 R] in
theorem IsRange.mem {p : UWSGatePoller R} {order : List String} (h : p.IsRange order)
    {o x : String} (hsub : p.Subscribed o x) : o ∈ order := by
  rw [← List.mem_toFinset, h.2]
  exact hsub.mem_keys

/-- **One entry of a message.** -/
theorem handleSensor_spec (m : RecordingManager) {order : List String} (now : Time)
    (acc : DataLoop R) (horder : acc.poller.IsRange order) (d : SensorData R) :
    (handleSensor m order now acc d).poller.subscriptions = acc.poller.subscriptions ∧
      (∀ x, (handleSensor m order now acc d).poller.lastValues.lookup x =
          lastKey SensorData.valueHash (acc.poller.lastValues.lookup x) (about x [d]) ∧
        (handleSensor m order now acc d).poller.currentValues.lookup x =
          (about x [d]).getLast?.or (acc.poller.currentValues.lookup x)) ∧
      ∀ o, updatesFor (handleSensor m order now acc d) o = updatesFor acc o ++
        if acc.poller.Subscribed o d.name then
          (acc.poller.newValues d.name [d]).map fun e => ⟨o, e, now⟩
        else [] := by
  have habout : ∀ x, about x [d] = if d.name = x then [d] else [] := by
    intro x
    unfold about
    rw [List.filter_cons, List.filter_nil]
    simp
  have hcurrent : ∀ x, Finmap.lookup x (acc.poller.currentValues.insert d.name d) =
      (about x [d]).getLast?.or (acc.poller.currentValues.lookup x) := by
    intro x
    rw [GoMap.lookup_insert, habout]
    by_cases hx : x = d.name
    · subst hx
      simp
    · rw [if_neg hx, if_neg fun h => hx h.symm]
      rfl
  have hrecorded : (acc.poller.lastValues.lookup d.name).getD "" = d.valueHash ↔
      acc.poller.lastValues.lookup d.name = some d.valueHash := by
    cases acc.poller.lastValues.lookup d.name with
    | none => simpa using (d.valueHash_ne_empty).symm
    | some h => simp
  by_cases hsame : acc.poller.lastValues.lookup d.name = some d.valueHash
  · -- the value is the recorded one
    have heq : handleSensor m order now acc d = { acc with poller := { acc.poller with
        currentValues := acc.poller.currentValues.insert d.name d } } :=
      if_pos (hrecorded.mpr hsame)
    rw [heq]
    refine ⟨rfl, fun x => ⟨?_, hcurrent x⟩, fun o => ?_⟩
    · rw [habout]
      by_cases hx : d.name = x
      · subst hx
        rw [if_pos rfl, lastKey_cons, lastKey_nil]
        exact hsame
      · rw [if_neg hx]
        rfl
    · have hnone : acc.poller.newValues d.name [d] = [] := by
        unfold newValues
        rw [habout, if_pos rfl, changes_cons_neg _ _ (by simp [hsame])]
        rfl
      rw [hnone]
      simp [updatesFor]
  · -- it is recorded, and handed to the objects
    obtain ⟨q, hq, hlast⟩ : ∃ q, handleSensor m order now acc d = q ∧
        q.poller = { acc.poller with
          currentValues := acc.poller.currentValues.insert d.name d
          lastValues := acc.poller.lastValues.insert d.name d.valueHash } ∧
        q.updatesByObject = order.foldl (addUpdate { acc.poller with
          currentValues := acc.poller.currentValues.insert d.name d } d now)
            acc.updatesByObject := by
      refine ⟨_, rfl, ?_⟩
      unfold handleSensor
      simp only
      rw [if_neg fun h => hsame (hrecorded.mp h)]
      exact ⟨rfl, rfl⟩
    rw [hq, hlast.1]
    refine ⟨rfl, fun x => ⟨?_, hcurrent x⟩, fun o => ?_⟩
    · rw [GoMap.lookup_insert, habout]
      by_cases hx : d.name = x
      · subst hx
        simp [lastKey]
      · rw [if_neg hx, if_neg fun h => hx h.symm]
        rfl
    · have hnew : acc.poller.newValues d.name [d] = [d] := by
        unfold newValues
        rw [habout, if_pos rfl, changes_cons_pos _ _ (Or.inr hsame)]
        rfl
      unfold updatesFor
      rw [hlast.2, lookup_foldl_addUpdate _ _ _ horder.1, hnew, List.map_singleton]
      congr 1
      refine if_congr (and_iff_right_of_imp fun hsub => horder.mem hsub) rfl rfl

/-- The updates about a sensor. -/
def updatesAbout (x : String) (us : List (Update (SensorData R))) : List (Update (SensorData R)) :=
  us.filter fun u => u.item.name = x

omit [Float64 R] in
theorem about_cons (x : String) (d : SensorData R) (data : List (SensorData R)) :
    about x (d :: data) = about x [d] ++ about x data := by
  unfold about
  rw [← List.filter_append, List.singleton_append]

omit [Float64 R] in
theorem updatesAbout_append (x : String) (us vs : List (Update (SensorData R))) :
    updatesAbout x (us ++ vs) = updatesAbout x us ++ updatesAbout x vs :=
  List.filter_append ..

theorem mem_newValues {p : UWSGatePoller R} {x : String} {data : List (SensorData R)}
    {d : SensorData R} (h : d ∈ p.newValues x data) : d ∈ data ∧ d.name = x := by
  obtain ⟨hmem, hname⟩ := List.mem_filter.mp ((changes_sublist _ _ _ _).subset h)
  exact ⟨hmem, of_decide_eq_true hname⟩

/-- Of one entry an object gets its new values, if it is subscribed. -/
theorem updatesAbout_handleSensor (m : RecordingManager) {order : List String} (now : Time)
    (acc : DataLoop R) (horder : acc.poller.IsRange order) (d : SensorData R) (o x : String) :
    updatesAbout x (updatesFor (handleSensor m order now acc d) o) =
      updatesAbout x (updatesFor acc o) ++ if acc.poller.Subscribed o x then
        (acc.poller.newValues x [d]).map fun e => ⟨o, e, now⟩ else [] := by
  rw [(handleSensor_spec m now acc horder d).2.2, updatesAbout_append]
  congr 1
  by_cases hx : d.name = x
  · subst hx
    split_ifs
    · refine List.filter_eq_self.mpr fun u hu => ?_
      obtain ⟨e, he, rfl⟩ := List.mem_map.mp hu
      exact decide_eq_true (mem_newValues he).2
    · rfl
  · have hnone : acc.poller.newValues x [d] = [] := by
      refine List.eq_nil_iff_forall_not_mem.mpr fun e he => ?_
      obtain ⟨hmem, hname⟩ := mem_newValues he
      exact hx (List.mem_singleton.mp hmem ▸ hname)
    rw [hnone, List.map_nil, ite_self]
    refine List.filter_eq_nil_iff.mpr fun u hu => ?_
    split_ifs at hu
    · obtain ⟨e, he, rfl⟩ := List.mem_map.mp hu
      simpa using fun h => hx ((mem_newValues he).2.symm.trans h)
    · cases hu

/-- **A message.** -/
theorem foldl_handleSensor_spec (m : RecordingManager) {order : List String} (now : Time)
    (data : List (SensorData R)) (acc : DataLoop R) (horder : acc.poller.IsRange order) :
    (data.foldl (handleSensor m order now) acc).poller.subscriptions = acc.poller.subscriptions ∧
      (∀ x, (data.foldl (handleSensor m order now) acc).poller.lastValues.lookup x =
          lastKey SensorData.valueHash (acc.poller.lastValues.lookup x) (about x data) ∧
        (data.foldl (handleSensor m order now) acc).poller.currentValues.lookup x =
          (about x data).getLast?.or (acc.poller.currentValues.lookup x)) ∧
      (∀ o x, updatesAbout x (updatesFor (data.foldl (handleSensor m order now) acc) o) =
        updatesAbout x (updatesFor acc o) ++ if acc.poller.Subscribed o x then
          (acc.poller.newValues x data).map fun e => ⟨o, e, now⟩ else []) ∧
      ∀ o, (∀ u ∈ updatesFor acc o, u.objectName = o) →
        ∀ u ∈ updatesFor (data.foldl (handleSensor m order now) acc) o, u.objectName = o := by
  induction data generalizing acc with
  | nil => exact ⟨rfl, fun x => ⟨rfl, rfl⟩, fun o x => by simp [newValues, about], fun o h => h⟩
  | cons d data ih =>
    obtain ⟨hsubs, hvalues, hfor⟩ := handleSensor_spec m now acc horder d
    have hsub : ∀ o x, (handleSensor m order now acc d).poller.Subscribed o x ↔
        acc.poller.Subscribed o x := by
      intro o x
      unfold Subscribed sensorsOf
      rw [hsubs]
    have horder' : (handleSensor m order now acc d).poller.IsRange order := by
      unfold IsRange
      rw [hsubs]
      exact horder
    obtain ⟨ih1, ih2, ih3, ih4⟩ := ih (handleSensor m order now acc d) horder'
    rw [List.foldl_cons]
    refine ⟨ih1.trans hsubs, fun x => ?_, fun o x => ?_, fun o ho => ?_⟩
    · rw [(ih2 x).1, (ih2 x).2, (hvalues x).1, (hvalues x).2, about_cons x d data, lastKey_append,
        List.getLast?_append, Option.or_assoc]
      exact ⟨rfl, rfl⟩
    · rw [ih3, updatesAbout_handleSensor m now acc horder, List.append_assoc]
      congr 1
      have hcut : acc.poller.newValues x (d :: data) = acc.poller.newValues x [d] ++
          (handleSensor m order now acc d).poller.newValues x data := by
        unfold newValues
        rw [about_cons x d data, changes_append, (hvalues x).1]
      rw [hcut]
      by_cases hox : acc.poller.Subscribed o x
      · rw [if_pos hox, if_pos hox, if_pos ((hsub o x).mpr hox), List.map_append]
      · rw [if_neg hox, if_neg hox, if_neg fun h => hox ((hsub o x).mp h)]
        rfl
    · refine ih4 o fun u hu => ?_
      rw [hfor] at hu
      rcases List.mem_append.mp hu with hu | hu
      · exact ho u hu
      · split_ifs at hu
        · obtain ⟨e, -, rfl⟩ := List.mem_map.mp hu
          rfl
        · cases hu

/-- The part of a batch that is for an object and about a sensor. -/
def delivered (o x : String) (batch : List (Update (SensorData R))) :
    List (Update (SensorData R)) :=
  updatesAbout x (batch.filter fun u => u.objectName = o)

/-- **What `handleData` delivers**: each object gets the values of its sensors that differ from the
one before. -/
theorem delivered_handleData (p : UWSGatePoller R) (m : RecordingManager)
    (data : List (SensorData R)) {order : List String} (horder : p.IsRange order) (now : Time)
    (o x : String) :
    delivered o x (p.handleData m data order now).2.1 =
      if p.Subscribed o x then (p.newValues x data).map fun e => ⟨o, e, now⟩ else [] := by
  obtain ⟨-, -, habout, hfor⟩ := foldl_handleSensor_spec m now data ⟨p, ∅, []⟩ horder
  have hbatch : ∀ os : List String, os.Nodup →
      (os.flatMap fun o' => updatesFor (data.foldl (handleSensor m order now) ⟨p, ∅, []⟩) o').filter
        (fun u => u.objectName = o) = if o ∈ os then
          updatesFor (data.foldl (handleSensor m order now) ⟨p, ∅, []⟩) o else [] := by
    intro os hnodup
    induction os with
    | nil => rfl
    | cons o' os ih =>
      obtain ⟨hnot, hnodup⟩ := List.nodup_cons.mp hnodup
      have hown := hfor o' (by simp [updatesFor])
      rw [List.flatMap_cons, List.filter_append, ih hnodup]
      by_cases ho : o = o'
      · subst ho
        rw [if_neg hnot, List.append_nil, if_pos List.mem_cons_self]
        exact List.filter_eq_self.mpr fun u hu => decide_eq_true (hown u hu)
      · have hnone : (updatesFor (data.foldl (handleSensor m order now) ⟨p, ∅, []⟩) o').filter
            (fun u => u.objectName = o) = [] :=
          List.filter_eq_nil_iff.mpr fun u hu h =>
            ho ((of_decide_eq_true h).symm.trans (hown u hu))
        rw [hnone, List.nil_append]
        simp [ho]
  show updatesAbout x (List.filter _ (order.flatMap fun o' =>
    updatesFor (data.foldl (handleSensor m order now) ⟨p, ∅, []⟩) o')) = _
  rw [hbatch order horder.1]
  by_cases hsub : p.Subscribed o x
  · rw [if_pos (horder.mem hsub), habout]
    simp [updatesFor, updatesAbout]
  · rw [if_neg hsub]
    split_ifs
    · rw [habout, if_neg hsub]
      simp [updatesFor, updatesAbout]
    · rfl

/-- The values recorded and stored by `handleData`; the subscriptions stay. -/
theorem poller_handleData (p : UWSGatePoller R) (m : RecordingManager) (data : List (SensorData R))
    {order : List String} (horder : p.IsRange order) (now : Time) :
    (p.handleData m data order now).1.subscriptions = p.subscriptions ∧
      ∀ x, (p.handleData m data order now).1.lastValues.lookup x =
          lastKey SensorData.valueHash (p.lastValues.lookup x) (about x data) ∧
        (p.handleData m data order now).1.currentValues.lookup x =
          (about x data).getLast?.or (p.currentValues.lookup x) := by
  obtain ⟨hsubs, hvalues, -, -⟩ := foldl_handleSensor_spec m now data ⟨p, ∅, []⟩ horder
  exact ⟨hsubs, hvalues⟩

end UWSGatePoller

end UnisetPanel
