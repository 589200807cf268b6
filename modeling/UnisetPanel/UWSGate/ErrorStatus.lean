/-
  Does `handleData` of the UWebSocketGate poller see every change?

  The hash that it compares is made of the value and `ErrorCode`.  What counts
  as an error, though, `HasError` says, and it looks at texts too: of a text
  `ErrorCode` is zero, whatever it says, and of a fraction it is the integer
  part.  A sensor that goes from no error to the error "timeout" with its value
  unchanged is taken for one that has not changed (`not_seesChange_timeout`).

  A change of the last value handled is seen exactly unless it is one of
  `HasError` alone (`seesChange_iff`).
-/
import UnisetPanel.UWSGate.Delivery

namespace UnisetPanel

/-- Floating-point numbers that can be compared with zero. -/
class Float64Ne (R : Type) extends Float64 R where
  /-- `v != 0` -/
  neZero : R → Bool

instance : Float64Ne ℤ where
  neZero v := decide (v ≠ 0)

namespace SensorData

variable {R : Type} [Float64Ne R]

/-- `HasError`. -/
def hasError (s : SensorData R) : Bool :=
  match s.error with
  | .nil => false
  | .int v => decide (v ≠ 0)
  | .float64 v => Float64Ne.neZero v
  | .string v => decide (v ≠ "" ∧ v ≠ "0")
  | _ => false

/-- The two differ in the value, or in the status of the error. -/
def Differs (a b : SensorData R) : Prop :=
  a.value ≠ b.value ∨ a.hasError ≠ b.hasError ∨ a.errorCode ≠ b.errorCode

/-- They differ in `HasError`, and in nothing else that is looked at. -/
def DifferInHasErrorAlone (a b : SensorData R) : Prop :=
  a.value = b.value ∧ a.errorCode = b.errorCode ∧ a.hasError ≠ b.hasError

instance (a b : SensorData R) : Decidable (a.Differs b) :=
  inferInstanceAs (Decidable (_ ∨ _ ∨ _))

instance (a b : SensorData R) : Decidable (a.DifferInHasErrorAlone b) :=
  inferInstanceAs (Decidable (_ ∧ _ ∧ _))

omit [Float64Ne R] in
/-- **What a hash tells**: the value and the error code. -/
theorem valueHash_eq_iff [Float64 R] {a b : SensorData R} :
    a.valueHash = b.valueHash ↔ a.value = b.value ∧ a.errorCode = b.errorCode := by
  constructor
  · intro h
    have hvalue := value_eq_of_valueHash h
    refine ⟨hvalue, ?_⟩
    have hlist := congrArg String.toList h
    unfold valueHash at hlist
    rw [hvalue, String.toList_append, String.toList_append (s := toString b.value ++ "|")] at hlist
    exact Int64.toInt_inj.mp (Int.repr_injective
      (String.toList_injective (List.append_cancel_left hlist)))
  · rintro ⟨hvalue, hcode⟩
    unfold valueHash
    rw [hvalue, hcode]

/-- A difference that the hash does not show is one of `HasError` alone. -/
theorem differs_and_valueHash_eq_iff {a b : SensorData R} :
    a.Differs b ∧ a.valueHash = b.valueHash ↔ a.DifferInHasErrorAlone b := by
  rw [valueHash_eq_iff, Differs, DifferInHasErrorAlone]
  constructor
  · rintro ⟨hdiff, hvalue, hcode⟩
    rcases hdiff with h | h | h
    · exact absurd hvalue h
    · exact ⟨hvalue, hcode, h⟩
    · exact absurd hcode h
  · rintro ⟨hvalue, hcode, herror⟩
    exact ⟨Or.inr (Or.inl herror), hvalue, hcode⟩

end SensorData

/-! ### The hash of the last value handled -/

section

variable {R : Type} [Float64 R] {rec : RecordingManager} {serverID : String}

/-- The recorded hashes are those of the stored values. -/
def Recorded (p : UWSGatePoller R) : Prop :=
  ∀ x, p.lastValues.lookup x = (p.currentValues.lookup x).map SensorData.valueHash

/-- `Unsubscribe` forgets the hash and the value of a sensor together. -/
theorem Recorded.unsubscribe {p : UWSGatePoller R} (h : Recorded p) (o : String)
    (names : List String) : Recorded (p.unsubscribe o names).1 := by
  intro x
  obtain ⟨hlast, hcurrent⟩ := UWSGatePoller.values_unsubscribe p o names x
  rw [hlast, hcurrent]
  split_ifs
  · rfl
  · exact h x

/-- **The hash that is recorded is that of the value handled last.** -/
theorem lastValues_of_reachable {s : DeliveryState R}
    (hs : (deliveryMachine R rec serverID).Reachable s) : Recorded s.poller := by
  refine hs.induction (P := fun s => Recorded s.poller) (fun _ => rfl) ?_
  intro s a t _ h hstep
  cases a with
  | subscribe o names =>
    obtain rfl := Option.some.inj hstep
    obtain ⟨hlast, hcurrent⟩ := UWSGatePoller.values_subscribe s.poller o names
    intro x
    show (s.poller.subscribe o names).1.lastValues.lookup x = _
    rw [hlast, h x, ← hcurrent]
    rfl
  | unsubscribe o names =>
    obtain rfl := Option.some.inj hstep
    exact h.unsubscribe o names
  | unsubscribeAll o range =>
    obtain ⟨-, heq⟩ := Option.ite_none_right_eq_some.mp hstep
    obtain rfl := Option.some.inj heq
    show Recorded (s.poller.unsubscribeAll o range).1
    unfold UWSGatePoller.unsubscribeAll
    cases s.poller.subscriptions.lookup o with
    | none => exact h
    | some items => exact h.unsubscribe o range
  | handleData data order now =>
    obtain ⟨horder, heq⟩ := Option.ite_none_right_eq_some.mp hstep
    obtain rfl := Option.some.inj heq
    intro x
    obtain ⟨hlast, hcurrent⟩ := (UWSGatePoller.poller_handleData s.poller rec data horder now).2 x
    show (s.poller.handleData rec data order now).1.lastValues.lookup x =
      ((s.poller.handleData rec data order now).1.currentValues.lookup x).map _
    rw [hlast, hcurrent, lastKey, h x]
    cases (UWSGatePoller.about x data).getLast? <;> rfl

/-- The last value of a sensor that was handled before the rest of a message, of which `pre` is the
first part. -/
def lastHandled (s : DeliveryState R) (pre : List (SensorData R)) (x : String) :
    Option (SensorData R) :=
  (UWSGatePoller.about x pre).getLast?.or (s.poller.currentValues.lookup x)

/-- The entry `b` of a message, with `pre` before it and `post` behind, brings the object one update
more. -/
def PassesOn (rec : RecordingManager) (s : DeliveryState R) (pre : List (SensorData R))
    (b : SensorData R) (post : List (SensorData R)) (order : List String) (now : Time)
    (o : String) : Prop :=
  ∃ later, UWSGatePoller.delivered o b.name
      (s.poller.handleData rec (pre ++ b :: post) order now).2.1 =
    UWSGatePoller.delivered o b.name (s.poller.handleData rec pre order now).2.1 ++
      ⟨o, b, now⟩ :: later

/-- **When an entry of a message is delivered**: an object that is subscribed gets it if its hash is
not that of the value handled last. -/
theorem passesOn_iff {s : DeliveryState R} (hs : (deliveryMachine R rec serverID).Reachable s)
    {pre post : List (SensorData R)} {a b : SensorData R}
    (ha : lastHandled s pre b.name = some a) {order : List String}
    (horder : s.poller.IsRange order) {o : String} (ho : s.poller.Subscribed o b.name)
    (now : Time) : PassesOn rec s pre b post order now o ↔ a.valueHash ≠ b.valueHash := by
  have hlast : lastKey SensorData.valueHash (s.poller.lastValues.lookup b.name)
      (UWSGatePoller.about b.name pre) = some a.valueHash := by
    have hmap := congrArg (Option.map SensorData.valueHash) ha
    rw [lastHandled, Option.map_or, ← lastValues_of_reachable hs] at hmap
    exact hmap
  have habout : UWSGatePoller.about b.name (pre ++ b :: post) =
      UWSGatePoller.about b.name pre ++ b :: UWSGatePoller.about b.name post := by
    unfold UWSGatePoller.about
    rw [List.filter_append, List.filter_cons_of_pos (by simp)]
  -- what comes after the part before it
  have hsplit : s.poller.newValues b.name (pre ++ b :: post) = s.poller.newValues b.name pre ++
      changes SensorData.valueHash (fun _ => false) (some a.valueHash)
        (b :: UWSGatePoller.about b.name post) := by
    unfold UWSGatePoller.newValues
    rw [habout, changes_append, hlast]
  unfold PassesOn
  rw [UWSGatePoller.delivered_handleData s.poller rec _ horder now,
    UWSGatePoller.delivered_handleData s.poller rec _ horder now, if_pos ho, if_pos ho, hsplit,
    List.map_append]
  simp only [List.append_cancel_left_eq]
  constructor
  · rintro ⟨later, h⟩
    obtain ⟨c, cs, hchanges, hupdate, -⟩ := List.map_eq_cons_iff.mp h
    obtain rfl : c = b := (Update.mk.inj hupdate).2.1
    intro hsame
    exact ne_of_changes_eq_cons _ _ (fun _ _ => rfl) hchanges (congrArg some hsame)
  · intro hne
    rw [changes_cons_pos _ _ (Or.inr fun h => hne (Option.some.inj h))]
    exact ⟨_, rfl⟩

end

section

variable {R : Type} [Float64Ne R] {rec : RecordingManager} {serverID : String}

/-- **A change is seen**: where an entry differs from the value handled last, it brings the object
an update. -/
def SeesChange (rec : RecordingManager) (s : DeliveryState R) (a : SensorData R)
    (pre : List (SensorData R)) (b : SensorData R) (post : List (SensorData R))
    (order : List String) (now : Time) (o : String) : Prop :=
  a.Differs b → PassesOn rec s pre b post order now o

/-! ### An error that is not seen -/

/-- An object is subscribed to a sensor, which has the value 5 and no error. -/
def noErrorRun : List (DeliveryAction ℤ) :=
  [.subscribe "a" ["x"], .handleData [⟨"x", 5, .string ""⟩] ["a"] 0]

/-- **The error "timeout" is not delivered.** -/
theorem not_seesChange_timeout : ∃ s, (deliveryMachine ℤ ⟨false⟩ "s").run
      (deliveryMachine ℤ ⟨false⟩ "s").init noErrorRun = some s ∧
    s.poller.currentValues.lookup "x" = some ⟨"x", 5, .string ""⟩ ∧ s.poller.Subscribed "a" "x" ∧
    ¬ SeesChange ⟨false⟩ s ⟨"x", 5, .string ""⟩ [] ⟨"x", 5, .string "timeout"⟩ [] ["a"] 1
      "a" := by
  refine ⟨_, rfl, rfl, by decide, ?_⟩
  intro h
  obtain ⟨later, hseen⟩ := h (by decide)
  -- nothing is delivered, with the entry or without
  have hlength : 0 = 0 + (later.length + 1) :=
    (congrArg List.length hseen).trans List.length_append
  omega

/-- **Exactly which changes are seen**: all but those in `HasError` alone.  In every reachable state,
for every message and each of its entries, `a` being the last value of the sensor to be handled
before it, and each object that is subscribed. -/
theorem seesChange_iff {s : DeliveryState R} (hs : (deliveryMachine R rec serverID).Reachable s)
    {pre post : List (SensorData R)} {a b : SensorData R}
    (ha : lastHandled s pre b.name = some a) {order : List String}
    (horder : s.poller.IsRange order) {o : String} (ho : s.poller.Subscribed o b.name)
    (now : Time) : SeesChange rec s a pre b post order now o ↔ ¬ a.DifferInHasErrorAlone b := by
  rw [SeesChange, passesOn_iff hs ha horder ho, ← SensorData.differs_and_valueHash_eq_iff, not_and]

/-- The error "timeout" comes with another value, after an entry with the old one. -/
theorem seesChange_otherValue : ∃ s, (deliveryMachine ℤ ⟨false⟩ "s").run
      (deliveryMachine ℤ ⟨false⟩ "s").init noErrorRun = some s ∧
    SeesChange ⟨false⟩ s ⟨"x", 5, .int 0⟩ [⟨"x", 5, .int 0⟩] ⟨"x", 6, .string "timeout"⟩ [] ["a"] 1
      "a" := by
  refine ⟨_, rfl, ?_⟩
  have hs : (deliveryMachine ℤ ⟨false⟩ "s").Reachable _ := ⟨noErrorRun, rfl⟩
  exact (seesChange_iff hs rfl (by decide) (by decide) 1).mpr (by decide)

end

end UnisetPanel
