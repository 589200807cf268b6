/-
  Subscription calls in parallel, over a connection that stays up.

  The same subscriptions are kept at three places: the poller has them for each
  object, the client in `pendingSubscriptions`, and the gate for the connection.
  A call changes them one after the other, and another call may come in
  between: the decision "nobody needs this sensor any more" is carried out when
  somebody needs it again (`not_coherent`).

  The three agree when all calls have finished, if no call carries out a
  decision on a sensor that has been reversed and the reversal carried out
  before it (`coherent_of_notOvertaken`).
-/
import UnisetPanel.UWSGate.Client

namespace UnisetPanel

variable {R : Type}

open SubscriptionCall

/-- The subscriptions of the poller, the client and the gate. -/
structure SubscriptionState (R : Type) where
  poller : UWSGatePoller R
  pendingSubscriptions : List String
  gate : Finset String

/-- The next section of a call; `range` is the order of the map iteration of `UnsubscribeAll`. -/
def SubscriptionCall.next (range : List String) (s : SubscriptionState R) :
    SubscriptionCall → Option (SubscriptionState R × SubscriptionCall)
  | called x => (x.lockSection range s.poller).map fun r => ({ s with poller := r.1 }, r.2)
  | decided c =>
    some ({ s with pendingSubscriptions := remember c s.pendingSubscriptions }, remembered c)
  | remembered c => some ({ s with gate := c.apply s.gate }, returned)
  | returned => none

variable (R) in
/-- All interleavings of the calls. -/
def subscriptionMachine (serverID : String) :
    Machine (Calls (SubscriptionState R) SubscriptionCall)
      (CallAction SubscriptionMethod (List String)) :=
  Calls.machine ⟨newUWSGatePoller R serverID, [], ∅⟩ .called SubscriptionCall.next

/-- All calls have finished. -/
def SubscriptionQuiet (s : Calls (SubscriptionState R) SubscriptionCall) : Prop :=
  ∀ k ∈ s.calls, k = .returned

instance (s : Calls (SubscriptionState R) SubscriptionCall) : Decidable (SubscriptionQuiet s) :=
  inferInstanceAs (Decidable (∀ k ∈ s.calls, k = .returned))

/-- **The subscription sets are coherent** when all calls have finished. -/
def Coherent (M : Machine (Calls (SubscriptionState R) SubscriptionCall)
    (CallAction SubscriptionMethod (List String))) : Prop :=
  ∀ as s, M.run M.init as = some s → SubscriptionQuiet s →
    s.shared.pendingSubscriptions.toFinset = s.shared.poller.allSensors ∧
      s.shared.gate = s.shared.poller.allSensors

/-- On each sensor of the command, one of the commands that still have to arrive agrees with the
subscriptions of the poller: this one, or the one that has overtaken it. -/
def SomeAgrees (all : Finset String) (c : SetCommand String) (flight : List (SetCommand String)) :
    Prop :=
  ∀ x ∈ c.elems, ∃ d ∈ flight, d.Agrees all x

instance (all : Finset String) (c : SetCommand String) (flight : List (SetCommand String)) :
    Decidable (SomeAgrees all c flight) :=
  inferInstanceAs (Decidable (∀ x ∈ c.elems, ∃ d ∈ flight, d.Agrees all x))

/-- The commands of the calls that have to reach `pendingSubscriptions`, or the gate. -/
def commands (s : Calls (SubscriptionState R) SubscriptionCall)
    (ahead : SubscriptionCall → Option (SetCommand String)) : List (SetCommand String) :=
  s.calls.filterMap ahead

/-- A command of the client is remembered, or sent, before the ones that have overtaken it. -/
def CommandInTime (s : Calls (SubscriptionState R) SubscriptionCall) : SubscriptionCall → Prop
  | .decided c => SomeAgrees s.shared.poller.allSensors c (commands s unremembered)
  | .remembered c => SomeAgrees s.shared.poller.allSensors c (commands s unsent)
  | _ => True

instance (s : Calls (SubscriptionState R) SubscriptionCall) :
    (k : SubscriptionCall) → Decidable (CommandInTime s k)
  | .decided c =>
    inferInstanceAs (Decidable (SomeAgrees s.shared.poller.allSensors c (commands s unremembered)))
  | .remembered c =>
    inferInstanceAs (Decidable (SomeAgrees s.shared.poller.allSensors c (commands s unsent)))
  | .called _ | .returned => inferInstanceAs (Decidable True)

/-- No call carries out a decision after the one that has reversed it was carried out. -/
def DecisionInTime (s : Calls (SubscriptionState R) SubscriptionCall) :
    CallAction SubscriptionMethod (List String) → Prop
  | .call _ => True
  | .move i _ => ∀ k ∈ s.calls[i]?, CommandInTime s k

instance (s : Calls (SubscriptionState R) SubscriptionCall) :
    (a : CallAction SubscriptionMethod (List String)) → Decidable (DecisionInTime s a)
  | .call _ => inferInstanceAs (Decidable True)
  | .move i _ => inferInstanceAs (Decidable (∀ k ∈ s.calls[i]?, CommandInTime s k))

/-! ### The stale decision -/

/-- Object `a` leaves sensor `x`, which nobody else needs; object `b` subscribes to it as a whole;
then the `del` of the first call is carried out. -/
def staleDecisionRun : List (CallAction SubscriptionMethod (List String)) :=
  [.call (.subscribe "a" ["x"]), .move 0 [], .move 0 [], .move 0 [],
    .call (.unsubscribe "a" ["x"]), .move 1 [],
    .call (.subscribe "b" ["x"]), .move 2 [], .move 2 [], .move 2 [],
    .move 1 [], .move 1 []]

/-- **It fails**: object `b` is subscribed to `x`, and neither the client nor the gate know of
it. -/
theorem not_coherent : ¬ Coherent (subscriptionMachine Unit "s") := by
  intro h
  exact absurd (h staleDecisionRun _ rfl (by decide)).2 (by decide)

/-! ### The invariant -/

/-- The client and the gate are behind the poller, by the commands of the calls in progress. -/
structure CoherenceInv (s : Calls (SubscriptionState R) SubscriptionCall) : Prop where
  pending : Behind s.shared.poller.allSensors s.shared.pendingSubscriptions.toFinset
    {d | d ∈ commands s unremembered}
  gate : Behind s.shared.poller.allSensors s.shared.gate {d | d ∈ commands s unsent}

/-- A command that arrives leaves the others in flight. -/
theorem Behind.arriveCall {all replica : Finset String} {ks : List SubscriptionCall}
    {ahead : SubscriptionCall → Option (SetCommand String)}
    (h : Behind all replica {d | d ∈ ks.filterMap ahead}) {i : ℕ} {k : SubscriptionCall}
    (hk : ks[i]? = some k) (k' : SubscriptionCall) {c : SetCommand String}
    (hc : ahead k = some c) (hagree : SomeAgrees all c (ks.filterMap ahead)) :
    Behind all (c.apply replica) {d | d ∈ (ks.set i k').filterMap ahead} := by
  refine h.arrive c ?_ ?_
  · intro d hd
    rcases Calls.mem_filterMap_set hk k' hd with heq | hd
    · exact Or.inl (Option.some.inj (heq.symm.trans hc))
    · exact Or.inr hd
  · intro x hx
    obtain ⟨d, hd, hdx⟩ := hagree x hx
    rcases Calls.mem_filterMap_set hk k' hd with heq | hd
    · exact Or.inl (Option.some.inj (hc.symm.trans heq) ▸ hdx)
    · exact Or.inr ⟨d, hd, hdx⟩

variable {s s' : Calls (SubscriptionState R) SubscriptionCall}

/-- **The step lemma.** -/
theorem CoherenceInv.step {serverID : String} {a : CallAction SubscriptionMethod (List String)}
    (h : CoherenceInv s) (htime : DecisionInTime s a)
    (hs : (subscriptionMachine R serverID).step s a = some s') : CoherenceInv s' := by
  cases a with
  | call x =>
    obtain rfl := Calls.step_call hs
    have hsame : ∀ ahead : SubscriptionCall → Option (SetCommand String),
        ahead (.called x) = none →
          (s.calls ++ [called x]).filterMap ahead = s.calls.filterMap ahead := by
      intro ahead hnone
      rw [List.filterMap_append, List.filterMap_cons_none hnone, List.filterMap_nil, List.append_nil]
    constructor
    · refine h.pending.mono ?_
      rw [commands, commands, hsame unremembered rfl]
    · refine h.gate.mono ?_
      rw [commands, commands, hsame unsent rfl]
  | move i range =>
    obtain ⟨k, t, k', hk, hnext, rfl⟩ := Calls.step_move hs
    have hkeep : ∀ (ahead : SubscriptionCall → Option (SetCommand String)) (d : SetCommand String),
        ahead k ≠ some d → d ∈ s.calls.filterMap ahead → d ∈ (s.calls.set i k').filterMap ahead :=
      fun ahead d hne hd => (Calls.mem_filterMap_set hk k' hd).resolve_left hne
    cases k with
    | called x =>
      obtain ⟨⟨p', k₁⟩, hsection, heq⟩ := Option.map_eq_some_iff.mp hnext
      cases heq
      rcases x.lockSection_spec hsection with ⟨c, rfl, hall⟩ | ⟨-, hall⟩
      · constructor
        · show Behind p'.allSensors _ _
          rw [hall]
          refine h.pending.issue c (Set.insert_subset ?_ fun d hd => hkeep _ d (by nofun) hd)
          exact Calls.mem_filterMap_set_self hk rfl
        · show Behind p'.allSensors _ _
          rw [hall]
          refine h.gate.issue c (Set.insert_subset ?_ fun d hd => hkeep _ d (by nofun) hd)
          exact Calls.mem_filterMap_set_self hk rfl
      · constructor
        · show Behind p'.allSensors _ _
          rw [hall]
          exact h.pending.mono fun d hd => hkeep _ d (by nofun) hd
        · show Behind p'.allSensors _ _
          rw [hall]
          exact h.gate.mono fun d hd => hkeep _ d (by nofun) hd
    | decided c =>
      cases hnext
      constructor
      · show Behind _ (remember c _).toFinset _
        rw [toFinset_remember]
        exact h.pending.arriveCall hk _ rfl (htime _ hk)
      · -- it still has to be sent
        refine h.gate.mono fun d hd => ?_
        rcases Calls.mem_filterMap_set hk (.remembered c) hd with heq | hd
        · exact Calls.mem_filterMap_set_self hk heq
        · exact hd
    | remembered c =>
      cases hnext
      constructor
      · exact h.pending.mono fun d hd => hkeep _ d (by nofun) hd
      · exact h.gate.arriveCall hk _ rfl (htime _ hk)
    | returned => cases hnext

/-- When all calls have finished, nothing is in flight. -/
theorem CoherenceInv.coherent (h : CoherenceInv s) (hq : SubscriptionQuiet s) :
    s.shared.pendingSubscriptions.toFinset = s.shared.poller.allSensors ∧
      s.shared.gate = s.shared.poller.allSensors := by
  have hnone : ∀ ahead : SubscriptionCall → Option (SetCommand String), ahead returned = none →
      ({d | d ∈ commands s ahead} : Set (SetCommand String)) = ∅ := by
    intro ahead hret
    refine Set.eq_empty_of_forall_notMem fun d hd => ?_
    obtain ⟨k, hk, hahead⟩ := List.mem_filterMap.mp hd
    rw [hq k hk, hret] at hahead
    cases hahead
  constructor
  · exact (hnone unremembered rfl ▸ h.pending).eq
  · exact (hnone unsent rfl ▸ h.gate).eq

/-! ### The main theorem -/

variable (R) in
/-- **The subscription sets are coherent** in every run in which the decisions are carried out in
time. -/
theorem coherent_of_decisionInTime (serverID : String) :
    Coherent ((subscriptionMachine R serverID).guard DecisionInTime) := by
  intro as s hrun hq
  refine CoherenceInv.coherent ?_ hq
  refine Machine.run_induction (P := CoherenceInv) ?_ hrun ?_
  · intro u a v hu hstep
    obtain ⟨htime, hstep⟩ := Machine.guard_step_eq_some.mp hstep
    exact hu.step htime hstep
  · exact ⟨Behind.refl _ _, Behind.refl _ _⟩

end UnisetPanel
