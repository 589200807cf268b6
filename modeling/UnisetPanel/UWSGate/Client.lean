/-
  The subscription methods of the UWebSocketGate poller and its client, section by section
  (`internal/uwsgate/poller.go`, `internal/uwsgate/client.go`).

  `Subscribe` and `Unsubscribe` of the poller first change the subscriptions
  under the lock of the poller and find out which names are new or not needed
  any more.  With these they call the client, which remembers them in
  `pendingSubscriptions` under `subMu` and then sends a command.  Nothing is
  held from one section to the next.

  A command is `ask:` or `del:` with its names.
-/
import UnisetPanel.UWSGate.Subscriptions
import UnisetPanel.Calls

namespace UnisetPanel

/-! ### The pending subscriptions -/

/-- One name of the loop of the client's `Subscribe`. -/
def addPending (pending : List String) (s : String) : List String :=
  if s ∈ pending then pending else pending ++ [s]

/-- What the section under `subMu` makes of `pendingSubscriptions`: `Subscribe` appends the names
that are missing, `Unsubscribe` keeps the other names. -/
def remember : SetCommand String → List String → List String
  | .ask sensors, pending => sensors.foldl addPending pending
  | .del sensors, pending => pending.filter fun s => s ∉ sensors

theorem mem_foldl_addPending (sensors pending : List String) (n : String) :
    n ∈ sensors.foldl addPending pending ↔ n ∈ pending ∨ n ∈ sensors := by
  induction sensors generalizing pending with
  | nil => simp
  | cons s sensors ih =>
    rw [List.foldl_cons, ih, addPending, List.mem_cons]
    split_ifs with hs
    · constructor
      · rintro (h | h)
        · exact Or.inl h
        · exact Or.inr (Or.inr h)
      · rintro (h | rfl | h)
        · exact Or.inl h
        · exact Or.inl hs
        · exact Or.inr h
    · rw [List.mem_append, List.mem_singleton, or_assoc]

theorem toFinset_remember (c : SetCommand String) (pending : List String) :
    (remember c pending).toFinset = c.apply pending.toFinset := by
  ext n
  cases c with
  | ask sensors =>
    rw [List.mem_toFinset, remember, mem_foldl_addPending]
    simp [SetCommand.apply]
  | del sensors => simp [remember, SetCommand.apply]

/-- Nothing is remembered twice. -/
theorem nodup_remember (c : SetCommand String) {pending : List String} (h : pending.Nodup) :
    (remember c pending).Nodup := by
  cases c with
  | del sensors => exact h.filter _
  | ask sensors =>
    show (sensors.foldl addPending pending).Nodup
    induction sensors generalizing pending with
    | nil => exact h
    | cons s sensors ih =>
      apply ih
      unfold addPending
      split_ifs with hs
      · exact h
      · exact List.nodup_append.mpr ⟨h, List.nodup_singleton s, fun a ha b hb => by
          rw [List.mem_singleton.mp hb]
          rintro rfl
          exact hs ha⟩

/-! ### The sections of a call -/

/-- The methods of the poller. -/
inductive SubscriptionMethod where
  | subscribe (objectName : String) (sensorNames : List String)
  | unsubscribe (objectName : String) (sensorNames : List String)
  | unsubscribeAll (objectName : String)
  deriving DecidableEq, Repr

/-- How far a call has got. -/
inductive SubscriptionCall where
  | called (x : SubscriptionMethod)
  /-- the subscriptions are changed, and the client is called for the names of the command -/
  | decided (c : SetCommand String)
  /-- `pendingSubscriptions` is changed, and `sendCommand` is called -/
  | remembered (c : SetCommand String)
  | returned
  deriving DecidableEq, Repr

/-- The client is called unless there is nothing for it. -/
def SubscriptionCall.handOver (c : SetCommand String) : SubscriptionCall :=
  if c.elems = [] then .returned else .decided c

/-- The command that has not reached `pendingSubscriptions` yet. -/
def SubscriptionCall.unremembered : SubscriptionCall → Option (SetCommand String)
  | decided c => some c
  | _ => none

/-- The command that has not been sent yet. -/
def SubscriptionCall.unsent : SubscriptionCall → Option (SetCommand String)
  | decided c => some c
  | remembered c => some c
  | _ => none

variable {R : Type}

/-- The section under the lock of the poller; `UnsubscribeAll` has one more, in which it lists the
names of the object in the order `range` of the map iteration. -/
def SubscriptionMethod.lockSection (range : List String) (p : UWSGatePoller R) :
    SubscriptionMethod → Option (UWSGatePoller R × SubscriptionCall)
  | .subscribe o names =>
    some ((p.subscribe o names).1, .handOver (.ask (p.subscribe o names).2))
  | .unsubscribe o names =>
    some ((p.unsubscribe o names).1, .handOver (.del (p.unsubscribe o names).2))
  | .unsubscribeAll o =>
    match p.subscriptions.lookup o with
    | none => some (p, .returned)
    | some items =>
      if range.Nodup ∧ range.toFinset = items then some (p, .called (.unsubscribe o range)) else none

/-- **What the section does**: the command that it hands to the client is what changes the sensors
of all objects. -/
theorem SubscriptionMethod.lockSection_spec {range : List String} {p p' : UWSGatePoller R}
    {x : SubscriptionMethod} {k : SubscriptionCall} (h : x.lockSection range p = some (p', k)) :
    (∃ c, k = .decided c ∧ p'.allSensors = c.apply p.allSensors) ∨
      k.unsent = none ∧ p'.allSensors = p.allSensors := by
  have hand : ∀ c : SetCommand String, k = .handOver c → p'.allSensors = c.apply p.allSensors →
      (∃ c, k = .decided c ∧ p'.allSensors = c.apply p.allSensors) ∨
        k.unsent = none ∧ p'.allSensors = p.allSensors := by
    intro c hk hall
    unfold SubscriptionCall.handOver at hk
    split_ifs at hk with hnil
    · right
      refine ⟨by rw [hk]; rfl, hall.trans ?_⟩
      ext n
      exact SetCommand.mem_apply_of_notMem (by rw [hnil]; exact List.not_mem_nil)
    · exact Or.inl ⟨c, hk, hall⟩
  cases x with
  | subscribe o names =>
    cases h
    exact hand _ rfl (UWSGatePoller.allSensors_subscribe p o names)
  | unsubscribe o names =>
    cases h
    exact hand _ rfl (UWSGatePoller.allSensors_unsubscribe p o names)
  | unsubscribeAll o =>
    right
    simp only [lockSection] at h
    cases hl : p.subscriptions.lookup o with
    | none =>
      rw [hl] at h
      cases h
      exact ⟨rfl, rfl⟩
    | some items =>
      rw [hl] at h
      obtain ⟨-, h⟩ := Option.ite_none_right_eq_some.mp h
      cases h
      exact ⟨rfl, rfl⟩

end UnisetPanel
