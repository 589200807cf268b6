/-
  The OPC UA poller (`internal/opcua/poller.go`): the base poller, and the type
  of each object, by which its values are asked for in one of two ways.

  A method is a sequence of critical sections: one under the lock of the base
  poller, and one under the lock of the types.  Here each of them is one step
  (`OPCUACall.next`), and the runs of `opcuaCallsMachine` are all interleavings
  of any number of calls.  `TypesMutex` goes inside the sections.
-/
import UnisetPanel.Calls
import UnisetPanel.Poller.Basic

namespace UnisetPanel

variable {T : Type*} (F : ItemFetcher T)

/-- The fields of the OPC UA `Poller`; the fetcher shares the map. -/
structure OPCUAPoller extends BasePoller F where
  objectTypes : GoMap String String

/-- The methods of the API that the fetcher calls. -/
inductive OPCUAQuery where
  /-- `GetOPCUAServerSensorValues` -/
  | server
  /-- `GetOPCUASensorValues` -/
  | exchange
  deriving DecidableEq, Repr

/-- The choice in `FetchItems`; the zero value of a missing type is the empty string. -/
def queryOf (objectType : String) : OPCUAQuery :=
  if objectType = "OPCUAServer" then .server else .exchange

/-- The methods that read or write the types. -/
inductive OPCUAMethod where
  | fetchItems (objectName : String)
  | subscribeWithType (objectName : String) (sensorIDs : List Int64) (extensionType : String)
  | unsubscribe (objectName : String) (sensorIDs : List Int64)
  | unsubscribeAll (objectName : String)
  deriving DecidableEq

/-- The lists of ids and the types are not empty. -/
def OPCUAMethod.Proper : OPCUAMethod → Prop
  | .subscribeWithType _ sensorIDs extensionType => sensorIDs ≠ [] ∧ extensionType ≠ ""
  | .unsubscribe _ sensorIDs => sensorIDs ≠ []
  | _ => True

instance (x : OPCUAMethod) : Decidable x.Proper := by
  unfold OPCUAMethod.Proper
  cases x <;> infer_instance

/-- A call whose lists and types are not empty. -/
abbrev ProperMethod := { x : OPCUAMethod // x.Proper }

/-- A subscription to an `OPCUAServer`. -/
def subscribeServer : ProperMethod :=
  ⟨.subscribeWithType "OPCUAServer1" [1] "OPCUAServer", by decide⟩

/-- How far a call has got. -/
inductive OPCUACall where
  | called (x : OPCUAMethod)
  /-- `FetchItems` knows which method of the API to call -/
  | fetching (objectName : String) (query : OPCUAQuery)
  /-- `SubscribeWithType` has subscribed and is to store the type -/
  | storing (objectName extensionType : String)
  /-- `Unsubscribe` has unsubscribed and is to look whether subscriptions are left -/
  | checking (objectName : String)
  /-- the type is to be deleted -/
  | deleting (objectName : String)
  | returned
  deriving DecidableEq

variable {F}

namespace OPCUAPoller

/-- `GetSubscriptions` of the base poller. -/
def getSubscriptions (p : OPCUAPoller F) (objectName : String) : Finset Int64 :=
  (p.subscriptions.lookup objectName).getD ∅

/-- The object has a subscription. -/
def HasSubscriptions (p : OPCUAPoller F) (objectName : String) : Prop :=
  ∃ id, p.Subscribed objectName id

theorem getSubscriptions_eq_empty {p : OPCUAPoller F} {o : String} :
    p.getSubscriptions o = ∅ ↔ ¬ p.HasSubscriptions o := by
  unfold HasSubscriptions BasePoller.Subscribed getSubscriptions
  simp [Finset.eq_empty_iff_forall_notMem]

instance (p : OPCUAPoller F) (o : String) : Decidable (p.HasSubscriptions o) :=
  decidable_of_iff (p.getSubscriptions o ≠ ∅)
    (by rw [Ne, getSubscriptions_eq_empty, not_not])

end OPCUAPoller

namespace OPCUACall

/-- The next section of a call. -/
def next (p : OPCUAPoller F) : OPCUACall → Option (OPCUAPoller F × OPCUACall)
  | called (.fetchItems o) =>
    some (p, fetching o (queryOf ((p.objectTypes.lookup o).getD "")))
  | called (.subscribeWithType o ids extensionType) =>
    some ({ p with toBasePoller := p.subscribe o ids },
      if extensionType ≠ "" then storing o extensionType else returned)
  | called (.unsubscribe o ids) =>
    some ({ p with toBasePoller := p.toBasePoller.unsubscribe o ids }, checking o)
  | called (.unsubscribeAll o) =>
    some ({ p with toBasePoller := p.toBasePoller.unsubscribeAll o }, deleting o)
  | checking o => some (p, if p.getSubscriptions o = ∅ then deleting o else returned)
  | storing o extensionType =>
    some ({ p with objectTypes := p.objectTypes.insert o extensionType }, returned)
  | deleting o => some ({ p with objectTypes := p.objectTypes.erase o }, returned)
  | fetching _ _ => none
  | returned => none

/-- No section leads to a call that has not begun. -/
theorem next_ne_called {p p' : OPCUAPoller F} {k k' : OPCUACall} (h : k.next p = some (p', k'))
    (x : OPCUAMethod) : k' ≠ called x := by
  rintro rfl
  cases k with
  | called y =>
    cases y with
    | subscribeWithType o ids extensionType =>
      have hk := (Prod.mk.inj (Option.some.inj h)).2
      split_ifs at hk
    | _ => cases h
  | checking o =>
    have hk := (Prod.mk.inj (Option.some.inj h)).2
    split_ifs at hk
  | _ => cases h

/-- The call has done what concerns the types. -/
def Finished : OPCUACall → Prop
  | fetching _ _ => True
  | returned => True
  | _ => False

end OPCUACall

/-- `NewPoller`, with no call begun. -/
def newOPCUAPoller (F : ItemFetcher T) (batchSize : ℤ) : OPCUAPoller F where
  toBasePoller := newBasePoller F batchSize
  objectTypes := ∅

/-- All interleavings of the methods, section by section. -/
def opcuaCallsMachine (F : ItemFetcher T) (batchSize : ℤ) :
    Machine (Calls (OPCUAPoller F) OPCUACall) (CallAction OPCUAMethod Unit) :=
  Calls.machine (newOPCUAPoller F batchSize) .called fun _ => OPCUACall.next

/-- Those in which the lists and types are not empty. -/
def opcuaMachine (F : ItemFetcher T) (batchSize : ℤ) :
    Machine (Calls (OPCUAPoller F) OPCUACall) (CallAction ProperMethod Unit) :=
  Calls.machine (newOPCUAPoller F batchSize) (fun x => .called x.1) fun _ => OPCUACall.next

end UnisetPanel
