/-
  `server.Instance`: the connection status of a server and who changes it.

  The health checker (`checkHealth`) and the requests of the API
  (`GetObjects`, `GetObjectData`) all ask the server and then call
  `UpdateStatus`, which changes the fields under `mu` and calls
  `statusCallback` after it has let go of `mu`.  `checkHealth` reads
  `connected` in a section of its own before that, and calls `objectsCallback`
  when it read `false`.

  A request is cut at these sections, so the runs of `instanceMachine` are all
  interleavings of any number of requests; the health checks come one after
  the other, from the one goroutine of `runHealthCheck`.  What the server
  answers and what the clock says are chosen by the environment.
-/
import UnisetPanel.Calls
import UnisetPanel.Log
import UnisetPanel.Timer

namespace UnisetPanel

/-! ### The fields under the lock -/

/-- The fields of `Instance` that `mu` guards. -/
structure InstanceStatus where
  connected : Bool
  lastPoll : Option Time
  lastError : String
  objectCount : ℕ

namespace InstanceStatus

/-- The fields of `NewInstance`. -/
def new : InstanceStatus := ⟨false, none, "", 0⟩

/-- The section of `UpdateStatus` under `mu`: whether the status changes, and the new fields. -/
def updateStatus (s : InstanceStatus) (connected : Bool) (err : Option String) (now : Time) :
    Bool × InstanceStatus :=
  let statusChanged := s.connected != connected
  (statusChanged, { s with
    connected := connected
    lastPoll := some now
    lastError := err.getD "" })

/-- `SetObjectCount`. -/
def setObjectCount (s : InstanceStatus) (count : ℕ) : InstanceStatus :=
  { s with objectCount := count }

@[simp] theorem updateStatus_fst (s : InstanceStatus) (connected : Bool) (err : Option String)
    (now : Time) : (s.updateStatus connected err now).1 = (s.connected != connected) := rfl

@[simp] theorem updateStatus_connected (s : InstanceStatus) (connected : Bool)
    (err : Option String) (now : Time) :
    (s.updateStatus connected err now).2.connected = connected := rfl

@[simp] theorem setObjectCount_connected (s : InstanceStatus) (count : ℕ) :
    (s.setObjectCount count).connected = s.connected := rfl

end InstanceStatus

/-! ### The requests -/

/-- Who asks the server. -/
inductive StatusRequest where
  | checkHealth
  | getObjects
  | getObjectData (objectName : String)
  deriving DecidableEq

/-- What the server answers: an error, or a list of objects.  Of the answer to `GetObjectData` only
whether it is an error is looked at. -/
abbrev ServerAnswer := Except String (List String)

/-- The error that `UpdateStatus` is called with. -/
def ServerAnswer.err : ServerAnswer → Option String
  | .error e => some e
  | .ok _ => none

/-- Where a request stands. -/
inductive StatusPhase where
  /-- the server has been asked -/
  | called
  /-- `checkHealth` has the answer and is to read `connected` -/
  | answered (answer : ServerAnswer)
  /-- `UpdateStatus` is to be called -/
  | updating (answer : ServerAnswer)
  /-- `UpdateStatus` has let go of `mu` -/
  | updated (answer : ServerAnswer) (statusChanged : Bool)
  /-- `UpdateStatus` has returned -/
  | notified (answer : ServerAnswer)
  /-- `SetObjectCount` has returned -/
  | counted (objects : List String)
  | returned
  deriving DecidableEq

/-- A request in progress. -/
structure StatusCall where
  request : StatusRequest
  phase : StatusPhase := .called
  /-- the variable of `checkHealth` -/
  wasConnected : Bool := false
  deriving DecidableEq

/-- What can be seen of an instance from outside. -/
inductive InstanceEvent where
  /-- `connected` goes from `false` to `true` -/
  | connects
  /-- `statusCallback` is called -/
  | status (connected : Bool) (lastError : String)
  /-- a health check has succeeded; `published` is what it called `objectsCallback` with -/
  | checked (objects : List String) (published : Option (List String))
  deriving DecidableEq

/-- An instance and what has been seen of it. -/
structure InstanceTrace where
  status : InstanceStatus
  events : List InstanceEvent

/-- What the environment chooses in a step. -/
structure StatusEnv where
  answer : ServerAnswer
  now : Time

namespace StatusCall

/-- A request begins. -/
def start (request : StatusRequest) : StatusCall := { request }

/-- One section of a request. -/
def next (e : StatusEnv) (s : InstanceTrace) (k : StatusCall) :
    Option (InstanceTrace × StatusCall) :=
  match k.phase with
  | .called =>
    match k.request with
    | .checkHealth => some (s, { k with phase := .answered e.answer })
    | .getObjects | .getObjectData _ => some (s, { k with phase := .updating e.answer })
  | .answered answer =>
    some (s, { k with phase := .updating answer, wasConnected := s.status.connected })
  | .updating answer =>
    let (statusChanged, status) := s.status.updateStatus answer.isOk answer.err e.now
    let seen := if s.status.connected = false ∧ answer.isOk = true then [.connects] else []
    some (⟨status, s.events ++ seen⟩, { k with phase := .updated answer statusChanged })
  | .updated answer statusChanged =>
    let seen := if statusChanged then [.status answer.isOk (answer.err.getD "")] else []
    some ({ s with events := s.events ++ seen }, { k with phase := .notified answer })
  | .notified (.error _) => some (s, { k with phase := .returned })
  | .notified (.ok objects) =>
    match k.request with
    | .getObjectData _ => some (s, { k with phase := .returned })
    | .checkHealth | .getObjects =>
      some ({ s with status := s.status.setObjectCount objects.length },
        { k with phase := .counted objects })
  | .counted objects =>
    match k.request with
    | .checkHealth =>
      let published := if k.wasConnected then none else some objects
      some ({ s with events := s.events ++ [.checked objects published] },
        { k with phase := .returned })
    | .getObjects | .getObjectData _ => some (s, { k with phase := .returned })
  | .returned => none

/-- A health check that has not returned. -/
def checking (k : StatusCall) : Bool := k.request = .checkHealth ∧ k.phase ≠ .returned

variable {e : StatusEnv} {s s' : InstanceTrace} {k k' : StatusCall}

/-- A request that has returned takes no step, and the others stay what they are. -/
theorem request_of_next (h : k.next e s = some (s', k')) :
    k.phase ≠ .returned ∧ k'.request = k.request := by
  obtain ⟨request, phase, wasConnected⟩ := k
  cases phase with
  | called | counted objects => cases request <;> cases h <;> exact ⟨by simp, rfl⟩
  | answered answer | updating answer | updated answer statusChanged =>
    cases h
    exact ⟨by simp, rfl⟩
  | notified answer =>
    cases answer with
    | error err => cases h; exact ⟨by simp, rfl⟩
    | ok objects => cases request <;> cases h <;> exact ⟨by simp, rfl⟩
  | returned => cases h

/-- No request moves into a health check. -/
theorem checking_of_next (h : k.next e s = some (s', k')) (hk : k'.checking = true) :
    k.checking = true := by
  obtain ⟨hphase, hrequest⟩ := request_of_next h
  obtain ⟨hcheck, -⟩ := of_decide_eq_true hk
  exact decide_eq_true ⟨hrequest ▸ hcheck, hphase⟩

end StatusCall

/-! ### The machine -/

/-- The requests in progress over an instance. -/
abbrev InstanceState := Calls InstanceTrace StatusCall

/-- The steps of the requests. -/
abbrev InstanceAction := CallAction StatusRequest StatusEnv

namespace InstanceState

/-- Every request has returned. -/
def Quiet (s : InstanceState) : Prop := ∀ k ∈ s.calls, k.phase = .returned

instance (s : InstanceState) : Decidable s.Quiet :=
  inferInstanceAs (Decidable (∀ k ∈ s.calls, k.phase = .returned))

/-- A health check begins when the one before it has returned. -/
def OneHealthCheck (s : InstanceState) : InstanceAction → Prop
  | .call .checkHealth => s.calls.countP StatusCall.checking = 0
  | .call .getObjects | .call (.getObjectData _) | .move _ _ => True

instance (s : InstanceState) : (a : InstanceAction) → Decidable (s.OneHealthCheck a)
  | .call .checkHealth => inferInstanceAs (Decidable (s.calls.countP StatusCall.checking = 0))
  | .call .getObjects | .call (.getObjectData _) | .move _ _ => inferInstanceAs (Decidable True)

end InstanceState

/-- The runs of any number of requests over a new instance. -/
def instanceMachine : Machine InstanceState InstanceAction :=
  (Calls.machine ⟨InstanceStatus.new, []⟩ StatusCall.start StatusCall.next).guard
    InstanceState.OneHealthCheck

namespace InstanceState

variable {s s' : InstanceState}

theorem step_call {request : StatusRequest}
    (h : instanceMachine.step s (.call request) = some s') :
    s.OneHealthCheck (.call request) ∧
      s' = { s with calls := s.calls ++ [StatusCall.start request] } := by
  obtain ⟨hone, hstep⟩ := Machine.guard_step_eq_some.mp h
  exact ⟨hone, Calls.step_call hstep⟩

theorem step_move {i : ℕ} {e : StatusEnv} (h : instanceMachine.step s (.move i e) = some s') :
    ∃ k t k', s.calls[i]? = some k ∧ k.next e s.shared = some (t, k') ∧
      s' = { shared := t, calls := s.calls.set i k' } :=
  Calls.step_move (Machine.guard_step_eq_some.mp h).2

/-- **The health checks come one after the other.** -/
theorem countP_checking_le_one (hs : instanceMachine.Reachable s) :
    s.calls.countP StatusCall.checking ≤ 1 := by
  refine hs.induction (P := fun s => s.calls.countP StatusCall.checking ≤ 1) (Nat.zero_le 1) ?_
  intro s a s' _ ih hstep
  cases a with
  | call request =>
    obtain ⟨hone, rfl⟩ := step_call hstep
    show (s.calls ++ [StatusCall.start request]).countP StatusCall.checking ≤ 1
    rw [List.countP_append]
    cases request with
    | checkHealth =>
      have hzero : s.calls.countP StatusCall.checking = 0 := hone
      rw [hzero]
      decide
    | getObjects => exact ih
    | getObjectData objectName => exact ih
  | move i e =>
    obtain ⟨k, t, k', hk, hnext, rfl⟩ := step_move hstep
    have hcount := Calls.countP_set hk k' StatusCall.checking
    have hle : (StatusCall.checking k').toNat ≤ (StatusCall.checking k).toNat := by
      cases hc : StatusCall.checking k' with
      | false => exact Nat.zero_le _
      | true =>
        have hbefore : true = StatusCall.checking k := (StatusCall.checking_of_next hnext hc).symm
        exact Nat.le_of_eq (congrArg Bool.toNat hbefore)
    show (s.calls.set i k').countP StatusCall.checking ≤ 1
    omega

end InstanceState

end UnisetPanel
