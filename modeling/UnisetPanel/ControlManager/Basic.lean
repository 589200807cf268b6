/-
  `ControlManager` — the session control of `internal/api/control.go`: at most
  one token is the active controller, an idle session may be taken over, and a
  controller whose event stream breaks keeps its session for a grace period of
  three seconds.

  Every method is the code between `mu.Lock()` and `mu.Unlock()`, so it is one
  atomic function of `ControlState`: the manager's fields together with the
  part of the Go runtime they refer to (the clock read by `time.Now()` and the
  timers created by `time.AfterFunc`).  The function a timer runs captures only
  the token it was armed for.

  Each method comes with one lemma listing its outcomes (`takeControl_cases`,
  `releaseControl_cases`, ...); nothing after this module unfolds a method.
-/
import UnisetPanel.Timer
import Mathlib.Data.Finset.Card
import Mathlib.Tactic.SplitIfs

namespace UnisetPanel

/-- The errors of `control.go` (`ErrInvalidToken` and its siblings). -/
inductive ControlError where
  | invalidToken
  | controlTaken
  | notController
  | controlDisabled
  deriving DecidableEq, Repr

/-- The status shown by the user interface. -/
structure ControlStatus where
  /-- control by tokens is switched on -/
  enabled : Bool
  /-- there is an active controller -/
  hasController : Bool
  /-- the one asking is the controller -/
  isController : Bool
  /-- the idle timeout in seconds -/
  timeoutSec : ℕ
  deriving DecidableEq, Repr

/-- The set of valid tokens; `NewControlManager` never puts the empty string in it. -/
structure TokenSet where
  /-- The tokens. -/
  tokens : Finset String
  /-- The empty string is no token. -/
  empty_notMem : "" ∉ tokens

namespace TokenSet

/-- The set built by `NewControlManager` from the configured tokens. -/
def ofList (tokens : List String) : TokenSet where
  tokens := (tokens.filter (· ≠ "")).toFinset
  empty_notMem := by simp

end TokenSet

/-- The fields of `ControlManager` that its methods read or write. -/
structure ControlManager where
  /-- the valid tokens -/
  tokens : TokenSet
  /-- the token of the active session; empty when control is free -/
  activeToken : String
  /-- when the active session was last used -/
  lastActivity : Time
  /-- the idle timeout -/
  timeout : Duration
  /-- the hub to notify, if any: the `control_status` events it was given so far -/
  sseHub : Option (List ControlStatus)
  /-- the timer of the postponed release -/
  pendingRelease : Option TimerID

/-- A control manager together with the clock and the timers it uses. -/
structure ControlState extends ControlManager where
  /-- what `time.Now()` returns -/
  now : Time
  /-- the timers armed by `releaseBySSE`; each captured its token -/
  timers : Timers String

/-- `NewControlManager` at the moment `start`. -/
def newControlManager (tokens : List String) (timeout : Duration)
    (hub : Option (List ControlStatus)) (start : Time) : ControlState where
  tokens := .ofList tokens
  activeToken := ""
  lastActivity := 0
  timeout := timeout
  sseHub := hub
  pendingRelease := none
  now := start
  timers := []

/-- The grace period of `releaseBySSE`. -/
def gracePeriod : Duration := 3 * second

namespace ControlState

variable (s : ControlState) (token : String)

/-! ### The methods -/

/-- Control by tokens is on when some token is configured. -/
def isEnabled : Bool := decide (0 < s.tokens.tokens.card)

/-- `IsValidToken`. -/
def isValidToken : Bool := s.isEnabled && decide (token ∈ s.tokens.tokens)

/-- `broadcastStatus`: hand the current status to the hub. -/
def broadcastStatus : ControlState :=
  match s.sseHub with
  | none => s
  | some sent =>
    { s with sseHub := some (sent ++ [{
        enabled := s.isEnabled
        hasController := decide (s.activeToken ≠ "")
        isController := false
        timeoutSec := s.timeout / second }]) }

/-- The first lines of `TakeControl`: stop the pending release, if any, and forget it. -/
def dropPendingRelease : ControlState :=
  match s.pendingRelease with
  | none => s
  | some k => { s with timers := s.timers.stop k, pendingRelease := none }

/-- `TakeControl`. -/
def takeControl : Except ControlError Unit × ControlState :=
  if !s.isEnabled then (.error .controlDisabled, s)
  else if !s.isValidToken token then (.error .invalidToken, s)
  else
    let s := s.dropPendingRelease
    -- taken by another token whose session is not idle for too long
    if s.activeToken ≠ "" ∧ s.activeToken ≠ token ∧ s.now - s.lastActivity < s.timeout then
      (.error .controlTaken, s)
    else
      (.ok (), broadcastStatus { s with activeToken := token, lastActivity := s.now })

/-- `ReleaseControl`. -/
def releaseControl : Except ControlError Unit × ControlState :=
  if !s.isEnabled then (.error .controlDisabled, s)
  else if s.activeToken ≠ token then (.error .notController, s)
  else (.ok (), broadcastStatus { s with activeToken := "", lastActivity := 0 })

/-- `ReleaseBySSE`: arm a release for three seconds from now, in place of an earlier one. -/
def releaseBySSE : ControlState :=
  if !s.isEnabled then s
  else if s.activeToken ≠ token then s
  else
    let timers := match s.pendingRelease with
      | none => s.timers
      | some k => s.timers.stop k
    { s with
      timers := timers.afterFunc (s.now + gracePeriod) token
      pendingRelease := some timers.length }

/-- The function armed by `releaseBySSE token`, run under the lock. -/
def graceCallback : ControlState :=
  if s.activeToken = token then
    broadcastStatus { s with activeToken := "", lastActivity := 0, pendingRelease := none }
  else s

/-- `CancelPendingRelease`. -/
def cancelPendingRelease : ControlState :=
  if !s.isEnabled || token = "" then s
  else if s.activeToken = token then s.dropPendingRelease
  else s

/-- `IsController`. -/
def isController : Bool :=
  if !s.isEnabled then true else decide (s.activeToken = token) && decide (token ≠ "")

/-- `HasController`. -/
def hasController : Bool := if !s.isEnabled then false else decide (s.activeToken ≠ "")

/-- `GetStatus`. -/
def getStatus : ControlStatus where
  enabled := s.isEnabled
  hasController := decide (s.activeToken ≠ "")
  isController := decide (s.activeToken = token) && decide (token ≠ "")
  timeoutSec := s.timeout / second

/-- `Touch`. -/
def touch : ControlState :=
  if !s.isEnabled then s
  else if s.activeToken = token then { s with lastActivity := s.now }
  else s

/-- `checkTimeout`, run by the ticker every `timeout / 2`. -/
def checkTimeout : ControlState :=
  if s.activeToken = "" then s
  else if s.timeout ≤ s.now - s.lastActivity then
    broadcastStatus { s with activeToken := "", lastActivity := 0 }
  else s

/-- `checkControlAccess` (`handlers_control.go`) for a request carrying `token`: whether it is
authorised, and the state afterwards. -/
def checkControlAccess : Bool × ControlState :=
  if !s.isEnabled then (true, s)
  else if s.isController token then (true, s.touch token)
  else (false, s)

/-! ### What each method can do

The hub is only ever written, so the outcomes are stated up to what it received. -/

/-- Two states that differ at most in what the hub was sent. -/
theorem broadcastStatus_eq : ∃ hub, s.broadcastStatus = { s with sseHub := hub } := by
  unfold broadcastStatus
  split
  · exact ⟨s.sseHub, rfl⟩
  · exact ⟨_, rfl⟩

@[simp] theorem dropPendingRelease_activeToken :
    s.dropPendingRelease.activeToken = s.activeToken := by
  unfold dropPendingRelease; split <;> rfl

@[simp] theorem dropPendingRelease_lastActivity :
    s.dropPendingRelease.lastActivity = s.lastActivity := by
  unfold dropPendingRelease; split <;> rfl

@[simp] theorem dropPendingRelease_timeout : s.dropPendingRelease.timeout = s.timeout := by
  unfold dropPendingRelease; split <;> rfl

@[simp] theorem dropPendingRelease_tokens : s.dropPendingRelease.tokens = s.tokens := by
  unfold dropPendingRelease; split <;> rfl

@[simp] theorem dropPendingRelease_now : s.dropPendingRelease.now = s.now := by
  unfold dropPendingRelease; split <;> rfl

@[simp] theorem dropPendingRelease_pendingRelease :
    s.dropPendingRelease.pendingRelease = none := by
  unfold dropPendingRelease; split
  · assumption
  · rfl

/-- Another token holds a session that is not idle for `timeout`. -/
def HeldAgainst : Prop :=
  s.activeToken ≠ "" ∧ s.activeToken ≠ token ∧ s.now - s.lastActivity < s.timeout

instance : Decidable (s.HeldAgainst token) :=
  inferInstanceAs (Decidable (_ ∧ _ ∧ _))

/-- **`TakeControl`** either does nothing (disabled or not a token), or is refused after the
pending release was dropped, or makes `token` the active one. -/
theorem takeControl_cases :
    (s.isValidToken token = false ∧ (s.takeControl token).2 = s ∧
        (s.takeControl token).1 ≠ .ok ()) ∨
    (s.isValidToken token = true ∧ s.HeldAgainst token ∧
        s.takeControl token = (.error .controlTaken, s.dropPendingRelease)) ∨
    (s.isValidToken token = true ∧ ¬ s.HeldAgainst token ∧ ∃ hub,
        s.takeControl token = (.ok (), { s.dropPendingRelease with
          activeToken := token, lastActivity := s.now, sseHub := hub })) := by
  unfold takeControl
  by_cases he : s.isEnabled = true
  · by_cases hv : s.isValidToken token = true
    · have hguard : (s.dropPendingRelease.activeToken ≠ "" ∧
          s.dropPendingRelease.activeToken ≠ token ∧
          s.dropPendingRelease.now - s.dropPendingRelease.lastActivity <
            s.dropPendingRelease.timeout) ↔ s.HeldAgainst token := by
        simp [HeldAgainst]
      by_cases hh : s.HeldAgainst token
      · refine Or.inr (Or.inl ⟨hv, hh, ?_⟩)
        simp only [he, hv, Bool.not_true, Bool.false_eq_true, if_false, if_pos (hguard.mpr hh)]
      · refine Or.inr (Or.inr ⟨hv, hh, ?_⟩)
        simp only [he, hv, Bool.not_true, Bool.false_eq_true, if_false,
          if_neg (mt hguard.mp hh)]
        obtain ⟨hub, hhub⟩ := broadcastStatus_eq { s.dropPendingRelease with
          activeToken := token, lastActivity := s.dropPendingRelease.now }
        exact ⟨hub, by rw [hhub]; simp⟩
    · simp only [Bool.not_eq_true] at hv
      refine Or.inl ⟨hv, ?_⟩
      simp [he, hv]
  · simp only [Bool.not_eq_true] at he
    refine Or.inl ⟨by simp [isValidToken, he], ?_⟩
    simp [he]

/-- **`ReleaseControl`** fails and does nothing, or ends the session of `token`. -/
theorem releaseControl_cases :
    ((s.releaseControl token).2 = s ∧ (s.releaseControl token).1 ≠ .ok ()) ∨
    (s.isEnabled = true ∧ s.activeToken = token ∧ ∃ hub, s.releaseControl token =
      (.ok (), { s with activeToken := "", lastActivity := 0, sseHub := hub })) := by
  unfold releaseControl
  split_ifs with he ha
  · exact Or.inl ⟨rfl, by simp⟩
  · exact Or.inl ⟨rfl, by simp⟩
  · obtain ⟨hub, hhub⟩ := broadcastStatus_eq { s with activeToken := "", lastActivity := 0 }
    exact Or.inr ⟨by simpa using he, by simpa using ha, hub, by rw [hhub]⟩

/-- **`ReleaseBySSE`** does nothing unless `token` is active; then exactly one new timer is armed,
for `token`, the timer that was pending is stopped, and the new one is pending. -/
theorem releaseBySSE_cases :
    s.releaseBySSE token = s ∨
    (s.isEnabled = true ∧ s.activeToken = token ∧ s.releaseBySSE token =
      { s with
        timers := s.dropPendingRelease.timers.afterFunc (s.now + gracePeriod) token
        pendingRelease := some s.timers.length }) := by
  unfold releaseBySSE
  split_ifs with he ha
  · exact Or.inl rfl
  · exact Or.inl rfl
  · refine Or.inr ⟨by simpa using he, by simpa using ha, ?_⟩
    cases hp : s.pendingRelease <;> simp [dropPendingRelease, hp]

/-- **The grace function** does nothing unless its token is active; then it ends the session. -/
theorem graceCallback_cases :
    (s.activeToken ≠ token ∧ s.graceCallback token = s) ∨
    (s.activeToken = token ∧ ∃ hub, s.graceCallback token =
      { s with activeToken := "", lastActivity := 0, pendingRelease := none, sseHub := hub }) := by
  unfold graceCallback
  split_ifs with ha
  · obtain ⟨hub, hhub⟩ := broadcastStatus_eq
      { s with activeToken := "", lastActivity := 0, pendingRelease := none }
    exact Or.inr ⟨ha, hub, by rw [hhub]⟩
  · exact Or.inl ⟨ha, rfl⟩

/-- **`CancelPendingRelease`** does nothing unless `token` is active; then nothing is pending. -/
theorem cancelPendingRelease_cases :
    s.cancelPendingRelease token = s ∧ ¬ (s.isEnabled = true ∧ token ≠ "" ∧ s.activeToken = token) ∨
    (s.isEnabled = true ∧ token ≠ "" ∧ s.activeToken = token ∧
      s.cancelPendingRelease token = s.dropPendingRelease) := by
  unfold cancelPendingRelease
  split_ifs with he ha
  · exact Or.inl ⟨rfl, by simp at he; rintro ⟨h1, h2, -⟩; simp [h1, h2] at he⟩
  · simp only [Bool.or_eq_true, Bool.not_eq_true', decide_eq_true_eq, not_or,
      Bool.not_eq_false] at he
    exact Or.inr ⟨he.1, he.2, ha, rfl⟩
  · exact Or.inl ⟨rfl, fun h => ha h.2.2⟩

/-- **`Touch`** does nothing unless `token` is active; then the session was used just now. -/
theorem touch_cases :
    (s.touch token = s ∧ ¬ (s.isEnabled = true ∧ s.activeToken = token)) ∨
    (s.isEnabled = true ∧ s.activeToken = token ∧
      s.touch token = { s with lastActivity := s.now }) := by
  unfold touch
  split_ifs with he ha
  · exact Or.inl ⟨rfl, fun h => by simp [h.1] at he⟩
  · exact Or.inr ⟨by simpa using he, ha, rfl⟩
  · exact Or.inl ⟨rfl, fun h => ha h.2⟩

/-- **`checkTimeout`** does nothing, or ends a session that is idle for `timeout`. -/
theorem checkTimeout_cases :
    (s.checkTimeout = s ∧ (s.activeToken = "" ∨ s.now - s.lastActivity < s.timeout)) ∨
    (s.activeToken ≠ "" ∧ s.timeout ≤ s.now - s.lastActivity ∧ ∃ hub,
      s.checkTimeout = { s with activeToken := "", lastActivity := 0, sseHub := hub }) := by
  unfold checkTimeout
  split_ifs with ha ht
  · exact Or.inl ⟨rfl, Or.inl ha⟩
  · obtain ⟨hub, hhub⟩ := broadcastStatus_eq { s with activeToken := "", lastActivity := 0 }
    exact Or.inr ⟨ha, ht, hub, by rw [hhub]⟩
  · exact Or.inl ⟨rfl, Or.inr (Nat.not_le.mp ht)⟩

/-- **`checkControlAccess`** authorises exactly the controller, and touches its session. -/
theorem checkControlAccess_snd :
    (s.checkControlAccess token).2 = s ∨ (s.checkControlAccess token).2 = s.touch token := by
  unfold checkControlAccess
  split_ifs
  · exact Or.inl rfl
  · exact Or.inr rfl
  · exact Or.inl rfl

theorem checkControlAccess_fst : (s.checkControlAccess token).1 = s.isController token := by
  unfold checkControlAccess isController
  split_ifs with he hc <;> simp_all

theorem isController_eq_true (he : s.isEnabled = true) :
    s.isController token = true ↔ s.activeToken = token ∧ token ≠ "" := by
  simp [isController, he]

theorem isEnabled_of_isValidToken (h : s.isValidToken token = true) : s.isEnabled = true := by
  simp only [isValidToken, Bool.and_eq_true] at h
  exact h.1

theorem mem_of_isValidToken (h : s.isValidToken token = true) : token ∈ s.tokens.tokens := by
  simpa [isValidToken, s.isEnabled_of_isValidToken token h] using h

end ControlState

end UnisetPanel
