/-
  The connection of a `LogViewer` to its stream of logs (`30-log-viewer.js`):
  `connect`, the handlers of its events, `handleConnectionError` and `disconnect`.

  `connect` registers two handlers for `error`, a listener and `onerror`, and each
  of them calls `handleConnectionError`.  So an error consumes two attempts, and the
  viewer gives up after three errors in a row, not after six
  (`not_keepsBudget_threeErrors`).  A connection that ends with the event
  `disconnected` consumes one.  All is well in the runs in which an error comes only
  once the attempts are used up, where the first handler gives up and the second
  finds nothing to do; these are the only such runs (`keepsBudget_iff`).

  A timer fires at any time after it was armed.
-/
import UnisetPanel.Machine
import Mathlib.Data.Nat.Notation
import Mathlib.Tactic.Common

namespace UnisetPanel

/-- The connection of a `LogViewer`, and the timers that are pending. -/
structure LogConnection where
  isActive : Bool
  connected : Bool
  /-- an `EventSource` is open -/
  eventSource : Bool
  reconnectAttempts : ℕ
  reconnectTimer : Option ℕ
  timers : List ℕ
  /-- how many timers were armed -/
  armed : ℕ
  deriving DecidableEq, Repr

/-- What happens to the connection. -/
inductive LogConnectionAction where
  /-- the button, while the viewer is not active -/
  | connect
  /-- the button, while it is, or `destroy` -/
  | disconnect
  /-- events of the `EventSource` that is open -/
  | connected
  | disconnected
  | error
  | timer (number : ℕ)
  deriving DecidableEq, Repr

namespace LogConnectionAction

/-- The connection has failed. -/
def IsFailure (a : LogConnectionAction) : Prop := a = disconnected ∨ a = error

instance (a : LogConnectionAction) : Decidable a.IsFailure := inferInstanceAs (Decidable (_ ∨ _))

/-- One action more: the number of failures since the last connection or `disconnect`. -/
def count (n : ℕ) : LogConnectionAction → ℕ
  | connected | disconnect => 0
  | disconnected | error => n + 1
  | connect | timer _ => n

/-- The failures since the last connection or `disconnect`. -/
def failures (as : List LogConnectionAction) : ℕ := as.foldl count 0

theorem failures_concat (as : List LogConnectionAction) (a : LogConnectionAction) :
    failures (as ++ [a]) = count (failures as) a :=
  List.foldl_append

end LogConnectionAction

namespace LogConnection

variable (maxReconnectAttempts : ℕ) (s : LogConnection)

/-- `constructor`. -/
def new : LogConnection := ⟨false, false, false, 0, none, [], 0⟩

/-- The timers without `reconnectTimer`, after `clearTimeout`. -/
def cleared : List ℕ := s.timers.filter fun t => some t ≠ s.reconnectTimer

/-- `connect`: an `EventSource` that is open is closed, and a new one takes its place. -/
def connect : LogConnection :=
  { s with
    timers := s.cleared
    reconnectTimer := none
    isActive := true
    eventSource := true }

/-- The handler of `connected`. -/
def onConnected : LogConnection := { s with connected := true, reconnectAttempts := 0 }

/-- `handleConnectionError`. -/
def handleConnectionError : LogConnection :=
  if !s.isActive then s
  else
    let s := { s with
      connected := false
      eventSource := false
      reconnectAttempts := s.reconnectAttempts + 1 }
    if s.reconnectAttempts ≤ maxReconnectAttempts then
      { s with
        timers := s.cleared ++ [s.armed]
        reconnectTimer := some s.armed
        armed := s.armed + 1 }
    else { s with isActive := false }

/-- The handlers of `error` in the order in which they are registered: the listener, and
`onerror`. -/
def errorHandlers : List (LogConnection → LogConnection) :=
  [handleConnectionError maxReconnectAttempts, handleConnectionError maxReconnectAttempts]

/-- `disconnect`. -/
def disconnect : LogConnection :=
  { s with
    timers := s.cleared
    reconnectTimer := none
    eventSource := false
    connected := false
    isActive := false
    reconnectAttempts := 0 }

/-- A timer fires. -/
def onTimer (number : ℕ) : LogConnection :=
  let s := { s with timers := s.timers.erase number }
  if s.isActive then s.connect else s

/-- One step. -/
def step : LogConnectionAction → Option LogConnection
  | .connect => if s.isActive then none else some s.connect
  | .disconnect => some s.disconnect
  | .connected => if s.eventSource then some s.onConnected else none
  | .disconnected =>
    if s.eventSource then some (s.handleConnectionError maxReconnectAttempts) else none
  | .error =>
    if s.eventSource then
      some ((errorHandlers maxReconnectAttempts).foldl (fun s handler => handler s) s)
    else none
  | .timer number => if number ∈ s.timers then some (s.onTimer number) else none

end LogConnection

/-- The runs of a connection. -/
def logConnectionMachine (maxReconnectAttempts : ℕ) :
    Machine LogConnection LogConnectionAction where
  init := .new
  step := LogConnection.step maxReconnectAttempts

namespace LogConnection

open LogConnectionAction

variable (maxReconnectAttempts : ℕ) (s : LogConnection)

/-- After the `n`-th failure in a row: one timer is pending, or the attempts are used up and the
viewer has given up. -/
def Retries (n : ℕ) : Prop :=
  if n ≤ maxReconnectAttempts then s.isActive = true ∧ s.timers.length = 1
  else s.isActive = false ∧ s.timers = []

instance (n : ℕ) : Decidable (s.Retries maxReconnectAttempts n) := by
  unfold Retries
  infer_instance

/-- **The budget is kept**: the attempts that are consumed are the failures since the last connection
or `disconnect`, and each failure arms one timer until there are more failures than attempts. -/
def KeepsBudget (as : List LogConnectionAction) : Prop :=
  ∀ pre a post t, as = pre ++ a :: post →
    (logConnectionMachine maxReconnectAttempts).run .new (pre ++ [a]) = some t →
    t.reconnectAttempts = failures (pre ++ [a]) ∧
      (a.IsFailure → t.Retries maxReconnectAttempts (failures (pre ++ [a])))

/-- An error comes only when the attempts are used up. -/
def ErrorsLast (a : LogConnectionAction) : Prop :=
  a = .error → maxReconnectAttempts ≤ s.reconnectAttempts

instance (a : LogConnectionAction) : Decidable (s.ErrorsLast maxReconnectAttempts a) :=
  inferInstanceAs (Decidable (_ → _))

/-! ### One step -/

/-- At most one timer is pending, the one that is kept, and none while the connection is open. -/
structure Inv (s : LogConnection) : Prop where
  pending : s.timers = [] ∨ ∃ t, s.timers = [t] ∧ s.reconnectTimer = some t
  opened : s.eventSource = true → s.isActive = true ∧ s.timers = []

variable {maxReconnectAttempts s} {t : LogConnection}

theorem Inv.cleared (hs : s.Inv) : s.cleared = [] := by
  unfold LogConnection.cleared
  rcases hs.pending with h | ⟨t, h, htimer⟩
  · rw [h]
    rfl
  · rw [h, htimer]
    simp

theorem Inv.connect (hs : s.Inv) : s.connect.Inv := ⟨Or.inl hs.cleared, fun _ => ⟨rfl, hs.cleared⟩⟩

/-- What `handleConnectionError` does to an active viewer. -/
theorem handleConnectionError_of_isActive (hs : s.Inv) (hactive : s.isActive = true) :
    s.handleConnectionError maxReconnectAttempts =
      if s.reconnectAttempts + 1 ≤ maxReconnectAttempts then
        { s with
          connected := false
          eventSource := false
          reconnectAttempts := s.reconnectAttempts + 1
          timers := [s.armed]
          reconnectTimer := some s.armed
          armed := s.armed + 1 }
      else
        { s with
          connected := false
          eventSource := false
          reconnectAttempts := s.reconnectAttempts + 1
          isActive := false } := by
  have hcleared := hs.cleared
  unfold LogConnection.cleared at hcleared
  unfold handleConnectionError LogConnection.cleared
  simp only [hactive, Bool.not_true, Bool.false_eq_true, if_false, hcleared, List.nil_append]

theorem Inv.handleConnectionError (hs : s.Inv) :
    (s.handleConnectionError maxReconnectAttempts).Inv := by
  by_cases hactive : s.isActive = true
  · rw [handleConnectionError_of_isActive hs hactive]
    split_ifs
    · exact ⟨Or.inr ⟨s.armed, rfl, rfl⟩, fun h => absurd h Bool.false_ne_true⟩
    · exact ⟨hs.pending, fun h => absurd h Bool.false_ne_true⟩
  · unfold LogConnection.handleConnectionError
    rw [if_pos (by simpa using hactive)]
    exact hs

/-- What a step can do. -/
theorem step_eq_some {a : LogConnectionAction} (h : s.step maxReconnectAttempts a = some t) :
    match a with
    | .connect => s.isActive = false ∧ t = s.connect
    | .disconnect => t = s.disconnect
    | .connected => s.eventSource = true ∧ t = s.onConnected
    | .disconnected => s.eventSource = true ∧ t = s.handleConnectionError maxReconnectAttempts
    | .error => s.eventSource = true ∧ t =
        (s.handleConnectionError maxReconnectAttempts).handleConnectionError maxReconnectAttempts
    | .timer number => number ∈ s.timers ∧ t = s.onTimer number := by
  cases a with
  | disconnect => exact (Option.some.inj h).symm
  | connect =>
    obtain ⟨hactive, h⟩ := Option.ite_none_left_eq_some.mp h
    exact ⟨by simpa using hactive, (Option.some.inj h).symm⟩
  | connected | disconnected | error | timer number =>
    obtain ⟨henabled, h⟩ := Option.ite_none_right_eq_some.mp h
    exact ⟨henabled, (Option.some.inj h).symm⟩

/-- The timer that fires is the one that is pending. -/
theorem Inv.erase (hs : s.Inv) {number : ℕ} (hmem : number ∈ s.timers) :
    s.timers.erase number = [] := by
  rcases hs.pending with h | ⟨t, h, -⟩
  · rw [h] at hmem
    exact absurd hmem List.not_mem_nil
  · rw [h] at hmem ⊢
    rw [List.mem_singleton.mp hmem]
    simp

/-- No timer is pending once one has fired. -/
theorem timers_onTimer (hs : s.Inv) {number : ℕ} (hmem : number ∈ s.timers) :
    s.onTimer number = if s.isActive then
        { s with timers := [], reconnectTimer := none, eventSource := true }
      else { s with timers := [] } := by
  unfold onTimer LogConnection.connect LogConnection.cleared
  simp only [hs.erase hmem, List.filter_nil]
  split_ifs with h
  · simp only [h]
  · rfl

theorem Inv.step (hs : s.Inv) {a : LogConnectionAction}
    (hstep : s.step maxReconnectAttempts a = some t) : t.Inv := by
  have hcases := step_eq_some hstep
  cases a with
  | connect =>
    obtain ⟨-, rfl⟩ := hcases
    exact hs.connect
  | disconnect =>
    obtain rfl : t = s.disconnect := hcases
    exact ⟨Or.inl hs.cleared, fun h => absurd h Bool.false_ne_true⟩
  | connected =>
    obtain ⟨-, rfl⟩ := hcases
    exact ⟨hs.pending, hs.opened⟩
  | disconnected =>
    obtain ⟨-, rfl⟩ := hcases
    exact hs.handleConnectionError
  | error =>
    obtain ⟨-, rfl⟩ := hcases
    exact hs.handleConnectionError.handleConnectionError
  | timer number =>
    obtain ⟨hmem, rfl⟩ := hcases
    rw [timers_onTimer hs hmem]
    split_ifs with hactive
    · exact ⟨Or.inl rfl, fun _ => ⟨hactive, rfl⟩⟩
    · exact ⟨Or.inl rfl, fun h => ⟨(hs.opened h).1, rfl⟩⟩

theorem inv_of_reachable (hs : (logConnectionMachine maxReconnectAttempts).Reachable s) : s.Inv :=
  hs.induction ⟨Or.inl rfl, fun h => absurd h Bool.false_ne_true⟩ fun _ _ _ _ h hstep =>
    h.step hstep

variable (maxReconnectAttempts) in
/-- One failure with attempts left arms a timer, and one without gives up. -/
theorem retries_handleConnectionError (hs : s.Inv) (hopen : s.eventSource = true) :
    (s.handleConnectionError maxReconnectAttempts).reconnectAttempts = s.reconnectAttempts + 1 ∧
      (s.handleConnectionError maxReconnectAttempts).Retries maxReconnectAttempts
        (s.reconnectAttempts + 1) := by
  obtain ⟨hactive, htimers⟩ := hs.opened hopen
  rw [handleConnectionError_of_isActive hs hactive]
  unfold Retries
  split_ifs
  · exact ⟨rfl, hactive, rfl⟩
  · exact ⟨rfl, rfl, htimers⟩

/-- The second handler of an error takes another attempt, unless the first one has given up. -/
theorem reconnectAttempts_error (hs : s.Inv) (hopen : s.eventSource = true)
    (hlt : s.reconnectAttempts < maxReconnectAttempts) :
    ((s.handleConnectionError maxReconnectAttempts).handleConnectionError
      maxReconnectAttempts).reconnectAttempts = s.reconnectAttempts + 2 := by
  have hactive : (s.handleConnectionError maxReconnectAttempts).isActive = true := by
    rw [handleConnectionError_of_isActive hs (hs.opened hopen).1, if_pos (by omega)]
    exact (hs.opened hopen).1
  have hfirst := (retries_handleConnectionError maxReconnectAttempts hs hopen).1
  rw [handleConnectionError_of_isActive hs.handleConnectionError hactive]
  split_ifs
  · exact congrArg (· + 1) hfirst
  · exact congrArg (· + 1) hfirst

theorem error_of_le (hs : s.Inv) (hopen : s.eventSource = true)
    (hle : maxReconnectAttempts ≤ s.reconnectAttempts) :
    (s.handleConnectionError maxReconnectAttempts).handleConnectionError maxReconnectAttempts =
      s.handleConnectionError maxReconnectAttempts := by
  have hactive : (s.handleConnectionError maxReconnectAttempts).isActive = false := by
    rw [handleConnectionError_of_isActive hs (hs.opened hopen).1, if_neg (by omega)]
  rw [LogConnection.handleConnectionError, if_pos (by rw [hactive]; rfl)]

/-- An action that is no failure has only the attempts to keep. -/
theorem keeps_iff_of_not_isFailure {a : LogConnectionAction} (ha : ¬ a.IsFailure)
    (hattempts : t.reconnectAttempts = count s.reconnectAttempts a) :
    (t.reconnectAttempts = count s.reconnectAttempts a ∧
      (a.IsFailure → t.Retries maxReconnectAttempts t.reconnectAttempts)) ↔
    s.ErrorsLast maxReconnectAttempts a :=
  iff_of_true ⟨hattempts, fun h => absurd h ha⟩ fun h => absurd (Or.inr h) ha

/-- **Exactly when a step keeps to the budget.** -/
theorem step_keeps_iff (hs : s.Inv) {a : LogConnectionAction}
    (hstep : s.step maxReconnectAttempts a = some t) :
    (t.reconnectAttempts = count s.reconnectAttempts a ∧
      (a.IsFailure → t.Retries maxReconnectAttempts t.reconnectAttempts)) ↔
    s.ErrorsLast maxReconnectAttempts a := by
  have hcases := step_eq_some hstep
  cases a with
  | connect =>
    obtain ⟨-, rfl⟩ := hcases
    exact keeps_iff_of_not_isFailure (by decide) rfl
  | disconnect =>
    obtain rfl : t = s.disconnect := hcases
    exact keeps_iff_of_not_isFailure (by decide) rfl
  | connected =>
    obtain ⟨-, rfl⟩ := hcases
    exact keeps_iff_of_not_isFailure (by decide) rfl
  | timer number =>
    obtain ⟨hmem, rfl⟩ := hcases
    rw [timers_onTimer hs hmem]
    apply keeps_iff_of_not_isFailure (by simp [IsFailure])
    split_ifs <;> rfl
  | disconnected =>
    obtain ⟨hopen, rfl⟩ := hcases
    obtain ⟨hattempts, hretries⟩ := retries_handleConnectionError maxReconnectAttempts hs hopen
    refine iff_of_true ⟨hattempts, fun _ => ?_⟩ (fun h => by cases h)
    rw [hattempts]
    exact hretries
  | error =>
    obtain ⟨hopen, rfl⟩ := hcases
    constructor
    · rintro ⟨hattempts, -⟩ -
      by_contra hlt
      -- with attempts left both handlers count
      rw [reconnectAttempts_error hs hopen (by omega)] at hattempts
      exact absurd hattempts (by simp [count])
    · intro hlast
      obtain ⟨hattempts, hretries⟩ := retries_handleConnectionError maxReconnectAttempts hs hopen
      rw [error_of_le hs hopen (hlast rfl)]
      refine ⟨hattempts, fun _ => ?_⟩
      rw [hattempts]
      exact hretries

/-! ### Runs -/

theorem KeepsBudget.left {as bs : List LogConnectionAction}
    (h : KeepsBudget maxReconnectAttempts (as ++ bs)) : KeepsBudget maxReconnectAttempts as := by
  intro pre a post t has
  exact h pre a (post ++ bs) t (by rw [has, List.append_assoc, List.cons_append])

/-- A run that keeps to the budget has consumed as many attempts as it has failures. -/
theorem KeepsBudget.reconnectAttempts_eq {as : List LogConnectionAction}
    (h : KeepsBudget maxReconnectAttempts as)
    (hrun : (logConnectionMachine maxReconnectAttempts).run .new as = some s) :
    s.reconnectAttempts = failures as := by
  rcases List.eq_nil_or_concat as with rfl | ⟨as, a, rfl⟩
  · obtain rfl := Option.some.inj hrun
    rfl
  · rw [List.concat_eq_append] at h hrun ⊢
    exact (h as a [] s rfl hrun).1

theorem reconnectAttempts_eq_of_everyStep {as : List LogConnectionAction}
    (h : (logConnectionMachine maxReconnectAttempts).EveryStep
      (fun s a => s.ErrorsLast maxReconnectAttempts a) as)
    (hrun : (logConnectionMachine maxReconnectAttempts).run .new as = some s) :
    s.reconnectAttempts = failures as := by
  induction as using List.reverseRecOn generalizing s with
  | nil =>
    obtain rfl := Option.some.inj hrun
    rfl
  | append_singleton as a ih =>
    obtain ⟨t, ht, hts⟩ := (logConnectionMachine maxReconnectAttempts).run_concat_eq_some.mp hrun
    have hkeeps := (step_keeps_iff (inv_of_reachable ⟨as, ht⟩) hts).mpr (h as a [] t rfl ht)
    rw [failures_concat, ← ih h.left ht]
    exact hkeeps.1

/-! ### Three errors -/

/-- The viewer connects, and each connection ends in an error. -/
def threeErrors : List LogConnectionAction :=
  [.connect, .error, .timer 1, .error, .timer 3, .error]

/-- **Three failures use up the five attempts**: the viewer gives up. -/
theorem not_keepsBudget_threeErrors :
    (∃ s, (logConnectionMachine 5).run .new threeErrors = some s ∧ s.isActive = false) ∧
      failures threeErrors = 3 ∧ ¬ KeepsBudget 5 threeErrors := by
  refine ⟨⟨_, rfl, rfl⟩, rfl, ?_⟩
  intro h
  have hfirst := (h [.connect] .error _ _ rfl rfl).1
  exact absurd hfirst (by decide)

/-- **Exactly when the budget is kept**: an error comes only once the attempts are used up. -/
theorem keepsBudget_iff (maxReconnectAttempts : ℕ) {as : List LogConnectionAction}
    {s : LogConnection} (hrun : (logConnectionMachine maxReconnectAttempts).run .new as = some s) :
    KeepsBudget maxReconnectAttempts as ↔ (logConnectionMachine maxReconnectAttempts).EveryStep
      (fun s a => s.ErrorsLast maxReconnectAttempts a) as := by
  constructor
  · intro h pre a post t has ht
    obtain ⟨u, hu⟩ := Machine.exists_step_of_run (has ▸ hrun) ht
    have hpre : t.reconnectAttempts = failures pre := (has ▸ h).left.reconnectAttempts_eq ht
    obtain ⟨hattempts, hretries⟩ := h pre a post u has
      ((logConnectionMachine maxReconnectAttempts).run_concat_eq_some.mpr ⟨t, ht, hu⟩)
    apply (step_keeps_iff (inv_of_reachable ⟨pre, ht⟩) hu).mp
    constructor
    · rw [hattempts, failures_concat, hpre]
    · rw [hattempts]
      exact hretries
  · intro h pre a post t has ht
    obtain ⟨u, hu, hut⟩ := (logConnectionMachine maxReconnectAttempts).run_concat_eq_some.mp ht
    have hpre := reconnectAttempts_eq_of_everyStep (has ▸ h).left hu
    obtain ⟨hattempts, hretries⟩ :=
      (step_keeps_iff (inv_of_reachable ⟨pre, hu⟩) hut).mpr (h pre a post u has hu)
    rw [failures_concat, ← hpre, ← hattempts]
    exact ⟨rfl, hretries⟩

/-- A connection that ends with `disconnected`, twice. -/
theorem keepsBudget_disconnected :
    KeepsBudget 5 [.connect, .disconnected, .timer 0, .disconnected] :=
  (keepsBudget_iff 5 rfl).mpr (Machine.everyStep_of_run_guard rfl)

end LogConnection

end UnisetPanel
