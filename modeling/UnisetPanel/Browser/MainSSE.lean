/-
  The main SSE connection of the browser (`04-sse.js`): `initSSE`, its events and
  the timers that `onerror` arms.

  `onerror` neither closes the `EventSource` nor keeps the timer, so an error that
  repeats arms another, and where the browser reconnects by itself the timer
  still replaces the connection (`not_reconnectsOnce`).  All is well in the runs
  in which an error with attempts left, and `connected`, come only while no timer
  is pending; where all timers have fired these are the only such runs
  (`reconnectsOnce_iff`).

  A timer fires at any time after it was armed.
-/
import UnisetPanel.Machine
import Mathlib.Data.Nat.Notation
import Mathlib.Tactic.Common

namespace UnisetPanel

/-- `state.sse.maxReconnectAttempts`. -/
def maxReconnectAttempts : ℕ := 10

/-- A timer that `onerror` has armed. -/
structure ReconnectTimer where
  number : ℕ
  /-- `connected` has come since -/
  stale : Bool
  deriving DecidableEq, Repr

/-- `state.sse`, and the timers that are pending. -/
structure MainSSE where
  /-- the number of the `EventSource` that is open -/
  eventSource : Option ℕ
  connected : Bool
  reconnectAttempts : ℕ
  timers : List ReconnectTimer
  /-- how many were opened, and armed -/
  opened : ℕ
  armed : ℕ
  /-- a timer has replaced the connection after a `connected` that it was armed before -/
  tornDown : Bool
  deriving DecidableEq, Repr

/-- What happens to the connection. -/
inductive SSEAction where
  /-- the page is opened, or the token changes -/
  | initSSE
  /-- events of the `EventSource` that is open -/
  | connected
  | error
  | timer (number : ℕ)
  deriving DecidableEq, Repr

namespace MainSSE

variable (s : MainSSE)

/-- The page before `initSSE`. -/
def new : MainSSE := ⟨none, false, 0, [], 0, 0, false⟩

/-- `initSSE`: the `EventSource` before is closed, and a new one takes its place. -/
def initSSE : MainSSE := { s with eventSource := some s.opened, opened := s.opened + 1 }

/-- The handler of `connected`. -/
def onConnected : MainSSE :=
  { s with
    connected := true
    reconnectAttempts := 0
    timers := s.timers.map fun t => { t with stale := true } }

/-- `onerror`. -/
def onError : MainSSE :=
  if s.reconnectAttempts < maxReconnectAttempts then
    { s with
      connected := false
      reconnectAttempts := s.reconnectAttempts + 1
      timers := s.timers ++ [⟨s.armed, false⟩]
      armed := s.armed + 1 }
  -- `enablePollingFallback`
  else { s with connected := false }

/-- A timer fires. -/
def onTimer (t : ReconnectTimer) : MainSSE :=
  { s with
    timers := s.timers.erase t
    tornDown := s.tornDown || t.stale }.initSSE

/-- One step. -/
def step : SSEAction → Option MainSSE
  | .initSSE => some s.initSSE
  | .connected => if s.eventSource.isSome then some s.onConnected else none
  | .error => if s.eventSource.isSome then some s.onError else none
  | .timer number => (s.timers.find? fun t => t.number = number).map s.onTimer

end MainSSE

/-- The runs of a page. -/
def sseMachine : Machine MainSSE SSEAction where
  init := .new
  step := MainSSE.step

namespace MainSSE

variable (s : MainSSE)

/-- **At most one timer is pending**, and no timer has replaced the connection after a `connected`
that it was armed before. -/
structure ReconnectsOnce : Prop where
  pending : s.timers.length ≤ 1
  kept : s.tornDown = false

/-- An error with attempts left, and `connected`, come only while no timer is pending. -/
def NonePending : SSEAction → Prop
  | .error => s.reconnectAttempts < maxReconnectAttempts → s.timers = []
  | .connected => s.timers = []
  | .initSSE | .timer _ => True

/-! ### An error twice, and a browser that reconnects -/

/-- **It fails**: two errors leave two timers; and a timer replaces the connection that the browser
has made anew by itself. -/
theorem not_reconnectsOnce :
    (¬ ∀ as s, sseMachine.run .new as = some s → s.timers.length ≤ 1) ∧
    ¬ ∀ as s, sseMachine.run .new as = some s → s.tornDown = false := by
  constructor
  · intro h
    exact absurd (h [.initSSE, .error, .error] _ rfl) (by decide)
  · intro h
    exact absurd (h [.initSSE, .error, .connected, .timer 0] _ rfl) (by decide)

/-! ### One step -/

/-- At most one timer, none of them older than the last `connected`. -/
structure Inv (s : MainSSE) : Prop where
  once : s.ReconnectsOnce
  fresh : ∀ t ∈ s.timers, t.stale = false

/-- A timer is older than a `connected`, or one that was has fired. -/
def Late (s : MainSSE) : Prop := s.tornDown = true ∨ ∃ t ∈ s.timers, t.stale = true

variable {s} {t : MainSSE}

theorem inv_onError (hs : s.Inv) (hnone : s.NonePending .error) : s.onError.Inv := by
  unfold onError
  split_ifs with hattempts
  · have htimers := hnone hattempts
    refine ⟨⟨?_, hs.once.kept⟩, ?_⟩
    · simp [htimers]
    · simp [htimers]
  · exact ⟨⟨hs.once.pending, hs.once.kept⟩, hs.fresh⟩

theorem inv_onTimer {timer : ReconnectTimer} (hs : s.Inv) (hmem : timer ∈ s.timers) :
    (s.onTimer timer).Inv := by
  refine ⟨⟨?_, ?_⟩, ?_⟩
  · have hlength := List.length_erase_of_mem hmem
    have := hs.once.pending
    simp only [onTimer, initSSE]
    omega
  · simp [onTimer, initSSE, hs.once.kept, hs.fresh timer hmem]
  · intro t ht
    exact hs.fresh t (List.mem_of_mem_erase ht)

theorem inv_step (a : SSEAction) (hs : s.Inv) (hnone : s.NonePending a)
    (hstep : s.step a = some t) : t.Inv := by
  cases a with
  | initSSE =>
    obtain rfl := Option.some.inj hstep
    exact ⟨⟨hs.once.pending, hs.once.kept⟩, hs.fresh⟩
  | connected =>
    simp only [step] at hstep
    split_ifs at hstep
    obtain rfl := Option.some.inj hstep
    have htimers : s.timers = [] := hnone
    refine ⟨⟨?_, hs.once.kept⟩, ?_⟩
    · simp [onConnected, htimers]
    · simp [onConnected, htimers]
  | error =>
    simp only [step] at hstep
    split_ifs at hstep
    exact Option.some.inj hstep ▸ inv_onError hs hnone
  | timer number =>
    obtain ⟨timer, hfind, rfl⟩ := Option.map_eq_some_iff.mp hstep
    exact inv_onTimer hs (List.mem_of_find?_eq_some hfind)

/-- What is late stays so until it has fired. -/
theorem late_step (a : SSEAction) (hs : s.Late) (hstep : s.step a = some t) : t.Late := by
  rcases hs with htorn | ⟨late, hmem, hstale⟩
  · left
    cases a with
    | initSSE => exact Option.some.inj hstep ▸ htorn
    | connected =>
      simp only [step] at hstep
      split_ifs at hstep
      exact Option.some.inj hstep ▸ htorn
    | error =>
      simp only [step] at hstep
      split_ifs at hstep
      obtain rfl := Option.some.inj hstep
      unfold onError
      split_ifs
      · exact htorn
      · exact htorn
    | timer number =>
      obtain ⟨timer, -, rfl⟩ := Option.map_eq_some_iff.mp hstep
      simp [onTimer, initSSE, htorn]
  · cases a with
    | initSSE => exact Or.inr ⟨late, Option.some.inj hstep ▸ hmem, hstale⟩
    | connected =>
      simp only [step] at hstep
      split_ifs at hstep
      obtain rfl := Option.some.inj hstep
      exact Or.inr ⟨_, List.mem_map_of_mem hmem, rfl⟩
    | error =>
      simp only [step] at hstep
      split_ifs at hstep
      obtain rfl := Option.some.inj hstep
      refine Or.inr ⟨late, ?_, hstale⟩
      unfold onError
      split_ifs
      · exact List.mem_append_left _ hmem
      · exact hmem
    | timer number =>
      obtain ⟨timer, hfind, rfl⟩ := Option.map_eq_some_iff.mp hstep
      by_cases htimer : late = timer
      · left
        simp [onTimer, initSSE, ← htimer, hstale]
      · exact Or.inr ⟨late, (List.mem_erase_of_ne htimer).mpr hmem, hstale⟩

/-- What is not asked for leaves two timers, or a late one. -/
theorem broken_of_pending (a : SSEAction) (hnone : ¬ s.NonePending a)
    (hstep : s.step a = some t) : ¬ t.ReconnectsOnce ∨ t.Late := by
  cases a with
  | initSSE => exact absurd trivial hnone
  | connected =>
    right
    simp only [step] at hstep
    split_ifs at hstep
    obtain rfl := Option.some.inj hstep
    obtain ⟨timer, hmem⟩ := List.exists_mem_of_ne_nil _ hnone
    exact Or.inr ⟨_, List.mem_map_of_mem hmem, rfl⟩
  | error =>
    left
    simp only [NonePending, Classical.not_imp] at hnone
    simp only [step] at hstep
    split_ifs at hstep
    obtain rfl := Option.some.inj hstep
    intro honce
    have hpending := honce.pending
    have hpos := List.length_pos_iff.mpr hnone.2
    simp only [onError, hnone.1, if_true, List.length_append, List.length_singleton] at hpending
    omega
  | timer number => exact absurd trivial hnone

/-! ### The runs -/

/-- **The connection is made anew once, and kept when it is there**, in the runs in which an error
with attempts left, and `connected`, come only while no timer is pending; and of the runs at whose
end no timer is pending only in these. -/
theorem reconnectsOnce_iff {as : List SSEAction} {s : MainSSE}
    (hrun : sseMachine.run .new as = some s) :
    (sseMachine.EveryStep NonePending as → sseMachine.Throughout ReconnectsOnce as) ∧
      (s.timers = [] → sseMachine.Throughout ReconnectsOnce as →
        sseMachine.EveryStep NonePending as) := by
  constructor
  · intro h pre post t has ht
    refine (Machine.EveryStep.induction (I := Inv) ?_ ?_ (has ▸ h).left ht).once
    · exact ⟨⟨Nat.zero_le _, rfl⟩, fun t ht => absurd ht List.not_mem_nil⟩
    · intro s a t hs ha hstep
      exact inv_step a hs ha hstep
  · intro hend hthrough pre a post t has ht
    by_contra hnone
    obtain ⟨u, hu⟩ := Machine.exists_step_of_run (has ▸ hrun) ht
    have hpre : sseMachine.run .new (pre ++ [a]) = some u :=
      sseMachine.run_concat_eq_some.mpr ⟨t, ht, hu⟩
    have hsplit : as = (pre ++ [a]) ++ post := by simp [has]
    rcases broken_of_pending a hnone hu with hbroken | hlate
    · exact hbroken (hthrough _ post u hsplit hpre)
    · -- the late timer fires before the end
      obtain ⟨v, hv, hrest⟩ := sseMachine.run_append_eq_some.mp (hsplit ▸ hrun)
      obtain rfl := Option.some.inj (hpre.symm.trans hv)
      have hlast : s.Late := Machine.run_induction (P := Late)
        (fun s a t hs hstep => late_step a hs hstep) hrest hlate
      have hkept := (hthrough.last hrun).kept
      rcases hlast with htorn | ⟨late, hmem, -⟩
      · simp [hkept] at htorn
      · simp [hend] at hmem

/-- An error, and a connection that the timer makes anew. -/
theorem reconnectsOnce_iff_once :
    (sseMachine.EveryStep NonePending [.initSSE, .error, .timer 0, .connected] →
        sseMachine.Throughout ReconnectsOnce [.initSSE, .error, .timer 0, .connected]) ∧
      (([] : List ReconnectTimer) = [] →
        sseMachine.Throughout ReconnectsOnce [.initSSE, .error, .timer 0, .connected] →
        sseMachine.EveryStep NonePending [.initSSE, .error, .timer 0, .connected]) :=
  reconnectsOnce_iff (s := ⟨some 1, true, 0, [], 2, 1, false⟩) rfl

end MainSSE

end UnisetPanel
