/-
  A refused `TakeControl`.

  `takeControl` stops the pending release before it decides whether the session
  is taken.  The comment beside these lines gives the reason, a controller that
  reconnects; `CancelPendingRelease` does the same for the active token only.
  An attempt by another token, which is then refused, stops the timer as well.

  `LeavesSession` says what a refused attempt leaves alone.  It holds except
  where a valid token is refused while a release is pending
  (`leavesSession_iff`), and there the timer never runs its function
  (`not_callback_of_refused`): the session outlives its holder's connection
  until it is idle for the timeout.
-/
import UnisetPanel.ControlManager.Machine

namespace UnisetPanel

namespace ControlState

variable (s : ControlState) (token : String)

/-! ### What an error leaves alone -/

/-- **A failed attempt is no attempt**: where `TakeControl` returns an error, the active token, its
last activity and the pending release are what they were, and so is the status of the timer that is
pending. -/
def LeavesSession : Prop :=
  ∀ e, (s.takeControl token).1 = .error e →
    (s.takeControl token).2.activeToken = s.activeToken ∧
    (s.takeControl token).2.lastActivity = s.lastActivity ∧
    (s.takeControl token).2.pendingRelease = s.pendingRelease ∧
    ∀ k, s.pendingRelease = some k →
      (s.takeControl token).2.timers.status k = s.timers.status k

/-- A valid token is refused while a release is pending. -/
def RefusedWhilePending : Prop :=
  s.isValidToken token = true ∧ s.HeldAgainst token ∧ s.pendingRelease ≠ none

/-- An attempt that is refused because the session is taken has dropped the pending release. -/
theorem takeControl_of_heldAgainst (hv : s.isValidToken token = true) (hh : s.HeldAgainst token) :
    s.takeControl token = (.error .controlTaken, s.dropPendingRelease) := by
  rcases s.takeControl_cases token with ⟨hn, -, -⟩ | ⟨-, -, heq⟩ | ⟨-, hn, -⟩
  · rw [hn] at hv
    cases hv
  · exact heq
  · exact absurd hh hn

theorem dropPendingRelease_of_none (h : s.pendingRelease = none) : s.dropPendingRelease = s := by
  simp [dropPendingRelease, h]

/-- The refused attempt leaves nothing pending. -/
theorem RefusedWhilePending.not_leavesSession {s : ControlState} {token : String}
    (h : s.RefusedWhilePending token) : ¬ s.LeavesSession token := by
  obtain ⟨hv, hh, hp⟩ := h
  intro hleaves
  have hdrop := s.takeControl_of_heldAgainst token hv hh
  obtain ⟨-, -, hpend, -⟩ := hleaves .controlTaken (by rw [hdrop])
  rw [hdrop] at hpend
  exact hp (by rw [← hpend]; simp)

/-- **Exactly when a failed attempt leaves the session alone**: unless a valid token is refused
while a release is pending. -/
theorem leavesSession_iff (s : ControlState) (token : String) :
    s.LeavesSession token ↔ ¬ s.RefusedWhilePending token := by
  constructor
  · intro h hr
    exact hr.not_leavesSession h
  · intro h e herr
    rcases s.takeControl_cases token with ⟨-, hs, -⟩ | ⟨hv, hh, heq⟩ | ⟨-, -, hub, heq⟩
    · rw [hs]
      exact ⟨rfl, rfl, rfl, fun k _ => rfl⟩
    · -- nothing is pending, so nothing is dropped
      have hp : s.pendingRelease = none := by
        by_contra hp
        exact h ⟨hv, hh, hp⟩
      rw [heq, s.dropPendingRelease_of_none hp]
      exact ⟨rfl, rfl, rfl, fun k _ => rfl⟩
    · rw [heq] at herr
      cases herr

/-! ### The attempt that cancels -/

/-- Two tokens, a timeout of one minute. -/
def twoTokens : Machine ControlState ControlAction :=
  controlMachine ["admin", "guest"] (60 * second) none 0

/-- **The property fails**: `admin` takes control and its stream breaks; `guest` is refused, and the
release of `admin` is no longer pending. -/
theorem not_forall_leavesSession : ¬ ∀ s : ControlState, twoTokens.Reachable s →
    ∀ token, s.LeavesSession token := by
  intro h
  have hreach : twoTokens.Reachable _ :=
    ⟨[.takeControl "admin", .releaseBySSE "admin"], rfl⟩
  exact RefusedWhilePending.not_leavesSession ⟨by decide, by decide, by decide⟩
    (h _ hreach "guest")

/-! ### What follows -/

variable {tokens : List String} {timeout : Duration} {hub : Option (List ControlStatus)}
  {start : Time}

/-- What is settled stays so along a run. -/
theorem settled_of_run {s t : ControlState} {as : List ControlAction} {k : TimerID}
    (h : (controlMachine tokens timeout hub start).run s as = some t)
    (hk : s.timers.Settled k) : t.timers.Settled k :=
  Machine.run_induction (P := fun s => s.timers.Settled k)
    (fun _ _ _ hs hstep => (step_frame hstep).settled k hs) h hk

/-- **The holder's session is not released any more**: after the refused attempt the function of the
timer that was armed never runs, whatever follows. -/
theorem not_callback_of_refused {s t u : ControlState} {token : String} {k : TimerID}
    {as : List ControlAction} (hv : s.isValidToken token = true) (hh : s.HeldAgainst token)
    (hp : s.pendingRelease = some k) (harmed : s.timers.status k = some .armed)
    (hrun : (controlMachine tokens timeout hub start).run (s.takeControl token).2 as = some t) :
    t.step (.callback k) ≠ some u := by
  intro hcall
  have hsettled : (s.takeControl token).2.timers.Settled k := by
    rw [takeControl_of_heldAgainst s token hv hh]
    left
    rw [dropPendingRelease_status, if_pos ⟨hp, harmed⟩]
  obtain ⟨t', timers, hbegin, -⟩ := step_callback hcall
  obtain ⟨hfired, -⟩ := Timers.begin_eq_some hbegin
  rcases settled_of_run hrun hsettled with h | h <;> rw [hfired] at h <;> cases h

end ControlState

end UnisetPanel
