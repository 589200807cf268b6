/-
  The runs of a control manager.

  A step is one critical section of a method, one timer armed by `releaseBySSE`
  firing, the function of a fired timer getting the lock, or time passing.  A
  request is `checkControlAccess`; the `Touch` of a ping is `touch`.  Nothing
  orders the steps, so a run is any interleaving of them, with a clock that
  never goes back and timers that never fire early.

  `step_frame` lists what no step ever changes; the invariants of the manager
  are proved step by step on top of it.
-/
import UnisetPanel.ControlManager.Basic
import UnisetPanel.Machine

namespace UnisetPanel

/-- One atomic step of a control manager and its runtime. -/
inductive ControlAction where
  | takeControl (token : String)
  | releaseControl (token : String)
  | releaseBySSE (token : String)
  | cancelPendingRelease (token : String)
  | touch (token : String)
  | checkTimeout
  /-- a request that needs control, carrying `token` -/
  | checkControlAccess (token : String)
  /-- the deadline of timer `k` has passed and the runtime starts its goroutine -/
  | fire (k : TimerID)
  /-- the function of timer `k` gets the lock and runs -/
  | callback (k : TimerID)
  /-- `d` nanoseconds pass -/
  | advance (d : Duration)
  deriving DecidableEq, Repr

namespace ControlState

/-- One step. -/
def step (s : ControlState) : ControlAction → Option ControlState
  | .takeControl token => some (s.takeControl token).2
  | .releaseControl token => some (s.releaseControl token).2
  | .releaseBySSE token => some (s.releaseBySSE token)
  | .cancelPendingRelease token => some (s.cancelPendingRelease token)
  | .touch token => some (s.touch token)
  | .checkTimeout => some s.checkTimeout
  | .checkControlAccess token => some (s.checkControlAccess token).2
  | .fire k => (s.timers.fire s.now k).map fun timers => { s with timers := timers }
  | .callback k =>
    (s.timers.begin k).map fun f => graceCallback { s with timers := f.2 } f.1
  | .advance d => some { s with now := s.now + d }

variable {s s' : ControlState}

theorem step_fire {k : TimerID} (h : s.step (.fire k) = some s') :
    ∃ timers, s.timers.fire s.now k = some timers ∧ s' = { s with timers := timers } := by
  obtain ⟨timers, ht, rfl⟩ := Option.map_eq_some_iff.mp h
  exact ⟨timers, ht, rfl⟩

theorem step_callback {k : TimerID} (h : s.step (.callback k) = some s') :
    ∃ token timers, s.timers.begin k = some (token, timers) ∧
      s' = graceCallback { s with timers := timers } token := by
  obtain ⟨⟨token, timers⟩, ht, rfl⟩ := Option.map_eq_some_iff.mp h
  exact ⟨token, timers, ht, rfl⟩

/-! ### The timers of the pending release -/

@[simp] theorem dropPendingRelease_payload (s : ControlState) (k : TimerID) :
    s.dropPendingRelease.timers.payload k = s.timers.payload k := by
  unfold dropPendingRelease; split <;> simp

@[simp] theorem dropPendingRelease_length (s : ControlState) :
    s.dropPendingRelease.timers.length = s.timers.length := by
  unfold dropPendingRelease; split <;> simp

theorem dropPendingRelease_status (s : ControlState) (k : TimerID) :
    s.dropPendingRelease.timers.status k =
      if s.pendingRelease = some k ∧ s.timers.status k = some .armed then some .stopped
      else s.timers.status k := by
  unfold dropPendingRelease
  split
  · rename_i h; simp [h]
  · rename_i j h
    rw [Timers.status_stop, h]
    by_cases hkj : k = j
    · subst hkj; simp
    · have hjk : j ≠ k := fun h => hkj h.symm
      simp [hkj, hjk]

theorem dropPendingRelease_fired (s : ControlState) (k : TimerID) :
    s.dropPendingRelease.timers.status k = some .fired ↔ s.timers.status k = some .fired := by
  rw [dropPendingRelease_status]
  split_ifs with h
  · simp [h.2]
  · rfl

theorem settled_dropPendingRelease {k : TimerID} (h : s.timers.Settled k) :
    s.dropPendingRelease.timers.Settled k := by
  have hna : s.timers.status k ≠ some .armed := by rcases h with h | h <;> simp [h]
  unfold Timers.Settled
  rw [dropPendingRelease_status, if_neg fun hc => hna hc.2]
  exact h

/-! ### What no step changes -/

/-- **The frame of every step**: the configuration is fixed, the clock never goes back, a timer
keeps what it captured, and a timer that was stopped or has run stays so. -/
structure Frame (s s' : ControlState) : Prop where
  tokens : s'.tokens = s.tokens
  timeout : s'.timeout = s.timeout
  now : s.now ≤ s'.now
  payload : ∀ k t, s.timers.payload k = some t → s'.timers.payload k = some t
  settled : ∀ k, s.timers.Settled k → s'.timers.Settled k

theorem Frame.isEnabled (h : Frame s s') : s'.isEnabled = s.isEnabled := by
  unfold ControlState.isEnabled; rw [h.tokens]

/-- What a step can do to the timers: nothing, stop the pending one, arm a new one in its place,
fire one, or run the function of one. -/
inductive TimersStep (s : ControlState) (a : ControlAction) (ts : Timers String) : Prop where
  | keep (hts : ts = s.timers)
  | drop (hts : ts = s.dropPendingRelease.timers)
  | arm (token : String) (ha : a = .releaseBySSE token)
      (hts : ts = s.dropPendingRelease.timers.afterFunc (s.now + gracePeriod) token)
  | fire (k : TimerID) (ha : a = .fire k) (hts : s.timers.fire s.now k = some ts)
  | callback (k : TimerID) (token : String) (ha : a = .callback k)
      (hts : s.timers.begin k = some (token, ts))

/-- **What a step does to configuration, clock and timers.** -/
theorem step_effect {a : ControlAction} (h : s.step a = some s') :
    s'.tokens = s.tokens ∧ s'.timeout = s.timeout ∧ s.now ≤ s'.now ∧
      TimersStep s a s'.timers := by
  cases a with
  | takeControl token =>
    obtain rfl := Option.some.inj h
    rcases s.takeControl_cases token with ⟨-, heq, -⟩ | ⟨-, -, heq⟩ | ⟨-, -, hub, heq⟩ <;> rw [heq]
    · exact ⟨rfl, rfl, le_rfl, .keep rfl⟩
    · exact ⟨by simp, by simp, by simp, .drop rfl⟩
    · exact ⟨by simp, by simp, by simp, .drop rfl⟩
  | releaseControl token =>
    obtain rfl := Option.some.inj h
    rcases s.releaseControl_cases token with ⟨heq, -⟩ | ⟨-, -, hub, heq⟩ <;> rw [heq] <;>
      exact ⟨rfl, rfl, le_rfl, .keep rfl⟩
  | releaseBySSE token =>
    obtain rfl := Option.some.inj h
    rcases s.releaseBySSE_cases token with heq | ⟨-, -, heq⟩ <;> rw [heq]
    · exact ⟨rfl, rfl, le_rfl, .keep rfl⟩
    · exact ⟨rfl, rfl, le_rfl, .arm token rfl rfl⟩
  | cancelPendingRelease token =>
    obtain rfl := Option.some.inj h
    rcases s.cancelPendingRelease_cases token with ⟨heq, -⟩ | ⟨-, -, -, heq⟩ <;> rw [heq]
    · exact ⟨rfl, rfl, le_rfl, .keep rfl⟩
    · exact ⟨by simp, by simp, by simp, .drop rfl⟩
  | touch token =>
    obtain rfl := Option.some.inj h
    rcases s.touch_cases token with ⟨heq, -⟩ | ⟨-, -, heq⟩ <;> rw [heq] <;>
      exact ⟨rfl, rfl, le_rfl, .keep rfl⟩
  | checkTimeout =>
    obtain rfl := Option.some.inj h
    rcases s.checkTimeout_cases with ⟨heq, -⟩ | ⟨-, -, hub, heq⟩ <;> rw [heq] <;>
      exact ⟨rfl, rfl, le_rfl, .keep rfl⟩
  | checkControlAccess token =>
    obtain rfl := Option.some.inj h
    rcases s.checkControlAccess_snd token with heq | heq <;> rw [heq]
    · exact ⟨rfl, rfl, le_rfl, .keep rfl⟩
    · rcases s.touch_cases token with ⟨heq, -⟩ | ⟨-, -, heq⟩ <;> rw [heq] <;>
        exact ⟨rfl, rfl, le_rfl, .keep rfl⟩
  | fire k =>
    obtain ⟨timers, ht, rfl⟩ := step_fire h
    exact ⟨rfl, rfl, le_rfl, .fire k rfl ht⟩
  | callback k =>
    obtain ⟨token, timers, ht, rfl⟩ := step_callback h
    rcases graceCallback_cases { s with timers := timers } token with ⟨-, heq⟩ | ⟨-, hub, heq⟩ <;>
      rw [heq] <;> exact ⟨rfl, rfl, le_rfl, .callback k token rfl ht⟩
  | advance d =>
    obtain rfl := Option.some.inj h
    exact ⟨rfl, rfl, Nat.le_add_right _ _, .keep rfl⟩

/-- A timer keeps what it captured: a new one takes a fresh name. -/
theorem TimersStep.payload {a : ControlAction} {ts : Timers String} (h : TimersStep s a ts)
    {k : TimerID} {t : String} (hk : s.timers.payload k = some t) : ts.payload k = some t := by
  cases h with
  | keep hts => rw [hts]; exact hk
  | drop hts => rw [hts, dropPendingRelease_payload]; exact hk
  | arm token _ hts =>
    -- `k` exists already, so it is not the name of the new timer
    have hlt : k < s.timers.length := by
      by_contra hge
      simp [Timers.payload, List.getElem?_eq_none (Nat.not_lt.mp hge)] at hk
    rw [hts, Timers.payload_afterFunc, dropPendingRelease_length, if_neg (Nat.ne_of_lt hlt),
      dropPendingRelease_payload]
    exact hk
  | fire j _ hts =>
    obtain ⟨-, -, hpay, -⟩ := Timers.fire_eq_some hts
    rw [hpay k]
    exact hk
  | callback j token _ hts =>
    obtain ⟨-, -, -, hpay, -⟩ := Timers.begin_eq_some hts
    rw [hpay k]
    exact hk

/-- **A timer moves only forward**: a settled one stays so, one that is armed was armed before or is
the new one, and one that has fired was so before or fires now. -/
theorem TimersStep.status {a : ControlAction} {ts : Timers String} (h : TimersStep s a ts)
    (k : TimerID) :
    (s.timers.Settled k → ts.Settled k) ∧
    (ts.status k = some .armed →
      s.timers.status k = some .armed ∨ ∃ token, a = .releaseBySSE token) ∧
    (ts.status k = some .fired → s.timers.status k = some .fired ∨ a = .fire k) := by
  cases h with
  | keep hts => rw [hts]; exact ⟨id, Or.inl, Or.inl⟩
  | drop hts =>
    rw [hts]
    refine ⟨settled_dropPendingRelease, ?_, fun h => Or.inl ((dropPendingRelease_fired s k).mp h)⟩
    intro h
    rw [dropPendingRelease_status] at h
    split_ifs at h with hc
    · cases h
    · exact Or.inl h
  | arm token ha hts =>
    -- the new timer is armed, the others are as after stopping the pending one
    have hst := Timers.status_afterFunc s.dropPendingRelease.timers (s.now + gracePeriod) token k
    rw [← hts, dropPendingRelease_length] at hst
    refine ⟨?_, fun _ => Or.inr ⟨token, ha⟩, ?_⟩
    · intro hk
      have hlt : k < s.timers.length := by
        rcases hk with hk | hk <;> exact s.timers.lt_length_of_status hk
      unfold Timers.Settled
      rw [hst, if_neg (Nat.ne_of_lt hlt)]
      exact settled_dropPendingRelease hk
    · intro hk
      rw [hst] at hk
      split_ifs at hk with hlen
      · cases hk
      · exact Or.inl ((dropPendingRelease_fired s k).mp hk)
  | fire j ha hts =>
    obtain ⟨harmed, -, -, hst⟩ := Timers.fire_eq_some hts
    unfold Timers.Settled
    rw [hst k]
    by_cases hkj : k = j
    · -- an armed timer is not settled
      subst hkj
      refine ⟨?_, ?_, fun _ => Or.inr ha⟩
      · rintro (h | h) <;> rw [harmed] at h <;> cases h
      · intro h
        rw [if_pos rfl] at h
        cases h
    · rw [if_neg hkj]
      exact ⟨id, Or.inl, Or.inl⟩
  | callback j token ha hts =>
    obtain ⟨hfired, -, -, -, hst⟩ := Timers.begin_eq_some hts
    unfold Timers.Settled
    rw [hst k]
    by_cases hkj : k = j
    · subst hkj
      rw [if_pos rfl]
      refine ⟨fun _ => Or.inr rfl, ?_, ?_⟩
      · intro h
        cases h
      · intro h
        cases h
    · rw [if_neg hkj]
      exact ⟨id, Or.inl, Or.inl⟩

theorem step_frame {a : ControlAction} (h : s.step a = some s') : Frame s s' := by
  obtain ⟨htok, hto, hnow, htim⟩ := step_effect h
  exact ⟨htok, hto, hnow, fun k t => htim.payload, fun k => (htim.status k).1⟩

end ControlState

/-- The runs of the manager that `NewControlManager` returns at `start`. -/
def controlMachine (tokens : List String) (timeout : Duration)
    (hub : Option (List ControlStatus)) (start : Time) : Machine ControlState ControlAction where
  init := newControlManager tokens timeout hub start
  step := ControlState.step

end UnisetPanel
