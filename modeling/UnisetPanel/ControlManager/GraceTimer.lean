/-
  The timer of the postponed release.

  `releaseBySSE` arms a timer for the token whose stream broke, and the methods
  the holder reconnects through stop it.  Stopping is too late once the timer
  has fired: its function then only looks at the token, finds it active again
  and ends the session of a holder who is back.

  `SparesReconnected` and `KeepsNewerTimer` say what the timer is meant to do.
  Both fail (`not_sparesReconnected_and_not_keepsNewerTimer`), and both hold of
  the runs in which nobody reconnects, and no new timer is armed, while the
  function of a fired timer is waiting for the lock (`graceTimer_safe_of_inTime`).
-/
import UnisetPanel.ControlManager.Machine

namespace UnisetPanel

open ControlState

/-! ### What the timer is meant to do -/

/-- The step brings the holder of `token` back: `TakeControl` succeeds for it, or
`CancelPendingRelease` is called for it while it is active. -/
def Reconnects (s : ControlState) (token : String) : ControlAction → Prop
  | .takeControl t => t = token ∧ (s.takeControl t).1 = .ok ()
  | .cancelPendingRelease t => t = token ∧ s.activeToken = t
  | _ => False

/-- **A reconnected holder is left alone**: the function of a timer that `ReleaseBySSE(token)` armed
does not end the session of `token` if its holder reconnected after the arming. -/
def SparesReconnected (M : Machine ControlState ControlAction) : Prop :=
  ∀ ⦃s₀ s₁ s₂ s₃ s₄ s₅ : ControlState⦄ (token : String) (a : ControlAction)
    (mid₁ mid₂ : List ControlAction),
    M.Reachable s₀ → M.step s₀ (.releaseBySSE token) = some s₁ →
    s₁.timers.length = s₀.timers.length + 1 →
    M.run s₁ mid₁ = some s₂ → Reconnects s₂ token a → M.step s₂ a = some s₃ →
    M.run s₃ mid₂ = some s₄ → M.step s₄ (.callback s₀.timers.length) = some s₅ →
    ¬ (token ≠ "" ∧ s₄.activeToken = token ∧ s₅.activeToken = "")

/-- **A newer timer is not forgotten**: a timer function does not reset `pendingRelease` while that
points to a timer armed later. -/
def KeepsNewerTimer (M : Machine ControlState ControlAction) : Prop :=
  ∀ ⦃s s' : ControlState⦄ ⦃k j : TimerID⦄, M.Reachable s → M.step s (.callback k) = some s' →
    s.pendingRelease = some j → k < j → s'.pendingRelease ≠ none

/-- The step does not come between the firing of a timer and its function: nobody reconnects, and
no timer is armed, for a token whose function is waiting.  (The callers of `ReleaseBySSE` never pass
the empty token, so no function waits for it either.) -/
def InTime (s : ControlState) : ControlAction → Prop
  | .takeControl t => (s.takeControl t).1 = .ok () → t ∉ s.timers.waiting
  | .cancelPendingRelease t => s.activeToken = t → t ∉ s.timers.waiting
  | .releaseBySSE t => s.activeToken = t → t ∉ s.timers.waiting ∧ "" ∉ s.timers.waiting
  | _ => True

instance (s : ControlState) (a : ControlAction) : Decidable (InTime s a) := by
  unfold InTime
  cases a <;> infer_instance

/-! ### The window -/

/-- `admin` takes control, its stream breaks, and three seconds later the timer fires. -/
def firedRun : List ControlAction :=
  [.takeControl "admin", .releaseBySSE "admin", .advance gracePeriod, .fire 0]

/-- The manager of the window: one token, a timeout of one minute. -/
def windowMachine : Machine ControlState ControlAction :=
  controlMachine ["admin"] (60 * second) none 0

/-- **Both fail.** In the window after `firedRun`, `admin` reconnects and is thrown out all the
same; or its stream breaks a second time and the second timer is forgotten. -/
theorem not_sparesReconnected_and_not_keepsNewerTimer :
    ¬ SparesReconnected windowMachine ∧ ¬ KeepsNewerTimer windowMachine := by
  constructor
  · intro h
    have hreach : windowMachine.Reachable _ := ⟨[.takeControl "admin"], rfl⟩
    exact h "admin" (.takeControl "admin") [.advance gracePeriod, .fire 0] [] hreach rfl rfl rfl
      ⟨rfl, rfl⟩ rfl rfl rfl ⟨by decide, rfl, rfl⟩
  · intro h
    have hreach : windowMachine.Reachable _ := ⟨firedRun ++ [.releaseBySSE "admin"], rfl⟩
    exact h hreach (k := 0) (j := 1) rfl rfl (by decide) rfl

/-! ### The invariant of the runs without such a step -/

/-- The invariant: only the pending timer is armed; it was armed for the active token if there is
one; and a function that is waiting, other than the pending one, waits for another token. -/
structure GraceInv (s : ControlState) : Prop where
  armed_pending : ∀ k, s.timers.status k = some .armed → s.pendingRelease = some k
  pending_token : ∀ j, s.pendingRelease = some j →
    ∃ t, s.timers.payload j = some t ∧ (s.activeToken = t ∨ s.activeToken = "")
  waiting_token : ∀ k j t, s.timers.status k = some .fired → s.timers.payload k = some t →
    s.pendingRelease = some j → j ≠ k → t ≠ "" ∧ s.timers.payload j ≠ some t

/-- Nothing is pending and no timer is armed: the invariant holds. -/
theorem GraceInv.of_idle {s : ControlState} (hp : s.pendingRelease = none)
    (ha : ∀ k, s.timers.status k ≠ some .armed) : GraceInv s where
  armed_pending k hk := absurd hk (ha k)
  pending_token j hj := by rw [hp] at hj; cases hj
  waiting_token k j t _ _ hj := by rw [hp] at hj; cases hj

/-- The invariant is about timers, pending release and active token only, and survives the end of
the session. -/
theorem GraceInv.congr {s s' : ControlState} (h : GraceInv s) (htim : s'.timers = s.timers)
    (hp : s'.pendingRelease = s.pendingRelease)
    (ha : s'.activeToken = s.activeToken ∨ s'.activeToken = "") : GraceInv s' := by
  refine ⟨?_, ?_, ?_⟩
  · intro k hk
    rw [htim] at hk
    rw [hp]
    exact h.armed_pending k hk
  · intro j hj
    rw [hp] at hj
    obtain ⟨t, ht, hact⟩ := h.pending_token j hj
    refine ⟨t, by rw [htim]; exact ht, ?_⟩
    rcases ha with ha | ha
    · rwa [ha]
    · exact Or.inr ha
  · intro k j t hk ht hj hjk
    rw [htim] at hk ht ⊢
    rw [hp] at hj
    exact h.waiting_token k j t hk ht hj hjk

theorem GraceInv.not_armed_dropPendingRelease {s : ControlState} (h : GraceInv s) (k : TimerID) :
    s.dropPendingRelease.timers.status k ≠ some .armed := by
  rw [dropPendingRelease_status]
  split_ifs with hc
  · simp
  · intro hk
    exact hc ⟨h.armed_pending k hk, hk⟩

theorem GraceInv.dropPendingRelease {s : ControlState} (h : GraceInv s) :
    GraceInv s.dropPendingRelease :=
  .of_idle s.dropPendingRelease_pendingRelease h.not_armed_dropPendingRelease

/-- Arming a new timer for the active token: a function that is waiting waits for another one. -/
theorem GraceInv.releaseBySSE {s : ControlState} (h : GraceInv s) (token : String)
    (hin : InTime s (.releaseBySSE token)) : GraceInv (s.releaseBySSE token) := by
  rcases s.releaseBySSE_cases token with heq | ⟨-, hact, heq⟩
  · rwa [heq]
  · rw [heq]
    have hnew : ∀ k, (s.dropPendingRelease.timers.afterFunc (s.now + gracePeriod) token).status k
        = if k = s.timers.length then some .armed else s.dropPendingRelease.timers.status k := by
      intro k
      rw [Timers.status_afterFunc, dropPendingRelease_length]
    have hpay : ∀ k, (s.dropPendingRelease.timers.afterFunc (s.now + gracePeriod) token).payload k
        = if k = s.timers.length then some token else s.timers.payload k := by
      intro k
      rw [Timers.payload_afterFunc, dropPendingRelease_length, dropPendingRelease_payload]
    refine ⟨?_, ?_, ?_⟩
    · intro k hk
      show some s.timers.length = some k
      have hk' := (hnew k).symm.trans hk
      split_ifs at hk' with hlen
      · rw [hlen]
      · exact absurd hk' (h.not_armed_dropPendingRelease k)
    · -- the new pending timer captured the active token
      intro j hj
      obtain rfl : s.timers.length = j := Option.some.inj hj
      exact ⟨token, by rw [hpay, if_pos rfl], Or.inl hact⟩
    · intro k j t hk ht hj hjk
      obtain rfl : s.timers.length = j := Option.some.inj hj
      have hk' := (hnew k).symm.trans hk
      have ht' := (hpay k).symm.trans ht
      rw [if_neg (Ne.symm hjk)] at hk' ht'
      -- `k` was waiting before, so by `hin` not for `token` and not for the empty token
      have hwait : t ∈ s.timers.waiting :=
        s.timers.mem_waiting.mpr ⟨k, (dropPendingRelease_fired s k).mp hk', ht'⟩
      obtain ⟨htok, hempty⟩ := hin hact
      refine ⟨fun h0 => hempty (h0 ▸ hwait), fun hpt => htok ?_⟩
      have : some token = some t := ((hpay _).trans (if_pos rfl)).symm.trans hpt
      rwa [Option.some.inj this]

/-- A timer that fires was the pending one, so the other waiting functions are unaffected. -/
theorem GraceInv.fire {s s' : ControlState} {k : TimerID} (h : GraceInv s)
    (hs : s.step (.fire k) = some s') : GraceInv s' := by
  obtain ⟨timers, ht, rfl⟩ := step_fire hs
  obtain ⟨harmed, -, hpay, hst⟩ := Timers.fire_eq_some ht
  have hpend := h.armed_pending k harmed
  refine ⟨?_, ?_, ?_⟩
  · intro i hi
    have hi' := (hst i).symm.trans hi
    split_ifs at hi' with hik
    · cases hi'
    · exact h.armed_pending i hi'
  · intro j hj
    obtain ⟨t, hpt, hact⟩ := h.pending_token j hj
    exact ⟨t, (hpay j).trans hpt, hact⟩
  · intro i j t hi hpt hj hji
    obtain rfl : k = j := Option.some.inj (hpend.symm.trans hj)
    have hi' := (hst i).symm.trans hi
    rw [if_neg (Ne.symm hji)] at hi'
    have := h.waiting_token i k t hi' ((hpay i).symm.trans hpt) hj hji
    exact ⟨this.1, fun hc => this.2 ((hpay k).symm.trans hc)⟩

/-- **The function of a timer never meets a newer pending timer**: if it finds its token active, the
pending release is its own or none. -/
theorem GraceInv.pending_of_callback {s : ControlState} {k : TimerID} {t : String}
    (h : GraceInv s) (hk : s.timers.status k = some .fired) (ht : s.timers.payload k = some t)
    (hact : s.activeToken = t) : s.pendingRelease = none ∨ s.pendingRelease = some k := by
  cases hp : s.pendingRelease with
  | none => exact Or.inl rfl
  | some j =>
    right
    by_contra hjk
    have hne : j ≠ k := fun h => hjk (congrArg some h)
    obtain ⟨h0, hother⟩ := h.waiting_token k j t hk ht hp hne
    obtain ⟨u, hu, hact'⟩ := h.pending_token j hp
    rcases hact' with hu' | he
    · exact hother (by rw [hu, ← hu', hact])
    · exact h0 (by rw [← hact, he])

theorem GraceInv.callback {s s' : ControlState} {k : TimerID} (h : GraceInv s)
    (hs : s.step (.callback k) = some s') : GraceInv s' := by
  obtain ⟨token, timers, ht, rfl⟩ := step_callback hs
  obtain ⟨hfired, htok, -, hpay, hst⟩ := Timers.begin_eq_some ht
  have harmed : ∀ i, timers.status i = some .armed → s.timers.status i = some .armed := by
    intro i hi
    rw [hst i] at hi
    split_ifs at hi with hik
    · cases hi
    · exact hi
  have hmid : GraceInv { s with timers := timers } := by
    refine ⟨fun i hi => h.armed_pending i (harmed i hi), ?_, ?_⟩
    · intro j hj
      obtain ⟨t, hpt, hact⟩ := h.pending_token j hj
      exact ⟨t, (hpay j).trans hpt, hact⟩
    · intro i j t hi hpt hj hji
      have hi' := (hst i).symm.trans hi
      split_ifs at hi' with hik
      · cases hi'
      · have := h.waiting_token i j t hi' ((hpay i).symm.trans hpt) hj hji
        exact ⟨this.1, fun hc => this.2 ((hpay j).symm.trans hc)⟩
  rcases graceCallback_cases { s with timers := timers } token with ⟨-, heq⟩ | ⟨hact, hub, heq⟩
  · rwa [heq]
  · rw [heq]
    -- The pending timer, if any, is the one that has just run, so no timer is armed.
    refine .of_idle rfl fun i hi => ?_
    have hi' := harmed i hi
    rcases h.pending_of_callback hfired htok hact with hp | hp
    · have := h.armed_pending i hi'
      rw [hp] at this
      cases this
    · -- `i` would be the timer that has fired
      obtain rfl : i = k := Option.some.inj ((h.armed_pending i hi').symm.trans hp)
      rw [hfired] at hi'
      cases hi'

/-- **The step lemma of the invariant.** -/
theorem GraceInv.step {s s' : ControlState} {a : ControlAction} (h : GraceInv s)
    (hin : InTime s a) (hs : s.step a = some s') : GraceInv s' := by
  cases a with
  | takeControl token =>
    obtain rfl := Option.some.inj hs
    rcases s.takeControl_cases token with ⟨-, heq, -⟩ | ⟨-, -, heq⟩ | ⟨-, -, hub, heq⟩
    · rwa [heq]
    · rw [heq]
      exact h.dropPendingRelease
    · rw [heq]
      exact .of_idle s.dropPendingRelease_pendingRelease h.not_armed_dropPendingRelease
  | releaseControl token =>
    obtain rfl := Option.some.inj hs
    rcases s.releaseControl_cases token with ⟨heq, -⟩ | ⟨-, -, hub, heq⟩ <;> rw [heq]
    · exact h
    · exact h.congr rfl rfl (Or.inr rfl)
  | releaseBySSE token =>
    obtain rfl := Option.some.inj hs
    exact h.releaseBySSE token hin
  | cancelPendingRelease token =>
    obtain rfl := Option.some.inj hs
    rcases s.cancelPendingRelease_cases token with ⟨heq, -⟩ | ⟨-, -, -, heq⟩ <;> rw [heq]
    · exact h
    · exact h.dropPendingRelease
  | touch token =>
    obtain rfl := Option.some.inj hs
    rcases s.touch_cases token with ⟨heq, -⟩ | ⟨-, -, heq⟩ <;> rw [heq]
    · exact h
    · exact h.congr rfl rfl (Or.inl rfl)
  | checkTimeout =>
    obtain rfl := Option.some.inj hs
    rcases s.checkTimeout_cases with ⟨heq, -⟩ | ⟨-, -, hub, heq⟩ <;> rw [heq]
    · exact h
    · exact h.congr rfl rfl (Or.inr rfl)
  | checkControlAccess token =>
    obtain rfl := Option.some.inj hs
    rcases s.checkControlAccess_snd token with heq | heq <;> rw [heq]
    · exact h
    · rcases s.touch_cases token with ⟨heq, -⟩ | ⟨-, -, heq⟩ <;> rw [heq]
      · exact h
      · exact h.congr rfl rfl (Or.inl rfl)
  | fire k => exact h.fire hs
  | callback k => exact h.callback hs
  | advance d =>
    obtain rfl := Option.some.inj hs
    exact h.congr rfl rfl (Or.inl rfl)

/-! ### The main theorem -/

variable {tokens : List String} {timeout : Duration} {hub : Option (List ControlStatus)}
  {start : Time}

theorem step_of_guard {C : ControlState → ControlAction → Prop} [∀ s a, Decidable (C s a)]
    {s s' : ControlState} {a : ControlAction}
    (h : ((controlMachine tokens timeout hub start).guard C).step s a = some s') :
    C s a ∧ s.step a = some s' :=
  Machine.guard_step_eq_some.mp h

theorem graceInv_of_reachable {s : ControlState}
    (hs : ((controlMachine tokens timeout hub start).guard InTime).Reachable s) : GraceInv s := by
  refine Machine.Reachable.induction (P := GraceInv) ?_ ?_ hs
  · exact .of_idle rfl fun k hk => by cases hk
  · intro s a t _ h hstep
    obtain ⟨hin, hstep⟩ := step_of_guard hstep
    exact h.step hin hstep

/-- A reconnection that is not too late settles every timer of its token. -/
theorem settled_of_reconnects {s s' : ControlState} {a : ControlAction} {k : TimerID}
    {token : String} (h : GraceInv s) (hin : InTime s a) (hrec : Reconnects s token a)
    (hen : s.isEnabled = true) (hne : token ≠ "") (hk : s.timers.payload k = some token)
    (hs : s.step a = some s') : s'.timers.Settled k := by
  have hdrop : token ∉ s.timers.waiting → s.dropPendingRelease.timers.Settled k := by
    intro hnw
    have hnf : s.timers.status k ≠ some .fired := fun hf =>
      hnw (s.timers.mem_waiting.mpr ⟨k, hf, hk⟩)
    cases hst : s.timers.status k with
    | none =>
      rw [Timers.status_eq_none] at hst
      simp [Timers.payload, List.getElem?_eq_none hst] at hk
    | some st =>
      cases st with
      | armed =>
        -- an armed timer is the pending one, which is stopped in time
        left
        rw [dropPendingRelease_status, if_pos ⟨h.armed_pending k hst, hst⟩]
      | stopped => exact settled_dropPendingRelease (Or.inl hst)
      | fired => exact absurd hst hnf
      | done => exact settled_dropPendingRelease (Or.inr hst)
  cases a with
  | takeControl t =>
    obtain ⟨rfl, hok⟩ := hrec
    have hw := hdrop (hin hok)
    obtain rfl := Option.some.inj hs
    rcases s.takeControl_cases t with ⟨-, -, herr⟩ | ⟨-, -, heq⟩ | ⟨-, -, hub, heq⟩
    · exact absurd hok herr
    · rw [heq]; exact hw
    · rw [heq]; exact hw
  | cancelPendingRelease t =>
    obtain ⟨rfl, hact⟩ := hrec
    have hw := hdrop (hin hact)
    obtain rfl := Option.some.inj hs
    rcases s.cancelPendingRelease_cases t with ⟨-, hno⟩ | ⟨-, -, -, heq⟩
    · exact absurd ⟨hen, hne, hact⟩ hno
    · rw [heq]; exact hw
  | _ => exact absurd hrec id

/-- **The grace timer does what it is meant to do** in every run in which no step comes between the
firing of a timer and its function. -/
theorem graceTimer_safe_of_inTime (tokens : List String) (timeout : Duration)
    (hub : Option (List ControlStatus)) (start : Time) :
    SparesReconnected ((controlMachine tokens timeout hub start).guard InTime) ∧
      KeepsNewerTimer ((controlMachine tokens timeout hub start).guard InTime) := by
  constructor
  · intro s₀ s₁ s₂ s₃ s₄ s₅ token a mid₁ mid₂ hr₀ harm hlen hmid₁ hrec hstep hmid₂ hcall hclear
    have harm' := (step_of_guard harm).2
    -- the arming: control is enabled and timer `s₀.timers.length` captured `token`
    have hpay₁ : s₀.isEnabled = true ∧ s₁.timers.payload s₀.timers.length = some token := by
      have heq' : s₀.releaseBySSE token = s₁ := Option.some.inj harm'
      rcases s₀.releaseBySSE_cases token with heq | ⟨hen, -, heq⟩
      · rw [heq] at heq'
        rw [heq'] at hlen
        omega
      · refine ⟨hen, ?_⟩
        rw [← heq', heq]
        simp [Timers.payload_afterFunc]
    have hen₁ : s₁.isEnabled = true := by
      rw [(step_frame harm').isEnabled]
      exact hpay₁.1
    -- both stay so until the reconnection
    obtain ⟨hen₂, hpay₂⟩ : s₂.isEnabled = true ∧
        s₂.timers.payload s₀.timers.length = some token := by
      refine Machine.run_induction (P := fun s => s.isEnabled = true ∧
        s.timers.payload s₀.timers.length = some token) ?_ hmid₁ ⟨hen₁, hpay₁.2⟩
      intro s b t hs hb
      have hf := step_frame (step_of_guard hb).2
      exact ⟨hf.isEnabled.trans hs.1, hf.payload _ _ hs.2⟩
    -- the reconnection settles the timer, for good
    obtain ⟨hin₂, hstep'⟩ := step_of_guard hstep
    have hinv₂ : GraceInv s₂ := graceInv_of_reachable ((hr₀.step harm).run hmid₁)
    have hset₃ := settled_of_reconnects hinv₂ hin₂ hrec hen₂ hclear.1 hpay₂ hstep'
    have hset₄ : s₄.timers.Settled s₀.timers.length := by
      refine Machine.run_induction (P := fun s => s.timers.Settled s₀.timers.length) ?_ hmid₂ hset₃
      intro s b t hs hb
      exact (step_frame (step_of_guard hb).2).settled _ hs
    obtain ⟨f, timers, hbegin, -⟩ := step_callback (step_of_guard hcall).2
    have hfired := (Timers.begin_eq_some hbegin).1
    rcases hset₄ with h | h <;> rw [hfired] at h <;> cases h
  · -- a function that clears the pending timer belongs to it
    intro s s' k j hr hcall hp hkj hnone
    have hinv : GraceInv s := graceInv_of_reachable hr
    obtain ⟨token, timers, hbegin, rfl⟩ := step_callback (step_of_guard hcall).2
    obtain ⟨hfired, htok, -⟩ := Timers.begin_eq_some hbegin
    rcases graceCallback_cases { s with timers := timers } token with ⟨-, heq⟩ | ⟨hact, hub, heq⟩
    · rw [heq] at hnone
      have : some j = none := hp.symm.trans hnone
      cases this
    · rcases hinv.pending_of_callback hfired htok hact with h | h
      · rw [hp] at h; cases h
      · obtain rfl : j = k := Option.some.inj (hp.symm.trans h)
        exact absurd hkj (Nat.lt_irrefl _)

end UnisetPanel
