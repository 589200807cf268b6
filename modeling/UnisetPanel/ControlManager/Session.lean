/-
  The control session over whole runs: who holds it, and for how long.

  `SessionStep` lists the five things a step can do to the session: nothing,
  let its token use it, release it, end it through the grace timer, or end it
  because it idled for `timeout`.  From it follow

  * `mutual_exclusion`: one controller at a time, always a configured token,
    and control passes on only after a release, the grace timer or an idle
    period of `timeout`;
  * `authorises_in_time_iff`: a request of the holder, a ping included, is
    accepted however long the session has idled, until the ticker runs.  The
    timeout is kept exactly in the runs in which no request falls into that
    gap.
-/
import UnisetPanel.ControlManager.GraceTimer

namespace UnisetPanel

open ControlState

/-- The moments at which `token` is active in the sense of the idle timeout: a successful
`TakeControl` or an authorised request, which is one that needs control or the `Touch` of a
ping. -/
def activity (token : String) (s : ControlState) : ControlAction → List Time
  | .takeControl t => if t = token ∧ (s.takeControl t).1 = .ok () then [s.now] else []
  | .touch t => if t = token ∧ s.isEnabled = true ∧ s.activeToken = t then [s.now] else []
  | .checkControlAccess t => if t = token ∧ (s.checkControlAccess t).1 = true then [s.now] else []
  | _ => []

/-- When `token` was last active in the run `as`. -/
def lastActivityOf (M : Machine ControlState ControlAction) (token : String)
    (as : List ControlAction) : Option Time :=
  (M.outputs (activity token) M.init as).getLast?

/-! ### What a step does to the session -/

/-- What a step can do to the session. -/
inductive SessionStep (s s' : ControlState) (a : ControlAction) : Prop where
  | stay (hact : s'.activeToken = s.activeToken)
      (hlast : s.activeToken ≠ "" →
        s'.lastActivity = s.lastActivity ∧ activity s.activeToken s a = [])
  | use (token : String) (htok : token ∈ s.tokens.tokens ∨ token = s.activeToken)
      (hact : s'.activeToken = token) (hlast : s'.lastActivity = s.now)
      (hobs : activity token s a = [s.now])
      (hfree : s.activeToken = "" ∨ s.activeToken = token ∨ s.timeout ≤ s.now - s.lastActivity)
  | release (ha : a = .releaseControl s.activeToken)
      (hok : (s.releaseControl s.activeToken).1 = .ok ()) (hact : s'.activeToken = "")
  | grace (k : TimerID) (ha : a = .callback k) (hk : s.timers.payload k = some s.activeToken)
      (hact : s'.activeToken = "")
  | expire (ha : a = .checkTimeout) (hidle : s.timeout ≤ s.now - s.lastActivity)
      (hact : s'.activeToken = "")

theorem sessionStep_takeControl (s : ControlState) (token : String) :
    SessionStep s (s.takeControl token).2 (.takeControl token) := by
  rcases s.takeControl_cases token with ⟨-, heq, herr⟩ | ⟨-, hheld, heq⟩ | ⟨hv, hnot, hub, heq⟩
  · refine .stay (by rw [heq]) fun _ => ⟨by rw [heq], ?_⟩
    exact if_neg fun h => herr h.2
  · refine .stay (by rw [heq]; simp) fun _ => ⟨by rw [heq]; simp, ?_⟩
    exact if_neg fun h => hheld.2.1 h.1.symm
  · refine .use token (Or.inl (s.mem_of_isValidToken token hv)) (by rw [heq]) (by rw [heq]) ?_ ?_
    · exact if_pos ⟨rfl, by rw [heq]⟩
    · by_cases h1 : s.activeToken = ""
      · exact Or.inl h1
      · by_cases h2 : s.activeToken = token
        · exact Or.inr (Or.inl h2)
        · exact Or.inr (Or.inr (Nat.not_lt.mp fun h3 => hnot ⟨h1, h2, h3⟩))

theorem sessionStep_touch (s : ControlState) (token : String) {a : ControlAction}
    (hobs : s.isEnabled = true ∧ s.activeToken = token → activity token s a = [s.now])
    (hnone : token ≠ s.activeToken → activity s.activeToken s a = [])
    (hen : s.isEnabled = true) : SessionStep s (s.touch token) a := by
  rcases s.touch_cases token with ⟨heq, hno⟩ | ⟨-, hact, heq⟩
  · rw [heq]
    exact .stay rfl fun _ => ⟨rfl, hnone fun h => hno ⟨hen, h.symm⟩⟩
  · rw [heq]
    exact .use token (Or.inr hact.symm) hact rfl (hobs ⟨hen, hact⟩) (Or.inr (Or.inl hact))

/-- **Every step does one of the five.** -/
theorem sessionStep_of_step {s s' : ControlState} {a : ControlAction}
    (hen : s.isEnabled = true) (hs : s.step a = some s') : SessionStep s s' a := by
  have hidle : s'.activeToken = s.activeToken → s'.lastActivity = s.lastActivity →
      activity s.activeToken s a = [] → SessionStep s s' a :=
    fun h1 h2 h3 => .stay h1 fun _ => ⟨h2, h3⟩
  cases a with
  | takeControl token =>
    obtain rfl := Option.some.inj hs
    exact sessionStep_takeControl s token
  | releaseControl token =>
    obtain rfl := Option.some.inj hs
    rcases s.releaseControl_cases token with ⟨heq, -⟩ | ⟨-, rfl, hub, heq⟩
    · exact hidle (by rw [heq]) (by rw [heq]) rfl
    · exact .release rfl (by rw [heq]) (by rw [heq])
  | releaseBySSE token =>
    obtain rfl := Option.some.inj hs
    rcases s.releaseBySSE_cases token with heq | ⟨-, -, heq⟩ <;>
      exact hidle (by rw [heq]) (by rw [heq]) rfl
  | cancelPendingRelease token =>
    obtain rfl := Option.some.inj hs
    rcases s.cancelPendingRelease_cases token with ⟨heq, -⟩ | ⟨-, -, -, heq⟩
    · exact hidle (by rw [heq]) (by rw [heq]) rfl
    · exact hidle (by rw [heq]; simp) (by rw [heq]; simp) rfl
  | touch token =>
    obtain rfl := Option.some.inj hs
    refine sessionStep_touch s token (fun h => if_pos ⟨rfl, h⟩) (fun h => if_neg ?_) hen
    exact fun hc => h hc.1
  | checkTimeout =>
    obtain rfl := Option.some.inj hs
    rcases s.checkTimeout_cases with ⟨heq, -⟩ | ⟨-, hto, hub, heq⟩
    · exact hidle (by rw [heq]) (by rw [heq]) rfl
    · exact .expire rfl hto (by rw [heq])
  | checkControlAccess token =>
    obtain rfl := Option.some.inj hs
    by_cases hc : s.isController token = true
    · -- authorised: the request touches the session
      have heq : s.checkControlAccess token = (true, s.touch token) := by
        simp [checkControlAccess, hen, hc]
      rw [heq]
      refine sessionStep_touch s token (fun _ => if_pos ⟨rfl, by rw [heq]⟩)
        (fun h => if_neg fun hc => h hc.1) hen
    · have heq : s.checkControlAccess token = (false, s) := by
        simp [checkControlAccess, hen, hc]
      refine hidle (by rw [heq]) (by rw [heq]) (if_neg ?_)
      rw [heq]
      simp
  | fire k =>
    obtain ⟨timers, -, rfl⟩ := step_fire hs
    exact hidle rfl rfl rfl
  | callback k =>
    obtain ⟨token, timers, hbegin, rfl⟩ := step_callback hs
    rcases graceCallback_cases { s with timers := timers } token with ⟨-, heq⟩ | ⟨hact, hub, heq⟩
    · exact hidle (by rw [heq]) (by rw [heq]) rfl
    · refine .grace k rfl ?_ (by rw [heq])
      rw [(Timers.begin_eq_some hbegin).2.1]
      exact congrArg some hact.symm
  | advance d =>
    obtain rfl := Option.some.inj hs
    exact hidle rfl rfl rfl

/-! ### The invariant of the session -/

variable {tokens : List String} {timeout : Duration} {hub : Option (List ControlStatus)}
  {start : Time}

/-- The configuration of a manager never changes. -/
theorem config_of_reachable {s : ControlState}
    (hs : (controlMachine tokens timeout hub start).Reachable s) :
    s.tokens = .ofList tokens ∧ s.timeout = timeout := by
  refine Machine.Reachable.induction (P := fun s => s.tokens = .ofList tokens ∧
    s.timeout = timeout) ⟨rfl, rfl⟩ ?_ hs
  intro s a t _ ih hstep
  have hf : Frame s t := step_frame (s := s) (a := a) hstep
  exact ⟨hf.tokens.trans ih.1, hf.timeout.trans ih.2⟩

theorem mem_ofList {t : String} : t ∈ (TokenSet.ofList tokens).tokens ↔ t ∈ tokens ∧ t ≠ "" := by
  simp [TokenSet.ofList]

theorem isEnabled_of_reachable (htok : ∃ t ∈ tokens, t ≠ "") {s : ControlState}
    (hs : (controlMachine tokens timeout hub start).Reachable s) : s.isEnabled = true := by
  obtain ⟨t, ht, hne⟩ := htok
  unfold isEnabled
  rw [(config_of_reachable hs).1, decide_eq_true_eq, Finset.card_pos]
  exact ⟨t, mem_ofList.mpr ⟨ht, hne⟩⟩

/-- The invariant: an active session belongs to a configured token, `lastActivity` is when that
token was last active, and that is not in the future. -/
structure SessionInv (M : Machine ControlState ControlAction) (as : List ControlAction)
    (s : ControlState) : Prop where
  token : s.activeToken = "" ∨ s.activeToken ∈ s.tokens.tokens
  last : s.activeToken ≠ "" → lastActivityOf M s.activeToken as = some s.lastActivity
  now : s.activeToken ≠ "" → s.lastActivity ≤ s.now

theorem lastActivityOf_concat {M : Machine ControlState ControlAction} {as : List ControlAction}
    {s s' : ControlState} {a : ControlAction} (token : String) (h : M.run M.init as = some s)
    (ha : M.step s a = some s') : lastActivityOf M token (as ++ [a]) =
      (activity token s a).getLast?.or (lastActivityOf M token as) := by
  unfold lastActivityOf
  rw [Machine.outputs_concat h ha, List.getLast?_append]

/-- **The step lemma of the session invariant.** -/
theorem SessionInv.step {M : Machine ControlState ControlAction} {as : List ControlAction}
    {s s' : ControlState} {a : ControlAction} (h : SessionInv M as s) (hen : s.isEnabled = true)
    (hrun : M.run M.init as = some s) (hM : M.step s a = some s') (hs : s.step a = some s') :
    SessionInv M (as ++ [a]) s' := by
  have hf : Frame s s' := step_frame hs
  have hfree : s'.activeToken = "" → SessionInv M (as ++ [a]) s' := fun h0 =>
    ⟨Or.inl h0, fun hne => absurd h0 hne, fun hne => absurd h0 hne⟩
  cases sessionStep_of_step hen hs with
  | stay hact hlast =>
    -- nothing is observed about the active token, and `lastActivity` stays
    refine ⟨by rw [hact, hf.tokens]; exact h.token, ?_, ?_⟩
    · intro hne
      rw [hact] at hne ⊢
      obtain ⟨hl, hobs⟩ := hlast hne
      rw [lastActivityOf_concat _ hrun hM, hobs, hl]
      exact h.last hne
    · intro hne
      rw [hact] at hne
      rw [(hlast hne).1]
      exact (h.now hne).trans hf.now
  | use token htok hact hlast hobs _ =>
    -- `token` is active from now on, and was active just now
    refine ⟨?_, ?_, ?_⟩
    · rw [hact, hf.tokens]
      rcases htok with htok | rfl
      · exact Or.inr htok
      · exact h.token
    · intro _
      rw [hact, hlast, lastActivityOf_concat _ hrun hM, hobs]
      rfl
    · intro _
      rw [hlast]
      exact hf.now
  | release _ _ hact => exact hfree hact
  | grace _ _ _ hact => exact hfree hact
  | expire _ _ hact => exact hfree hact

theorem sessionInv_of_run (htok : ∃ t ∈ tokens, t ≠ "") {as : List ControlAction}
    {s : ControlState} (h : (controlMachine tokens timeout hub start).run
      (newControlManager tokens timeout hub start) as = some s) :
    SessionInv (controlMachine tokens timeout hub start) as s := by
  refine Machine.history_induction (M := controlMachine tokens timeout hub start)
    (P := SessionInv (controlMachine tokens timeout hub start)) ?_ ?_ h
  · exact ⟨Or.inl rfl, fun hne => absurd rfl hne, fun hne => absurd rfl hne⟩
  · intro as s a t hrun ih hstep
    exact ih.step (isEnabled_of_reachable htok ⟨as, hrun⟩) hrun hstep hstep

/-! ### Mutual exclusion -/

/-- The step from `u` to `v` ends the session of `token`: its holder releases it, or the function of
a timer armed for `token` does. -/
def EndsSession (token : String) (u v : ControlState) (a : ControlAction) : Prop :=
  (a = .releaseControl token ∧ (u.releaseControl token).1 = .ok ()) ∨
  (∃ k, a = .callback k ∧ u.timers.payload k = some token ∧ u.activeToken = token ∧
    v.activeToken = "")

/-- **Mutual exclusion** of the sessions in the runs of `M`. -/
structure MutualExclusion (tokens : List String) (timeout : Duration)
    (M : Machine ControlState ControlAction) : Prop where
  /-- The active token is always empty or configured. -/
  token : ∀ s, M.Reachable s → s.activeToken = "" ∨ s.activeToken ∈ tokens
  /-- At most one token is the controller, and it is a configured one. -/
  unique : ∀ s A, M.Reachable s → s.isController A = true →
    A ≠ "" ∧ A ∈ tokens ∧ ∀ B, s.isController B = true → B = A
  /-- If `A` is the controller and later `B` is, then in between the session of `A` was released
  or ended by the grace timer, or there was a moment at which `A` had been idle for `timeout`. -/
  handover : ∀ pre mid s₁ s₂ A B, M.run M.init pre = some s₁ → s₁.isController A = true →
    M.run s₁ mid = some s₂ → s₂.isController B = true → B ≠ A →
    (∃ m₁ a m₂ u v, mid = m₁ ++ a :: m₂ ∧ M.run s₁ m₁ = some u ∧ M.step u a = some v ∧
      EndsSession A u v a) ∨
    (∃ m₁ m₂ u τ, mid = m₁ ++ m₂ ∧ M.run s₁ m₁ = some u ∧
      lastActivityOf M A (pre ++ m₁) = some τ ∧ τ + timeout ≤ u.now)

/-- **Control sessions exclude each other**, in every run of a manager with some token. -/
theorem mutual_exclusion (tokens : List String) (timeout : Duration)
    (hub : Option (List ControlStatus)) (start : Time) (htok : ∃ t ∈ tokens, t ≠ "") :
    MutualExclusion tokens timeout (controlMachine tokens timeout hub start) := by
  have hmem : ∀ s, (controlMachine tokens timeout hub start).Reachable s →
      s.activeToken = "" ∨ s.activeToken ∈ tokens := by
    intro s hs
    obtain ⟨as, hrun⟩ := hs
    rcases (sessionInv_of_run htok hrun).token with h | h
    · exact Or.inl h
    · rw [(config_of_reachable ⟨as, hrun⟩).1] at h
      exact Or.inr (mem_ofList.mp h).1
  refine ⟨hmem, ?_, ?_⟩
  · intro s A hs hA
    have hen := isEnabled_of_reachable htok hs
    obtain ⟨hact, hne⟩ := (s.isController_eq_true A hen).mp hA
    refine ⟨hne, ?_, ?_⟩
    · rcases hmem s hs with h | h
      · exact absurd (hact.symm.trans h) hne
      · rwa [hact] at h
    · intro B hB
      exact ((s.isController_eq_true B hen).mp hB).1.symm.trans hact
  · -- a handover: look at the step by which `A` stops being active
    intro pre mid s₁ s₂ A B hpre hA hmid hB hBA
    have hr₁ : (controlMachine tokens timeout hub start).Reachable s₁ := ⟨pre, hpre⟩
    obtain ⟨hact₁, hne⟩ := (s₁.isController_eq_true A (isEnabled_of_reachable htok hr₁)).mp hA
    have hact₂ : s₂.activeToken ≠ A := by
      have hen₂ := isEnabled_of_reachable htok (hr₁.run hmid)
      rw [((s₂.isController_eq_true B hen₂).mp hB).1]
      exact hBA
    obtain ⟨m₁, a, m₂, u, v, rfl, hm₁, hu, hstep, hv⟩ :=
      Machine.exists_exit (P := fun s => s.activeToken = A) hmid hact₁ hact₂
    have hen := isEnabled_of_reachable htok (hr₁.run hm₁)
    have hrun : (controlMachine tokens timeout hub start).run
        (newControlManager tokens timeout hub start) (pre ++ m₁) = some u :=
      Machine.run_append_eq_some _ |>.mpr ⟨s₁, hpre, hm₁⟩
    have hinv := sessionInv_of_run htok hrun
    -- if the session of `A` was idle for long enough, it was so before that step
    have hidle : u.timeout ≤ u.now - u.lastActivity →
        ∃ m₁' m₂' w τ, m₁ ++ a :: m₂ = m₁' ++ m₂' ∧
          (controlMachine tokens timeout hub start).run s₁ m₁' = some w ∧
          lastActivityOf (controlMachine tokens timeout hub start) A (pre ++ m₁') = some τ ∧
          τ + timeout ≤ w.now := by
      intro hidle
      have hne' : u.activeToken ≠ "" := by rw [hu]; exact hne
      refine ⟨m₁, a :: m₂, u, u.lastActivity, rfl, hm₁, ?_, ?_⟩
      · rw [← hu]
        exact hinv.last hne'
      · have hnow := hinv.now hne'
        rw [(config_of_reachable (hr₁.run hm₁)).2] at hidle
        exact Nat.add_comm timeout u.lastActivity ▸ Nat.add_le_of_le_sub hnow hidle
    cases sessionStep_of_step (s := u) hen hstep with
    | stay hact _ => exact absurd (hact.trans hu) hv
    | use token _ hact _ _ hfree =>
      rcases hfree with h | h | h
      · exact absurd (hu.symm.trans h) hne
      · exact absurd (hact.trans (h.symm.trans hu)) hv
      · exact Or.inr (hidle h)
    | release ha hok _ =>
      rw [hu] at ha hok
      exact Or.inl ⟨m₁, a, m₂, u, v, rfl, hm₁, hstep, Or.inl ⟨ha, hok⟩⟩
    | grace k ha hk hact =>
      rw [hu] at hk
      exact Or.inl ⟨m₁, a, m₂, u, v, rfl, hm₁, hstep, Or.inr ⟨k, ha, hk, hu, hact⟩⟩
    | expire _ hto _ => exact Or.inr (hidle hto)

/-- Two tokens and a timeout of a minute: the second takes control when the first has idled. -/
theorem mutual_exclusion_admin :
    MutualExclusion ["admin", "guest"] (60 * second)
        (controlMachine ["admin", "guest"] (60 * second) none 0) ∧
      ∃ s, (controlMachine ["admin", "guest"] (60 * second) none 0).run
          (newControlManager ["admin", "guest"] (60 * second) none 0)
          [.takeControl "admin", .takeControl "guest", .advance (60 * second),
            .takeControl "guest"] = some s ∧ s.isController "guest" = true :=
  ⟨mutual_exclusion ["admin", "guest"] (60 * second) none 0 ⟨"admin", by decide, by decide⟩,
    _, rfl, by decide⟩

/-! ### The idle timeout -/

/-- The ticker runs `checkTimeout` only at the multiples of `timeout / 2` after its start. -/
def OnTick (start : Time) (s : ControlState) : ControlAction → Prop
  | .checkTimeout => start < s.now ∧ s.timeout / 2 ∣ s.now - start
  | _ => True

instance (start : Time) (s : ControlState) : (a : ControlAction) → Decidable (OnTick start s a)
  | .checkTimeout =>
    inferInstanceAs (Decidable (start < s.now ∧ s.timeout / 2 ∣ s.now - start))
  | .takeControl _ | .releaseControl _ | .releaseBySSE _ | .cancelPendingRelease _ | .touch _
  | .checkControlAccess _ | .fire _ | .callback _ | .advance _ => inferInstanceAs (Decidable True)

/-- A manager whose timeout is checked by the ticker. -/
def tickingMachine (tokens : List String) (timeout : Duration)
    (hub : Option (List ControlStatus)) (start : Time) : Machine ControlState ControlAction :=
  (controlMachine tokens timeout hub start).guard (OnTick start)

/-- The token of a request that only the controller may make: one that needs control, or a ping. -/
def ControlAction.requestToken : ControlAction → Option String
  | .checkControlAccess token | .touch token => some token
  | .takeControl _ | .releaseControl _ | .releaseBySSE _ | .cancelPendingRelease _ | .checkTimeout
  | .fire _ | .callback _ | .advance _ => none

/-- Such a request is authorised: by `checkControlAccess`, or by the `IsController` of
`PingControl`. -/
def authorises (s : ControlState) : ControlAction → Bool
  | .checkControlAccess token => (s.checkControlAccess token).1
  | .touch token => s.isController token
  | .takeControl _ | .releaseControl _ | .releaseBySSE _ | .cancelPendingRelease _ | .checkTimeout
  | .fire _ | .callback _ | .advance _ => false

theorem authorises_eq (s : ControlState) {a : ControlAction} {token : String}
    (h : a.requestToken = some token) : authorises s a = s.isController token := by
  cases a with
  | checkControlAccess t =>
    obtain rfl := Option.some.inj h
    exact s.checkControlAccess_fst t
  | touch t =>
    obtain rfl := Option.some.inj h
    rfl
  | _ => cases h

/-- `Q` holds of every request in the run `as`: of the actions before it, the state it meets, the
request and its token. -/
def EveryRequest (M : Machine ControlState ControlAction)
    (Q : List ControlAction → ControlState → ControlAction → String → Prop)
    (as : List ControlAction) : Prop :=
  ∀ pre a token post s, as = pre ++ a :: post → a.requestToken = some token →
    M.run M.init pre = some s → Q pre s a token

/-- The request is authorised only if less than `timeout` has passed since its token was last
active. -/
def AuthorisedInTime (M : Machine ControlState ControlAction) (timeout : Duration)
    (pre : List ControlAction) (s : ControlState) (a : ControlAction) (token : String) : Prop :=
  authorises s a = true → ∃ τ, lastActivityOf M token pre = some τ ∧ s.now < τ + timeout

/-- The moments at which the ticker runs `checkTimeout`. -/
def checks (s : ControlState) : ControlAction → List Time
  | .checkTimeout => [s.now]
  | _ => []

/-- A request of the active token does not fall between the moment its session has idled for
`timeout` and the next run of the ticker. -/
def NotInGap (M : Machine ControlState ControlAction) (timeout : Duration)
    (pre : List ControlAction) (s : ControlState) (_ : ControlAction) (token : String) : Prop :=
  s.activeToken = token → token ≠ "" → ∀ τ, lastActivityOf M token pre = some τ →
    s.now < τ + timeout ∨ ∃ c ∈ M.outputs checks M.init pre, τ + timeout ≤ c

/-- A run with such a request: `admin` takes control after one second, the ticker runs after 30 and
60 seconds, and the request comes after 62. -/
def gapRun : List ControlAction :=
  [.advance second, .takeControl "admin", .advance (29 * second), .checkTimeout,
    .advance (30 * second), .checkTimeout, .advance (2 * second), .checkControlAccess "admin"]

/-- **The idle timeout is not kept**: 61 seconds after its last activity, with a timeout of a
minute, the request is authorised. -/
theorem not_authorisedInTime_gapRun :
    ((tickingMachine ["admin"] (60 * second) none 0).run
      (newControlManager ["admin"] (60 * second) none 0) gapRun).isSome = true ∧
    ¬ EveryRequest (tickingMachine ["admin"] (60 * second) none 0)
      (AuthorisedInTime (tickingMachine ["admin"] (60 * second) none 0) (60 * second)) gapRun := by
  refine ⟨rfl, fun h => ?_⟩
  obtain ⟨τ, hτ, hlt⟩ := h gapRun.dropLast (.checkControlAccess "admin") "admin" [] _ rfl rfl rfl rfl
  obtain rfl : second = τ := Option.some.inj hτ
  exact absurd hlt (by decide)

theorem run_of_tickingMachine {s t : ControlState} {as : List ControlAction}
    (h : (tickingMachine tokens timeout hub start).run s as = some t) :
    (controlMachine tokens timeout hub start).run s as = some t :=
  Machine.run_of_guard h

/-- The invariant of the ticker: it never ran in the future, and while a session is active every run
of it came less than `timeout` after the session's last activity. -/
structure TickInv (M : Machine ControlState ControlAction) (as : List ControlAction)
    (s : ControlState) : Prop where
  past : ∀ c ∈ M.outputs checks M.init as, c ≤ s.now
  live : s.activeToken ≠ "" → ∀ c ∈ M.outputs checks M.init as, c < s.lastActivity + s.timeout

/-- **The step lemma of the ticker's invariant**: a later run of it would have ended the session. -/
theorem TickInv.step {M : Machine ControlState ControlAction} {as : List ControlAction}
    {s s' : ControlState} {a : ControlAction} (h : TickInv M as s) (hen : s.isEnabled = true)
    (hto : 0 < s.timeout) (hrun : M.run M.init as = some s) (hM : M.step s a = some s')
    (hs : s.step a = some s') : TickInv M (as ++ [a]) s' := by
  have hf : Frame s s' := step_frame hs
  have hout : M.outputs checks M.init (as ++ [a]) = M.outputs checks M.init as ++ checks s a :=
    Machine.outputs_concat hrun hM
  have hpast : ∀ c ∈ M.outputs checks M.init (as ++ [a]), c ≤ s.now := by
    intro c hc
    rw [hout, List.mem_append] at hc
    rcases hc with hc | hc
    · exact h.past c hc
    · cases a <;> simp [checks] at hc
      exact hc.le
  refine ⟨fun c hc => (hpast c hc).trans hf.now, fun hne c hc => ?_⟩
  rw [hf.timeout]
  cases sessionStep_of_step hen hs with
  | stay hact hlast =>
    rw [hact] at hne
    rw [(hlast hne).1]
    rw [hout, List.mem_append] at hc
    rcases hc with hc | hc
    · exact h.live hne c hc
    · -- a run of the ticker that left the session active
      cases a <;> simp [checks] at hc
      subst hc
      obtain rfl : s.checkTimeout = s' := Option.some.inj hs
      rcases s.checkTimeout_cases with ⟨-, h0 | hidle⟩ | ⟨-, -, hub, heq⟩
      · exact absurd h0 hne
      · exact Nat.not_le.mp fun hle => absurd (Nat.le_sub_of_add_le' hle) (Nat.not_le.mpr hidle)
      · rw [heq] at hact
        exact absurd hact.symm hne
  | use token _ _ hlast _ _ =>
    -- the timeout starts anew
    rw [hlast]
    exact Nat.lt_of_le_of_lt (hpast c hc) (Nat.lt_add_of_pos_right hto)
  | release _ _ hact => exact absurd hact hne
  | grace _ _ _ hact => exact absurd hact hne
  | expire _ _ hact => exact absurd hact hne

theorem tickInv_of_run (htok : ∃ t ∈ tokens, t ≠ "") (hto : 0 < timeout)
    {as : List ControlAction} {s : ControlState}
    (h : (tickingMachine tokens timeout hub start).run
      (tickingMachine tokens timeout hub start).init as = some s) :
    TickInv (tickingMachine tokens timeout hub start) as s := by
  refine Machine.history_induction (P := TickInv (tickingMachine tokens timeout hub start))
    ?_ ?_ h
  · constructor
    · intro c hc
      cases hc
    · intro _ c hc
      cases hc
  · intro as s a t hrun ih hstep
    have hreach : (controlMachine tokens timeout hub start).Reachable s :=
      ⟨as, run_of_tickingMachine hrun⟩
    refine ih.step (isEnabled_of_reachable htok hreach) ?_ hrun hstep (step_of_guard hstep).2
    rwa [(config_of_reachable hreach).2]

/-- **Exactly when the idle timeout is kept.** In a run of a manager with some token and a timeout
the ticker accepts, every authorised request, a ping included, comes within `timeout` of its token's
last activity if and only if no request of the current controller falls into the gap before the next
tick. -/
theorem authorises_in_time_iff (tokens : List String) (timeout : Duration)
    (hub : Option (List ControlStatus)) (start : Time) (htok : ∃ t ∈ tokens, t ≠ "")
    (hto : 0 < timeout / 2) (as : List ControlAction) :
    EveryRequest (tickingMachine tokens timeout hub start)
        (AuthorisedInTime (tickingMachine tokens timeout hub start) timeout) as ↔
      EveryRequest (tickingMachine tokens timeout hub start)
        (NotInGap (tickingMachine tokens timeout hub start) timeout) as := by
  constructor
  · intro h pre a token post s has ha hrun hact hne τ hτ
    have hauth : authorises s a = true := by
      rw [authorises_eq s ha]
      have hen := isEnabled_of_reachable htok ⟨pre, run_of_tickingMachine hrun⟩
      exact (s.isController_eq_true token hen).mpr ⟨hact, hne⟩
    obtain ⟨τ', hτ', hlt⟩ := h pre a token post s has ha hrun hauth
    obtain rfl : τ = τ' := Option.some.inj (hτ.symm.trans hτ')
    exact Or.inl hlt
  · intro h pre a token post s has ha hrun hauth
    rw [authorises_eq s ha] at hauth
    have hrun' := run_of_tickingMachine hrun
    have hen := isEnabled_of_reachable htok ⟨pre, hrun'⟩
    obtain ⟨hact, hne⟩ := (s.isController_eq_true token hen).mp hauth
    subst hact
    have hlast : lastActivityOf (tickingMachine tokens timeout hub start) s.activeToken pre =
        some s.lastActivity := by
      have hout : (tickingMachine tokens timeout hub start).outputs (activity s.activeToken)
          (tickingMachine tokens timeout hub start).init pre =
          (controlMachine tokens timeout hub start).outputs (activity s.activeToken)
            (controlMachine tokens timeout hub start).init pre := Machine.outputs_guard hrun
      unfold lastActivityOf
      rw [hout]
      exact (sessionInv_of_run htok hrun').last hne
    refine ⟨s.lastActivity, hlast, ?_⟩
    rcases h pre a s.activeToken post s has ha hrun rfl hne s.lastActivity hlast with
      hlt | ⟨c, hc, hle⟩
    · exact hlt
    · -- the ticker would have ended the session at `c`
      have hpos : 0 < timeout := Nat.lt_of_lt_of_le hto (Nat.div_le_self timeout 2)
      have hlive := (tickInv_of_run htok hpos hrun).live hne c hc
      rw [(config_of_reachable ⟨pre, hrun'⟩).2] at hlive
      exact absurd hle (Nat.not_le.mpr hlive)

/-- Of `gapRun` neither side holds. -/
theorem authorises_in_time_iff_gapRun :
    EveryRequest (tickingMachine ["admin"] (60 * second) none 0)
        (AuthorisedInTime (tickingMachine ["admin"] (60 * second) none 0) (60 * second)) gapRun ↔
      EveryRequest (tickingMachine ["admin"] (60 * second) none 0)
        (NotInGap (tickingMachine ["admin"] (60 * second) none 0) (60 * second)) gapRun :=
  authorises_in_time_iff ["admin"] (60 * second) none 0 ⟨"admin", by decide, by decide⟩
    (by decide) gapRun

end UnisetPanel
