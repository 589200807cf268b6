/-
  `SSEHub` — the event streams of `internal/api/sse.go` and the control session
  they keep alive.

  A client that connects with a control token cancels the pending release of
  that token; a client that disconnects starts one.  Neither looks at the other
  clients of the same token, so the grace period can run out while the
  controller is still connected (`not_clearsOnlyWhenGone`).  It does not in the
  runs in which a client of the active token leaves only as the last one
  (`clearsOnlyWhenGone_of_lastClient`).

  The timers are prompt here: the function of a timer runs when it fires, and
  no timer is overdue.  A step of the hub is thus a short run of the control
  manager (`hubStep_run`), which meets no waiting function, so the
  invariant of the grace timer holds throughout.
-/
import UnisetPanel.ControlManager.GraceTimer

namespace UnisetPanel

open ControlState

/-- The parts of an `sseClient` that matter for control; `ptr` tells apart clients with equal
fields, as the pointer does. -/
structure SSEClient where
  ptr : ℕ
  objectName : String
  controlToken : String
  deriving DecidableEq, Repr

/-- The hub with its control manager. -/
structure SSEHub where
  clients : Finset SSEClient
  controlMgr : ControlState
  /-- the next pointer to allocate -/
  nextPtr : ℕ

namespace SSEHub

/-- `NewSSEHub` after `SetControlManager`. -/
def newSSEHub (mgr : ControlState) : SSEHub where
  clients := ∅
  controlMgr := mgr
  nextPtr := 0

/-- `AddClientWithToken`. -/
def addClientWithToken (h : SSEHub) (objectName controlToken : String) : SSEHub where
  clients := insert ⟨h.nextPtr, objectName, controlToken⟩ h.clients
  controlMgr :=
    if controlToken ≠ "" then h.controlMgr.cancelPendingRelease controlToken else h.controlMgr
  nextPtr := h.nextPtr + 1

/-- `RemoveClient`. -/
def removeClient (h : SSEHub) (c : SSEClient) : SSEHub where
  clients := h.clients.erase c
  controlMgr :=
    if c.controlToken ≠ "" then h.controlMgr.releaseBySSE c.controlToken else h.controlMgr
  nextPtr := h.nextPtr

end SSEHub

/-- One step of the hub, its control manager and the clock. -/
inductive HubAction where
  | addClientWithToken (objectName controlToken : String)
  | removeClient (c : SSEClient)
  | takeControl (token : String)
  | releaseControl (token : String)
  | touch (token : String)
  | checkTimeout
  | checkControlAccess (token : String)
  /-- the grace period of timer `k` is over and its function runs -/
  | graceExpires (k : TimerID)
  | advance (d : Duration)
  deriving DecidableEq

namespace SSEHub

/-- The steps of the control manager that a step of the hub consists of. -/
def controlActions : HubAction → List ControlAction
  | .addClientWithToken _ t => if t ≠ "" then [.cancelPendingRelease t] else []
  | .removeClient c => if c.controlToken ≠ "" then [.releaseBySSE c.controlToken] else []
  | .takeControl t => [.takeControl t]
  | .releaseControl t => [.releaseControl t]
  | .touch t => [.touch t]
  | .checkTimeout => [.checkTimeout]
  | .checkControlAccess t => [.checkControlAccess t]
  | .graceExpires k => [.fire k, .callback k]
  | .advance d => [.advance d]

/-- No timer is overdue after `d` more nanoseconds. -/
def Prompt (s : ControlState) (d : Duration) : Prop :=
  ∀ t ∈ s.timers, t.status = .armed → s.now + d ≤ t.deadline

instance (s : ControlState) (d : Duration) : Decidable (Prompt s d) :=
  inferInstanceAs (Decidable (∀ t ∈ s.timers, t.status = .armed → s.now + d ≤ t.deadline))

/-- One step.  A client is removed once, when its request ends. -/
def step (h : SSEHub) : HubAction → Option SSEHub
  | .addClientWithToken o t => some (h.addClientWithToken o t)
  | .removeClient c => if c ∈ h.clients then some (h.removeClient c) else none
  | .takeControl t => some { h with controlMgr := (h.controlMgr.takeControl t).2 }
  | .releaseControl t => some { h with controlMgr := (h.controlMgr.releaseControl t).2 }
  | .touch t => some { h with controlMgr := h.controlMgr.touch t }
  | .checkTimeout => some { h with controlMgr := h.controlMgr.checkTimeout }
  | .checkControlAccess t => some { h with controlMgr := (h.controlMgr.checkControlAccess t).2 }
  | .graceExpires k => do
    let fired ← h.controlMgr.step (.fire k)
    let mgr ← fired.step (.callback k)
    some { h with controlMgr := mgr }
  | .advance d =>
    if Prompt h.controlMgr d then
      some { h with controlMgr := { h.controlMgr with now := h.controlMgr.now + d } }
    else none

end SSEHub

/-- The runs of a hub with a fresh control manager. -/
def hubMachine (tokens : List String) (timeout : Duration) (hub : Option (List ControlStatus))
    (start : Time) : Machine SSEHub HubAction where
  init := .newSSEHub (newControlManager tokens timeout hub start)
  step := SSEHub.step

/-! ### What the grace period is for -/

/-- **The grace period ends a session only if the controller is gone**: when the function of a timer
clears the active token, no client carries it. -/
def ClearsOnlyWhenGone (M : Machine SSEHub HubAction) : Prop :=
  ∀ ⦃h h' : SSEHub⦄ ⦃k : TimerID⦄, M.Reachable h → M.step h (.graceExpires k) = some h' →
    h.controlMgr.activeToken ≠ "" → h'.controlMgr.activeToken = "" →
    ∀ c ∈ h.clients, c.controlToken ≠ h.controlMgr.activeToken

/-- A client of the active token that leaves is the last one. -/
def LastClient (h : SSEHub) : HubAction → Prop
  | .removeClient c => c.controlToken ≠ "" → c.controlToken = h.controlMgr.activeToken →
      ∀ c' ∈ h.clients, c'.controlToken = c.controlToken → c' = c
  | _ => True

instance (h : SSEHub) (a : HubAction) : Decidable (LastClient h a) := by
  unfold LastClient
  cases a <;> infer_instance

/-- `admin` takes control and opens its stream anew; the close of the old stream is noticed last. -/
def reconnectRun : List HubAction :=
  [.addClientWithToken "" "admin", .takeControl "admin", .addClientWithToken "" "admin",
    .removeClient ⟨0, "", "admin"⟩, .advance gracePeriod]

/-- **It is not kept**: after `reconnectRun` the session ends although `admin` is connected. -/
theorem not_clearsOnlyWhenGone :
    ¬ ClearsOnlyWhenGone (hubMachine ["admin"] (60 * second) none 0) := by
  intro hclear
  have hreach : (hubMachine ["admin"] (60 * second) none 0).Reachable _ := ⟨reconnectRun, rfl⟩
  exact hclear (k := 0) hreach rfl (by decide) rfl ⟨1, "", "admin"⟩ (by decide) rfl

/-! ### A step of the hub is a run of the control manager -/

namespace SSEHub

variable {tokens : List String} {timeout : Duration} {hub : Option (List ControlStatus)}
  {start : Time}

theorem step_graceExpires {h h' : SSEHub} {k : TimerID} (hs : h.step (.graceExpires k) = some h') :
    ∃ fired mgr, h.controlMgr.step (.fire k) = some fired ∧ fired.step (.callback k) = some mgr ∧
      h' = { h with controlMgr := mgr } := by
  simp only [step, Option.bind_eq_bind, Option.bind_eq_some_iff] at hs
  obtain ⟨fired, hfire, mgr, hcall, heq⟩ := hs
  exact ⟨fired, mgr, hfire, hcall, (Option.some.inj heq).symm⟩

theorem step_removeClient {h h' : SSEHub} {c : SSEClient} (hs : h.step (.removeClient c) = some h') :
    c ∈ h.clients ∧ h' = h.removeClient c := by
  obtain ⟨hc, hs⟩ := Option.ite_none_right_eq_some.mp hs
  exact ⟨hc, (Option.some.inj hs).symm⟩

theorem step_advance {h h' : SSEHub} {d : Duration} (hs : h.step (.advance d) = some h') :
    Prompt h.controlMgr d ∧
      h' = { h with controlMgr := { h.controlMgr with now := h.controlMgr.now + d } } := by
  obtain ⟨hd, hs⟩ := Option.ite_none_right_eq_some.mp hs
  exact ⟨hd, (Option.some.inj hs).symm⟩

/-- **Refinement**: what a step of the hub does to the control manager is a run of it. -/
theorem hubStep_run {h h' : SSEHub} {a : HubAction} (hs : h.step a = some h') :
    (controlMachine tokens timeout hub start).run h.controlMgr (controlActions a) =
      some h'.controlMgr := by
  cases a with
  | addClientWithToken o t =>
    obtain rfl := Option.some.inj hs
    by_cases ht : t = "" <;> simp [controlActions, addClientWithToken, ht, Machine.run,
      controlMachine, ControlState.step]
  | removeClient c =>
    obtain ⟨-, rfl⟩ := step_removeClient hs
    by_cases ht : c.controlToken = "" <;> simp [controlActions, removeClient, ht, Machine.run,
      controlMachine, ControlState.step]
  | graceExpires k =>
    -- two steps of the control manager
    obtain ⟨fired, mgr, hfire, hcall, rfl⟩ := step_graceExpires hs
    refine Machine.run_cons_eq_some _ |>.mpr ⟨fired, hfire, ?_⟩
    rw [Machine.run_singleton]
    exact hcall
  | advance d =>
    obtain ⟨-, rfl⟩ := step_advance hs
    rfl
  | _ =>
    obtain rfl := Option.some.inj hs
    rfl

/-- So the control manager of a reachable hub is a reachable control manager. -/
theorem reachable_controlMgr {h : SSEHub} (hr : (hubMachine tokens timeout hub start).Reachable h) :
    (controlMachine tokens timeout hub start).Reachable h.controlMgr := by
  refine Machine.Reachable.induction
    (P := fun h => (controlMachine tokens timeout hub start).Reachable h.controlMgr) ?_ ?_ hr
  · exact Machine.reachable_init _
  · intro s a t _ ih hstep
    exact ih.run (hubStep_run (h := s) (a := a) hstep)

/-! ### The invariant -/

/-- The invariant: no function is waiting; the timers are in order; and while a timer is armed, no
client carries the active token. -/
structure HubInv (h : SSEHub) : Prop where
  not_fired : ∀ k, h.controlMgr.timers.status k ≠ some .fired
  grace : GraceInv h.controlMgr
  alone : ∀ k, h.controlMgr.timers.status k = some .armed → h.controlMgr.isEnabled = true ∧
    (h.controlMgr.activeToken ≠ "" → ∀ c ∈ h.clients, c.controlToken ≠ h.controlMgr.activeToken)

/-- Without a waiting function every step of the control manager is in time. -/
theorem inTime_of_not_fired {s : ControlState} (h : ∀ k, s.timers.status k ≠ some .fired)
    (a : ControlAction) : InTime s a := by
  have hw : ∀ t, t ∉ s.timers.waiting := by
    intro t ht
    obtain ⟨k, hk, -⟩ := s.timers.mem_waiting.mp ht
    exact h k hk
  cases a with
  | takeControl t => exact fun _ => hw t
  | cancelPendingRelease t => exact fun _ => hw t
  | releaseBySSE t => exact fun _ => ⟨hw t, hw ""⟩
  | _ => trivial

/-- A step of the control manager that arms nothing, fires nothing and activates no other token
keeps the invariant, with the same clients. -/
theorem HubInv.controlStep {h : SSEHub} (hinv : HubInv h) {a : ControlAction} {mgr : ControlState}
    (hs : h.controlMgr.step a = some mgr) (harm : ∀ t, a ≠ .releaseBySSE t)
    (hfire : ∀ k, a ≠ .fire k)
    (hact : mgr.activeToken = h.controlMgr.activeToken ∨ mgr.activeToken = "" ∨
      ∀ k, mgr.timers.status k ≠ some .armed) :
    HubInv { h with controlMgr := mgr } := by
  obtain ⟨-, -, -, htim⟩ := step_effect hs
  refine ⟨?_, ?_, ?_⟩
  · intro k hk
    rcases (htim.status k).2.2 hk with hk | hk
    · exact hinv.not_fired k hk
    · exact hfire k hk
  · exact hinv.grace.step (inTime_of_not_fired hinv.not_fired a) hs
  · intro k hk
    have hk' : h.controlMgr.timers.status k = some .armed := by
      rcases (htim.status k).2.1 hk with hk | ⟨t, hk⟩
      · exact hk
      · exact absurd hk (harm t)
    obtain ⟨hen, halone⟩ := hinv.alone k hk'
    refine ⟨(step_frame hs).isEnabled.trans hen, ?_⟩
    show mgr.activeToken ≠ "" → ∀ c ∈ h.clients, c.controlToken ≠ mgr.activeToken
    rcases hact with hact | hact | hact
    · rw [hact]
      exact halone
    · exact fun hne => absurd hact hne
    · exact absurd hk (hact k)

/-- Clients that come and go matter only if a new one carries the active token while a timer is
armed. -/
theorem HubInv.setClients {h h' : SSEHub} (hinv : HubInv h)
    (hmgr : h'.controlMgr = h.controlMgr)
    (hnew : ∀ c ∈ h'.clients, c ∈ h.clients ∨ ∀ k, h.controlMgr.timers.status k = some .armed →
      h.controlMgr.activeToken ≠ "" → c.controlToken ≠ h.controlMgr.activeToken) : HubInv h' := by
  refine ⟨by rw [hmgr]; exact hinv.not_fired, by rw [hmgr]; exact hinv.grace, ?_⟩
  rw [hmgr]
  intro k hk
  obtain ⟨hen, halone⟩ := hinv.alone k hk
  refine ⟨hen, fun hne c hc => ?_⟩
  rcases hnew c hc with hold | hother
  · exact halone hne c hold
  · exact hother k hk hne

/-- A new client with the active token cancels the release; any other does not matter. -/
theorem HubInv.addClientWithToken {h : SSEHub} (hinv : HubInv h) (o t : String) :
    HubInv (h.addClientWithToken o t) := by
  have hmgr : (h.addClientWithToken o t).controlMgr =
      if t ≠ "" then h.controlMgr.cancelPendingRelease t else h.controlMgr := rfl
  have hother : (∀ k, h.controlMgr.timers.status k = some .armed →
      h.controlMgr.activeToken ≠ "" → t ≠ h.controlMgr.activeToken) →
      (h.addClientWithToken o t).controlMgr = h.controlMgr → HubInv (h.addClientWithToken o t) := by
    intro ht heq
    refine hinv.setClients heq fun c hc => ?_
    rcases Finset.mem_insert.mp hc with rfl | hc
    · exact Or.inr ht
    · exact Or.inl hc
  by_cases ht : t = ""
  · -- a stream without a token does not ask the control manager
    refine hother ?_ (by rw [hmgr, if_neg (not_not.mpr ht)])
    intro k _ hne hc
    exact hne (hc.symm.trans ht)
  · rw [if_pos ht] at hmgr
    rcases h.controlMgr.cancelPendingRelease_cases t with ⟨heq, hno⟩ | ⟨-, -, -, heq⟩
    · -- nothing cancelled: with an armed timer, `t` is not the active token
      rw [heq] at hmgr
      refine hother ?_ hmgr
      intro k hk _ hc
      exact hno ⟨(hinv.alone k hk).1, ht, hc.symm⟩
    · -- cancelled: no timer is armed any more
      rw [heq] at hmgr
      refine ⟨?_, by rw [hmgr]; exact hinv.grace.dropPendingRelease, ?_⟩
      · intro k hk
        rw [hmgr] at hk
        exact hinv.not_fired k ((dropPendingRelease_fired h.controlMgr k).mp hk)
      · intro k hk
        rw [hmgr] at hk
        exact absurd hk (hinv.grace.not_armed_dropPendingRelease k)

/-- The last client of the active token arms the release; any other does not matter. -/
theorem HubInv.removeClient {h : SSEHub} (hinv : HubInv h) (c : SSEClient)
    (hlast : LastClient h (.removeClient c)) : HubInv (h.removeClient c) := by
  have hmgr : (h.removeClient c).controlMgr =
      if c.controlToken ≠ "" then h.controlMgr.releaseBySSE c.controlToken else h.controlMgr := rfl
  have hsame : (h.removeClient c).controlMgr = h.controlMgr → HubInv (h.removeClient c) := by
    intro heq
    exact hinv.setClients heq fun d hd => Or.inl (Finset.mem_of_mem_erase hd)
  by_cases hc : c.controlToken = ""
  · exact hsame (by rw [hmgr, if_neg (not_not.mpr hc)])
  · rw [if_pos hc] at hmgr
    rcases h.controlMgr.releaseBySSE_cases c.controlToken with heq | ⟨hen, hact, heq⟩
    · exact hsame (hmgr.trans heq)
    · have hstep : h.controlMgr.step (.releaseBySSE c.controlToken) =
          some (h.removeClient c).controlMgr := by
        rw [hmgr]
        rfl
      obtain ⟨-, -, -, htim⟩ := step_effect hstep
      refine ⟨?_, ?_, ?_⟩
      · intro k hk
        rcases (htim.status k).2.2 hk with hk | hk
        · exact hinv.not_fired k hk
        · cases hk
      · exact hinv.grace.step (inTime_of_not_fired hinv.not_fired _) hstep
      · intro k _
        rw [hmgr, heq]
        refine ⟨hen, fun _ d hd hdt => ?_⟩
        -- another client of the active token: but `c` was the last one
        have hd' : d ≠ c ∧ d ∈ h.clients := Finset.mem_erase.mp hd
        exact hd'.1 (hlast hc hact.symm d hd'.2 (hdt.trans hact))

theorem HubInv.graceExpires {h h' : SSEHub} (hinv : HubInv h) {k : TimerID}
    (hs : h.step (.graceExpires k) = some h') : HubInv h' := by
  obtain ⟨fired, mgr, hfire, hcall, rfl⟩ := step_graceExpires hs
  obtain ⟨-, -, -, htim₁⟩ := step_effect hfire
  obtain ⟨-, -, -, htim₂⟩ := step_effect hcall
  have hact : mgr.activeToken = h.controlMgr.activeToken ∨ mgr.activeToken = "" := by
    obtain ⟨timers, -, rfl⟩ := step_fire hfire
    obtain ⟨token, timers', -, rfl⟩ := step_callback hcall
    rcases graceCallback_cases _ token with ⟨-, heq⟩ | ⟨-, hub, heq⟩ <;> rw [heq]
    · exact Or.inl rfl
    · exact Or.inr rfl
  refine ⟨?_, ?_, ?_⟩
  · intro j hj
    -- a waiting function is that of `k`, but it has run
    rcases (htim₂.status j).2.2 hj with hj' | hj'
    · rcases (htim₁.status j).2.2 hj' with hj'' | hj''
      · exact hinv.not_fired j hj''
      · obtain rfl : k = j := ControlAction.fire.inj hj''
        obtain ⟨token, timers, hbegin, rfl⟩ := step_callback hcall
        obtain ⟨-, -, -, -, hst⟩ := Timers.begin_eq_some hbegin
        have hdone : timers.status k = some .done := by
          rw [hst k, if_pos rfl]
        rcases graceCallback_cases { fired with timers := timers } token with
          ⟨-, heq⟩ | ⟨-, hub, heq⟩
        · rw [heq] at hj
          exact absurd (hdone.symm.trans hj) (by decide)
        · rw [heq] at hj
          exact absurd (hdone.symm.trans hj) (by decide)
    · cases hj'
  · have hgrace := hinv.grace.step (inTime_of_not_fired hinv.not_fired _) hfire
    exact hgrace.step (a := .callback k) trivial hcall
  · intro j hj
    have hj' : h.controlMgr.timers.status j = some .armed := by
      rcases (htim₂.status j).2.1 hj with hj | ⟨t, ht⟩
      · rcases (htim₁.status j).2.1 hj with hj | ⟨t, ht⟩
        · exact hj
        · cases ht
      · cases ht
    obtain ⟨hen, halone⟩ := hinv.alone j hj'
    refine ⟨((step_frame hcall).isEnabled.trans (step_frame hfire).isEnabled).trans hen, ?_⟩
    show mgr.activeToken ≠ "" → ∀ c ∈ h.clients, c.controlToken ≠ mgr.activeToken
    rcases hact with hact | hact
    · rw [hact]
      exact halone
    · exact fun hne => absurd hact hne

/-- **The step lemma of the hub's invariant.** -/
theorem HubInv.step {h h' : SSEHub} (hinv : HubInv h) {a : HubAction} (hlast : LastClient h a)
    (hs : h.step a = some h') : HubInv h' := by
  cases a with
  | addClientWithToken o t =>
    obtain rfl := Option.some.inj hs
    exact hinv.addClientWithToken o t
  | removeClient c =>
    obtain ⟨-, rfl⟩ := step_removeClient hs
    exact hinv.removeClient c hlast
  | graceExpires k => exact hinv.graceExpires hs
  | takeControl t =>
    obtain rfl := Option.some.inj hs
    refine hinv.controlStep (a := .takeControl t) rfl (by simp) (by simp) ?_
    rcases h.controlMgr.takeControl_cases t with ⟨-, heq, -⟩ | ⟨-, -, heq⟩ | ⟨-, -, hub, heq⟩ <;>
      rw [heq]
    · exact Or.inl rfl
    · exact Or.inl (by simp)
    · exact Or.inr (Or.inr hinv.grace.not_armed_dropPendingRelease)
  | releaseControl t =>
    obtain rfl := Option.some.inj hs
    refine hinv.controlStep (a := .releaseControl t) rfl (by simp) (by simp) ?_
    rcases h.controlMgr.releaseControl_cases t with ⟨heq, -⟩ | ⟨-, -, hub, heq⟩ <;> rw [heq]
    · exact Or.inl rfl
    · exact Or.inr (Or.inl rfl)
  | touch t =>
    obtain rfl := Option.some.inj hs
    refine hinv.controlStep (a := .touch t) rfl (by simp) (by simp) ?_
    rcases h.controlMgr.touch_cases t with ⟨heq, -⟩ | ⟨-, -, heq⟩ <;> rw [heq] <;> exact Or.inl rfl
  | checkTimeout =>
    obtain rfl := Option.some.inj hs
    refine hinv.controlStep (a := .checkTimeout) rfl (by simp) (by simp) ?_
    rcases h.controlMgr.checkTimeout_cases with ⟨heq, -⟩ | ⟨-, -, hub, heq⟩ <;> rw [heq]
    · exact Or.inl rfl
    · exact Or.inr (Or.inl rfl)
  | checkControlAccess t =>
    obtain rfl := Option.some.inj hs
    refine hinv.controlStep (a := .checkControlAccess t) rfl (by simp) (by simp) ?_
    rcases h.controlMgr.checkControlAccess_snd t with heq | heq <;> rw [heq]
    · exact Or.inl rfl
    · rcases h.controlMgr.touch_cases t with ⟨heq, -⟩ | ⟨-, -, heq⟩ <;> rw [heq] <;>
        exact Or.inl rfl
  | advance d =>
    obtain ⟨-, rfl⟩ := step_advance hs
    exact hinv.controlStep (a := .advance d) rfl (by simp) (by simp) (Or.inl rfl)

theorem hubInv_of_reachable {h : SSEHub}
    (hr : ((hubMachine tokens timeout hub start).guard LastClient).Reachable h) : HubInv h := by
  refine Machine.Reachable.induction (P := HubInv) ?_ ?_ hr
  · refine ⟨?_, ?_, ?_⟩
    · intro k hk
      cases hk
    · exact .of_idle rfl fun k hk => by cases hk
    · intro k hk
      cases hk
  · intro s a t _ ih hstep
    obtain ⟨hlast, hstep⟩ := Machine.guard_step_eq_some.mp hstep
    exact ih.step hlast hstep

end SSEHub

open SSEHub in
/-- **The grace period does what it is for** in every run in which a client of the active token
leaves only as the last one. -/
theorem clearsOnlyWhenGone_of_lastClient (tokens : List String) (timeout : Duration)
    (hub : Option (List ControlStatus)) (start : Time) :
    ClearsOnlyWhenGone ((hubMachine tokens timeout hub start).guard LastClient) := by
  intro h h' k hr hs hne _
  obtain ⟨-, hs⟩ := Machine.guard_step_eq_some.mp hs
  obtain ⟨fired, mgr, hfire, -⟩ := step_graceExpires hs
  obtain ⟨timers, ht, -⟩ := step_fire hfire
  obtain ⟨harmed, -⟩ := Timers.fire_eq_some ht
  exact ((hubInv_of_reachable hr).alone k harmed).2 hne

end UnisetPanel
