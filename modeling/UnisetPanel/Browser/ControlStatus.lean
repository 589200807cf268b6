/-
  The control status in the browser: the `control_status` handler of
  `04-sse.js`, `updateControlStatus` of `02-control.js`, and the manager they
  ask.

  The hub's event does not say whose the session is, so for each one the client
  asks `/api/control/status` with its token and shows what it is told.  The
  answer is the status at the moment the server handles the request
  (`getStatus`), and nothing orders the answers of requests that are in flight
  together.

  A run interleaves the manager's steps with the delivery of events, the
  handling of requests and the arrival of answers.  Every request succeeds, so
  what the handler falls back to when one fails is left out.

  `Converged` says that a client for which nothing is outstanding shows the
  session as it is.  It holds throughout exactly the runs in which the answer
  that arrives last of all says what the server said last
  (`statusConverged_iff`); of two answers the older one may come last
  (`not_converged_overtakenRun`).
-/
import UnisetPanel.ControlManager.Machine

namespace UnisetPanel

/-! ### Every change of the session is broadcast -/

namespace ControlState

/-- The events handed to the hub so far. -/
def sent (s : ControlState) : List ControlStatus := s.sseHub.getD []

/-- From `s` to `s'` the session either stayed as it was, with no event, or one event was sent. -/
def Notifies (s s' : ControlState) : Prop :=
  (s'.sseHub = s.sseHub ∧ s'.activeToken = s.activeToken) ∨
    ∃ status, s'.sseHub = some (s.sent ++ [status])

variable {s s' : ControlState}

theorem Notifies.refl (s : ControlState) : Notifies s s := Or.inl ⟨rfl, rfl⟩

/-- `broadcastStatus` sends one event, whatever was changed before. -/
theorem notifies_broadcastStatus (hhub : s.sseHub ≠ none) (h : s'.sseHub = s.sseHub) :
    Notifies s s'.broadcastStatus := by
  right
  cases hs : s.sseHub with
  | none => exact absurd hs hhub
  | some sent =>
    simp only [broadcastStatus, h, hs, ControlState.sent, Option.getD_some]
    exact ⟨_, rfl⟩

@[simp] theorem dropPendingRelease_sseHub (s : ControlState) :
    s.dropPendingRelease.sseHub = s.sseHub := by
  unfold dropPendingRelease
  split <;> rfl

/-- **A step that changes the session sends an event.** -/
theorem step_notifies {a : ControlAction} (hhub : s.sseHub ≠ none) (h : s.step a = some s') :
    Notifies s s' := by
  have hdrop : Notifies s s.dropPendingRelease := Or.inl ⟨by simp, by simp⟩
  cases a with
  | takeControl token =>
    obtain rfl := Option.some.inj h
    unfold takeControl
    dsimp only
    split_ifs
    · exact .refl s
    · exact .refl s
    · exact hdrop
    · exact notifies_broadcastStatus hhub (by simp)
  | releaseControl token =>
    obtain rfl := Option.some.inj h
    unfold releaseControl
    split_ifs
    · exact .refl s
    · exact .refl s
    · exact notifies_broadcastStatus hhub rfl
  | releaseBySSE token =>
    obtain rfl := Option.some.inj h
    rcases s.releaseBySSE_cases token with heq | ⟨-, -, heq⟩ <;> rw [heq] <;> exact .refl s
  | cancelPendingRelease token =>
    obtain rfl := Option.some.inj h
    rcases s.cancelPendingRelease_cases token with ⟨heq, -⟩ | ⟨-, -, -, heq⟩ <;> rw [heq]
    · exact .refl s
    · exact hdrop
  | touch token =>
    obtain rfl := Option.some.inj h
    rcases s.touch_cases token with ⟨heq, -⟩ | ⟨-, -, heq⟩ <;> rw [heq] <;> exact .refl s
  | checkTimeout =>
    obtain rfl := Option.some.inj h
    unfold checkTimeout
    split_ifs
    · exact .refl s
    · exact notifies_broadcastStatus hhub rfl
    · exact .refl s
  | checkControlAccess token =>
    obtain rfl := Option.some.inj h
    rcases s.checkControlAccess_snd token with heq | heq <;> rw [heq]
    · exact .refl s
    · rcases s.touch_cases token with ⟨heq, -⟩ | ⟨-, -, heq⟩ <;> rw [heq] <;> exact .refl s
  | fire k =>
    obtain ⟨timers, -, rfl⟩ := step_fire h
    exact .refl s
  | callback k =>
    obtain ⟨token, timers, -, rfl⟩ := step_callback h
    unfold graceCallback
    split_ifs
    · exact notifies_broadcastStatus hhub rfl
    · exact .refl s
  | advance d =>
    obtain rfl := Option.some.inj h
    exact .refl s

end ControlState

/-! ### The client -/

/-- `state.control`. -/
structure ControlClient where
  token : Option String
  enabled : Bool
  hasController : Bool
  isController : Bool
  timeoutSec : ℕ
  deriving DecidableEq, Repr

namespace ControlClient

/-- The header `X-Control-Token` of the request: `state.control.token || ''`. -/
def header (c : ControlClient) : String := c.token.getD ""

/-- `updateControlStatus`. -/
def updateControlStatus (c : ControlClient) (status : ControlStatus) : ControlClient :=
  { c with
    enabled := status.enabled
    hasController := status.hasController
    isController := status.isController
    timeoutSec := if status.timeoutSec = 0 then 60 else status.timeoutSec }

/-- The client shows who controls as `status` says it. -/
def Shows (c : ControlClient) (status : ControlStatus) : Prop :=
  c.isController = status.isController ∧ c.hasController = status.hasController

instance (c : ControlClient) (status : ControlStatus) : Decidable (c.Shows status) :=
  inferInstanceAs (Decidable (_ ∧ _))

@[simp] theorem header_updateControlStatus (c : ControlClient) (status : ControlStatus) :
    (c.updateControlStatus status).header = c.header := rfl

end ControlClient

/-- Who has control, of a status. -/
def ControlStatus.SameControl (a b : ControlStatus) : Prop :=
  a.isController = b.isController ∧ a.hasController = b.hasController

instance (a b : ControlStatus) : Decidable (a.SameControl b) :=
  inferInstanceAs (Decidable (_ ∧ _))

theorem ControlClient.Shows.congr {c : ControlClient} {a b : ControlStatus} (h : c.Shows a)
    (hab : a.SameControl b) : c.Shows b :=
  ⟨h.1.trans hab.1, h.2.trans hab.2⟩

/-- A client that has just been told `a` shows `b` if the two agree on who has control. -/
theorem ControlClient.shows_updateControlStatus_iff (c : ControlClient) (a b : ControlStatus) :
    (c.updateControlStatus a).Shows b ↔ a.SameControl b := Iff.rfl

/-! ### The system -/

/-- The manager, the client, and what is on its way between them. -/
structure StatusSystem where
  server : ControlState
  client : ControlClient
  /-- how many of the events sent the client has got -/
  delivered : ℕ
  /-- requests that the server has not handled -/
  requests : ℕ
  /-- answers on their way, as the server gave them -/
  answers : List ControlStatus
  /-- what the server said last; no code keeps it -/
  lastAnswer : ControlStatus

/-- One step of the system. -/
inductive StatusAction where
  /-- a step of the manager -/
  | server (a : ControlAction)
  /-- the next event reaches the client, which sends a request -/
  | deliver
  /-- the server handles a request -/
  | handle
  /-- the `i`th of the answers on their way arrives -/
  | arrive (i : ℕ)

namespace StatusSystem

variable (s : StatusSystem)

/-- The manager's status for the client's token. -/
def status : ControlStatus := s.server.getStatus s.client.header

/-- The `control_status` handler: the client's request is under way. -/
def deliver : Option StatusSystem :=
  if s.delivered < s.server.sent.length then
    some { s with delivered := s.delivered + 1, requests := s.requests + 1 }
  else none

/-- `GetControlStatus` answers a request. -/
def handle : Option StatusSystem :=
  if 0 < s.requests then
    some { s with
      requests := s.requests - 1
      answers := s.answers ++ [s.status]
      lastAnswer := s.status }
  else none

/-- An answer reaches the client. -/
def arrive (i : ℕ) : Option StatusSystem :=
  s.answers[i]?.map fun answer =>
    { s with
      answers := s.answers.eraseIdx i
      client := s.client.updateControlStatus answer }

def step : StatusAction → Option StatusSystem
  | .server a => (s.server.step a).map fun server => { s with server := server }
  | .deliver => s.deliver
  | .handle => s.handle
  | .arrive i => s.arrive i

/-- Every event has reached the client, and every request the server. -/
def AllAsked : Prop := s.server.sent.length ≤ s.delivered ∧ s.requests = 0

instance : Decidable s.AllAsked := inferInstanceAs (Decidable (_ ∧ _))

/-- All events, requests and answers have been processed. -/
def Quiescent : Prop := s.AllAsked ∧ s.answers = []

/-- **The control status has converged**, once nothing is outstanding. -/
def Converged : Prop := s.Quiescent → s.client.Shows s.status

/-- The answer that arrives last of all says of the control what the server said last. -/
def NewestLast : StatusAction → Prop
  | .arrive _ => s.AllAsked → ∀ answer, s.answers = [answer] → answer.SameControl s.lastAnswer
  | _ => True

end StatusSystem

/-- The runs of a client that connects while the manager is in state `server`; the `connected`
event gives it the status of the moment. -/
def statusMachine (server : ControlState) (client : ControlClient) :
    Machine StatusSystem StatusAction where
  init :=
    { server := { server with sseHub := some [] }
      client := client.updateControlStatus (server.getStatus client.header)
      delivered := 0
      requests := 0
      answers := []
      lastAnswer := server.getStatus client.header }
  step := StatusSystem.step

namespace StatusSystem

/-! ### The invariant -/

/-- What every step keeps: there is a hub, no event is delivered before it is sent, and where
nothing is left to ask the server has not changed its mind since its last answer. -/
structure Fresh (s : StatusSystem) : Prop where
  hub : s.server.sseHub ≠ none
  delivered_le : s.delivered ≤ s.server.sent.length
  last : s.AllAsked → s.lastAnswer.SameControl s.status

/-- The invariant of the runs that end with the newest answer. -/
structure UpToDate (s : StatusSystem) : Prop extends Fresh s where
  shown : s.Quiescent → s.client.Shows s.lastAnswer

variable {s t : StatusSystem}

/-- A step of the manager: either the session is the same, or there is an event to deliver. -/
theorem Fresh.server (h : Fresh s) {a : ControlAction} {server : ControlState}
    (hstep : s.server.step a = some server) :
    Fresh { s with server := server } ∧ ({ s with server := server }.AllAsked → s.AllAsked) := by
  rcases ControlState.step_notifies h.hub hstep with ⟨hhub, hactive⟩ | ⟨status, hhub⟩
  · have hsent : server.sent = s.server.sent := by
      rw [ControlState.sent, hhub, ControlState.sent]
    have hasked : { s with server := server }.AllAsked ↔ s.AllAsked := by
      simp only [AllAsked, hsent]
    refine ⟨⟨by rw [hhub]; exact h.hub, by rw [hsent]; exact h.delivered_le, ?_⟩, hasked.mp⟩
    intro hall
    obtain ⟨his, hhas⟩ := h.last (hasked.mp hall)
    -- the status speaks of the active token only
    simp only [status, ControlState.getStatus, ControlStatus.SameControl, hactive] at his hhas ⊢
    exact ⟨his, hhas⟩
  · have hlen : server.sent.length = s.server.sent.length + 1 := by
      rw [ControlState.sent, hhub, Option.getD_some, List.length_append, List.length_singleton]
    have hle := h.delivered_le
    have hnot : ¬ { s with server := server }.AllAsked := by
      rintro ⟨hsent, -⟩
      have hsent : server.sent.length ≤ s.delivered := hsent
      omega
    refine ⟨⟨by rw [hhub]; exact Option.some_ne_none _, ?_, fun hall => absurd hall hnot⟩,
      fun hall => absurd hall hnot⟩
    show s.delivered ≤ server.sent.length
    omega

theorem deliver_eq_some (h : s.deliver = some t) : s.delivered < s.server.sent.length ∧
    t = { s with delivered := s.delivered + 1, requests := s.requests + 1 } := by
  unfold deliver at h
  split_ifs at h with hlt
  exact ⟨hlt, (Option.some.inj h).symm⟩

theorem handle_eq_some (h : s.handle = some t) : t = { s with
    requests := s.requests - 1
    answers := s.answers ++ [s.status]
    lastAnswer := s.status } := by
  unfold handle at h
  split_ifs at h
  exact (Option.some.inj h).symm

theorem arrive_eq_some {i : ℕ} (h : s.arrive i = some t) : ∃ answer, s.answers[i]? = some answer ∧
    t = { s with
      answers := s.answers.eraseIdx i
      client := s.client.updateControlStatus answer } := by
  obtain ⟨answer, hget, rfl⟩ := Option.map_eq_some_iff.mp h
  exact ⟨answer, hget, rfl⟩

/-- An answer whose arrival leaves none was the only one. -/
theorem eq_singleton_of_eraseIdx {answers : List ControlStatus} {i : ℕ} {answer : ControlStatus}
    (hget : answers[i]? = some answer) (h : answers.eraseIdx i = []) : answers = [answer] := by
  obtain ⟨hi, rfl⟩ := List.getElem?_eq_some_iff.mp hget
  have hlen := List.length_eraseIdx_of_lt hi
  rw [h, List.length_nil] at hlen
  obtain ⟨a, rfl⟩ := List.length_eq_one_iff.mp (show answers.length = 1 by omega)
  have hi : i = 0 := by
    simp only [List.length_singleton] at hi
    omega
  subst hi
  rfl

/-- **Every step keeps the server's last answer fresh.** -/
theorem Fresh.step (h : Fresh s) {a : StatusAction} (hstep : s.step a = some t) : Fresh t := by
  cases a with
  | server a =>
    obtain ⟨server, hserver, rfl⟩ := Option.map_eq_some_iff.mp hstep
    exact (h.server hserver).1
  | deliver =>
    obtain ⟨hlt, rfl⟩ := deliver_eq_some hstep
    refine ⟨h.hub, hlt, ?_⟩
    -- its request is still to be handled
    rintro ⟨-, hzero⟩
    exact absurd hzero (Nat.succ_ne_zero s.requests)
  | handle =>
    obtain rfl := handle_eq_some hstep
    exact ⟨h.hub, h.delivered_le, fun _ => ⟨rfl, rfl⟩⟩
  | arrive i =>
    obtain ⟨answer, -, rfl⟩ := arrive_eq_some hstep
    exact ⟨h.hub, h.delivered_le, h.last⟩

/-- **A step that does not let an older answer come last keeps the client up to date.** -/
theorem UpToDate.step (h : UpToDate s) {a : StatusAction} (ha : s.NewestLast a)
    (hstep : s.step a = some t) : UpToDate t := by
  refine ⟨h.toFresh.step hstep, ?_⟩
  intro hq
  cases a with
  | server a =>
    obtain ⟨server, hserver, rfl⟩ := Option.map_eq_some_iff.mp hstep
    exact h.shown ⟨(h.toFresh.server hserver).2 hq.1, hq.2⟩
  | deliver =>
    obtain ⟨-, rfl⟩ := deliver_eq_some hstep
    exact absurd hq.1.2 (Nat.succ_ne_zero s.requests)
  | handle =>
    obtain rfl := handle_eq_some hstep
    exact absurd hq.2 (by simp)
  | arrive i =>
    obtain ⟨answer, hget, rfl⟩ := arrive_eq_some hstep
    exact (s.client.shows_updateControlStatus_iff answer s.lastAnswer).mpr
      (ha hq.1 answer (eq_singleton_of_eraseIdx hget hq.2))

/-- **An older answer that comes last** leaves the client with a control that is no more. -/
theorem Fresh.leaves_behind (h : Fresh s) {a : StatusAction} (ha : ¬ s.NewestLast a)
    (hstep : s.step a = some t) : ¬ t.Converged := by
  cases a with
  | server a => exact absurd trivial ha
  | deliver => exact absurd trivial ha
  | handle => exact absurd trivial ha
  | arrive i =>
    simp only [NewestLast, not_forall] at ha
    obtain ⟨hall, answer, hone, hne⟩ := ha
    obtain ⟨answer', hget, rfl⟩ := arrive_eq_some hstep
    have hi : i = 0 := by
      have hlt := (List.getElem?_eq_some_iff.mp hget).1
      rw [hone, List.length_singleton] at hlt
      omega
    subst hi
    obtain rfl : answer = answer' := by
      rw [hone] at hget
      exact Option.some.inj hget
    intro hconv
    have hshows := hconv ⟨hall, by simp [hone]⟩
    have hlast := h.last hall
    exact hne ⟨hshows.1.trans hlast.1.symm, hshows.2.trans hlast.2.symm⟩

end StatusSystem

open StatusSystem

theorem upToDate_init (server : ControlState) (client : ControlClient) :
    UpToDate (statusMachine server client).init where
  hub := Option.some_ne_none _
  delivered_le := Nat.zero_le _
  last _ := ⟨rfl, rfl⟩
  shown _ := ⟨rfl, rfl⟩

/-! ### Which answer comes last -/

/-- A manager with one token, and a client that has it. -/
def oneToken : ControlState := newControlManager ["admin"] (60 * second) none 0

def adminClient : ControlClient := ⟨some "admin", false, false, false, 60⟩

/-- `admin` takes control and releases it; each time the client asks, and the first answer arrives
after the second. -/
def overtakenRun : List StatusAction :=
  [.server (.takeControl "admin"), .deliver, .handle,
    .server (.releaseControl "admin"), .deliver, .handle, .arrive 1, .arrive 0]

/-- **An older answer may come last**: control is free, and the client shows that it has it. -/
theorem not_converged_overtakenRun : ∃ t, (statusMachine oneToken adminClient).run
    (statusMachine oneToken adminClient).init overtakenRun = some t ∧ ¬ t.Converged := by
  refine ⟨_, rfl, ?_⟩
  intro hconv
  have hshows := hconv ⟨⟨by decide, rfl⟩, rfl⟩
  exact absurd hshows (by decide)

/-- **Exactly when the control status converges**: throughout a run, a client for which nothing is
outstanding shows the session as it is, if and only if each time the answer that arrives last of all
says what the server said last. -/
theorem statusConverged_iff (server : ControlState) (client : ControlClient)
    {as : List StatusAction} {t : StatusSystem}
    (hrun : (statusMachine server client).run (statusMachine server client).init as = some t) :
    (statusMachine server client).Throughout Converged as ↔
      (statusMachine server client).EveryStep NewestLast as := by
  refine Machine.throughout_iff_everyStep (I := UpToDate) (upToDate_init server client) ?_ ?_ ?_
    hrun
  · intro s a u h ha hstep
    exact h.step ha hstep
  · intro s h hq
    exact (h.shown hq).congr (h.last hq.1)
  · intro s a u h ha hstep
    exact h.toFresh.leaves_behind ha hstep

/-- That run has such a step. -/
theorem not_everyStep_overtakenRun :
    ¬ (statusMachine oneToken adminClient).EveryStep NewestLast overtakenRun := by
  intro h
  have hall := (statusConverged_iff oneToken adminClient rfl).mpr h
  have hshows := hall.last rfl ⟨⟨by decide, rfl⟩, rfl⟩
  exact absurd hshows (by decide)

end UnisetPanel
