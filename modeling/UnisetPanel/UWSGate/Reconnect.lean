/-
  Subscriptions across reconnects (`internal/uwsgate/client.go`).

  A new connection starts with no subscriptions on the gate's side.  `connect`
  holds the lock of the client from the dial until `resubscribe` has asked for
  everything in `pendingSubscriptions`, so no command can be sent in between;
  but a call may change `pendingSubscriptions` before or after they are copied,
  and send its command later on the new connection.

  The calls run one at a time here; the connection may break, be found broken
  and be dialled again between any two of their sections.  Whenever the client
  is connected and nothing is in progress, the gate has exactly the
  subscriptions of the poller (`resubscribed`).  The gate is `Behind` the
  poller by the one command of the call: the same relation holds for what
  `resubscribe` has copied, so it does not matter where the copy is taken.
-/
import UnisetPanel.UWSGate.Client
import UnisetPanel.Machine

namespace UnisetPanel

variable {R : Type}

/-- A connection. -/
structure GateConn where
  /-- the subscriptions of the gate for it -/
  gate : Finset String
  /-- it has not broken -/
  up : Bool
  deriving DecidableEq

/-- A command is written: the gate carries it out, or the write fails and the connection breaks.
What is written to a broken connection is lost. -/
def GateConn.write (c : SetCommand String) (ok : Bool) (conn : GateConn) : GateConn :=
  if ok then if conn.up then { conn with gate := c.apply conn.gate } else conn
  else { conn with up := false }

/-- After a write a connection that has not broken has the command. -/
theorem GateConn.write_of_up {c : SetCommand String} {ok : Bool} {conn : GateConn}
    (h : (conn.write c ok).up = true) :
    conn.up = true ∧ (conn.write c ok).gate = c.apply conn.gate := by
  unfold write at *
  cases ok with
  | false => cases h
  | true =>
    rw [if_pos rfl] at *
    split_ifs at * with hup
    · exact ⟨hup, rfl⟩
    · exact absurd h hup

/-- How far `connect` has got while it holds the lock of the client. -/
inductive Connecting where
  | no
  /-- the connection is established -/
  | dialed
  /-- `resubscribe` has copied `pendingSubscriptions` -/
  | copied (sensors : List String)
  deriving DecidableEq, Repr

/-- The poller, its call in progress and the client. -/
structure ReconnectState (R : Type) where
  poller : UWSGatePoller R
  call : SubscriptionCall
  pendingSubscriptions : List String
  connected : Bool
  conn : Option GateConn
  connecting : Connecting

/-- One atomic step. -/
inductive ReconnectAction where
  /-- a method of the poller is called -/
  | call (x : SubscriptionMethod)
  /-- the section of the call under the lock of the poller -/
  | lockSection (range : List String)
  /-- the section of the call under `subMu` -/
  | remember
  /-- `sendCommand`; `ok` if the write succeeds -/
  | sendCommand (ok : Bool)
  /-- the connection breaks -/
  | drop
  | handleDisconnect
  /-- `connect` begins; `ok` if the dial succeeds -/
  | dial (ok : Bool)
  /-- `resubscribe` copies `pendingSubscriptions` -/
  | copyPending
  /-- `resubscribe` writes its command, and `connect` returns -/
  | resubscribe (ok : Bool)
  deriving DecidableEq, Repr

namespace ReconnectState

variable (s : ReconnectState R)

/-- `sendCommand`: an error unless connected. -/
def sendCommand (c : SetCommand String) (ok : Bool) : Option GateConn :=
  if s.connected then s.conn.map (GateConn.write c ok) else s.conn

/-- One step; whoever needs the lock of the client waits for `connect`. -/
def step : ReconnectAction → Option (ReconnectState R)
  | .call x => if s.call = .returned then some { s with call := .called x } else none
  | .lockSection range =>
    match s.call with
    | .called x =>
      (x.lockSection range s.poller).map fun r => { s with poller := r.1, call := r.2 }
    | _ => none
  | .remember =>
    match s.call with
    | .decided c => some
        { s with pendingSubscriptions := remember c s.pendingSubscriptions, call := .remembered c }
    | _ => none
  | .sendCommand ok =>
    -- it waits for the read lock while `connect` has the lock
    match s.call, s.connecting with
    | .remembered c, .no => some { s with conn := s.sendCommand c ok, call := .returned }
    | _, _ => none
  | .drop => some { s with conn := s.conn.map fun conn => { conn with up := false } }
  | .handleDisconnect =>
    if s.connecting = .no then some { s with connected := false, conn := none } else none
  | .dial ok =>
    -- `connect` returns at once if the client is connected
    if s.connecting = .no ∧ s.connected = false then
      if ok then some { s with conn := some ⟨∅, true⟩, connected := true, connecting := .dialed }
      else some s
    else none
  | .copyPending =>
    match s.connecting with
    | .dialed => some { s with connecting := .copied s.pendingSubscriptions }
    | _ => none
  | .resubscribe ok =>
    match s.connecting with
    -- a failed write is logged, and `connect` returns without error
    | .copied sensors => some
        { s with
          conn := if sensors = [] then s.conn else s.conn.map (GateConn.write (.ask sensors) ok)
          connecting := .no }
    | _ => none

end ReconnectState

variable (R) in
/-- A poller and its client, from the start; the first `Connect` is a `dial` like the later ones. -/
def reconnectMachine (serverID : String) : Machine (ReconnectState R) ReconnectAction where
  init := ⟨newUWSGatePoller R serverID, .returned, [], false, none, .no⟩
  step := ReconnectState.step

/-- **The gate has the subscriptions of the poller** whenever the client is connected, over a
connection that has not broken, and neither a call nor a re-subscription is in progress. -/
def Resubscribed (M : Machine (ReconnectState R) ReconnectAction) : Prop :=
  ∀ as s, M.run M.init as = some s → s.connected = true → s.call = .returned →
    s.connecting = .no → ∀ conn ∈ s.conn, conn.up = true → conn.gate = s.poller.allSensors

/-! ### The invariant -/

/-- The command of the call, as a set. -/
def inFlight (ahead : SubscriptionCall → Option (SetCommand String)) (k : SubscriptionCall) :
    Set (SetCommand String) :=
  {c | ahead k = some c}

open SubscriptionCall

/-- What ties the subscriptions of the poller, the client and the gate together. -/
structure ReconnectInv (s : ReconnectState R) : Prop where
  /-- the calls run one at a time, so a decision is never reversed before it is carried out -/
  agrees : ∀ c, s.call.unsent = some c → ∀ x ∈ c.elems, c.Agrees s.poller.allSensors x
  pending : Behind s.poller.allSensors s.pendingSubscriptions.toFinset (inFlight unremembered s.call)
  connected : ∀ conn ∈ s.conn, s.connected = true
  /-- a connection that is not broken, with nothing to be copied to it -/
  gate : s.connecting = .no → ∀ conn ∈ s.conn, conn.up = true →
    Behind s.poller.allSensors conn.gate (inFlight unsent s.call)
  /-- a connection just established -/
  fresh : s.connecting ≠ .no → ∀ conn ∈ s.conn, conn.gate = ∅
  copied : ∀ sensors, s.connecting = .copied sensors →
    Behind s.poller.allSensors sensors.toFinset (inFlight unsent s.call)

theorem inFlight_unremembered_subset (k : SubscriptionCall) :
    inFlight unremembered k ⊆ inFlight unsent k := by
  intro c hc
  cases k with
  | decided d => exact hc
  | called x => cases hc
  | remembered d => cases hc
  | returned => cases hc

/-- The command of the call is the only one, and it agrees. -/
theorem Behind.arriveAlone {master replica : Finset String} {c : SetCommand String}
    (h : Behind master replica {d | some c = some d}) (hagree : ∀ x ∈ c.elems, c.Agrees master x)
    (flight : Set (SetCommand String)) : Behind master (c.apply replica) flight :=
  h.arrive c (fun _ hd => Or.inl (Option.some.inj hd).symm) fun x hx => Or.inl (hagree x hx)

variable {s s' : ReconnectState R}

namespace ReconnectInv

/-- A call begins, or returns without a command. -/
theorem withCall (h : ReconnectInv s) (hold : s.call.unsent = none) (p : UWSGatePoller R)
    (k : SubscriptionCall) (hk : k.unsent = none) (hall : p.allSensors = s.poller.allSensors) :
    ReconnectInv { s with poller := p, call := k } := by
  have hflight : ∀ c, c ∉ inFlight unsent s.call := by
    intro c hc
    cases hold.symm.trans hc
  have hrem : ∀ c, c ∉ inFlight unremembered s.call :=
    fun c hc => hflight c (inFlight_unremembered_subset _ hc)
  constructor
  · intro c hc
    cases hk.symm.trans hc
  · show Behind p.allSensors _ _
    rw [hall]
    exact h.pending.mono fun c hc => absurd hc (hrem c)
  · exact h.connected
  · intro hno conn hconn hup
    show Behind p.allSensors _ _
    rw [hall]
    exact (h.gate hno conn hconn hup).mono fun c hc => absurd hc (hflight c)
  · exact h.fresh
  · intro sensors hs
    show Behind p.allSensors _ _
    rw [hall]
    exact (h.copied sensors hs).mono fun c hc => absurd hc (hflight c)

/-- A call changes the subscriptions of the poller, and has a command for it. -/
theorem withCommand (h : ReconnectInv s) (hold : s.call.unsent = none) (p : UWSGatePoller R)
    (c : SetCommand String) (hall : p.allSensors = c.apply s.poller.allSensors) :
    ReconnectInv { s with poller := p, call := .decided c } := by
  have hissue : ∀ (ahead : SubscriptionCall → Option (SetCommand String)),
      inFlight ahead s.call ⊆ inFlight unsent s.call → ahead (.decided c) = some c →
        insert c (inFlight ahead s.call) ⊆ inFlight ahead (.decided c) := by
    intro ahead hsub hc
    refine Set.insert_subset hc fun d hd => ?_
    cases hold.symm.trans (hsub hd)
  constructor
  · rintro d hd x hx
    obtain rfl : c = d := Option.some.inj hd
    show c.Agrees p.allSensors x
    rw [hall]
    exact SetCommand.agrees_apply hx
  · show Behind p.allSensors _ _
    rw [hall]
    exact h.pending.issue c (hissue unremembered (inFlight_unremembered_subset _) rfl)
  · exact h.connected
  · intro hno conn hconn hup
    show Behind p.allSensors _ _
    rw [hall]
    exact (h.gate hno conn hconn hup).issue c (hissue unsent subset_rfl rfl)
  · exact h.fresh
  · intro sensors hs
    show Behind p.allSensors _ _
    rw [hall]
    exact (h.copied sensors hs).issue c (hissue unsent subset_rfl rfl)

/-- The command of the call reaches `pendingSubscriptions`. -/
theorem remember (h : ReconnectInv s) {c : SetCommand String} (hcall : s.call = .decided c) :
    ReconnectInv { s with
      pendingSubscriptions := UnisetPanel.remember c s.pendingSubscriptions
      call := .remembered c } := by
  have hagrees := h.agrees c (by rw [hcall]; rfl)
  have hpending := h.pending
  have hgate := h.gate
  have hcopied := h.copied
  rw [hcall] at hpending hgate hcopied
  constructor
  · rintro d hd x hx
    obtain rfl : c = d := Option.some.inj hd
    exact hagrees x hx
  · show Behind _ (UnisetPanel.remember c s.pendingSubscriptions).toFinset _
    rw [toFinset_remember]
    exact hpending.arriveAlone hagrees _
  · exact h.connected
  · exact hgate
  · exact h.fresh
  · exact hcopied

/-- The command of the call is written, or there is nothing to write it to. -/
theorem sendCommand (h : ReconnectInv s) {c : SetCommand String} (hcall : s.call = .remembered c)
    (hno : s.connecting = .no) (ok : Bool) :
    ReconnectInv { s with conn := s.sendCommand c ok, call := .returned } := by
  have hagrees := h.agrees c (by rw [hcall]; rfl)
  have hpending := h.pending
  have hgate := h.gate hno
  rw [hcall] at hpending hgate
  have hsent : ∀ conn ∈ s.sendCommand c ok, ∃ old, s.conn = some old ∧ conn = old.write c ok := by
    intro conn hconn
    unfold ReconnectState.sendCommand at hconn
    split_ifs at hconn with hon
    · obtain ⟨old, hold, rfl⟩ := Option.map_eq_some_iff.mp hconn
      exact ⟨old, hold, rfl⟩
    · exact absurd (h.connected conn hconn) hon
  constructor
  · intro d hd
    cases hd
  · exact hpending
  · intro conn hconn
    obtain ⟨old, hold, -⟩ := hsent conn hconn
    exact h.connected old hold
  · intro _ conn hconn hup
    obtain ⟨old, hold, rfl⟩ := hsent conn hconn
    obtain ⟨hup', hwrite⟩ := GateConn.write_of_up hup
    rw [hwrite]
    exact (hgate old hold hup').arriveAlone hagrees _
  · intro hne
    exact absurd hno hne
  · intro sensors hs
    cases hno.symm.trans hs

/-- `resubscribe` writes what it has copied. -/
theorem resubscribe (h : ReconnectInv s) {sensors : List String}
    (hcopied : s.connecting = .copied sensors) (ok : Bool) :
    ReconnectInv { s with
      conn := if sensors = [] then s.conn else s.conn.map (GateConn.write (.ask sensors) ok)
      connecting := .no } := by
  have hne : s.connecting ≠ .no := by
    rw [hcopied]
    nofun
  have hwritten : ∀ conn ∈ (if sensors = [] then s.conn
      else s.conn.map (GateConn.write (.ask sensors) ok)), (sensors = [] ∧ s.conn = some conn) ∨
        ∃ old, s.conn = some old ∧ conn = old.write (.ask sensors) ok := by
    intro conn hconn
    split_ifs at hconn with hnil
    · exact Or.inl ⟨hnil, hconn⟩
    · obtain ⟨old, hold, rfl⟩ := Option.map_eq_some_iff.mp hconn
      exact Or.inr ⟨old, hold, rfl⟩
  refine ⟨h.agrees, h.pending, ?_, ?_, fun hc => absurd rfl hc, nofun⟩
  · intro conn hconn
    rcases hwritten conn hconn with ⟨-, hold⟩ | ⟨old, hold, -⟩
    · exact h.connected conn hold
    · exact h.connected old hold
  intro _ conn hconn hup
  have hgate : conn.gate = sensors.toFinset := by
    rcases hwritten conn hconn with ⟨rfl, hold⟩ | ⟨old, hold, rfl⟩
    · exact h.fresh hne conn hold
    · rw [(GateConn.write_of_up hup).2, h.fresh hne old hold]
      exact Finset.empty_union _
  rw [hgate]
  exact h.copied sensors hcopied

end ReconnectInv

/-- **The step lemma.** -/
theorem ReconnectInv.step {a : ReconnectAction} (h : ReconnectInv s) (hs : s.step a = some s') :
    ReconnectInv s' := by
  cases a with
  | call x =>
    obtain ⟨hret, hs⟩ := Option.ite_none_right_eq_some.mp hs
    obtain rfl := (Option.some.inj hs).symm
    exact h.withCall (by rw [hret]; rfl) s.poller _ rfl rfl
  | lockSection range =>
    simp only [ReconnectState.step] at hs
    split at hs
    · rename_i x hcall
      have hold : s.call.unsent = none := by
        rw [hcall]
        rfl
      obtain ⟨⟨p', k⟩, hsection, rfl⟩ := Option.map_eq_some_iff.mp hs
      rcases x.lockSection_spec hsection with ⟨c, rfl, hall⟩ | ⟨hk, hall⟩
      · exact h.withCommand hold p' c hall
      · exact h.withCall hold p' k hk hall
    · cases hs
  | remember =>
    simp only [ReconnectState.step] at hs
    split at hs
    · rename_i c hcall
      obtain rfl := (Option.some.inj hs).symm
      exact h.remember hcall
    · cases hs
  | sendCommand ok =>
    simp only [ReconnectState.step] at hs
    split at hs
    · rename_i c hcall hno
      obtain rfl := (Option.some.inj hs).symm
      exact h.sendCommand hcall hno ok
    · cases hs
  | drop =>
    obtain rfl := (Option.some.inj hs).symm
    have hbroken : ∀ conn ∈ s.conn.map (fun conn => { conn with up := false }),
        conn.up = false ∧ ∃ old, s.conn = some old ∧ conn.gate = old.gate := by
      intro conn hconn
      obtain ⟨old, hold, rfl⟩ := Option.map_eq_some_iff.mp hconn
      exact ⟨rfl, old, hold, rfl⟩
    refine ⟨h.agrees, h.pending, ?_, ?_, ?_, h.copied⟩
    · intro conn hconn
      obtain ⟨-, old, hold, -⟩ := hbroken conn hconn
      exact h.connected old hold
    · intro _ conn hconn hup
      rw [(hbroken conn hconn).1] at hup
      cases hup
    · intro hne conn hconn
      obtain ⟨-, old, hold, hgate⟩ := hbroken conn hconn
      rw [hgate]
      exact h.fresh hne old hold
  | handleDisconnect =>
    obtain ⟨hno, hs⟩ := Option.ite_none_right_eq_some.mp hs
    obtain rfl := (Option.some.inj hs).symm
    exact ⟨h.agrees, h.pending, nofun, fun _ => nofun, fun _ => nofun, h.copied⟩
  | dial ok =>
    obtain ⟨⟨hno, -⟩, hs⟩ := Option.ite_none_right_eq_some.mp hs
    split_ifs at hs
    · obtain rfl := (Option.some.inj hs).symm
      refine ⟨h.agrees, h.pending, fun _ _ => rfl, nofun, ?_, nofun⟩
      rintro - conn hconn
      obtain rfl := Option.some.inj hconn
      rfl
    · exact Option.some.inj hs ▸ h
  | copyPending =>
    simp only [ReconnectState.step] at hs
    split at hs
    · rename_i hdialed
      obtain rfl := (Option.some.inj hs).symm
      refine ⟨h.agrees, h.pending, h.connected, nofun, ?_, ?_⟩
      · rintro - conn hconn
        exact h.fresh (by rw [hdialed]; nofun) conn hconn
      · intro sensors hsensors
        obtain rfl := Connecting.copied.inj hsensors
        exact h.pending.mono (inFlight_unremembered_subset _)
    · cases hs
  | resubscribe ok =>
    simp only [ReconnectState.step] at hs
    split at hs
    · rename_i sensors hcopied
      obtain rfl := (Option.some.inj hs).symm
      exact h.resubscribe hcopied ok
    · cases hs

/-! ### The main theorem -/

variable (R) in
/-- **After every reconnect** the gate has the subscriptions of the poller. -/
theorem resubscribed (serverID : String) : Resubscribed (reconnectMachine R serverID) := by
  intro as s hrun _ hcall hno conn hconn hup
  have hinv : ReconnectInv s := by
    refine Machine.run_induction (P := ReconnectInv) ?_ hrun ?_
    · intro u a v hu hstep
      exact hu.step hstep
    · exact ⟨nofun, Behind.refl _ _, nofun, fun _ => nofun, fun _ => nofun, nofun⟩
  have hnone : inFlight unsent s.call = ∅ := by
    rw [hcall]
    exact Set.eq_empty_of_forall_notMem nofun
  exact (hnone ▸ hinv.gate hno conn hconn hup).eq

/-- A subscription made while the connection is broken reaches the gate with the next one. -/
example : ((reconnectMachine Unit "s").run (reconnectMachine Unit "s").init
    [.dial true, .copyPending, .resubscribe true, .drop,
      .call (.subscribe "o" ["x"]), .lockSection [], .remember, .sendCommand true,
      .handleDisconnect, .dial true, .copyPending, .resubscribe true]).map ReconnectState.conn =
    some (some ⟨{"x"}, true⟩) := by decide

end UnisetPanel
