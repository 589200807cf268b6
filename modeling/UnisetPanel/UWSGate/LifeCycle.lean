/-
  The connection of the UWebSocketGate client (`internal/uwsgate/client.go`).

  Three kinds of goroutines pass it on: `readLoop` reads it and, when reading
  fails, drops it; `reconnectLoop` dials again; `Close` cancels the context and
  closes it.  Here each is the sequence of its sections under the lock of the
  client, and any number of them interleave.

  At any time one connection at most is open and one `readLoop` at most reads
  it.  A `Close` is final if `Connect` has created the context before it
  (`lifeCycle`).  The `Close` of a client that was never connected has nothing
  to cancel, and leaves a later `Connect` free to open a connection
  (`not_lifeCycle_any`).
-/
import UnisetPanel.Calls

namespace UnisetPanel

/-- The one call of `Connect`. -/
inductive ConnectCall where
  | notCalled
  /-- the context is created -/
  | prepared
  | returned
  deriving DecidableEq, Repr

/-- Where a `readLoop` is. -/
inductive ReaderPhase where
  /-- at the top of its loop -/
  | top
  /-- the context was not cancelled -/
  | checked
  | reading (conn : ℕ)
  /-- reading has failed, and `handleDisconnect` is called -/
  | failed
  /-- `handleDisconnect` has dropped the connection -/
  | disconnected
  /-- `handleDisconnect` has started a `reconnectLoop` -/
  | ending
  | finished
  deriving DecidableEq, Repr

/-- Where a `reconnectLoop` is. -/
inductive LoopPhase where
  | waiting
  /-- the interval has passed, and `connect` is called -/
  | connecting
  | returned
  deriving DecidableEq, Repr

/-- A call of `Close` whose section under the lock has been executed. -/
structure Closer where
  /-- `Connect` had created the context before -/
  late : Bool
  returned : Bool
  deriving DecidableEq, Repr

/-- The state of a client. -/
structure ClientLife where
  /-- the context given to `Connect` is cancelled -/
  parentDone : Bool
  /-- the context of the client, and whether it is cancelled -/
  ctx : Option Bool
  /-- the connections opened so far, and whether each is open -/
  conns : List Bool
  /-- the field `conn` -/
  conn : Option ℕ
  connected : Bool
  connect : ConnectCall
  readers : List ReaderPhase
  loops : List LoopPhase
  closers : List Closer

/-- One atomic step. -/
inductive LifeAction where
  /-- the first section of `Connect` -/
  | connect
  /-- `connect`, called by `Connect`; `ok` if a dial succeeds -/
  | dial (ok : Bool)
  /-- the context given to `Connect` is cancelled -/
  | cancelParent
  /-- the section of `Close` -/
  | close
  /-- `wg.Wait` returns in the `i`-th `Close` -/
  | closeReturns (i : ℕ)
  /-- the next step of the `i`-th `readLoop`; `ok` if `ReadMessage` succeeds -/
  | read (i : ℕ) (ok : Bool)
  /-- the next step of the `i`-th `reconnectLoop`; `timer` if its interval has passed -/
  | loop (i : ℕ) (timer : Bool) (ok : Bool)
  deriving DecidableEq, Repr

namespace ClientLife

variable (s : ClientLife)

/-- `connect`: with the context cancelled every dial fails.  Second, that it returns without
error. -/
def tryConnect (ok : Bool) : ClientLife × Bool :=
  if s.connected then (s, true)
  else if ok = true ∧ s.ctx = some false then
    ({ s with
        conns := s.conns ++ [true]
        conn := some s.conns.length
        connected := true
        readers := s.readers ++ [.top] }, true)
  else (s, false)

/-- The connections, after the one in the field is closed. -/
def closeConn : List Bool :=
  match s.conn with
  | none => s.conns
  | some c => s.conns.set c false

/-- The section of `handleDisconnect`. -/
def handleDisconnect : ClientLife :=
  { s with conns := s.closeConn, connected := false, conn := none }

/-- The section of `Close`. -/
def close : ClientLife :=
  { s with
    ctx := s.ctx.map fun _ => true
    conns := s.closeConn
    connected := false
    closers := s.closers ++ [⟨s.ctx.isSome, false⟩] }

/-- The next step of a `readLoop`. -/
def readStep (ok : Bool) : ReaderPhase → Option (ClientLife × ReaderPhase)
  -- the `select` on the context
  | .top => some (s, if s.ctx = some true then .finished else .checked)
  | .checked =>
    match s.conn with
    | none => some (s, .finished)
    | some c => some (s, .reading c)
  | .reading _ => some (s, if ok then .top else .failed)
  | .failed => some (s.handleDisconnect, .disconnected)
  -- `go c.reconnectLoop()`, which the wait group does not count
  | .disconnected => some ({ s with loops := s.loops ++ [.waiting] }, .ending)
  | .ending => some (s, .finished)
  | .finished => none

/-- The next step of a `reconnectLoop`. -/
def loopStep (timer ok : Bool) : LoopPhase → Option (ClientLife × LoopPhase)
  | .waiting =>
    -- the `select` may take the timer also when the context is cancelled
    if timer then some (s, .connecting)
    else if s.ctx = some true then some (s, .returned)
    else none
  | .connecting => some ((s.tryConnect ok).1, if (s.tryConnect ok).2 then .returned else .waiting)
  | .returned => none

/-- One step. -/
def step : LifeAction → Option ClientLife
  | .connect =>
    if s.connect = .notCalled then
      if s.connected then some { s with connect := .returned }
      else some { s with ctx := some s.parentDone, connect := .prepared }
    else none
  | .dial ok =>
    if s.connect = .prepared then some { (s.tryConnect ok).1 with connect := .returned } else none
  | .cancelParent => some { s with parentDone := true, ctx := s.ctx.map fun _ => true }
  | .close => some s.close
  | .closeReturns i =>
    s.closers[i]?.bind fun c =>
      -- the wait group is empty
      if ∀ r ∈ s.readers, r = .finished then
        some { s with closers := s.closers.set i { c with returned := true } }
      else none
  | .read i ok =>
    s.readers[i]?.bind fun r =>
      (s.readStep ok r).map fun x => { x.1 with readers := x.1.readers.set i x.2 }
  | .loop i timer ok =>
    s.loops[i]?.bind fun l =>
      (s.loopStep timer ok l).map fun x => { x.1 with loops := x.1.loops.set i x.2 }

end ClientLife

/-- A client from `NewClient`, with all its goroutines and any number of calls of `Close`. -/
def lifeMachine : Machine ClientLife LifeAction where
  init := ⟨false, none, [], none, false, .notCalled, [], [], []⟩
  step := ClientLife.step

/-- A `readLoop` that has not dropped its connection. -/
def ReaderPhase.isActive : ReaderPhase → Bool
  | top => true
  | checked => true
  | reading _ => true
  | failed => true
  | _ => false

/-- One connection at most is open, and one `readLoop` at most reads it. -/
structure ClientLife.OneConnection (s : ClientLife) : Prop where
  conns : ∀ i j : ℕ, s.conns[i]? = some true → s.conns[j]? = some true → i = j
  readers : s.readers.countP ReaderPhase.isActive ≤ 1

/-- The client is not connected, and all of its `n` connections are closed. -/
structure ClientLife.Closed (s : ClientLife) (n : ℕ) : Prop where
  connected : s.connected = false
  closed : ∀ c ∈ s.conns, c = false
  length : s.conns.length = n

/-- **The life cycle of the connection.** There is one connection at most, and once a `Close` that
counts has returned, the client is closed and stays so, without opening another connection. -/
def LifeCycle (M : Machine ClientLife LifeAction) (counts : Closer → Prop) : Prop :=
  ∀ as s, M.run M.init as = some s → s.OneConnection ∧
    ((∃ c ∈ s.closers, c.returned = true ∧ counts c) →
      ∀ bs t, M.run s bs = some t → t.Closed s.conns.length)

/-! ### `Close` before `Connect` -/

/-- **It fails** if every `Close` counts: one returns before `Connect` is called. -/
theorem not_lifeCycle_any : ¬ LifeCycle lifeMachine fun _ => True := by
  intro h
  have hclosed := (h [.close, .closeReturns 0] _ rfl).2 ⟨_, List.mem_singleton_self _, rfl, trivial⟩
    [.connect, .dial true] _ rfl
  exact absurd hclosed.connected (by decide)

/-! ### The invariant -/

/-- What ties the flag, the pointer, the context and the readers together. -/
structure LifeInv (s : ClientLife) : Prop where
  open_conn : ∀ i : ℕ, s.conns[i]? = some true → s.conn = some i
  closed : s.connected = false → ∀ i : ℕ, s.conns[i]? ≠ some true
  active : s.readers.countP ReaderPhase.isActive ≤ 1
  /-- without a connection nobody reads, unless the context is cancelled -/
  idle : s.connected = false → s.readers.countP ReaderPhase.isActive = 0 ∨ s.ctx = some true
  fresh : s.ctx = none → s.connected = false
  notCalled : s.connect = .notCalled → s.ctx = none
  late : ∀ c ∈ s.closers, c.late = true → s.ctx = some true ∧ s.connected = false

variable {s s' : ClientLife}

theorem getElem?_closeConn {i : ℕ} (h : s.closeConn[i]? = some true) :
    s.conns[i]? = some true ∧ s.conn ≠ some i := by
  unfold ClientLife.closeConn at h
  split at h
  · rename_i hnone
    exact ⟨h, by rw [hnone]; nofun⟩
  · rename_i c hc
    by_cases hci : c = i
    · subst hci
      rw [List.getElem?_set] at h
      simp at h
    · rw [List.getElem?_set_ne hci] at h
      exact ⟨h, fun heq => hci (Option.some.inj (hc.symm.trans heq))⟩

/-- Nothing is open after the connection in the field is closed. -/
theorem LifeInv.closeConn (h : LifeInv s) (i : ℕ) : s.closeConn[i]? ≠ some true := by
  intro hi
  obtain ⟨hold, hne⟩ := getElem?_closeConn hi
  exact hne (h.open_conn i hold)

theorem length_closeConn (s : ClientLife) : s.closeConn.length = s.conns.length := by
  unfold ClientLife.closeConn
  split
  · rfl
  · exact List.length_set

/-- What a step of a `readLoop` does: it drops the connection, or leaves the client as it is but for
a new `reconnectLoop`. -/
theorem readStep_cases {ok : Bool} {r r' : ReaderPhase} {t : ClientLife}
    (h : s.readStep ok r = some (t, r')) :
    (r = .failed ∧ r' = .disconnected ∧ t = s.handleDisconnect) ∨
      (r'.isActive = true → r.isActive = true) ∧ ∃ loops, t = { s with loops := loops } := by
  cases r with
  | top =>
    cases h
    exact Or.inr ⟨fun _ => rfl, s.loops, rfl⟩
  | checked =>
    simp only [ClientLife.readStep] at h
    split at h
    · cases h
      exact Or.inr ⟨fun _ => rfl, s.loops, rfl⟩
    · cases h
      exact Or.inr ⟨fun _ => rfl, s.loops, rfl⟩
  | reading c =>
    cases h
    exact Or.inr ⟨fun _ => rfl, s.loops, rfl⟩
  | failed =>
    cases h
    exact Or.inl ⟨rfl, rfl, rfl⟩
  | disconnected =>
    cases h
    exact Or.inr ⟨fun hactive => absurd hactive Bool.false_ne_true, s.loops ++ [.waiting], rfl⟩
  | ending =>
    cases h
    exact Or.inr ⟨fun hactive => absurd hactive Bool.false_ne_true, s.loops, rfl⟩
  | finished => cases h

/-- What a step of a `reconnectLoop` does: nothing to the client, or `connect`. -/
theorem loopStep_cases {timer ok : Bool} {l l' : LoopPhase} {t : ClientLife}
    (h : s.loopStep timer ok l = some (t, l')) : t = s ∨ t = (s.tryConnect ok).1 := by
  cases l with
  | waiting =>
    simp only [ClientLife.loopStep] at h
    split_ifs at h
    · cases h
      exact Or.inl rfl
    · cases h
      exact Or.inl rfl
  | connecting =>
    cases h
    exact Or.inr rfl
  | returned => cases h

/-- **`connect`**: it opens a connection only when there is none, and nobody reads. -/
theorem LifeInv.tryConnect (h : LifeInv s) (ok : Bool) : LifeInv (s.tryConnect ok).1 := by
  unfold ClientLife.tryConnect
  split_ifs with hconnected hdial
  · exact h
  · have hoff : s.connected = false := Bool.eq_false_iff.mpr hconnected
    have hnobody : s.readers.countP ReaderPhase.isActive = 0 := by
      refine (h.idle hoff).resolve_right fun hc => ?_
      rw [hdial.2] at hc
      cases hc
    refine ⟨?_, nofun, ?_, nofun, ?_, h.notCalled, ?_⟩
    · intro i hi
      rcases Nat.lt_or_ge i s.conns.length with hlt | hge
      · rw [List.getElem?_append_left hlt] at hi
        exact absurd hi (h.closed hoff i)
      · rw [List.getElem?_append_right hge] at hi
        have := (List.getElem?_eq_some_iff.mp hi).1
        exact congrArg some (Nat.le_antisymm (Nat.le_of_sub_eq_zero (Nat.lt_one_iff.mp this)) hge).symm
    · show (s.readers ++ [ReaderPhase.top]).countP ReaderPhase.isActive ≤ 1
      rw [List.countP_append, hnobody]
      exact Nat.le_refl 1
    · intro hnone
      rw [show s.ctx = none from hnone] at hdial
      cases hdial.2
    · intro c hc hlate
      rw [(h.late c hc hlate).1] at hdial
      cases hdial.2
  · exact h

/-- A `readLoop` that does not drop its connection, and does not come to life again. -/
theorem LifeInv.setReader (h : LifeInv s) {i : ℕ} {r r' : ReaderPhase} (hr : s.readers[i]? = some r)
    (hactive : r'.isActive = true → r.isActive = true) (loops : List LoopPhase) :
    LifeInv { s with readers := s.readers.set i r', loops := loops } := by
  have hle : (s.readers.set i r').countP ReaderPhase.isActive ≤
      s.readers.countP ReaderPhase.isActive := by
    have hcount := Calls.countP_set hr r' ReaderPhase.isActive
    have hmono : r'.isActive.toNat ≤ r.isActive.toNat := by
      cases hb : r'.isActive with
      | false => exact Nat.zero_le _
      | true => exact Nat.le_of_eq (congrArg Bool.toNat (hactive hb)).symm
    omega
  refine ⟨h.open_conn, h.closed, Nat.le_trans hle h.active, fun hoff => ?_, h.fresh, h.notCalled,
    h.late⟩
  exact (h.idle hoff).imp (fun hzero => Nat.le_zero.mp (Nat.le_trans hle (Nat.le_of_eq hzero))) id

/-- A `readLoop` that drops its connection. -/
theorem LifeInv.handleDisconnect (h : LifeInv s) {i : ℕ} (hr : s.readers[i]? = some .failed) :
    LifeInv { s.handleDisconnect with
      readers := s.handleDisconnect.readers.set i .disconnected } := by
  have hzero : (s.readers.set i .disconnected).countP ReaderPhase.isActive = 0 := by
    have hcount : (s.readers.set i .disconnected).countP ReaderPhase.isActive + 1 =
        s.readers.countP ReaderPhase.isActive :=
      Calls.countP_set hr .disconnected ReaderPhase.isActive
    have hactive := h.active
    omega
  refine ⟨fun i hi => absurd hi (h.closeConn i), fun _ => h.closeConn, ?_, fun _ => Or.inl hzero,
    fun _ => rfl, h.notCalled, fun c hc hlate => ⟨(h.late c hc hlate).1, rfl⟩⟩
  show (s.readers.set i .disconnected).countP ReaderPhase.isActive ≤ 1
  rw [hzero]
  exact Nat.zero_le 1

/-- The section of `Close`: with a context it is cancelled, and without one there was never a
connection. -/
theorem LifeInv.close (h : LifeInv s) : LifeInv s.close := by
  have hmap : ∀ {b : Bool}, s.ctx = some b → s.close.ctx = some true := by
    intro b hb
    show s.ctx.map _ = _
    rw [hb]
    rfl
  refine ⟨fun i hi => absurd hi (h.closeConn i), fun _ => h.closeConn, h.active, fun _ => ?_,
    fun _ => rfl, fun hc => ?_, ?_⟩
  · cases hctx : s.ctx with
    | none => exact Or.inl ((h.idle (h.fresh hctx)).resolve_right (by rw [hctx]; nofun))
    | some b => exact Or.inr (hmap hctx)
  · show s.ctx.map _ = _
    rw [h.notCalled hc]
    rfl
  · intro c hc hlate
    rcases List.mem_append.mp hc with hc | hc
    · exact ⟨hmap (h.late c hc hlate).1, rfl⟩
    · rw [List.mem_singleton.mp hc] at hlate
      obtain ⟨b, hb⟩ := Option.isSome_iff_exists.mp hlate
      exact ⟨hmap hb, rfl⟩

/-- **The step lemma.** -/
theorem LifeInv.step {a : LifeAction} (h : LifeInv s) (hs : s.step a = some s') : LifeInv s' := by
  cases a with
  | connect =>
    obtain ⟨hcall, hs⟩ := Option.ite_none_right_eq_some.mp hs
    have hnone := h.notCalled hcall
    have hoff := h.fresh hnone
    rw [if_neg (by rw [hoff]; exact Bool.false_ne_true)] at hs
    obtain rfl := (Option.some.inj hs).symm
    refine ⟨h.open_conn, h.closed, h.active, fun _ => ?_, fun hctx => ?_, fun hc => ?_,
      fun c hc hlate => ?_⟩
    · refine Or.inl ((h.idle hoff).resolve_right ?_)
      rw [hnone]
      exact (Option.some_ne_none true).symm
    · cases hctx
    · cases hc
    · rw [(h.late c hc hlate).1] at hnone
      cases hnone
  | dial ok =>
    obtain ⟨-, hs⟩ := Option.ite_none_right_eq_some.mp hs
    obtain rfl := (Option.some.inj hs).symm
    have h' := h.tryConnect ok
    exact ⟨h'.open_conn, h'.closed, h'.active, h'.idle, h'.fresh,
      fun hc => ConnectCall.noConfusion hc, h'.late⟩
  | cancelParent =>
    obtain rfl := (Option.some.inj hs).symm
    refine ⟨h.open_conn, h.closed, h.active, fun hoff => ?_, fun hnone => ?_, fun hcall => ?_,
      fun c hc hlate => ⟨?_, (h.late c hc hlate).2⟩⟩
    · refine (h.idle hoff).imp id fun hdone => ?_
      show s.ctx.map _ = _
      rw [hdone]
      rfl
    · exact h.fresh (Option.map_eq_none_iff.mp hnone)
    · show s.ctx.map _ = _
      rw [h.notCalled hcall]
      rfl
    · show s.ctx.map _ = _
      rw [(h.late c hc hlate).1]
      rfl
  | close =>
    obtain rfl := (Option.some.inj hs).symm
    exact h.close
  | closeReturns i =>
    obtain ⟨c, hc, hs⟩ := Option.bind_eq_some_iff.mp hs
    obtain ⟨-, hs⟩ := Option.ite_none_right_eq_some.mp hs
    obtain rfl := (Option.some.inj hs).symm
    refine ⟨h.open_conn, h.closed, h.active, h.idle, h.fresh, h.notCalled, fun d hd hlate => ?_⟩
    rcases List.mem_or_eq_of_mem_set hd with hd | rfl
    · exact h.late d hd hlate
    · exact h.late c (List.mem_of_getElem? hc) hlate
  | read i ok =>
    obtain ⟨r, hr, hs⟩ := Option.bind_eq_some_iff.mp hs
    obtain ⟨⟨t, r'⟩, hstep, rfl⟩ := Option.map_eq_some_iff.mp hs
    rcases readStep_cases hstep with ⟨rfl, rfl, rfl⟩ | ⟨hactive, loops, rfl⟩
    · exact h.handleDisconnect hr
    · exact h.setReader hr hactive loops
  | loop i timer ok =>
    obtain ⟨l, hl, hs⟩ := Option.bind_eq_some_iff.mp hs
    obtain ⟨⟨t, l'⟩, hstep, rfl⟩ := Option.map_eq_some_iff.mp hs
    have h' : LifeInv t := by
      rcases loopStep_cases hstep with rfl | rfl
      · exact h
      · exact h.tryConnect ok
    exact ⟨h'.open_conn, h'.closed, h'.active, h'.idle, h'.fresh, h'.notCalled, h'.late⟩

theorem lifeInv_of_run {as : List LifeAction} (h : lifeMachine.run lifeMachine.init as = some s) :
    LifeInv s := by
  refine Machine.run_induction (P := LifeInv) (fun _ _ _ hu hstep => hu.step hstep) h ?_
  exact ⟨nofun, fun _ _ => nofun, Nat.zero_le 1, fun _ => Or.inl rfl, fun _ => rfl, fun _ => rfl,
    nofun⟩

/-! ### After `Close` -/

/-- The context is cancelled and the client is not connected. -/
structure Cancelled (s : ClientLife) : Prop where
  ctx : s.ctx = some true
  connected : s.connected = false

theorem Cancelled.tryConnect (h : Cancelled s) (ok : Bool) : s.tryConnect ok = (s, false) := by
  unfold ClientLife.tryConnect
  rw [if_neg (by rw [h.connected]; exact Bool.false_ne_true), if_neg]
  rw [h.ctx]
  rintro ⟨-, hc⟩
  cases hc

/-- **It is for good**: no step connects it again. -/
theorem Cancelled.step {a : LifeAction} (h : Cancelled s) (hinv : LifeInv s)
    (hs : s.step a = some s') : Cancelled s' ∧ s'.conns.length = s.conns.length := by
  cases a with
  | connect =>
    obtain ⟨hcall, -⟩ := Option.ite_none_right_eq_some.mp hs
    cases h.ctx.symm.trans (hinv.notCalled hcall)
  | dial ok =>
    obtain ⟨-, hs⟩ := Option.ite_none_right_eq_some.mp hs
    rw [h.tryConnect ok] at hs
    obtain rfl := (Option.some.inj hs).symm
    exact ⟨⟨h.ctx, h.connected⟩, rfl⟩
  | cancelParent =>
    obtain rfl := (Option.some.inj hs).symm
    refine ⟨⟨?_, h.connected⟩, rfl⟩
    show s.ctx.map _ = _
    rw [h.ctx]
    rfl
  | close =>
    obtain rfl := (Option.some.inj hs).symm
    refine ⟨⟨?_, rfl⟩, length_closeConn s⟩
    show s.ctx.map _ = _
    rw [h.ctx]
    rfl
  | closeReturns i =>
    obtain ⟨c, -, hs⟩ := Option.bind_eq_some_iff.mp hs
    obtain ⟨-, hs⟩ := Option.ite_none_right_eq_some.mp hs
    obtain rfl := (Option.some.inj hs).symm
    exact ⟨⟨h.ctx, h.connected⟩, rfl⟩
  | read i ok =>
    obtain ⟨r, -, hs⟩ := Option.bind_eq_some_iff.mp hs
    obtain ⟨⟨t, r'⟩, hstep, rfl⟩ := Option.map_eq_some_iff.mp hs
    rcases readStep_cases hstep with ⟨rfl, rfl, rfl⟩ | ⟨-, loops, rfl⟩
    · exact ⟨⟨h.ctx, rfl⟩, length_closeConn s⟩
    · exact ⟨⟨h.ctx, h.connected⟩, rfl⟩
  | loop i timer ok =>
    obtain ⟨l, -, hs⟩ := Option.bind_eq_some_iff.mp hs
    obtain ⟨⟨t, l'⟩, hstep, rfl⟩ := Option.map_eq_some_iff.mp hs
    have ht : t = s := by
      rcases loopStep_cases hstep with rfl | rfl
      · rfl
      · rw [h.tryConnect ok]
    rw [ht]
    exact ⟨⟨h.ctx, h.connected⟩, rfl⟩

theorem Cancelled.run {as : List LifeAction} (h : Cancelled s) (hinv : LifeInv s)
    (hs : lifeMachine.run s as = some s') : s'.Closed s.conns.length := by
  obtain ⟨hinv', hcancelled, hlength⟩ := Machine.run_induction
    (P := fun t : ClientLife => LifeInv t ∧ Cancelled t ∧ t.conns.length = s.conns.length)
    (fun u a v hu hstep => by
      obtain ⟨hinv, hcancelled, hlength⟩ := hu
      obtain ⟨hcancelled', hlength'⟩ := hcancelled.step hinv hstep
      exact ⟨hinv.step hstep, hcancelled', hlength'.trans hlength⟩) hs ⟨hinv, h, rfl⟩
  refine ⟨hcancelled.connected, fun c hc => ?_, hlength⟩
  obtain ⟨i, hi⟩ := List.mem_iff_getElem?.mp hc
  cases c with
  | false => rfl
  | true => exact absurd hi (hinv'.closed hcancelled.connected i)

/-! ### The main theorem -/

/-- **The life cycle of the connection**: a `Close` counts if `Connect` had created the context. -/
theorem lifeCycle : LifeCycle lifeMachine fun c => c.late = true := by
  intro as s hrun
  have hinv := lifeInv_of_run hrun
  refine ⟨⟨fun i j hi hj => ?_, hinv.active⟩, ?_⟩
  · exact Option.some.inj ((hinv.open_conn i hi).symm.trans (hinv.open_conn j hj))
  · rintro ⟨c, hc, -, hlate⟩ bs t hbs
    obtain ⟨hctx, hconnected⟩ := hinv.late c hc hlate
    exact Cancelled.run ⟨hctx, hconnected⟩ hinv hbs

end UnisetPanel
