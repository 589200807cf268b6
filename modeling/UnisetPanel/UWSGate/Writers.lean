/-
  Writing to the WebSocket (`internal/uwsgate/client.go`).

  A connection may have one concurrent writer.  `sendCommand` writes under the
  read lock of the client, `resubscribe` inside `connect` under the write lock.
  So no command is written beside a re-subscription, but two commands may be
  (`not_singleWriter`).  A run has one writer at a time exactly if no command
  begins to be written while another is (`singleWriter_iff`).
-/
import UnisetPanel.RWMutex
import UnisetPanel.UWSGate.Client

namespace UnisetPanel

/-- The fields of the client that the writers share. -/
structure WriterState where
  mu : RWMutex
  connected : Bool
  /-- a connection is named by its number -/
  conn : Option ℕ
  /-- how many were established -/
  dialed : ℕ
  pendingSubscriptions : List String

/-- The methods of the client that run in parallel; `connect` is called by `Connect` and by
`reconnectLoop`. -/
inductive ClientMethod where
  | subscribe (sensors : List String)
  | unsubscribe (sensors : List String)
  | get (sensors : List String)
  | set (values : List (String × Int64))
  | connect
  | handleDisconnect
  deriving DecidableEq, Repr

/-- How far a method has got. -/
inductive ClientCall where
  | called (x : ClientMethod)
  /-- `sendCommand` is called -/
  | sendCommand
  /-- `sendCommand` holds the read lock and has found a connection -/
  | ready
  /-- a command is being written -/
  | writing (conn : ℕ)
  /-- `connect` holds the write lock -/
  | dialing
  /-- `resubscribe` is called -/
  | resubscribe
  /-- the command of `resubscribe` is being written -/
  | resubscribing (conn : ℕ)
  | returned
  deriving DecidableEq, Repr

namespace ClientCall

/-- The section before `sendCommand`: `pendingSubscriptions` may change. -/
def command (nothing : Bool) (s : WriterState) (pendingSubscriptions : List String) :
    WriterState × ClientCall :=
  if nothing then (s, returned)
  else ({ s with pendingSubscriptions := pendingSubscriptions }, sendCommand)

/-- The lock is released, and the method returns. -/
def release (unlock : RWMutex → Option RWMutex) (s : WriterState) :
    Option (WriterState × ClientCall) :=
  (unlock s.mu).map fun mu => ({ s with mu := mu }, returned)

/-- The next step of a call; `ok` if a dial succeeds. -/
def next (ok : Bool) (s : WriterState) : ClientCall → Option (WriterState × ClientCall)
  | called (.subscribe sensors) =>
    some (command sensors.isEmpty s (remember (.ask sensors) s.pendingSubscriptions))
  | called (.unsubscribe sensors) =>
    some (command sensors.isEmpty s (remember (.del sensors) s.pendingSubscriptions))
  | called (.get sensors) => some (command sensors.isEmpty s s.pendingSubscriptions)
  | called (.set values) => some (command values.isEmpty s s.pendingSubscriptions)
  | called .connect =>
    s.mu.lock.map fun mu =>
      if s.connected then (s, returned) else ({ s with mu := mu }, dialing)
  -- nothing is done between taking and releasing the lock that others could see
  | called .handleDisconnect =>
    s.mu.lock.map fun _ => ({ s with connected := false, conn := none }, returned)
  | sendCommand =>
    s.mu.rLock.map fun mu =>
      if s.connected = false ∨ s.conn = none then (s, returned) else ({ s with mu := mu }, ready)
  | ready => s.conn.map fun conn => (s, writing conn)
  | writing _ => release RWMutex.rUnlock s
  | dialing =>
    if ok then
      some ({ s with connected := true, conn := some s.dialed, dialed := s.dialed + 1 }, resubscribe)
    else release RWMutex.unlock s
  -- it goes on under the lock of `connect`
  | resubscribe =>
    if s.pendingSubscriptions = [] then release RWMutex.unlock s
    else s.conn.map fun conn => (s, resubscribing conn)
  | resubscribing _ => release RWMutex.unlock s
  | returned => none

/-- The call holds the lock for reading. -/
def reads : ClientCall → Bool
  | ready => true
  | writing _ => true
  | _ => false

/-- The call holds the lock for writing. -/
def writes : ClientCall → Bool
  | dialing => true
  | resubscribe => true
  | resubscribing _ => true
  | _ => false

/-- A command is being written. -/
def isWriting : ClientCall → Bool
  | writing _ => true
  | _ => false

/-- The call writes to the connection. -/
def writesTo (conn : ℕ) (k : ClientCall) : Bool :=
  decide (k = writing conn ∨ k = resubscribing conn)

end ClientCall

open ClientCall

/-- All interleavings of the methods, from `NewClient`. -/
def writerMachine : Machine (Calls WriterState ClientCall) (CallAction ClientMethod Bool) :=
  Calls.machine ⟨.free, false, none, 0, []⟩ called ClientCall.next

/-- No connection has two writes in progress. -/
def SingleWriter (s : Calls WriterState ClientCall) : Prop :=
  ∀ conn, s.calls.countP (writesTo conn) ≤ 1

/-- A command begins to be written while no other is. -/
def NoOtherCommand (s : Calls WriterState ClientCall) : CallAction ClientMethod Bool → Prop
  | .call _ => True
  | .move i _ => s.calls[i]? = some ready → s.calls.countP isWriting = 0

/-! ### Two commands -/

/-- Two calls of `Get` find the connection, and both begin to write. -/
def twoGetsRun : List (CallAction ClientMethod Bool) :=
  [.call .connect, .move 0 true, .move 0 true, .move 0 true,
    .call (.get ["x"]), .call (.get ["y"]), .move 1 true, .move 2 true, .move 1 true, .move 2 true,
    .move 1 true, .move 2 true]

/-- **It fails**: both write to connection 0. -/
theorem not_singleWriter :
    ¬ ∀ as s, writerMachine.run writerMachine.init as = some s → SingleWriter s := by
  intro h
  exact absurd (h twoGetsRun _ rfl 0) (by decide)

/-! ### What a step does -/

section

variable {ok : Bool} {t t' : WriterState} {k k' : ClientCall}

theorem command_eq {nothing : Bool} {pending : List String}
    (h : command nothing t pending = (t', k')) :
    t'.mu = t.mu ∧ t'.conn = t.conn ∧ (k' = returned ∨ k' = sendCommand) := by
  cases nothing with
  | true =>
    cases h
    exact ⟨rfl, rfl, Or.inl rfl⟩
  | false =>
    cases h
    exact ⟨rfl, rfl, Or.inr rfl⟩

theorem release_eq_some {unlock : RWMutex → Option RWMutex}
    (h : release unlock t = some (t', k')) :
    unlock t.mu = some t'.mu ∧ t'.conn = t.conn ∧ k' = returned := by
  obtain ⟨mu, hmu, heq⟩ := Option.map_eq_some_iff.mp h
  cases heq
  exact ⟨hmu, rfl, rfl⟩

/-- What a step does to the lock and to the connection, and when it begins to write. -/
structure ClientStep (t : WriterState) (k : ClientCall) (t' : WriterState) (k' : ClientCall) :
    Prop where
  moves : RWMutex.Moves t.mu t'.mu (reads k) (writes k) (reads k') (writes k')
  /-- the connection changes in the hands of whoever holds the lock for writing -/
  conn : t'.conn = t.conn ∨ writes k = true ∨ t.mu.lock ≠ none
  /-- a write begins on the connection -/
  target : ∀ conn, k'.writesTo conn = true → t'.conn = t.conn ∧ t.conn = some conn
  begins : isWriting k' = true → k = ready

theorem clientStep_command {x : ClientMethod} {nothing : Bool} {pending : List String}
    (h : command nothing t pending = (t', k')) : ClientStep t (called x) t' k' := by
  obtain ⟨hmu, hconn, rfl | rfl⟩ := command_eq h
  · exact ⟨hmu ▸ RWMutex.Moves.refl _ _ _, Or.inl hconn, nofun, nofun⟩
  · exact ⟨hmu ▸ RWMutex.Moves.refl _ _ _, Or.inl hconn, nofun, nofun⟩

theorem clientStep_release {unlock : RWMutex → Option RWMutex}
    (hmoves : ∀ {m m'}, unlock m = some m' → RWMutex.Moves m m' (reads k) (writes k) false false)
    (h : release unlock t = some (t', k')) : ClientStep t k t' k' := by
  obtain ⟨hmu, hconn, rfl⟩ := release_eq_some h
  exact ⟨hmoves hmu, Or.inl hconn, nofun, nofun⟩

/-- **Every step.** -/
theorem clientStep_next (h : k.next ok t = some (t', k')) : ClientStep t k t' k' := by
  cases k with
  | called x =>
    cases x with
    | subscribe sensors => exact clientStep_command (Option.some.inj h)
    | unsubscribe sensors => exact clientStep_command (Option.some.inj h)
    | get sensors => exact clientStep_command (Option.some.inj h)
    | set values => exact clientStep_command (Option.some.inj h)
    | connect =>
      obtain ⟨mu, hmu, heq⟩ := Option.map_eq_some_iff.mp h
      split_ifs at heq
      · cases heq
        exact ⟨RWMutex.Moves.refl _ _ _, Or.inl rfl, nofun, nofun⟩
      · cases heq
        exact ⟨RWMutex.moves_lock hmu, Or.inl rfl, nofun, nofun⟩
    | handleDisconnect =>
      obtain ⟨mu, hmu, heq⟩ := Option.map_eq_some_iff.mp h
      cases heq
      refine ⟨RWMutex.Moves.refl _ _ _, Or.inr (Or.inr ?_), nofun, nofun⟩
      rw [hmu]
      nofun
  | sendCommand =>
    obtain ⟨mu, hmu, heq⟩ := Option.map_eq_some_iff.mp h
    split_ifs at heq
    · cases heq
      exact ⟨RWMutex.Moves.refl _ _ _, Or.inl rfl, nofun, nofun⟩
    · cases heq
      exact ⟨RWMutex.moves_rLock hmu, Or.inl rfl, nofun, nofun⟩
  | ready =>
    obtain ⟨conn, hconn, heq⟩ := Option.map_eq_some_iff.mp h
    cases heq
    refine ⟨RWMutex.Moves.refl _ _ _, Or.inl rfl, fun conn' hto => ⟨rfl, ?_⟩, fun _ => rfl⟩
    rcases of_decide_eq_true hto with heq | heq
    · rw [hconn, writing.inj heq]
    · cases heq
  | writing conn => exact clientStep_release RWMutex.moves_rUnlock h
  | dialing =>
    simp only [ClientCall.next] at h
    split_ifs at h
    · cases h
      exact ⟨RWMutex.Moves.refl _ _ _, Or.inr (Or.inl rfl), nofun, nofun⟩
    · exact clientStep_release RWMutex.moves_unlock h
  | resubscribe =>
    simp only [ClientCall.next] at h
    split_ifs at h
    · exact clientStep_release RWMutex.moves_unlock h
    · obtain ⟨conn, hconn, heq⟩ := Option.map_eq_some_iff.mp h
      cases heq
      refine ⟨RWMutex.Moves.refl _ _ _, Or.inl rfl, fun conn' hto => ⟨rfl, ?_⟩, nofun⟩
      rcases of_decide_eq_true hto with heq | heq
      · cases heq
      · rw [hconn, resubscribing.inj heq]
  | resubscribing conn => exact clientStep_release RWMutex.moves_unlock h
  | returned => cases h

end

/-! ### The invariant -/

/-- Who holds the lock, what is written to, and that one command at most is. -/
structure WriterInv (s : Calls WriterState ClientCall) : Prop where
  held : s.shared.mu.HeldBy reads writes s.calls
  conn : ∀ k ∈ s.calls, ∀ conn, k.writesTo conn = true → s.shared.conn = some conn
  one : s.calls.countP isWriting ≤ 1

variable {s s' : Calls WriterState ClientCall}

/-- **One writer**: a re-subscription excludes commands, and there is one command. -/
theorem WriterInv.singleWriter (h : WriterInv s) : SingleWriter s := by
  intro conn
  by_cases hw : ∃ k ∈ s.calls, writes k = true
  · obtain ⟨k, hk, hwrites⟩ := hw
    refine (List.countP_mono_left fun k' hk' hto => ?_).trans h.held.countP_writes_le_one
    rcases of_decide_eq_true hto with rfl | rfl
    · exact absurd (h.held.reads_eq_false hk hwrites hk') (Bool.noConfusion)
    · rfl
  · refine (List.countP_mono_left fun k' hk' hto => ?_).trans h.one
    rcases of_decide_eq_true hto with rfl | rfl
    · rfl
    · exact absurd ⟨_, hk', rfl⟩ hw

/-- What a call writes to, if it holds the lock for that. -/
theorem reads_or_writes_of_writesTo {conn : ℕ} {k : ClientCall} (h : k.writesTo conn = true) :
    reads k = true ∨ writes k = true := by
  rcases of_decide_eq_true h with rfl | rfl
  · exact Or.inl rfl
  · exact Or.inr rfl

/-- **The step lemma.** -/
theorem WriterInv.step {a : CallAction ClientMethod Bool} (h : WriterInv s)
    (hother : NoOtherCommand s a) (hs : writerMachine.step s a = some s') : WriterInv s' := by
  cases a with
  | call x =>
    obtain rfl := Calls.step_call hs
    refine ⟨h.held.concat rfl rfl, ?_, ?_⟩
    · intro k hk conn hto
      rcases List.mem_append.mp hk with hk | hk
      · exact h.conn k hk conn hto
      · rw [List.mem_singleton.mp hk] at hto
        cases hto
    · rw [List.countP_append]
      exact h.one
  | move i ok =>
    obtain ⟨k, t, k', hk, hnext, rfl⟩ := Calls.step_move hs
    have hstep := clientStep_next hnext
    have hmem := List.mem_of_getElem? hk
    refine ⟨h.held.move hk hstep.moves, ?_, ?_⟩
    · intro k₁ hk₁ conn hto
      obtain ⟨j, hj⟩ := List.mem_iff_getElem?.mp hk₁
      rw [Calls.getElem?_set_of_getElem? hk] at hj
      split_ifs at hj with hij
      · -- the call that moves
        obtain rfl := Option.some.inj hj
        obtain ⟨hsame, hconn⟩ := hstep.target conn hto
        exact hsame.trans hconn
      · -- another call: it holds the lock, so the connection is the same
        have hk₁ := List.mem_of_getElem? hj
        have hconn := h.conn k₁ hk₁ conn hto
        rcases hstep.conn with hsame | hwrites | hlock
        · exact hsame.trans hconn
        · rcases reads_or_writes_of_writesTo hto with hr | hw
          · rw [h.held.reads_eq_false hmem hwrites hk₁] at hr
            cases hr
          · exact absurd (h.held.eq_of_writes hj hw hk hwrites) hij
        · obtain ⟨m', hm'⟩ := Option.ne_none_iff_exists'.mp hlock
          obtain ⟨hr, hw⟩ := h.held.of_lock hm' hk₁
          rcases reads_or_writes_of_writesTo hto with hr' | hw'
          · rw [hr] at hr'
            cases hr'
          · rw [hw] at hw'
            cases hw'
    · have hcount := Calls.countP_set hk k' isWriting
      have hone := h.one
      show (s.calls.set i k').countP isWriting ≤ 1
      cases hbegin : isWriting k' with
      | false =>
        rw [hbegin, Bool.toNat_false] at hcount
        omega
      | true =>
        obtain rfl := hstep.begins hbegin
        have hzero := hother hk
        rw [hbegin, Bool.toNat_true, hzero] at hcount
        omega

/-- A command that begins to be written beside another one: both are on the same connection. -/
theorem WriterInv.two_writers {a : CallAction ClientMethod Bool} (h : WriterInv s)
    (hother : ¬ NoOtherCommand s a) (hs : writerMachine.step s a = some s') : ¬ SingleWriter s' := by
  cases a with
  | call x => exact absurd trivial hother
  | move i ok =>
    unfold NoOtherCommand at hother
    push Not at hother
    obtain ⟨hi, hne⟩ := hother
    obtain ⟨k, t, k', hk, hnext, rfl⟩ := Calls.step_move hs
    obtain rfl : ready = k := Option.some.inj (hi.symm.trans hk)
    obtain ⟨conn, hconn, heq⟩ := Option.map_eq_some_iff.mp hnext
    cases heq
    intro hsingle
    obtain ⟨k₁, hk₁, hwriting⟩ := List.countP_pos_iff.mp (Nat.pos_of_ne_zero hne)
    have hto : k₁.writesTo conn = true := by
      cases k₁ with
      | writing conn₁ =>
        have hconn₁ := h.conn _ hk₁ conn₁ (decide_eq_true (Or.inl rfl))
        rw [Option.some.inj (hconn.symm.trans hconn₁)]
        exact decide_eq_true (Or.inl rfl)
      | _ => cases hwriting
    have hcount := Calls.countP_set hk (writing conn) (writesTo conn)
    have hpos : 0 < s.calls.countP (writesTo conn) := List.countP_pos_iff.mpr ⟨k₁, hk₁, hto⟩
    have hnew : writesTo conn (writing conn) = true := decide_eq_true (Or.inl rfl)
    have hle : (s.calls.set i (writing conn)).countP (writesTo conn) ≤ 1 := hsingle conn
    rw [hnew, Bool.toNat_true] at hcount
    have hold : (writesTo conn ready).toNat = 0 := rfl
    omega

/-! ### The main theorem -/

/-- **When a connection has one writer.** At every point of a run no connection has two writes in
progress, if and only if no command of the run begins to be written while another is. -/
theorem singleWriter_iff (as : List (CallAction ClientMethod Bool))
    (hrun : writerMachine.run writerMachine.init as = some s) :
    writerMachine.Throughout SingleWriter as ↔ writerMachine.EveryStep NoOtherCommand as := by
  refine Machine.throughout_iff_everyStep (I := WriterInv) ?_ ?_ ?_ ?_ hrun
  · exact ⟨RWMutex.heldBy_free, nofun, Nat.zero_le 1⟩
  · exact fun _ _ _ h hother hs => h.step hother hs
  · exact fun _ h => h.singleWriter
  · exact fun _ _ _ h hother hs => h.two_writers hother hs

/-- In `twoGetsRun` the second command begins to be written beside the first. -/
theorem not_everyStep_twoGetsRun : ¬ writerMachine.EveryStep NoOtherCommand twoGetsRun := by
  intro h
  have hall := (singleWriter_iff twoGetsRun rfl).mpr h
  exact absurd (hall.last rfl 0) (by decide)

end UnisetPanel
