/-
  The methods of `recording.Manager` that open and close the database
  (`internal/recording/manager.go`, `internal/recording/sqlite.go`).

  `Basic` has what `Start` and `Stop` are for.  Here each method is taken apart
  at its atomic steps: the sections under `mu`, the `Open` of the backend, its
  query, the deferred `Close`.  `Start` and `Stop` hold `mu` over all of
  theirs; the others only read a flag under it.

  The backend has one field for its handle, and `Open` overwrites it.  A method
  that has read "not open" may open the database after `Start` has: the first
  handle is lost, and the deferred `Close` closes the second, which is the one
  that `Save` uses (`not_keepsOpen`).  That no `Open` finds an open handle is
  exactly what a run needs (`keepsOpen_iff`).
-/
import UnisetPanel.Calls
import UnisetPanel.Recording.Basic
import Mathlib.Data.Finset.Card

namespace UnisetPanel

/-! ### The handle of the backend -/

/-- The handles of a `SQLiteBackend`: one is named by its number in the order of `sql.Open`. -/
structure SQLiteHandles where
  /-- how many were opened -/
  opened : ℕ
  /-- those that were closed -/
  closed : Finset ℕ
  /-- the field `db` -/
  db : Option ℕ
  closed_lt : ∀ h ∈ closed, h < opened
  db_lt : ∀ h ∈ db, h < opened

/-- How `Open` of the backend ends. -/
inductive OpenOutcome where
  | opened
  /-- `sql.Open` fails -/
  | notOpened
  /-- `createTables` fails, and the handle is closed again -/
  | noTables
  deriving DecidableEq, Repr

namespace SQLiteHandles

/-- `NewSQLiteBackend`. -/
def new : SQLiteHandles := ⟨0, ∅, none, by simp, by simp⟩

variable (b : SQLiteHandles)

/-- `Open`. -/
def openDB : OpenOutcome → SQLiteHandles
  | .opened =>
    { opened := b.opened + 1
      closed := b.closed
      db := some b.opened
      closed_lt := fun h hh => Nat.lt_succ_of_lt (b.closed_lt h hh)
      db_lt := fun h hh => Option.some.inj hh ▸ Nat.lt_succ_self b.opened }
  | .notOpened => b
  | .noTables =>
    { opened := b.opened + 1
      closed := insert b.opened b.closed
      db := b.db
      closed_lt := fun h hh => by
        rcases Finset.mem_insert.mp hh with rfl | hh
        · exact Nat.lt_succ_self _
        · exact Nat.lt_succ_of_lt (b.closed_lt h hh)
      db_lt := fun h hh => Nat.lt_succ_of_lt (b.db_lt h hh) }

/-- `Close`: the field keeps the handle, and a handle that is closed already stays so. -/
def close : SQLiteHandles :=
  match hdb : b.db with
  | none => b
  | some h =>
    { b with
      closed := insert h b.closed
      closed_lt := fun x hx => by
        rcases Finset.mem_insert.mp hx with rfl | hx
        · exact b.db_lt x hdb
        · exact b.closed_lt x hx }

/-- The handles that are open. -/
def openHandles : Finset ℕ := Finset.range b.opened \ b.closed

/-- The handle in the field is open: what every query needs. -/
def IsOpen : Prop := ∃ h ∈ b.db, h ∈ b.openHandles

instance : Decidable b.IsOpen := inferInstanceAs (Decidable (∃ h ∈ b.db, h ∈ b.openHandles))

theorem mem_openHandles {h : ℕ} : h ∈ b.openHandles ↔ h < b.opened ∧ h ∉ b.closed := by
  rw [openHandles, Finset.mem_sdiff, Finset.mem_range]

/-- As many are open as were opened and not closed. -/
theorem card_openHandles : b.openHandles.card = b.opened - b.closed.card := by
  have hsub : b.closed ⊆ Finset.range b.opened := fun h hh => Finset.mem_range.mpr (b.closed_lt h hh)
  rw [openHandles, Finset.card_sdiff_of_subset hsub, Finset.card_range]

theorem openHandles_openDB_opened :
    (b.openDB .opened).openHandles = insert b.opened b.openHandles := by
  ext h
  have hclosed : b.opened ∉ b.closed := fun hh => absurd (b.closed_lt _ hh) (Nat.lt_irrefl _)
  rw [mem_openHandles, Finset.mem_insert, mem_openHandles]
  show h < b.opened + 1 ∧ h ∉ b.closed ↔ _
  by_cases hh : h = b.opened
  · subst hh
    simp [hclosed]
  · have hlt : h < b.opened + 1 ↔ h < b.opened := by omega
    rw [or_iff_right hh, hlt]

/-- An `Open` that fails leaves nothing open, and the field as it was. -/
theorem openDB_of_ne_opened {o : OpenOutcome} (ho : o ≠ .opened) :
    (b.openDB o).openHandles = b.openHandles ∧ (b.openDB o).db = b.db := by
  cases o with
  | opened => exact absurd rfl ho
  | notOpened => exact ⟨rfl, rfl⟩
  | noTables =>
    refine ⟨?_, rfl⟩
    ext h
    rw [mem_openHandles, mem_openHandles]
    show h < b.opened + 1 ∧ h ∉ insert b.opened b.closed ↔ _
    rw [Finset.mem_insert, not_or, Nat.lt_succ_iff_lt_or_eq]
    have := Nat.ne_of_lt (a := h) (b := b.opened)
    tauto

theorem db_close : b.close.db = b.db := by
  unfold close
  split
  · rfl
  · rfl

theorem mem_openHandles_close {h : ℕ} :
    h ∈ b.close.openHandles ↔ h ∈ b.openHandles ∧ b.db ≠ some h := by
  unfold close
  split
  · rename_i hnone
    simp [hnone]
  · rename_i h' hsome
    have hdb : b.db = some h ↔ h = h' := by
      rw [hsome, Option.some.injEq, eq_comm]
    rw [mem_openHandles, mem_openHandles, Ne, hdb]
    show h < b.opened ∧ h ∉ insert h' b.closed ↔ _
    rw [Finset.mem_insert]
    tauto

end SQLiteHandles

/-! ### The methods -/

/-- The fields of a `Manager` that the methods share. -/
structure ManagerState where
  /-- `mu` is held for writing -/
  mu : Bool
  enabled : Bool
  backendOpen : Bool
  backend : SQLiteHandles

/-- `NewManager` over `NewSQLiteBackend`. -/
def newManager : ManagerState := ⟨false, false, false, .new⟩

/-- The methods that use the database. -/
inductive ManagerMethod where
  | start
  | stop
  | getStats
  | getHistory
  | clear
  | exportRaw
  | saveServer
  | getServers
  deriving DecidableEq, Repr

/-- How far a method has got. -/
inductive ManagerPhase where
  | called
  /-- `Start` holds `mu` and has found the recording off -/
  | locked
  /-- `Start` has opened the backend -/
  | opened
  /-- `Stop` holds `mu` and has cleared the flags -/
  | cleared
  /-- the flag has been read -/
  | read (backendOpen : Bool)
  /-- the method has opened the backend itself -/
  | temporary
  /-- the query is done, and the deferred `Close` is ahead -/
  | queried (err : Bool)
  /-- with an error or without -/
  | returned (err : Bool)
  deriving DecidableEq, Repr

/-- What the environment contributes to a step: how an `Open` ends, and whether a query on an open
handle succeeds. -/
structure BackendOutcome where
  opening : OpenOutcome := .opened
  query : Bool := true

namespace ManagerState

variable (e : BackendOutcome) (m : ManagerState)

/-- `Start`. -/
def start : ManagerPhase → Option (ManagerState × ManagerPhase)
  | .called =>
    if m.mu then none
    else if m.enabled then some (m, .returned false)
    else some ({ m with mu := true }, .locked)
  | .locked =>
    -- `mu` is held over the `Open` and what follows
    if e.opening = .opened then some ({ m with backend := m.backend.openDB .opened }, .opened)
    else some ({ m with mu := false, backend := m.backend.openDB e.opening }, .returned true)
  | .opened => some ({ m with mu := false, enabled := true, backendOpen := true }, .returned false)
  | _ => none

/-- `Stop`. -/
def stop : ManagerPhase → Option (ManagerState × ManagerPhase)
  | .called =>
    if m.mu then none
    else if m.enabled then
      some ({ m with mu := true, enabled := false, backendOpen := false }, .cleared)
    else some (m, .returned false)
  | .cleared => some ({ m with mu := false, backend := m.backend.close }, .returned false)
  | _ => none

/-- A query of the backend fails if the handle is closed. -/
def queryErr : Bool := !(e.query && decide m.backend.IsOpen)

/-- The methods that use an open backend, or open it for themselves; `queryErr` tells whether they
fail then, and `openErr` whether it is an error that it cannot be opened. -/
def useBackend (queryErr openErr : Bool) : ManagerPhase → Option (ManagerState × ManagerPhase)
  | .called => if m.mu then none else some (m, .read m.backendOpen)
  -- the flag may be out of date by now: `mu` is not held any more
  | .read true => some (m, .returned queryErr)
  | .read false =>
    if e.opening = .opened then some ({ m with backend := m.backend.openDB .opened }, .temporary)
    else some ({ m with backend := m.backend.openDB e.opening }, .returned openErr)
  | .temporary => some (m, .queried queryErr)
  -- the deferred `Close`, of whatever handle is in the field then
  | .queried err => some ({ m with backend := m.backend.close }, .returned err)
  | _ => none

/-- `GetStats`: empty statistics if the backend cannot be opened. -/
def getStats : ManagerPhase → Option (ManagerState × ManagerPhase) :=
  m.useBackend e (m.queryErr e) false

/-- `GetHistory`. -/
def getHistory : ManagerPhase → Option (ManagerState × ManagerPhase) :=
  m.useBackend e (m.queryErr e) true

/-- `Clear`. -/
def clear : ManagerPhase → Option (ManagerState × ManagerPhase) :=
  m.useBackend e (m.queryErr e) true

/-- `ExportRaw`: it copies the file, and the error of its checkpoint is left aside. -/
def exportRaw : ManagerPhase → Option (ManagerState × ManagerPhase) :=
  m.useBackend e (!e.query) true

/-- `SaveServer`. -/
def saveServer : ManagerPhase → Option (ManagerState × ManagerPhase) :=
  m.useBackend e (m.queryErr e) true

/-- `GetServers`. -/
def getServers : ManagerPhase → Option (ManagerState × ManagerPhase) :=
  m.useBackend e (m.queryErr e) true

end ManagerState

/-- A call of a method. -/
abbrev ManagerCall := ManagerMethod × ManagerPhase

/-- The next step of a method. -/
def ManagerMethod.next (e : BackendOutcome) (m : ManagerState) :
    ManagerMethod → ManagerPhase → Option (ManagerState × ManagerPhase)
  | .start => m.start e
  | .stop => m.stop
  | .getStats => m.getStats e
  | .getHistory => m.getHistory e
  | .clear => m.clear e
  | .exportRaw => m.exportRaw e
  | .saveServer => m.saveServer e
  | .getServers => m.getServers e

/-- The next step of a call. -/
def ManagerCall.next (k : ManagerCall) (e : BackendOutcome) (m : ManagerState) :
    Option (ManagerState × ManagerCall) :=
  (k.1.next e m k.2).map fun r => (r.1, k.1, r.2)

/-- All interleavings of the methods. -/
def managerMachine :
    Machine (Calls ManagerState ManagerCall) (CallAction ManagerMethod BackendOutcome) :=
  Calls.machine newManager (fun x => (x, .called)) fun e m k => ManagerCall.next k e m

/-! ### The property -/

/-- The method has returned. -/
def ManagerPhase.hasReturned : ManagerPhase → Bool
  | .returned _ => true
  | _ => false

/-- No method is in progress. -/
def ManagerQuiet (s : Calls ManagerState ManagerCall) : Prop :=
  ∀ k ∈ s.calls, k.2.hasReturned = true

instance (s : Calls ManagerState ManagerCall) : Decidable (ManagerQuiet s) :=
  inferInstanceAs (Decidable (∀ k ∈ s.calls, k.2.hasReturned = true))

/-- A manager that records has an open handle, and no other handle is open. -/
structure ManagerState.KeepsOpen (m : ManagerState) : Prop where
  /-- so `Save` does not fail -/
  isOpen : m.enabled = true → m.backend.IsOpen
  no_leak : m.backend.opened = m.backend.closed.card + if m.enabled then 1 else 0

/-- **The database is kept open**, whenever no method is in progress. -/
def KeepsOpen
    (M : Machine (Calls ManagerState ManagerCall) (CallAction ManagerMethod BackendOutcome)) :
    Prop :=
  ∀ as s, M.run M.init as = some s → ManagerQuiet s → s.shared.KeepsOpen

/-- The next step of a call is an `Open` that succeeds. -/
def ManagerCall.opens (e : BackendOutcome) (k : ManagerCall) : Bool :=
  decide (e.opening = .opened ∧
    (k = (.start, .locked) ∨ k.1 ≠ .start ∧ k.1 ≠ .stop ∧ k.2 = .read false))

/-- No `Open` overwrites an open handle. -/
def NoOverwrite (s : Calls ManagerState ManagerCall) : CallAction ManagerMethod BackendOutcome → Prop
  | .call _ => True
  | .move i e => ∀ k ∈ s.calls[i]?, k.opens e = true → ¬ s.shared.backend.IsOpen

instance (s : Calls ManagerState ManagerCall) :
    (a : CallAction ManagerMethod BackendOutcome) → Decidable (NoOverwrite s a)
  | .call _ => inferInstanceAs (Decidable True)
  | .move i e => inferInstanceAs (Decidable (∀ k ∈ s.calls[i]?, k.opens e = true →
      ¬ s.shared.backend.IsOpen))

/-! ### The overwritten handle -/

/-- `GetStats` finds the recording off; `Start` runs as a whole; then `GetStats` goes on: it opens a
second handle and closes it. -/
def overwriteRun : List (CallAction ManagerMethod BackendOutcome) :=
  [.call .getStats, .move 0 {}, .call .start, .move 1 {}, .move 1 {}, .move 1 {},
    .move 0 {}, .move 0 {}, .move 0 {}]

/-- **It fails**: recording is enabled, the first handle is lost, and the second one is closed. -/
theorem not_keepsOpen : ¬ KeepsOpen managerMachine := by
  intro h
  exact absurd ((h overwriteRun _ rfl (by decide)).isOpen rfl) (by decide)

/-! ### What a step does -/

/-- A method in this phase has an open handle to close. -/
def ManagerPhase.holds : ManagerPhase → Bool
  | .opened => true
  | .cleared => true
  | .temporary => true
  | .queried _ => true
  | _ => false

/-- What a step does to the handles and to those that have one to close: the recording itself (while
it is enabled) and the methods. -/
inductive HandleStep (e : BackendOutcome) (k : ManagerCall) (m m' : ManagerState)
    (ph' : ManagerPhase) : Prop where
  /-- nothing is opened or closed; `Stop` takes the handle over from the recording -/
  | keeps (hopens : k.opens e = false) (hopen : m'.backend.openHandles = m.backend.openHandles)
      (hdb : m'.backend.db = m.backend.db)
      (hcount : m'.enabled.toNat + ph'.holds.toNat = m.enabled.toNat + k.2.holds.toNat)
  /-- an `Open` that succeeds -/
  | opens (hopens : k.opens e = true) (hbackend : m'.backend = m.backend.openDB .opened)
      (henabled : m'.enabled = m.enabled) (hk : k.2.holds = false) (hph : ph'.holds = true)
  /-- `Start` gives its handle to the recording -/
  | gives (hbackend : m'.backend = m.backend) (henabled : m'.enabled = true)
      (hk : k.2.holds = true) (hph : ph'.holds = false)
  /-- a `Close` -/
  | closes (hbackend : m'.backend = m.backend.close) (henabled : m'.enabled = m.enabled)
      (hk : k.2.holds = true) (hph : ph'.holds = false)

variable {e : BackendOutcome} {m m' : ManagerState} {ph ph' : ManagerPhase}

theorem opens_of_phase {x : ManagerMethod} (hl : ph ≠ .locked) (hr : ph ≠ .read false) :
    ManagerCall.opens e (x, ph) = false := by
  apply decide_eq_false
  rintro ⟨-, heq | ⟨-, -, heq⟩⟩
  · exact hl (congrArg Prod.snd heq)
  · exact hr heq

theorem opens_of_outcome {k : ManagerCall} (ho : e.opening ≠ .opened) : k.opens e = false :=
  decide_eq_false fun h => ho h.1

theorem handleStep_start (h : m.start e ph = some (m', ph')) :
    HandleStep e (.start, ph) m m' ph' := by
  cases ph with
  | called =>
    simp only [ManagerState.start] at h
    split_ifs at h
    · cases h
      exact .keeps (opens_of_phase nofun nofun) rfl rfl rfl
    · cases h
      exact .keeps (opens_of_phase nofun nofun) rfl rfl rfl
  | locked =>
    simp only [ManagerState.start] at h
    split_ifs at h with ho
    · cases h
      exact .opens (decide_eq_true ⟨ho, Or.inl rfl⟩) rfl rfl rfl rfl
    · cases h
      obtain ⟨hopen, hdb⟩ := m.backend.openDB_of_ne_opened ho
      exact .keeps (opens_of_outcome ho) hopen hdb rfl
  | opened =>
    cases h
    exact .gives rfl rfl rfl rfl
  | cleared => cases h
  | read b => cases h
  | temporary => cases h
  | queried err => cases h
  | returned err => cases h

theorem handleStep_stop (h : m.stop ph = some (m', ph')) : HandleStep e (.stop, ph) m m' ph' := by
  cases ph with
  | called =>
    simp only [ManagerState.stop] at h
    split_ifs at h with hmu henabled
    · cases h
      refine .keeps (opens_of_phase nofun nofun) rfl rfl ?_
      rw [henabled]
      rfl
    · cases h
      exact .keeps (opens_of_phase nofun nofun) rfl rfl rfl
  | cleared =>
    cases h
    exact .closes rfl rfl rfl rfl
  | locked => cases h
  | opened => cases h
  | read b => cases h
  | temporary => cases h
  | queried err => cases h
  | returned err => cases h

theorem handleStep_useBackend {x : ManagerMethod} (hx : x ≠ .start ∧ x ≠ .stop)
    {queryErr openErr : Bool} (h : m.useBackend e queryErr openErr ph = some (m', ph')) : HandleStep e (x, ph) m m' ph' := by
  cases ph with
  | called =>
    simp only [ManagerState.useBackend] at h
    split_ifs at h
    cases h
    exact .keeps (opens_of_phase nofun nofun) rfl rfl rfl
  | read b =>
    cases b with
    | true =>
      cases h
      exact .keeps (opens_of_phase nofun nofun) rfl rfl rfl
    | false =>
      simp only [ManagerState.useBackend] at h
      split_ifs at h with ho
      · cases h
        exact .opens (decide_eq_true ⟨ho, Or.inr ⟨hx.1, hx.2, rfl⟩⟩) rfl rfl rfl rfl
      · cases h
        obtain ⟨hopen, hdb⟩ := m.backend.openDB_of_ne_opened ho
        exact .keeps (opens_of_outcome ho) hopen hdb rfl
  | temporary =>
    cases h
    exact .keeps (opens_of_phase nofun nofun) rfl rfl rfl
  | queried err =>
    cases h
    exact .closes rfl rfl rfl rfl
  | locked => cases h
  | opened => cases h
  | cleared => cases h
  | returned err => cases h

/-- **Every step of every method.** -/
theorem handleStep_next {k k' : ManagerCall} (h : k.next e m = some (m', k')) :
    HandleStep e k m m' k'.2 := by
  obtain ⟨x, ph⟩ := k
  obtain ⟨⟨m₁, ph'⟩, hnext, heq⟩ := Option.map_eq_some_iff.mp h
  cases heq
  cases x with
  | start => exact handleStep_start hnext
  | stop => exact handleStep_stop hnext
  | getStats => exact handleStep_useBackend (by decide) hnext
  | getHistory => exact handleStep_useBackend (by decide) hnext
  | clear => exact handleStep_useBackend (by decide) hnext
  | exportRaw => exact handleStep_useBackend (by decide) hnext
  | saveServer => exact handleStep_useBackend (by decide) hnext
  | getServers => exact handleStep_useBackend (by decide) hnext

theorem backend_of_opens {k k' : ManagerCall} (h : k.opens e = true)
    (hnext : k.next e m = some (m', k')) : m'.backend = m.backend.openDB .opened := by
  have hholds : k.2.holds = false := by
    obtain ⟨-, rfl | ⟨-, -, hread⟩⟩ := of_decide_eq_true h
    · rfl
    · rw [hread]
      rfl
  cases handleStep_next hnext with
  | keeps hopens => exact absurd (hopens.symm.trans h) Bool.false_ne_true
  | opens _ hbackend => exact hbackend
  | gives _ _ hk => exact absurd (hholds.symm.trans hk) Bool.false_ne_true
  | closes _ _ hk => exact absurd (hholds.symm.trans hk) Bool.false_ne_true

/-! ### Without overwriting -/

/-- At most the handle in the field is open, and it belongs to the recording or to one method. -/
structure HandleInv (s : Calls ManagerState ManagerCall) : Prop where
  only_db : ∀ h ∈ s.shared.backend.openHandles, s.shared.backend.db = some h
  card : s.shared.backend.openHandles.card =
    s.shared.enabled.toNat + s.calls.countP fun k => k.2.holds

namespace SQLiteHandles

variable {b : SQLiteHandles} (hdb : ∀ h ∈ b.openHandles, b.db = some h)
include hdb

theorem eq_empty_of_not_isOpen (h : ¬ b.IsOpen) : b.openHandles = ∅ := by
  apply Finset.eq_empty_of_forall_notMem
  intro x hx
  exact h ⟨x, hdb x hx, hx⟩

/-- The only open handle is closed. -/
theorem openHandles_close_eq_empty : b.close.openHandles = ∅ := by
  apply Finset.eq_empty_of_forall_notMem
  intro x hx
  obtain ⟨hx, hne⟩ := b.mem_openHandles_close.mp hx
  exact hne (hdb x hx)

theorem card_openHandles_le_one : b.openHandles.card ≤ 1 := by
  rw [Finset.card_le_one]
  intro x hx y hy
  exact Option.some.inj ((hdb x hx).symm.trans (hdb y hy))

end SQLiteHandles

variable {s s' : Calls ManagerState ManagerCall}

/-- **The step lemma.** -/
theorem HandleInv.step {a : CallAction ManagerMethod BackendOutcome} (h : HandleInv s)
    (hover : NoOverwrite s a) (hs : managerMachine.step s a = some s') : HandleInv s' := by
  cases a with
  | call x =>
    obtain rfl := Calls.step_call hs
    refine ⟨h.only_db, ?_⟩
    rw [List.countP_append]
    exact h.card
  | move i e =>
    obtain ⟨k, m', k', hk, hnext, rfl⟩ := Calls.step_move hs
    have hcount : (s.calls.set i k').countP (fun k => k.2.holds) + k.2.holds.toNat =
        s.calls.countP (fun k => k.2.holds) + k'.2.holds.toNat :=
      Calls.countP_set hk k' fun k => k.2.holds
    have hcard := h.card
    cases handleStep_next hnext with
    | keeps _ hopen hdb hsum =>
      constructor
      · show ∀ x ∈ m'.backend.openHandles, m'.backend.db = some x
        rw [hopen, hdb]
        exact h.only_db
      · show m'.backend.openHandles.card =
          m'.enabled.toNat + (s.calls.set i k').countP fun k => k.2.holds
        rw [hopen]
        omega
    | opens hopens hbackend henabled hkf hph =>
      have hempty := SQLiteHandles.eq_empty_of_not_isOpen h.only_db (hover k hk hopens)
      have hone : m'.backend.openHandles = {s.shared.backend.opened} := by
        rw [hbackend, SQLiteHandles.openHandles_openDB_opened, hempty]
        rfl
      constructor
      · show ∀ x ∈ m'.backend.openHandles, m'.backend.db = some x
        rw [hone, hbackend]
        intro x hx
        rw [Finset.mem_singleton.mp hx]
        rfl
      · show m'.backend.openHandles.card =
          m'.enabled.toNat + (s.calls.set i k').countP fun k => k.2.holds
        rw [hempty, Finset.card_empty] at hcard
        rw [hone, henabled, Finset.card_singleton]
        rw [hkf, hph] at hcount
        simp only [Bool.toNat_true, Bool.toNat_false] at hcount
        omega
    | gives hbackend henabled hkt hph =>
      have hle := SQLiteHandles.card_openHandles_le_one h.only_db
      rw [hkt, hph] at hcount
      simp only [Bool.toNat_true, Bool.toNat_false] at hcount
      constructor
      · show ∀ x ∈ m'.backend.openHandles, m'.backend.db = some x
        rw [hbackend]
        exact h.only_db
      · show m'.backend.openHandles.card =
          m'.enabled.toNat + (s.calls.set i k').countP fun k => k.2.holds
        rw [hbackend, henabled, Bool.toNat_true]
        omega
    | closes hbackend henabled hkt hph =>
      have hle := SQLiteHandles.card_openHandles_le_one h.only_db
      have hempty := SQLiteHandles.openHandles_close_eq_empty h.only_db
      rw [hkt, hph] at hcount
      simp only [Bool.toNat_true, Bool.toNat_false] at hcount
      constructor
      · show ∀ x ∈ m'.backend.openHandles, m'.backend.db = some x
        rw [hbackend, hempty]
        intro x hx
        exact absurd hx (Finset.notMem_empty x)
      · show m'.backend.openHandles.card =
          m'.enabled.toNat + (s.calls.set i k').countP fun k => k.2.holds
        rw [hbackend, henabled, hempty, Finset.card_empty]
        omega

/-- When no method is in progress, the open handle is the one of the recording. -/
theorem HandleInv.keepsOpen (h : HandleInv s) (hq : ManagerQuiet s) : s.shared.KeepsOpen := by
  have hnone : s.calls.countP (fun k => k.2.holds) = 0 := by
    rw [List.countP_eq_zero]
    intro k hk hholds
    have := hq k hk
    revert this hholds
    cases k.2 <;> simp [ManagerPhase.holds, ManagerPhase.hasReturned]
  have hcard := h.card
  rw [hnone] at hcard
  constructor
  · intro henabled
    rw [henabled] at hcard
    obtain ⟨x, hx⟩ := Finset.card_pos.mp (by rw [hcard]; exact Nat.one_pos)
    exact ⟨x, h.only_db x hx, hx⟩
  · have hclosed := Finset.card_le_card fun x hx =>
      Finset.mem_range.mpr (s.shared.backend.closed_lt x hx)
    rw [Finset.card_range] at hclosed
    rw [SQLiteHandles.card_openHandles] at hcard
    cases henabled : s.shared.enabled with
    | true =>
      rw [henabled, Bool.toNat_true] at hcard
      rw [if_pos rfl]
      omega
    | false =>
      rw [henabled, Bool.toNat_false] at hcard
      rw [if_neg Bool.false_ne_true]
      omega

/-! ### A handle that is lost -/

/-- Some open handle is not the one in the field. -/
def Leaked (m : ManagerState) : Prop := ∃ h ∈ m.backend.openHandles, m.backend.db ≠ some h

/-- An `Open` over an open handle loses it. -/
theorem leaked_of_openDB {x : ℕ} (hx : x ∈ m.backend.openHandles)
    (hbackend : m'.backend = m.backend.openDB .opened) : Leaked m' := by
  have hlt := ((SQLiteHandles.mem_openHandles _).mp hx).1
  refine ⟨x, ?_, ?_⟩
  · rw [hbackend, SQLiteHandles.openHandles_openDB_opened]
    exact Finset.mem_insert_of_mem hx
  · rw [hbackend]
    intro heq
    exact Nat.ne_of_gt hlt (Option.some.inj heq)

theorem exists_overwritten {i : ℕ} (h : ¬ NoOverwrite s (.move i e)) : ∃ k, s.calls[i]? = some k ∧
    k.opens e = true ∧ s.shared.backend.IsOpen := by
  unfold NoOverwrite at h
  push Not at h
  exact h

/-- It stays open for good. -/
theorem Leaked.step {a : CallAction ManagerMethod BackendOutcome} (h : Leaked s.shared)
    (hs : managerMachine.step s a = some s') : Leaked s'.shared := by
  cases a with
  | call x =>
    obtain rfl := Calls.step_call hs
    exact h
  | move i e =>
    obtain ⟨k, m', k', -, hnext, rfl⟩ := Calls.step_move hs
    obtain ⟨x, hx, hdb⟩ := h
    cases handleStep_next hnext with
    | keeps _ hopen hdb' =>
      refine ⟨x, ?_, ?_⟩
      · rw [hopen]
        exact hx
      · rw [hdb']
        exact hdb
    | opens _ hbackend => exact leaked_of_openDB hx hbackend
    | gives hbackend =>
      rw [Leaked, hbackend]
      exact ⟨x, hx, hdb⟩
    | closes hbackend =>
      refine ⟨x, ?_, ?_⟩
      · rw [hbackend]
        exact (SQLiteHandles.mem_openHandles_close _).mpr ⟨hx, hdb⟩
      · rw [hbackend, SQLiteHandles.db_close]
        exact hdb

theorem Leaked.run {as : List (CallAction ManagerMethod BackendOutcome)} (h : Leaked s.shared)
    (hs : managerMachine.run s as = some s') : Leaked s'.shared := by
  refine Machine.run_induction (P := fun s : Calls ManagerState ManagerCall => Leaked s.shared)
    ?_ hs h
  intro u a v hu hstep
  exact hu.step hstep

/-- A manager with a lost handle has too many open ones, or the wrong one. -/
theorem Leaked.not_open (h : Leaked m) : ¬ m.KeepsOpen := by
  intro hk
  obtain ⟨x, hx, hdb⟩ := h
  have hcard := m.backend.card_openHandles
  rw [hk.no_leak, Nat.add_sub_cancel_left] at hcard
  cases henabled : m.enabled with
  | true =>
    -- the open handle in the field is a second one
    obtain ⟨y, hy, hyopen⟩ := hk.isOpen henabled
    rw [henabled, if_pos rfl] at hcard
    obtain rfl := Finset.card_le_one.mp (Nat.le_of_eq hcard) x hx y hyopen
    exact hdb hy
  | false =>
    rw [henabled, if_neg Bool.false_ne_true] at hcard
    rw [Finset.card_eq_zero.mp hcard] at hx
    exact Finset.notMem_empty x hx

/-! ### The main theorem -/

theorem handleInv_of_run {as : List (CallAction ManagerMethod BackendOutcome)}
    (h : (managerMachine.guard NoOverwrite).run managerMachine.init as = some s) : HandleInv s := by
  refine Machine.run_induction (P := HandleInv) ?_ h ⟨?_, rfl⟩
  · intro u a v hu hstep
    obtain ⟨hover, hstep⟩ := Machine.guard_step_eq_some.mp hstep
    exact hu.step hover hstep
  · intro x hx
    exact absurd hx (Finset.notMem_empty x)

/-- **When the database is kept open.** At the end of a run, with no method in progress, the handle
of the recording is open and no other handle is, if and only if no `Open` of the run overwrote an
open handle. -/
theorem keepsOpen_iff (as : List (CallAction ManagerMethod BackendOutcome))
    (hrun : managerMachine.run managerMachine.init as = some s) (hq : ManagerQuiet s) :
    s.shared.KeepsOpen ↔
      (managerMachine.guard NoOverwrite).run managerMachine.init as = some s := by
  constructor
  · intro hk
    by_contra hn
    obtain ⟨pre, a, post, u, v, rfl, -, hover, hstep, hpost⟩ := Machine.exists_not_guarded hrun hn
    refine Leaked.not_open (Leaked.run ?_ hpost) hk
    cases a with
    | call x => exact absurd trivial hover
    | move i e =>
      obtain ⟨k, m', k', hk, hnext, rfl⟩ := Calls.step_move hstep
      obtain ⟨k₁, hk₁, hopens, hopen⟩ := exists_overwritten hover
      obtain rfl : k = k₁ := Option.some.inj (hk.symm.trans hk₁)
      obtain ⟨x, -, hx⟩ := hopen
      exact leaked_of_openDB hx (backend_of_opens hopens hnext)
  · intro h
    exact (handleInv_of_run h).keepsOpen hq

/-- Statistics while recording is on leave the handle of the recording open. -/
theorem keepsOpen_startGetStats :
    ManagerState.KeepsOpen ⟨false, true, true, SQLiteHandles.new.openDB .opened⟩ :=
  (keepsOpen_iff (s := ⟨_, [(.start, .returned false), (.getStats, .returned false)]⟩)
    [.call .start, .move 0 {}, .move 0 {}, .move 0 {}, .call .getStats, .move 1 {}, .move 1 {}]
    rfl (by decide)).mpr rfl

/-! ### Undisturbed methods -/

/-- What `Start` and `Stop` are for: the flag. -/
def ManagerState.toRecordingManager (m : ManagerState) : RecordingManager := ⟨m.enabled⟩

/-- The steps of the method that is called next, one directly after the other. -/
def undisturbed (s : Calls ManagerState ManagerCall) (x : ManagerMethod) (steps : ℕ) :
    List (CallAction ManagerMethod BackendOutcome) :=
  .call x :: List.replicate steps (.move s.calls.length {})

/-- `Start` without interruption. -/
theorem run_undisturbed_start (hmu : s.shared.mu = false) : ∃ n m',
    managerMachine.run s (undisturbed s .start n) = some ⟨m', s.calls ++ [(.start, .returned false)]⟩ ∧
      m'.toRecordingManager = s.shared.toRecordingManager.start := by
  obtain ⟨⟨mu, enabled, backendOpen, backend⟩, ks⟩ := s
  obtain rfl : mu = false := hmu
  cases enabled with
  | true =>
    refine ⟨1, ⟨false, true, backendOpen, backend⟩, ?_, rfl⟩
    show managerMachine.run ⟨_, ks ++ [(.start, .called)]⟩ [.move ks.length {}] = _
    rw [Machine.run_singleton]
    exact Calls.step_move_length ..
  | false =>
    refine ⟨3, ⟨false, true, true, backend.openDB .opened⟩, ?_, rfl⟩
    show managerMachine.run ⟨_, ks ++ [(.start, .called)]⟩
      [.move ks.length {}, .move ks.length {}, .move ks.length {}] = _
    simp only [Machine.run_cons_eq_some, Machine.run_singleton]
    exact ⟨_, Calls.step_move_length .., _, Calls.step_move_length .., Calls.step_move_length ..⟩

/-- `Stop` without interruption. -/
theorem run_undisturbed_stop (hmu : s.shared.mu = false) : ∃ n m',
    managerMachine.run s (undisturbed s .stop n) = some ⟨m', s.calls ++ [(.stop, .returned false)]⟩ ∧
      m'.toRecordingManager = s.shared.toRecordingManager.stop := by
  obtain ⟨⟨mu, enabled, backendOpen, backend⟩, ks⟩ := s
  obtain rfl : mu = false := hmu
  cases enabled with
  | false =>
    refine ⟨1, ⟨false, false, backendOpen, backend⟩, ?_, rfl⟩
    show managerMachine.run ⟨_, ks ++ [(.stop, .called)]⟩ [.move ks.length {}] = _
    rw [Machine.run_singleton]
    exact Calls.step_move_length ..
  | true =>
    refine ⟨2, ⟨false, false, false, backend.close⟩, ?_, rfl⟩
    show managerMachine.run ⟨_, ks ++ [(.stop, .called)]⟩
      [.move ks.length {}, .move ks.length {}] = _
    simp only [Machine.run_cons_eq_some, Machine.run_singleton]
    exact ⟨_, Calls.step_move_length .., Calls.step_move_length ..⟩

end UnisetPanel
