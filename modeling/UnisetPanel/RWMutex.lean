/-
  `RWMutex` — a lock that any number of readers hold, or one writer.

  The lock has the numbers of its holders only.  `HeldBy` says that these are
  the numbers of the calls that are in a section in which they hold it.  A call
  that moves takes part in the numbers before and after (`Moves`), and the four
  operations of the lock are such moves.  From `HeldBy` follows what a lock is
  for: beside a call that holds it for writing no other call holds it.
-/
import UnisetPanel.Calls

namespace UnisetPanel

/-- A `sync.RWMutex`. -/
structure RWMutex where
  readers : ℕ
  writer : Bool
  exclusive : writer = true → readers = 0

namespace RWMutex

/-- Nobody holds it. -/
def free : RWMutex := ⟨0, false, nofun⟩

variable (m : RWMutex)

/-- `RLock`, once it succeeds. -/
def rLock : Option RWMutex :=
  if m.writer = true then none else some ⟨m.readers + 1, false, nofun⟩

/-- `RUnlock`. -/
def rUnlock : Option RWMutex :=
  if m.writer = true ∨ m.readers = 0 then none else some ⟨m.readers - 1, false, nofun⟩

/-- `Lock`, once it succeeds. -/
def lock : Option RWMutex :=
  if m.writer = true ∨ m.readers ≠ 0 then none else some ⟨0, true, fun _ => rfl⟩

/-- `Unlock`. -/
def unlock : Option RWMutex := if m.writer = true then some free else none

/-- A call holds the lock for reading (`r`) or writing (`w`) before a step, and `r'`, `w'` after
it. -/
def Moves (m m' : RWMutex) (r w r' w' : Bool) : Prop :=
  m'.readers + r.toNat = m.readers + r'.toNat ∧
    m'.writer.toNat + w.toNat = m.writer.toNat + w'.toNat

variable {m m' : RWMutex}

theorem Moves.refl (m : RWMutex) (r w : Bool) : Moves m m r w r w := ⟨rfl, rfl⟩

theorem moves_rLock (h : m.rLock = some m') : Moves m m' false false true false := by
  obtain ⟨hw, h⟩ := Option.ite_none_left_eq_some.mp h
  obtain rfl := (Option.some.inj h).symm
  refine ⟨rfl, ?_⟩
  rw [Bool.eq_false_iff.mpr hw]

theorem moves_rUnlock (h : m.rUnlock = some m') : Moves m m' true false false false := by
  obtain ⟨hw, h⟩ := Option.ite_none_left_eq_some.mp h
  obtain rfl := (Option.some.inj h).symm
  obtain ⟨hw, hr⟩ := not_or.mp hw
  refine ⟨Nat.sub_add_cancel (Nat.pos_of_ne_zero hr), ?_⟩
  rw [Bool.eq_false_iff.mpr hw]

theorem moves_lock (h : m.lock = some m') : Moves m m' false false false true := by
  obtain ⟨hw, h⟩ := Option.ite_none_left_eq_some.mp h
  obtain rfl := (Option.some.inj h).symm
  obtain ⟨hw, hr⟩ := not_or.mp hw
  refine ⟨(not_not.mp hr).symm, ?_⟩
  rw [Bool.eq_false_iff.mpr hw]
  rfl

theorem moves_unlock (h : m.unlock = some m') : Moves m m' false true false false := by
  obtain ⟨hw, h⟩ := Option.ite_none_right_eq_some.mp h
  obtain rfl := (Option.some.inj h).symm
  refine ⟨(m.exclusive hw).symm, ?_⟩
  rw [hw]
  rfl

/-! ### The calls that hold it -/

variable {κ : Type*} {reads writes : κ → Bool} {ks : List κ}

/-- The lock is held for reading by the calls with `reads`, for writing by those with `writes`. -/
structure HeldBy (m : RWMutex) (reads writes : κ → Bool) (ks : List κ) : Prop where
  readers : m.readers = ks.countP reads
  writer : m.writer.toNat = ks.countP writes

theorem heldBy_free : free.HeldBy reads writes [] := ⟨rfl, rfl⟩

/-- A call begins, and holds nothing. -/
theorem HeldBy.concat (h : m.HeldBy reads writes ks) {k : κ} (hr : reads k = false)
    (hw : writes k = false) : m.HeldBy reads writes (ks ++ [k]) := by
  constructor
  · rw [List.countP_append, List.countP_singleton, hr]
    exact h.readers
  · rw [List.countP_append, List.countP_singleton, hw]
    exact h.writer

/-- A call moves. -/
theorem HeldBy.move (h : m.HeldBy reads writes ks) {i : ℕ} {k k' : κ} (hk : ks[i]? = some k)
    (hm : Moves m m' (reads k) (writes k) (reads k') (writes k')) :
    m'.HeldBy reads writes (ks.set i k') := by
  obtain ⟨hr, hw⟩ := hm
  have hreads := Calls.countP_set hk k' reads
  have hwrites := Calls.countP_set hk k' writes
  rw [← h.readers, ← hr] at hreads
  rw [← h.writer, ← hw] at hwrites
  exact ⟨(Nat.add_right_cancel hreads).symm, (Nat.add_right_cancel hwrites).symm⟩

/-- At most one call holds the lock for writing. -/
theorem HeldBy.countP_writes_le_one (h : m.HeldBy reads writes ks) : ks.countP writes ≤ 1 := by
  rw [← h.writer]
  exact Bool.toNat_le m.writer

/-- **Beside a writer nobody reads.** -/
theorem HeldBy.reads_eq_false (h : m.HeldBy reads writes ks) {k k' : κ} (hk : k ∈ ks)
    (hw : writes k = true) (hk' : k' ∈ ks) : reads k' = false := by
  have hpos : 0 < ks.countP writes := List.countP_pos_iff.mpr ⟨k, hk, hw⟩
  have hwriter : m.writer = true := by
    rw [← h.writer] at hpos
    cases hm : m.writer with
    | true => rfl
    | false =>
      rw [hm] at hpos
      exact absurd hpos (Nat.lt_irrefl 0)
  have hnone : ks.countP reads = 0 := h.readers.symm.trans (m.exclusive hwriter)
  exact Bool.eq_false_iff.mpr (List.countP_eq_zero.mp hnone k' hk')

/-- Whoever gets the lock for writing finds nobody with it. -/
theorem HeldBy.of_lock (h : m.HeldBy reads writes ks) (hl : m.lock = some m') {k : κ}
    (hk : k ∈ ks) : reads k = false ∧ writes k = false := by
  obtain ⟨hfree, -⟩ := Option.ite_none_left_eq_some.mp hl
  obtain ⟨hw, hr⟩ := not_or.mp hfree
  have hwrites : ks.countP writes = 0 := by
    rw [← h.writer, Bool.eq_false_iff.mpr hw]
    rfl
  have hreads : ks.countP reads = 0 := h.readers.symm.trans (not_not.mp hr)
  exact ⟨Bool.eq_false_iff.mpr (List.countP_eq_zero.mp hreads k hk),
    Bool.eq_false_iff.mpr (List.countP_eq_zero.mp hwrites k hk)⟩

/-- **There is one writer.** -/
theorem HeldBy.eq_of_writes (h : m.HeldBy reads writes ks) {i j : ℕ} {k k' : κ}
    (hi : ks[i]? = some k) (hk : writes k = true) (hj : ks[j]? = some k')
    (hk' : writes k' = true) : i = j :=
  Calls.eq_of_countP_le_one h.countP_writes_le_one hi hk hj hk'

end RWMutex

end UnisetPanel
