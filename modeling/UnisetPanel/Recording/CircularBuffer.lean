/-
  The circular buffer of the recording: how `Manager.Save` and
  `Manager.SaveBatch` keep the number of records down.

  `Save` starts a cleanup when the last one is more than a minute ago;
  `SaveBatch` never does.  A run is any sequence of the two, at any times that
  do not go back.  The documentation says that every write checks the number of
  records; so a call more than a minute after the last check is `IsDue`, and the
  bound it should leave is ten percent over the limit.

  A cleanup of too many rows leaves at most `maxRecords` (`length_cleanup`), so
  a `Save` that is due keeps the bound unless the threshold of the cleanup is
  itself above it.  A `SaveBatch` that is due keeps it only if the batch still
  fits (`withinBuffer_iff`), and batches alone take nothing away
  (`length_saveBatches`).
-/
import UnisetPanel.Machine
import UnisetPanel.Timer
import UnisetPanel.Recording.Table

namespace UnisetPanel

/-- `time.Minute`. -/
def cleanupInterval : Duration := 60 * second

/-- The fields of the `Manager` that the two calls use, its backend, and the latest time read. -/
structure BufferState where
  enabled : Bool
  lastCleanup : Time
  table : RecordingTable
  clock : Time

/-- A call, with the times that it reads. -/
inductive BufferCall where
  /-- `time.Since` is taken at `since`, and `time.Now` after it -/
  | save (record : TimedRecord) (since now : Time)
  /-- it reads no clock; `now` is when it is made -/
  | saveBatch (records : List TimedRecord) (now : Time)

namespace BufferState

variable (q : OrderBy) (maxRecords : Int64) (s : BufferState)

/-- `Save`; the backend never fails. -/
def save (record : TimedRecord) (since now : Time) : BufferState :=
  if !s.enabled then s
  else
    let s := { s with table := s.table.save record false }
    -- `lastCleanup` is set before the cleanup, under `mu`
    if cleanupInterval < since - s.lastCleanup then
      { s with lastCleanup := now, table := s.table.cleanup q maxRecords }
    else s

/-- `SaveBatch`. -/
def saveBatch (records : List TimedRecord) : BufferState :=
  -- unlike `Save` it does not look at `lastCleanup`
  if !s.enabled then s else { s with table := s.table.saveBatch records false }

end BufferState

/-- When a call is made. -/
def BufferCall.time : BufferCall → Time
  | save _ since _ => since
  | saveBatch _ now => now

/-- The two calls, from a table `t` on, with recording on. -/
def bufferMachine (q : OrderBy) (maxRecords : Int64) (t : RecordingTable) :
    Machine BufferState BufferCall where
  init := ⟨true, 0, t, 0⟩
  step s
    | .save record since now =>
      if s.clock ≤ since ∧ since ≤ now then
        some { s.save q maxRecords record since now with clock := now }
      else none
    | .saveBatch records now =>
      if s.clock ≤ now then some { s.saveBatch records with clock := now } else none

/-- The call is made more than the interval after the last check. -/
def BufferCall.IsDue (s : BufferState) (c : BufferCall) : Prop :=
  cleanupInterval < c.time - s.lastCleanup

instance (s : BufferState) (c : BufferCall) : Decidable (c.IsDue s) :=
  inferInstanceAs (Decidable (_ < _))

/-- `⌊1.1 · maxRecords⌋`. -/
def bufferBound (maxRecords : Int64) : ℤ := 11 * maxRecords.toInt / 10

/-- A call that is due leaves no more records than the bound. -/
def WithinBuffer (q : OrderBy) (maxRecords : Int64) (t : RecordingTable) (s : BufferState)
    (c : BufferCall) : Prop :=
  c.IsDue s → ∀ s', (bufferMachine q maxRecords t).step s c = some s' →
    (s'.table.rows.length : ℤ) ≤ bufferBound maxRecords

/-- A call that is due is a `Save` that finds room or is above the threshold, or a `SaveBatch` that
finds room. -/
def FindsRoom (maxRecords : Int64) (s : BufferState) (c : BufferCall) : Prop :=
  c.IsDue s → match c with
    | .save _ _ _ =>
      (s.table.rows.length : ℤ) + 1 ≤ bufferBound maxRecords ∨
        (cleanupThreshold maxRecords).toInt < s.table.rows.length + 1
    | .saveBatch records _ =>
      (s.table.rows.length : ℤ) + records.length ≤ bufferBound maxRecords

/-! ### A batch after a minute -/

/-- The record that the run below stores. -/
def sampleRecord : TimedRecord :=
  ⟨"server1", "Object1", "var1", "1", ⟨2025, 12, 20, 14, 28, 36, 0, by decide⟩⟩

/-- One record, and a batch of twelve two minutes later. -/
def batchRun : List BufferCall :=
  [.save sampleRecord (1000 * second) (1000 * second),
    .saveBatch (List.replicate 12 sampleRecord) (1120 * second)]

/-- With a limit of ten records, the batch leaves thirteen. -/
theorem not_withinBuffer : ¬ ∀ (q : OrderBy) (maxRecords : Int64) (t : RecordingTable),
    0 < maxRecords → ∀ calls s, (bufferMachine q maxRecords t).run
      (bufferMachine q maxRecords t).init calls = some s →
    (bufferMachine q maxRecords t).EveryStep (WithinBuffer q maxRecords t) calls := by
  intro h
  have hall := h .stable 10 .empty (by decide) batchRun _ rfl
  have hlast := hall (batchRun.take 1) _ [] _ rfl rfl (by decide) _ rfl
  exact absurd hlast (by decide +kernel)

/-! ### When the bound is kept -/

variable {q : OrderBy} {maxRecords : Int64} {t : RecordingTable} {s s' : BufferState}

theorem toInt_pos (h : 0 < maxRecords) : 0 < maxRecords.toInt := Int64.lt_iff_toInt_lt.mp h

theorem le_bufferBound (h : 0 < maxRecords) : maxRecords.toInt ≤ bufferBound maxRecords := by
  have := toInt_pos h
  unfold bufferBound
  omega

variable (hmax : 0 < maxRecords) (hs : s.enabled = true)

include hs in
theorem table_save_of_due {record : TimedRecord} {since now : Time}
    (hdue : cleanupInterval < since - s.lastCleanup) :
    (s.save q maxRecords record since now).table =
      (s.table.insert record).cleanup q maxRecords := by
  simp only [BufferState.save, hs, Bool.not_true, Bool.false_eq_true, if_false, if_pos hdue,
    RecordingTable.save]

include hs in
theorem length_saveBatch {records : List TimedRecord} :
    (s.saveBatch records).table.rows.length = s.table.rows.length + records.length := by
  simp only [BufferState.saveBatch, hs, Bool.not_true, Bool.false_eq_true, if_false,
    s.table.length_saveBatch]

include hmax in
/-- A cleanup keeps the bound, or finds no more rows than its threshold. -/
theorem length_cleanup_le_iff (t : RecordingTable) :
    ((t.cleanup q maxRecords).rows.length : ℤ) ≤ bufferBound maxRecords ↔
      (t.rows.length : ℤ) ≤ bufferBound maxRecords ∨
        (cleanupThreshold maxRecords).toInt < t.rows.length := by
  rcases lt_or_ge (cleanupThreshold maxRecords).toInt (t.rows.length : ℤ) with h | h
  · have hlen := t.length_cleanup q (toInt_pos hmax) h
    exact iff_of_true (hlen.trans (le_bufferBound hmax)) (.inr h)
  · rw [t.cleanup_of_le q h]
    exact (or_iff_left h.not_gt).symm

include hmax hs in
/-- **One call** keeps the bound exactly when it finds room. -/
theorem withinBuffer_iff_findsRoom {c : BufferCall}
    (hstep : (bufferMachine q maxRecords t).step s c = some s') :
    WithinBuffer q maxRecords t s c ↔ FindsRoom maxRecords s c := by
  have hafter : (∀ u, (bufferMachine q maxRecords t).step s c = some u →
      (u.table.rows.length : ℤ) ≤ bufferBound maxRecords) ↔
        (s'.table.rows.length : ℤ) ≤ bufferBound maxRecords := by
    refine ⟨fun h => h s' hstep, fun h u hu => ?_⟩
    obtain rfl := Option.some.inj (hstep.symm.trans hu)
    exact h
  refine forall_congr' fun hdue => hafter.trans ?_
  cases c with
  | save record since now =>
    obtain ⟨-, hstep⟩ := Option.ite_none_right_eq_some.mp hstep
    obtain rfl := Option.some.inj hstep
    show ((s.save q maxRecords record since now).table.rows.length : ℤ) ≤ _ ↔ _
    have htime : cleanupInterval < since - s.lastCleanup := hdue
    rw [table_save_of_due hs htime, length_cleanup_le_iff hmax, RecordingTable.rows_insert,
      List.length_append, List.length_singleton, Nat.cast_add, Nat.cast_one]
  | saveBatch records now =>
    obtain ⟨-, hstep⟩ := Option.ite_none_right_eq_some.mp hstep
    obtain rfl := Option.some.inj hstep
    show ((s.saveBatch records).table.rows.length : ℤ) ≤ _ ↔ _
    rw [length_saveBatch hs, Nat.cast_add]

/-- Recording stays on. -/
theorem enabled_of_reachable (h : (bufferMachine q maxRecords t).Reachable s) :
    s.enabled = true := by
  refine h.induction (P := fun s : BufferState => s.enabled = true) rfl fun s c s' _ hs h => ?_
  cases c with
  | save record since now =>
    obtain ⟨-, h⟩ := Option.ite_none_right_eq_some.mp h
    obtain rfl := Option.some.inj h
    simp only [BufferState.save, hs, Bool.not_true, Bool.false_eq_true, if_false]
    split_ifs <;> rfl
  | saveBatch records now =>
    obtain ⟨-, h⟩ := Option.ite_none_right_eq_some.mp h
    obtain rfl := Option.some.inj h
    simp only [BufferState.saveBatch, hs, Bool.not_true, Bool.false_eq_true, if_false]

/-- **When the bound is kept**: in the runs in which every call that is due finds room. -/
theorem withinBuffer_iff (hmax : 0 < maxRecords) {calls : List BufferCall}
    (hrun : (bufferMachine q maxRecords t).run (bufferMachine q maxRecords t).init calls = some s) :
    (bufferMachine q maxRecords t).EveryStep (WithinBuffer q maxRecords t) calls ↔
      (bufferMachine q maxRecords t).EveryStep (FindsRoom maxRecords) calls :=
  Machine.everyStep_congr
    (fun _ _ _ hr h => withinBuffer_iff_findsRoom hmax (enabled_of_reachable hr) h) hrun

/-- A first `Save`, a batch of twelve right after it, and two minutes later a `Save` that cleans up. -/
def cleanupRun : List BufferCall :=
  [.save sampleRecord (1000 * second) (1000 * second),
    .saveBatch (List.replicate 12 sampleRecord) (1001 * second),
    .save sampleRecord (1120 * second) (1120 * second)]

/-- Of fourteen records the last call leaves ten. -/
theorem withinBuffer_cleanupRun : ∃ s,
    (bufferMachine .stable 10 .empty).run (bufferMachine .stable 10 .empty).init cleanupRun =
      some s ∧ s.table.rows.length = 10 ∧
    (bufferMachine .stable 10 .empty).EveryStep (WithinBuffer .stable 10 .empty) cleanupRun := by
  refine ⟨_, rfl, by decide +kernel, (withinBuffer_iff (by decide) rfl).mpr ?_⟩
  have hfirst : (bufferMachine .stable 10 .empty).EveryStep (FindsRoom 10) (cleanupRun.take 1) :=
    Machine.everyStep_nil.concat rfl fun _ => .inl (by decide)
  have hsecond : (bufferMachine .stable 10 .empty).EveryStep (FindsRoom 10) (cleanupRun.take 2) :=
    hfirst.concat rfl fun hdue => absurd hdue (by decide)
  exact hsecond.concat rfl fun _ => .inr (by decide)

/-! ### The two calls alone -/

/-- With `Save` alone the bound is kept, if the threshold is not above it. -/
theorem withinBuffer_of_saves (hmax : 0 < maxRecords)
    (hthreshold : (cleanupThreshold maxRecords).toInt ≤ bufferBound maxRecords)
    {calls : List BufferCall} (hcalls : ∀ c ∈ calls, ∃ record since now, c = .save record since now)
    (hrun : (bufferMachine q maxRecords t).run (bufferMachine q maxRecords t).init calls = some s) :
    (bufferMachine q maxRecords t).EveryStep (WithinBuffer q maxRecords t) calls := by
  intro pre c post u hsplit hu
  obtain ⟨v, hv⟩ := Machine.exists_step_of_run (hsplit ▸ hrun) hu
  have hon := enabled_of_reachable (Machine.reachable_of_run hu)
  refine (withinBuffer_iff_findsRoom hmax hon hv).mpr fun _ => ?_
  obtain ⟨record, since, now, rfl⟩ := hcalls c (by simp [hsplit])
  -- up to the threshold there is room, and above it a cleanup
  rcases lt_or_ge (cleanupThreshold maxRecords).toInt (u.table.rows.length + 1) with h | h
  · exact .inr h
  · exact .inl (h.trans hthreshold)

example : (cleanupThreshold 1000000).toInt = bufferBound 1000000 := by decide

/-- Batches alone take nothing away. -/
theorem length_saveBatches {batches : List (List TimedRecord × Time)}
    (hrun : (bufferMachine q maxRecords t).run (bufferMachine q maxRecords t).init
      (batches.map fun b => .saveBatch b.1 b.2) = some s) :
    s.table.rows.length = t.rows.length + (batches.map (·.1.length)).sum := by
  induction batches using List.reverseRecOn generalizing s with
  | nil =>
    obtain rfl := Option.some.inj hrun
    rfl
  | append_singleton batches b ih =>
    rw [List.map_append, Machine.run_append_eq_some] at hrun
    obtain ⟨u, hu, hrest⟩ := hrun
    rw [List.map_singleton, Machine.run_singleton] at hrest
    obtain ⟨-, hrest⟩ := Option.ite_none_right_eq_some.mp hrest
    obtain rfl := Option.some.inj hrest
    show (u.saveBatch b.1).table.rows.length = _
    have henabled := enabled_of_reachable (Machine.reachable_of_run hu)
    rw [length_saveBatch henabled, ih hu, List.map_append, List.sum_append, List.map_singleton,
      List.sum_singleton, Nat.add_assoc]

end UnisetPanel
