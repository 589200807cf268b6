/-
  The table `recording` of `SQLiteBackend`: `Save`, `SaveBatch`, `GetHistory`,
  `Cleanup` and `Clear`.

  A row is what the statements of the source bind and read: the columns, with
  the time as the text `time.RFC3339Nano` gives it, and the `id` that
  AUTOINCREMENT never gives twice.  The value is its JSON text.  SQLite compares
  texts byte by byte.  `OrderBy` is any order that it may answer with to
  `ORDER BY timestamp ASC`, where rows of one text stand as they like.

  A call that returns an error (the value has no JSON, the database fails)
  leaves the table as it was: an insert is one statement, and a batch one
  transaction.
-/
import UnisetPanel.RFC3339
import Mathlib.Data.List.Sort

namespace UnisetPanel

/-- `recording.DataRecord`, its value as JSON and its timestamp as date and time in UTC. -/
structure TimedRecord where
  serverID : String
  objectName : String
  variableName : String
  value : String
  timestamp : UTCTime
  deriving DecidableEq

/-- `recording.ExportFilter`; an empty name stands for all. -/
structure ExportFilter where
  fromTime : Option UTCTime
  toTime : Option UTCTime
  serverID : String
  objectName : String

/-- A row of the table. -/
structure RecordingRow where
  id : ℕ
  serverID : String
  objectName : String
  variableName : String
  value : String
  timestamp : List Char

namespace RecordingRow

/-- The row that an insert of `record` makes. -/
def ofRecord (id : ℕ) (record : TimedRecord) : RecordingRow :=
  ⟨id, record.serverID, record.objectName, record.variableName, record.value,
    record.timestamp.format⟩

/-- What `rows.Scan` makes of a row; an error if the text is not a time. -/
def scan (row : RecordingRow) : Option TimedRecord :=
  (UTCTime.parse row.timestamp).map fun timestamp =>
    ⟨row.serverID, row.objectName, row.variableName, row.value, timestamp⟩

end RecordingRow

/-- The `WHERE` of `GetHistory`. -/
def ExportFilter.selects (filter : ExportFilter) (row : RecordingRow) : Bool :=
  (filter.fromTime.all fun t => t.format ≤ row.timestamp) &&
    (filter.toTime.all fun t => row.timestamp ≤ t.format) &&
    (filter.serverID = "" || row.serverID = filter.serverID) &&
    (filter.objectName = "" || row.objectName = filter.objectName)

/-- An order that SQLite may give rows by their timestamps. -/
structure OrderBy where
  sort : List RecordingRow → List RecordingRow
  perm : ∀ rows, (sort rows).Perm rows
  pairwise : ∀ rows, (sort rows).Pairwise (·.timestamp ≤ ·.timestamp)

/-- Rows of one text in the order of insertion. -/
def OrderBy.stable : OrderBy :=
  have : Std.Total fun a b : RecordingRow => a.timestamp ≤ b.timestamp :=
    ⟨fun a b => le_total a.timestamp b.timestamp⟩
  have : IsTrans RecordingRow fun a b => a.timestamp ≤ b.timestamp := ⟨fun _ _ _ => le_trans⟩
  { sort := List.insertionSort (·.timestamp ≤ ·.timestamp)
    perm := List.perm_insertionSort _
    pairwise := List.pairwise_insertionSort _ }

/-- A `LIMIT`; a negative one is none. -/
def limit (n : ℤ) (rows : List RecordingRow) : List RecordingRow :=
  if n < 0 then rows else rows.take n.toNat

/-- The table. -/
structure RecordingTable where
  rows : List RecordingRow
  nextID : ℕ
  id_lt : ∀ row ∈ rows, row.id < nextID
  nodup : (rows.map RecordingRow.id).Nodup

/-- The conversion `int64(x)`; out of range it gives the least integer, as the machine does. -/
def toInt64 (x : Float) : Int64 :=
  if 0 ≤ x ∧ x < 9223372036854775808 then x.toUInt64.toInt64
  else if -9223372036854775808 ≤ x ∧ x < 0 then -(-x).toUInt64.toInt64
  else Int64.minValue

/-- `int64(float64(maxRecords) * 1.1)`. -/
def cleanupThreshold (maxRecords : Int64) : Int64 :=
  toInt64 (Float.ofInt maxRecords.toInt * 1.1)

/-- `int64(float64(maxRecords) * 0.1)`. -/
def cleanupTenth (maxRecords : Int64) : Int64 := toInt64 (Float.ofInt maxRecords.toInt * 0.1)

example : cleanupThreshold 1000000 = 1100000 ∧ cleanupTenth 1000000 = 100000 := by decide

namespace RecordingTable

/-- The table that `createTables` makes. -/
def empty : RecordingTable := ⟨[], 1, nofun, List.nodup_nil⟩

variable (t : RecordingTable)

/-- The `INSERT` of a record. -/
def insert (record : TimedRecord) : RecordingTable where
  rows := t.rows ++ [.ofRecord t.nextID record]
  nextID := t.nextID + 1
  id_lt row hrow := by
    rcases List.mem_append.mp hrow with hrow | hrow
    · exact (t.id_lt row hrow).trans (Nat.lt_succ_self _)
    · rw [List.mem_singleton.mp hrow]
      exact Nat.lt_succ_self _
  nodup := by
    rw [List.map_append, List.nodup_append]
    refine ⟨t.nodup, List.nodup_singleton _, fun i hi j hj => ?_⟩
    obtain ⟨row, hrow, rfl⟩ := List.mem_map.mp hi
    rw [List.mem_singleton.mp hj]
    exact (t.id_lt row hrow).ne

/-- `Save`; `err` is whether it returns an error. -/
def save (record : TimedRecord) (err : Bool) : RecordingTable :=
  if err then t else t.insert record

/-- `SaveBatch`; `err` is whether it returns an error. -/
def saveBatch (records : List TimedRecord) (err : Bool) : RecordingTable :=
  if records.length = 0 then t
  else if err then t
  else records.foldl insert t

/-- `GetHistory`; `none` is an error of `rows.Scan`. -/
def getHistory (q : OrderBy) (filter : ExportFilter) : Option (List TimedRecord) :=
  (q.sort (t.rows.filter filter.selects)).mapM RecordingRow.scan

/-- The `DELETE` of the rows that `p` holds of. -/
def delete (p : RecordingRow → Bool) : RecordingTable where
  rows := t.rows.filter fun row => !p row
  nextID := t.nextID
  id_lt row hrow := t.id_lt row (List.mem_of_mem_filter hrow)
  nodup := t.nodup.sublist (List.filter_sublist.map _)

/-- `Cleanup`. -/
def cleanup (q : OrderBy) (maxRecords : Int64) : RecordingTable :=
  let count : ℤ := t.rows.length
  if count ≤ (cleanupThreshold maxRecords).toInt then t
  else
    -- what is above the limit, but at least a tenth of the limit
    let deleteCount :=
      if count - maxRecords.toInt < (cleanupTenth maxRecords).toInt then
        (cleanupTenth maxRecords).toInt
      else count - maxRecords.toInt
    let ids := (limit deleteCount (q.sort t.rows)).map RecordingRow.id
    t.delete fun row => row.id ∈ ids

/-- `Clear`. -/
def clear : RecordingTable := t.delete fun _ => true

/-! ### What the statements do to the rows -/

@[simp] theorem rows_insert (record : TimedRecord) :
    (t.insert record).rows = t.rows ++ [.ofRecord t.nextID record] := rfl

theorem length_foldl_insert (records : List TimedRecord) :
    (records.foldl insert t).rows.length = t.rows.length + records.length := by
  induction records generalizing t with
  | nil => rfl
  | cons record records ih =>
    rw [List.foldl_cons, ih, rows_insert, List.length_append, List.length_singleton,
      List.length_cons, Nat.add_assoc, Nat.add_comm 1]

theorem length_saveBatch (records : List TimedRecord) :
    (t.saveBatch records false).rows.length = t.rows.length + records.length := by
  simp only [saveBatch, Bool.false_eq_true, if_false]
  split_ifs with h
  · rw [h, Nat.add_zero]
  · exact t.length_foldl_insert records

/-- A delete by the ids of some of the rows takes just these away. -/
theorem perm_delete_ids (rows rest : List RecordingRow) (h : (rows ++ rest).Perm t.rows) :
    (t.delete fun row => row.id ∈ rows.map RecordingRow.id).rows.Perm rest := by
  have hnodup : ((rows ++ rest).map RecordingRow.id).Nodup := (h.map _).nodup_iff.mpr t.nodup
  rw [List.map_append, List.nodup_append] at hnodup
  have hperm := h.filter fun row => !decide (row.id ∈ rows.map RecordingRow.id)
  have hrows : rows.filter (fun row => !decide (row.id ∈ rows.map RecordingRow.id)) = [] := by
    refine List.filter_eq_nil_iff.mpr fun row hrow => ?_
    simp [List.mem_map_of_mem (f := RecordingRow.id) hrow]
  have hrest : rest.filter (fun row => !decide (row.id ∈ rows.map RecordingRow.id)) = rest := by
    refine List.filter_eq_self.mpr fun row hrow => ?_
    have hne : row.id ∉ rows.map RecordingRow.id := fun hid =>
      hnodup.2.2 _ hid _ (List.mem_map_of_mem hrow) rfl
    simp only [hne, decide_false, Bool.not_false]
  rw [List.filter_append, hrows, hrest, List.nil_append] at hperm
  exact hperm.symm

theorem length_delete_ids (rows rest : List RecordingRow) (h : (rows ++ rest).Perm t.rows) :
    (t.delete fun row => row.id ∈ rows.map RecordingRow.id).rows.length = rest.length :=
  (t.perm_delete_ids rows rest h).length_eq

/-- **After a cleanup that finds too many rows**, no more than `maxRecords` are left. -/
theorem length_cleanup (q : OrderBy) {maxRecords : Int64} (hmax : 0 < maxRecords.toInt)
    (h : (cleanupThreshold maxRecords).toInt < t.rows.length) :
    ((t.cleanup q maxRecords).rows.length : ℤ) ≤ maxRecords.toInt := by
  have hsort := (q.perm t.rows).length_eq
  simp only [cleanup, if_neg h.not_ge]
  generalize hn : (if (t.rows.length : ℤ) - maxRecords.toInt < (cleanupTenth maxRecords).toInt then
    (cleanupTenth maxRecords).toInt else t.rows.length - maxRecords.toInt) = n
  have hle : (t.rows.length : ℤ) - maxRecords.toInt ≤ n := by
    rw [← hn]
    split_ifs with h
    · exact h.le
    · exact le_rfl
  unfold limit
  split_ifs with hneg
  · -- no limit: everything goes
    rw [t.length_delete_ids _ [] (by rw [List.append_nil]; exact q.perm t.rows)]
    exact hmax.le
  · rw [t.length_delete_ids _ ((q.sort t.rows).drop n.toNat)
      (by rw [List.take_append_drop]; exact q.perm t.rows), List.length_drop, hsort]
    omega

theorem cleanup_of_le (q : OrderBy) {maxRecords : Int64}
    (h : (t.rows.length : ℤ) ≤ (cleanupThreshold maxRecords).toInt) :
    t.cleanup q maxRecords = t := if_pos h

@[simp] theorem rows_clear : t.clear.rows = [] :=
  List.filter_eq_nil_iff.mpr fun _ _ => by simp

end RecordingTable

end UnisetPanel
