/-
  The export of the recording as CSV: `ExportCSV` and `ToCSV`.

  `ExportCSV` writes a line with the names of the columns and a line for each
  record, through `encoding/csv`, which puts a field between quotes if it has
  a comma, a quote, the end of a line or a space in front.  The value is what
  `%v` prints of it.

  A reader of the file gets back every record that the filter selects, once for
  each time it was stored, with the nanosecond of its time, whatever the names
  and values are (`importCSV_toCSV`).  The records are those of the backend,
  stored by its `Save` and `SaveBatch`, without the cleanups of the manager;
  their times are of the years 0 to 9999, and what a filter selects is by the
  order of the texts of the times, as in `GetHistory`.
-/
import UnisetPanel.Csv
import UnisetPanel.Recording.History

namespace UnisetPanel

open UTCTime

namespace Export

/-! ### `encoding/csv` -/

/-- `unicode.IsSpace`. -/
def isSpace (c : Char) : Bool :=
  decide (c ∈ ['\t', '\n', '\x0b', '\x0c', '\r', ' ', '\x85', '\xa0', '\u1680', '\u2028', '\u2029',
    '\u202f', '\u205f', '\u3000']) || decide ('\u2000' ≤ c ∧ c ≤ '\u200a')

/-- `fieldNeedsQuotes`. -/
def fieldNeedsQuotes (field : Csv.Field) : Bool :=
  if field = [] then false
  else if field = ['\\', '.'] then true
  else field.any (fun c => decide (c = '\n' ∨ c = '\r' ∨ c = '"' ∨ c = ',')) ||
    field.head?.any isSpace

/-- A `csv.Writer` as `NewWriter` makes it. -/
def csvWriter : Csv.Quoting where
  quotes := fieldNeedsQuotes
  plain f hf c hc := by
    have hany : f.any (fun c => decide (c = '\n' ∨ c = '\r' ∨ c = '"' ∨ c = ',')) = false := by
      unfold fieldNeedsQuotes at hf
      split_ifs at hf with hnil
      · rw [hnil]; rfl
      · exact (Bool.or_eq_false_iff.mp hf).1
    have hno := List.any_eq_false.mp hany c hc
    simp only [decide_eq_true_iff, not_or] at hno
    exact ⟨hno.2.2.2, hno.2.2.1, hno.1⟩

/-! ### The export -/

/-- What `%v` prints of the value whose JSON is given. -/
abbrev Sprint := String → String

variable (sprint : Sprint)

/-- The names of the columns. -/
def header : List Csv.Field :=
  ["timestamp", "server_id", "object_name", "variable_name", "value"].map String.toList

/-- The fields of a record. -/
def row (record : TimedRecord) : List Csv.Field :=
  [record.timestamp.format, record.serverID.toList, record.objectName.toList,
    record.variableName.toList, (sprint record.value).toList]

/-- `ExportCSV`. -/
def exportCSV (records : List TimedRecord) : List Char :=
  Csv.write csvWriter (header :: records.map (row sprint))

/-- `ToCSV`; no export if `GetHistory` fails. -/
def toCSV (t : RecordingTable) (q : OrderBy) (filter : ExportFilter) : Option (List Char) :=
  (t.getHistory q filter).map (exportCSV sprint)

/-! ### Reading it -/

/-- The record of a line; its value is the printed one. -/
def ofRow : List Csv.Field → Option TimedRecord
  | [timestamp, serverID, objectName, variableName, value] =>
    (UTCTime.parse timestamp).map fun t =>
      ⟨String.ofList serverID, String.ofList objectName, String.ofList variableName,
        String.ofList value, t⟩
  | _ => none

/-- The records of a file with the right columns. -/
def importCSV (text : List Char) : Option (List TimedRecord) :=
  (Csv.read text).bind fun
    | columns :: rows => if columns = header then rows.mapM ofRow else none
    | [] => none

/-- The record as the file shows it. -/
def printed (record : TimedRecord) : TimedRecord := { record with value := sprint record.value }

theorem ofRow_row {record : TimedRecord} (h : record.timestamp.FourDigits) :
    ofRow (row sprint record) = some (printed sprint record) := by
  unfold ofRow row
  simp only [parse_format h, Option.map_some, String.ofList_toList]
  rfl

theorem mapM_ofRow {records : List TimedRecord}
    (hyears : ∀ record ∈ records, record.timestamp.FourDigits) :
    (records.map (row sprint)).mapM ofRow = some (records.map (printed sprint)) := by
  induction records with
  | nil => rfl
  | cons record records ih =>
    rw [List.map_cons, List.mapM_cons, ofRow_row sprint (hyears record List.mem_cons_self),
      ih fun r hr => hyears r (List.mem_cons_of_mem record hr)]
    rfl

/-- The file of any records is read as these records. -/
theorem importCSV_exportCSV {records : List TimedRecord}
    (hyears : ∀ record ∈ records, record.timestamp.FourDigits) :
    importCSV (exportCSV sprint records) = some (records.map (printed sprint)) := by
  unfold importCSV exportCSV
  rw [Csv.read_write]
  · show (if header = header then (records.map (row sprint)).mapM ofRow else none) = _
    rw [mapM_ofRow sprint hyears]
    exact if_pos rfl
  · -- no line is without fields
    intro r hr
    rcases List.mem_cons.mp hr with rfl | hr
    · exact List.cons_ne_nil _ _
    · obtain ⟨record, -, rfl⟩ := List.mem_map.mp hr
      exact List.cons_ne_nil _ _

/-- **The export is complete and readable.**  After any sequence of `Save` and `SaveBatch`, the file
for a filter is read as exactly the stored records that the filter selects, each as often as it was
stored, with all their names and times and with the printed values, in the order of the texts of the
times. -/
theorem importCSV_toCSV (q : OrderBy) {calls : List SaveCall} (filter : ExportFilter)
    (hyears : ∀ record ∈ savedRecords calls, record.timestamp.FourDigits) :
    ∃ answer, (toCSV sprint (stored calls) q filter).bind importCSV = some answer ∧
      answer.Perm (((savedRecords calls).filter fun r =>
        filter.selects (.ofRecord 0 r)).map (printed sprint)) ∧
      answer.Pairwise fun a b => TextLE a.timestamp b.timestamp := by
  obtain ⟨records, hhistory, hperm, hsorted⟩ := getHistory_stored q filter hyears
  have hyears' : ∀ record ∈ records, record.timestamp.FourDigits := fun record hr =>
    hyears record (List.mem_of_mem_filter (hperm.mem_iff.mp hr))
  refine ⟨records.map (printed sprint), ?_, hperm.map _, List.pairwise_map.mpr hsorted⟩
  unfold toCSV
  rw [hhistory, Option.map_some, Option.bind_some]
  exact importCSV_exportCSV sprint hyears'

/-- A name with a comma and a quote, and a value that is printed on two lines. -/
def awkward : TimedRecord :=
  ⟨"a, \"b\"", "O", " v", "1", ⟨2025, 12, 20, 14, 30, 37, 5, by decide⟩⟩

theorem importCSV_toCSV_awkward :
    ∃ answer, (toCSV (fun _ => "1\n2") (stored [.save awkward false]) .stable
        ⟨none, none, "", ""⟩).bind importCSV = some answer ∧
      answer.Perm (((savedRecords [.save awkward false]).filter fun r =>
        (⟨none, none, "", ""⟩ : ExportFilter).selects (.ofRecord 0 r)).map (printed fun _ => "1\n2")) ∧
      answer.Pairwise fun a b => TextLE a.timestamp b.timestamp :=
  importCSV_toCSV (fun _ => "1\n2") .stable ⟨none, none, "", ""⟩ (by decide)

end Export

end UnisetPanel
