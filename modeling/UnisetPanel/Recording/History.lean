/-
  The range query of the recording history: what `GetHistory` returns of the
  records that `Save` and `SaveBatch` stored.

  The rows hold the texts of the times, and `GetHistory` compares and orders
  these texts.  What it returns is exactly known (`getHistory_stored`): the
  records of the given names that lie between the bounds in the order of the
  texts, in that order.  So the answer is what the filter asks for if and only
  if the texts order the records and the bounds as their times do.
  `RangeSafe` says this of the times themselves: it fails for a record and a
  bound, or for two records, in one second, when the fraction of the one is the
  start of the fraction of the other (`:37Z` and `:37.5Z`).
-/
import UnisetPanel.Recording.Table
import Mathlib.Data.List.Pairwise
import Mathlib.Data.List.Perm.Basic

namespace UnisetPanel

/-- A call of `Save` or `SaveBatch`, and whether it returned an error. -/
inductive SaveCall where
  | save (record : TimedRecord) (err : Bool)
  | saveBatch (records : List TimedRecord) (err : Bool)

namespace SaveCall

/-- What a call does to the table. -/
def apply (t : RecordingTable) : SaveCall → RecordingTable
  | save record err => t.save record err
  | saveBatch records err => t.saveBatch records err

/-- The records that a call was to store, if it returned no error. -/
def records : SaveCall → List TimedRecord
  | save record err => if err then [] else [record]
  | saveBatch records err => if err then [] else records

end SaveCall

/-- The table after a sequence of calls. -/
def stored (calls : List SaveCall) : RecordingTable := calls.foldl SaveCall.apply .empty

/-- The records stored by a sequence of calls. -/
def savedRecords (calls : List SaveCall) : List TimedRecord := calls.flatMap SaveCall.records

namespace ExportFilter

variable (filter : ExportFilter) (record : TimedRecord)

/-- The record is of the server and the object of the filter. -/
def SameNames : Prop :=
  (filter.serverID = "" ∨ record.serverID = filter.serverID) ∧
    (filter.objectName = "" ∨ record.objectName = filter.objectName)

/-- `From ≤ t ≤ To`. -/
def InRange : Prop :=
  (∀ t ∈ filter.fromTime, t ≤ record.timestamp) ∧ ∀ t ∈ filter.toTime, record.timestamp ≤ t

/-- What the filter asks for. -/
def Matches : Prop := filter.SameNames record ∧ filter.InRange record

instance : Decidable (filter.SameNames record) := inferInstanceAs (Decidable (_ ∧ _))

instance : Decidable (filter.InRange record) := inferInstanceAs (Decidable (_ ∧ _))

instance : Decidable (filter.Matches record) := inferInstanceAs (Decidable (_ ∧ _))

end ExportFilter

/-- `GetHistory` returns exactly the records that the filter asks for, in the order of time. -/
def HistoryExact (q : OrderBy) (calls : List SaveCall) (filter : ExportFilter) : Prop :=
  ∃ records, (stored calls).getHistory q filter = some records ∧
    records.Perm ((savedRecords calls).filter (filter.Matches ·)) ∧
    records.Pairwise (·.timestamp ≤ ·.timestamp)

open UTCTime in
/-- No text stands where its time does not, as far as a filter can see. -/
structure RangeSafe (records : List TimedRecord) (filter : ExportFilter) : Prop where
  /-- the bounds keep every record that the filter asks for -/
  kept : ∀ record ∈ records, filter.Matches record →
    (∀ t ∈ filter.fromTime, ¬ Inverted t record.timestamp) ∧
      ∀ t ∈ filter.toTime, ¬ Inverted record.timestamp t
  /-- and let no other pass -/
  excluded : ∀ record ∈ records, filter.SameNames record →
    (∀ t ∈ filter.fromTime, TextLE t record.timestamp) →
    (∀ t ∈ filter.toTime, TextLE record.timestamp t) → filter.InRange record
  /-- no two of those asked for are the other way round -/
  ordered : ∀ a ∈ records, ∀ b ∈ records, filter.Matches a → filter.Matches b →
    ¬ Truncates a.timestamp b.timestamp

/-! ### A record that is left out -/

/-- A record of 2025-12-20T14:30:37Z. -/
def fullSecond : TimedRecord :=
  ⟨"server1", "Object1", "var1", "1", ⟨2025, 12, 20, 14, 30, 37, 0, by decide⟩⟩

/-- All records up to 2025-12-20T14:30:37.5Z. -/
def halfSecondLater : ExportFilter :=
  ⟨none, some ⟨2025, 12, 20, 14, 30, 37, 500000000, by decide⟩, "", ""⟩

/-- The record of the full second is not among those up to half a second later. -/
theorem not_historyExact : ¬ ∀ (q : OrderBy) (calls : List SaveCall) (filter : ExportFilter),
    (∀ record ∈ savedRecords calls, record.timestamp.FourDigits) → HistoryExact q calls filter := by
  intro h
  obtain ⟨records, hget, hperm, -⟩ := h .stable [.save fullSecond false] halfSecondLater (by decide)
  have hnone : (stored [.save fullSecond false]).getHistory .stable halfSecondLater = some [] := by
    decide
  obtain rfl := Option.some.inj (hnone.symm.trans hget)
  exact absurd hperm (by decide)

/-! ### What the table holds -/

/-- The row was made from the record. -/
def Written (row : RecordingRow) (record : TimedRecord) : Prop := ∃ id, row = .ofRecord id record

variable {q : OrderBy} {t : RecordingTable} {rows : List RecordingRow} {records : List TimedRecord}

theorem forall₂_insert (h : List.Forall₂ Written t.rows records) (record : TimedRecord) :
    List.Forall₂ Written (t.insert record).rows (records ++ [record]) :=
  List.rel_append h (.cons ⟨t.nextID, rfl⟩ .nil)

theorem forall₂_foldl_insert (h : List.Forall₂ Written t.rows records)
    (batch : List TimedRecord) :
    List.Forall₂ Written (batch.foldl RecordingTable.insert t).rows (records ++ batch) := by
  induction batch generalizing t records with
  | nil => rwa [List.append_nil]
  | cons record batch ih =>
    rw [List.append_cons]
    exact ih (forall₂_insert h record)

/-- One call adds the rows of its records. -/
theorem forall₂_apply (h : List.Forall₂ Written t.rows records) (call : SaveCall) :
    List.Forall₂ Written (call.apply t).rows (records ++ call.records) := by
  cases call with
  | save record err =>
    cases err with
    | false => exact forall₂_insert h record
    | true => simpa [SaveCall.apply, SaveCall.records, RecordingTable.save] using h
  | saveBatch batch err =>
    simp only [SaveCall.apply, SaveCall.records, RecordingTable.saveBatch]
    split_ifs with hlen herr
    · simpa using h
    · rw [List.eq_nil_of_length_eq_zero hlen, List.append_nil]
      exact h
    · simpa using h
    · exact forall₂_foldl_insert h batch

theorem forall₂_foldl_apply (h : List.Forall₂ Written t.rows records) (calls : List SaveCall) :
    List.Forall₂ Written (calls.foldl SaveCall.apply t).rows
      (records ++ calls.flatMap SaveCall.records) := by
  induction calls generalizing t records with
  | nil => rwa [List.flatMap_nil, List.append_nil]
  | cons call calls ih =>
    rw [List.flatMap_cons, ← List.append_assoc]
    exact ih (forall₂_apply h call)

/-- The rows of the table are those of the stored records, in their order. -/
theorem forall₂_stored (calls : List SaveCall) :
    List.Forall₂ Written (stored calls).rows (savedRecords calls) :=
  forall₂_foldl_apply (show List.Forall₂ Written RecordingTable.empty.rows [] from .nil) calls

/-! ### What `GetHistory` makes of it -/

open UTCTime

/-- The record is between the bounds in the order of the texts. -/
def ExportFilter.InTextRange (filter : ExportFilter) (record : TimedRecord) : Prop :=
  (∀ t ∈ filter.fromTime, TextLE t record.timestamp) ∧
    ∀ t ∈ filter.toTime, TextLE record.timestamp t

theorem scan_ofRecord {record : TimedRecord} (h : record.timestamp.FourDigits) (id : ℕ) :
    (RecordingRow.ofRecord id record).scan = some record := by
  rw [RecordingRow.scan, RecordingRow.ofRecord, parse_format h]
  rfl

theorem format_le_format {a b : UTCTime} (h : a.FourDigits ∨ b.FourDigits) :
    a.format ≤ b.format ↔ TextLE a b := not_lt.symm.trans (not_format_lt_format h)

theorem selects_ofRecord {filter : ExportFilter} {record : TimedRecord}
    (h : record.timestamp.FourDigits) (id : ℕ) :
    filter.selects (.ofRecord id record) = true ↔
      filter.SameNames record ∧ filter.InTextRange record := by
  have hfrom (t : UTCTime) : t.format ≤ record.timestamp.format ↔ TextLE t record.timestamp :=
    format_le_format (.inr h)
  have hto (t : UTCTime) : record.timestamp.format ≤ t.format ↔ TextLE record.timestamp t :=
    format_le_format (.inl h)
  simp only [ExportFilter.selects, Bool.and_eq_true, Bool.or_eq_true, Option.all_eq_true,
    decide_eq_true_iff]
  simp only [RecordingRow.ofRecord, ExportFilter.SameNames, ExportFilter.InTextRange, hfrom, hto,
    Option.mem_def, and_assoc]
  constructor
  · rintro ⟨hf, ht, hs, ho⟩
    exact ⟨hs, ho, hf, ht⟩
  · rintro ⟨hs, ho, hf, ht⟩
    exact ⟨hf, ht, hs, ho⟩

theorem mapM_scan (h : List.Forall₂ Written rows records)
    (hyears : ∀ record ∈ records, record.timestamp.FourDigits) :
    rows.mapM RecordingRow.scan = some records := by
  induction h with
  | nil => rfl
  | @cons row record rows records hrow _ ih =>
    obtain ⟨id, rfl⟩ := hrow
    rw [List.mapM_cons, scan_ofRecord (hyears record List.mem_cons_self),
      ih fun r hr => hyears r (List.mem_cons_of_mem record hr)]
    rfl

theorem map_timestamp (h : List.Forall₂ Written rows records) :
    rows.map (·.timestamp) = records.map (·.timestamp.format) := by
  induction h with
  | nil => rfl
  | @cons row record rows records hrow _ ih =>
    obtain ⟨id, rfl⟩ := hrow
    rw [List.map_cons, List.map_cons, ih]
    rfl

/-- What a filter selects does not depend on the `id`. -/
theorem forall₂_filter (h : List.Forall₂ Written rows records) (filter : ExportFilter) :
    List.Forall₂ Written (rows.filter filter.selects)
      (records.filter fun record => filter.selects (.ofRecord 0 record)) := by
  refine List.rel_filter ?_ h
  rintro row record ⟨id, rfl⟩
  exact Iff.rfl

/-- **The answer of `GetHistory`**: the records of the names that are in range by their texts,
ordered by their texts. -/
theorem getHistory_stored (q : OrderBy) {calls : List SaveCall} (filter : ExportFilter)
    (hyears : ∀ record ∈ savedRecords calls, record.timestamp.FourDigits) :
    ∃ answer, (stored calls).getHistory q filter = some answer ∧
      answer.Perm ((savedRecords calls).filter fun r => filter.selects (.ofRecord 0 r)) ∧
      answer.Pairwise fun a b => TextLE a.timestamp b.timestamp := by
  obtain ⟨answer, hanswer, hperm⟩ := List.perm_comp_forall₂ (q.perm _)
    (forall₂_filter (forall₂_stored calls) filter)
  have hyears' : ∀ record ∈ answer, record.timestamp.FourDigits := fun record hr =>
    hyears record (List.mem_of_mem_filter (hperm.mem_iff.mp hr))
  refine ⟨answer, mapM_scan hanswer hyears', hperm, ?_⟩
  have hsorted := List.pairwise_map.mpr (q.pairwise ((stored calls).rows.filter filter.selects))
  rw [map_timestamp hanswer, List.pairwise_map] at hsorted
  exact hsorted.imp_of_mem fun {a b} ha _ h => (format_le_format (.inl (hyears' a ha))).mp h

/-! ### When that is what was asked for -/

variable {a b : UTCTime} {filter : ExportFilter}

theorem textLE_iff_of_le (hab : a ≤ b) (h : a.FourDigits ∨ b.FourDigits) :
    TextLE a b ↔ ¬ Inverted a b := by
  have hba : ¬ Inverted b a := not_inverted_of_le hab h
  rw [TextLE, and_iff_right hab]
  exact or_iff_left hba

/-- The selection is right exactly when the bounds separate the texts as they do the times. -/
theorem selects_iff_matches (hyears : ∀ record ∈ records, record.timestamp.FourDigits) :
    (∀ record ∈ records, filter.selects (.ofRecord 0 record) = true ↔ filter.Matches record) ↔
      (∀ record ∈ records, filter.Matches record →
        (∀ t ∈ filter.fromTime, ¬ Inverted t record.timestamp) ∧
          ∀ t ∈ filter.toTime, ¬ Inverted record.timestamp t) ∧
      ∀ record ∈ records, filter.SameNames record →
        (∀ t ∈ filter.fromTime, TextLE t record.timestamp) →
        (∀ t ∈ filter.toTime, TextLE record.timestamp t) → filter.InRange record := by
  rw [← forall₂_and]
  refine forall₂_congr fun record hr => ?_
  have hfour := hyears record hr
  rw [selects_ofRecord hfour, ExportFilter.Matches]
  have hbounds (h : filter.InRange record) : filter.InTextRange record ↔
      (∀ t ∈ filter.fromTime, ¬ Inverted t record.timestamp) ∧
        ∀ t ∈ filter.toTime, ¬ Inverted record.timestamp t :=
    and_congr
      (forall₂_congr fun t ht => textLE_iff_of_le (h.1 t ht) (.inr hfour))
      (forall₂_congr fun t ht => textLE_iff_of_le (h.2 t ht) (.inl hfour))
  constructor
  · intro h
    exact ⟨fun hm => (hbounds hm.2).mp (h.mpr hm).2,
      fun hnames hf ht => (h.mp ⟨hnames, hf, ht⟩).2⟩
  · rintro ⟨hkept, hexcluded⟩
    exact ⟨fun h => ⟨h.1, hexcluded h.1 h.2.1 h.2.2⟩,
      fun h => ⟨h.1, (hbounds h.2).mpr (hkept h)⟩⟩

/-- Records in the order of their texts are in the order of their times, unless one truncates
another. -/
theorem pairwise_le_iff (hyears : ∀ record ∈ records, record.timestamp.FourDigits)
    (h : records.Pairwise fun a b => TextLE a.timestamp b.timestamp) :
    records.Pairwise (·.timestamp ≤ ·.timestamp) ↔
      ∀ a ∈ records, ∀ b ∈ records, ¬ Truncates a.timestamp b.timestamp := by
  constructor
  · intro hle x hx y hy htrunc
    -- of two different records one stands first, by text and by time
    let R (x y : TimedRecord) : Prop := TextLE x.timestamp y.timestamp ∧ x.timestamp ≤ y.timestamp
    have : Std.Symm fun x y => R x y ∨ R y x := ⟨fun _ _ => Or.symm⟩
    have hone := ((h.and hle).imp (S := fun x y => R x y ∨ R y x) fun hxy => .inl hxy).forall hx hy
      fun hxy => htrunc.lt.ne (congrArg _ hxy)
    rcases hone with ⟨htext, hxy⟩ | ⟨-, hyx⟩
    · exact (textLE_iff_of_le hxy (.inl (hyears x hx))).mp htext (.inl htrunc)
    · exact htrunc.lt.not_ge hyx
  · intro hno
    refine h.imp_of_mem fun {x y} hx hy hxy => ?_
    rcases hxy with ⟨hle, -⟩ | hinv
    · exact hle
    · exact absurd ((inverted_iff_truncates (hyears x hx)).mp hinv) (hno y hy x hx)

theorem perm_filter_iff {α : Type*} {p p' : α → Bool} {l : List α} :
    (l.filter p).Perm (l.filter p') ↔ ∀ a ∈ l, p a = true ↔ p' a = true := by
  constructor
  · intro h a ha
    have hmem := h.mem_iff (a := a)
    rwa [List.mem_filter, List.mem_filter, and_iff_right ha, and_iff_right ha] at hmem
  · intro h
    rw [List.filter_congr fun a ha => Bool.eq_iff_iff.mpr (h a ha)]

/-- **When the range query is exact**: if and only if no text of a record or a bound stands where
its time does not. -/
theorem historyExact_iff (q : OrderBy) (calls : List SaveCall) (filter : ExportFilter)
    (hyears : ∀ record ∈ savedRecords calls, record.timestamp.FourDigits) :
    HistoryExact q calls filter ↔ RangeSafe (savedRecords calls) filter := by
  obtain ⟨answer, hget, hperm, hsorted⟩ := getHistory_stored q filter hyears
  have hexact : HistoryExact q calls filter ↔
      answer.Perm ((savedRecords calls).filter (filter.Matches ·)) ∧
        answer.Pairwise (·.timestamp ≤ ·.timestamp) := by
    constructor
    · rintro ⟨answer', hget', h⟩
      obtain rfl := Option.some.inj (hget.symm.trans hget')
      exact h
    · exact fun h => ⟨answer, hget, h⟩
  have hselect : answer.Perm ((savedRecords calls).filter (filter.Matches ·)) ↔
      ∀ record ∈ savedRecords calls,
        filter.selects (.ofRecord 0 record) = true ↔ filter.Matches record := by
    rw [hperm.congr_left, perm_filter_iff]
    simp only [decide_eq_true_iff]
  have hanswer : ∀ record ∈ answer, record.timestamp.FourDigits := fun record hr =>
    hyears record (List.mem_of_mem_filter (hperm.mem_iff.mp hr))
  rw [hexact, pairwise_le_iff hanswer hsorted]
  constructor
  · rintro ⟨hp, hno⟩
    obtain ⟨hkept, hexcluded⟩ := (selects_iff_matches hyears).mp (hselect.mp hp)
    have hmem {r : TimedRecord} (hr : r ∈ savedRecords calls) (hm : filter.Matches r) :
        r ∈ answer := hp.mem_iff.mpr (List.mem_filter.mpr ⟨hr, decide_eq_true hm⟩)
    exact ⟨hkept, hexcluded, fun x hx y hy hmx hmy => hno x (hmem hx hmx) y (hmem hy hmy)⟩
  · rintro ⟨hkept, hexcluded, hordered⟩
    have hp := hselect.mpr ((selects_iff_matches hyears).mpr ⟨hkept, hexcluded⟩)
    have hof {r : TimedRecord} (hr : r ∈ answer) :
        r ∈ savedRecords calls ∧ filter.Matches r := by
      have h := List.mem_filter.mp (hp.mem_iff.mp hr)
      exact ⟨h.1, of_decide_eq_true h.2⟩
    exact ⟨hp, fun x hx y hy => hordered x (hof hx).1 y (hof hy).1 (hof hx).2 (hof hy).2⟩

/-- All records up to 2025-12-20T14:30:38Z. -/
def secondLater : ExportFilter := ⟨none, some ⟨2025, 12, 20, 14, 30, 38, 0, by decide⟩, "", ""⟩

/-- The record of the full second is among those up to a second later. -/
theorem historyExact_secondLater : HistoryExact .stable [.save fullSecond false] secondLater :=
  (historyExact_iff .stable [.save fullSecond false] secondLater (by decide)).mpr
    ⟨by decide, by decide, by decide⟩

end UnisetPanel
