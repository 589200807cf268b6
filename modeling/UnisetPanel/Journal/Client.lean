/-
  The queries that `journal.Client` sends to ClickHouse.

  The table is append-only, and its rows are told apart by `id`, also where
  their contents are the same.  `RowOrder` is any order that ClickHouse may
  answer with to an `ORDER BY timestamp`: rows of one timestamp stand as they
  like, and differently in every answer.  Times are in nanoseconds, and the
  time that a query is given is taken exactly; the driver (`formatTime` in
  `clickhouse-go`) writes it in whole seconds.

  A query that fails returns nothing; both functions are the queries that
  succeed.
-/
import Mathlib.Data.List.Sort

namespace UnisetPanel

/-- `journal.Message`. -/
structure JournalMessage where
  timestamp : ℤ
  value : Float
  name : String
  message : String
  mtype : String
  mgroup : String
  mcode : String

/-- A row of the table. -/
structure JournalRow where
  id : ℕ
  message : JournalMessage

/-- The time of a row. -/
def JournalRow.timestamp (row : JournalRow) : ℤ := row.message.timestamp

/-- An order that ClickHouse may give rows by their timestamps. -/
structure RowOrder (le : ℤ → ℤ → Prop) where
  sort : List JournalRow → List JournalRow
  perm : ∀ rows, (sort rows).Perm rows
  pairwise : ∀ rows, (sort rows).Pairwise fun a b => le a.timestamp b.timestamp

/-- Rows of one timestamp as they stand in the table. -/
def RowOrder.stable (le : ℤ → ℤ → Prop) [DecidableRel le] [Std.Total le] [IsTrans ℤ le] :
    RowOrder le :=
  have : Std.Total fun a b : JournalRow => le a.timestamp b.timestamp :=
    ⟨fun a b => Std.Total.total a.timestamp b.timestamp⟩
  have : IsTrans JournalRow fun a b => le a.timestamp b.timestamp :=
    ⟨fun a b c => IsTrans.trans a.timestamp b.timestamp c.timestamp⟩
  { sort := List.insertionSort fun a b => le a.timestamp b.timestamp
    perm := List.perm_insertionSort _
    pairwise := List.pairwise_insertionSort _ }

/-- The `LIMIT` that the queries write. -/
def rowLimit (limit : ℤ) : ℕ := if limit ≤ 0 then 100 else limit.toNat

/-- `GetNewMessages`. -/
def getNewMessages (o : RowOrder (· ≤ ·)) (rows : List JournalRow) (since limit : ℤ) :
    List JournalRow :=
  (o.sort (rows.filter fun row => since < row.timestamp)).take (rowLimit limit)

/-- `MessagesResponse`. -/
structure MessagesResponse where
  messages : List JournalRow
  total : ℕ
  offset : ℕ
  limit : ℕ

/-- `Query`; `selects` is what the conditions of the request come to. -/
def queryMessages (o : RowOrder (· ≥ ·)) (selects : JournalMessage → Bool) (rows : List JournalRow)
    (limit offset : ℤ) : MessagesResponse :=
  let found := rows.filter fun row => selects row.message
  { messages := ((o.sort found).drop offset.toNat).take (rowLimit limit)
    total := found.length
    offset := offset.toNat
    limit := rowLimit limit }

/-- **Rows of distinct timestamps** have one order only. -/
theorem RowOrder.sort_eq_sort (o o' : RowOrder (· ≥ ·)) {rows : List JournalRow}
    (hdistinct : (rows.map JournalRow.timestamp).Nodup) : o.sort rows = o'.sort rows := by
  have hperm : (o.sort rows).Perm (o'.sort rows) := (o.perm rows).trans (o'.perm rows).symm
  refine hperm.eq_of_pairwise ?_ (o.pairwise rows) (o'.pairwise rows)
  intro a b ha hb hab hba
  have hmem := (o.perm rows).mem_iff.mp ha
  have hmem' := (o'.perm rows).mem_iff.mp hb
  exact List.inj_on_of_nodup_map hdistinct hmem hmem' (le_antisymm hba hab)

/-! ### `GetNewMessages` -/

section

variable {o : RowOrder (· ≤ ·)} {rows : List JournalRow} {since limit : ℤ} {row : JournalRow}

/-- Only rows of the table later than `since` are returned. -/
theorem mem_getNewMessages (h : row ∈ getNewMessages o rows since limit) :
    row ∈ rows ∧ since < row.timestamp := by
  have hwaiting := (o.perm _).mem_iff.mp (List.mem_of_mem_take h)
  obtain ⟨hrow, hsince⟩ := List.mem_filter.mp hwaiting
  exact ⟨hrow, of_decide_eq_true hsince⟩

/-- A row later than `since` is returned or beyond the limit. -/
theorem mem_getNewMessages_or_drop (o : RowOrder (· ≤ ·)) (limit : ℤ) (hrow : row ∈ rows)
    (hsince : since < row.timestamp) :
    row ∈ getNewMessages o rows since limit ∨
      row ∈ (o.sort (rows.filter fun row => since < row.timestamp)).drop (rowLimit limit) := by
  have hwaiting : row ∈ o.sort (rows.filter fun row => since < row.timestamp) :=
    (o.perm _).mem_iff.mpr (List.mem_filter.mpr ⟨hrow, decide_eq_true hsince⟩)
  rw [← List.take_append_drop (rowLimit limit) (o.sort _)] at hwaiting
  exact List.mem_append.mp hwaiting

/-- What is beyond the limit is not earlier than what is returned. -/
theorem le_of_mem_drop {row' : JournalRow} (hrow : row ∈ getNewMessages o rows since limit)
    (hrow' : row' ∈ (o.sort (rows.filter fun row => since < row.timestamp)).drop (rowLimit limit)) :
    row.timestamp ≤ row'.timestamp := by
  have hsorted := o.pairwise (rows.filter fun row => since < row.timestamp)
  rw [← List.take_append_drop (rowLimit limit) (o.sort _)] at hsorted
  exact (List.pairwise_append.mp hsorted).2.2 row hrow row' hrow'

/-- **Fewer rows than the limit** are all there are. -/
theorem mem_getNewMessages_of_length_lt
    (hlength : (getNewMessages o rows since limit).length < rowLimit limit) (hrow : row ∈ rows)
    (hsince : since < row.timestamp) : row ∈ getNewMessages o rows since limit := by
  rcases mem_getNewMessages_or_drop o limit hrow hsince with h | h
  · exact h
  · have hpos := List.length_pos_of_mem h
    have htake := List.length_take (i := rowLimit limit)
      (l := o.sort (rows.filter fun row => since < row.timestamp))
    rw [List.length_drop] at hpos
    unfold getNewMessages at hlength
    omega

end

end UnisetPanel
