/-
  Whether the two kinds of storage answer alike.

  Given the same calls, the storage in memory and SQLite hold the same rows and
  find the same points, with two exceptions.  `Cleanup` keeps a point of exactly
  the given time in SQLite and takes it away in memory (`not_agree`).  And if
  SQLite gives rows of one time in the order of their insertion to
  `ORDER BY timestamp DESC`, too, then `GetLatest` cuts the newest of them off
  where the storage in memory cuts off the oldest.  `Ties` says which of them
  SQLite gives first, and all results are for both.

  The answers agree at every point of a sequence of calls if and only if every
  call of it meets the condition that leaves these out (`agreeThroughout_iff`).
-/
import UnisetPanel.Log
import UnisetPanel.Storage.Isolation

namespace UnisetPanel

variable {V : Type}

/-! ### The order of rows of one time -/

/-- Which row of one time SQLite gives first to `ORDER BY timestamp DESC`: the one inserted first,
or the one inserted last.  To `ORDER BY timestamp ASC` it gives the one inserted first. -/
inductive Ties where
  | firstInserted
  | lastInserted
  deriving DecidableEq

/-- `GetLatest`, by the order of rows of one time. -/
def Storage.getLatestBy (ties : Ties) (st : Storage V) (v : VariableRef) (count : ℕ) :
    List (DataPoint V) :=
  match ties, st with
  | .lastInserted, .sqlite text rows =>
    let found := rows.filter fun row => row.serverID = orDefault v.serverID ∧
      row.objectName = v.objectName ∧ row.variableName = v.variableName
    -- the descending order is the ascending one read backwards
    let latest :=
      ((found.insertionSort fun a b => text a.timestamp ≤ text b.timestamp).reverse).take count
    latest.reverse.map HistoryRow.point
  | .lastInserted, .memory _ | .firstInserted, _ =>
    st.getLatest v.serverID v.objectName v.variableName count

/-! ### What is compared -/

/-- SQLite after a sequence of calls. -/
def sqliteAfter (text : Time → List Char) (ops : List (HistoryOp V)) : Storage V :=
  ops.foldl Storage.apply (.newSQLite text)

/-- The two storages give the same answer to every query. -/
def Agree (ties : Ties) (st st' : Storage V) : Prop :=
  ∀ v : VariableRef,
    (∀ fromTime toTime, st.getHistory v.serverID v.objectName v.variableName fromTime toTime =
      st'.getHistory v.serverID v.objectName v.variableName fromTime toTime) ∧
    ∀ count, st.getLatestBy ties v count = st'.getLatestBy ties v count

/-- They do so at every point of a sequence of calls. -/
def AgreeThroughout (text : Time → List Char) (ties : Ties) (ops : List (HistoryOp V)) : Prop :=
  ∀ pre, pre <+: ops → Agree ties (memoryAfter pre) (sqliteAfter text pre)

/-- A name without a colon. -/
def PlainName (name : String) : Prop := ':' ∉ name.toList

instance (name : String) : Decidable (PlainName name) :=
  inferInstanceAs (Decidable (':' ∉ name.toList))

/-- The calls save points under plain names, and never one that is earlier than a point saved before
under the same names. -/
def PlainAndOrdered : List (HistoryOp V) → HistoryOp V → Prop
  | pre, .save ref _ timestamp =>
    (PlainName ref.serverID ∧ PlainName ref.objectName ∧ PlainName ref.variableName) ∧
      ∀ ref' value' timestamp', .save ref' value' timestamp' ∈ pre →
        ref'.resolved = ref.resolved → timestamp' ≤ timestamp
  | _, .cleanup _ => True

/-- No point is of exactly the time of a `Cleanup`; and where SQLite gives rows of one time in the
order of insertion, no point is saved beside one of its names and its time with another value. -/
def KeepsAgreement (ties : Ties) : List (HistoryOp V) → HistoryOp V → Prop
  | pre, .save ref value timestamp => ties = .firstInserted →
      ∀ row ∈ memoryRows pre, row.ref = ref.resolved → row.timestamp = timestamp →
        row.value = value
  | pre, .cleanup olderThan => ∀ row ∈ memoryRows pre, row.timestamp ≠ olderThan

/-! ### The time of the cleanup -/

/-- Texts in the order of the times. -/
def unaryText (t : Time) : List Char := List.replicate t '|'

theorem unaryText_lt {a b : Time} : unaryText a < unaryText b ↔ a < b := by
  unfold unaryText
  induction a generalizing b with
  | zero =>
    cases b with
    | zero => exact iff_of_false (lt_irrefl _) (lt_irrefl _)
    | succ b => exact iff_of_true (List.nil_lt_cons _ _) (Nat.succ_pos b)
  | succ a ih =>
    cases b with
    | zero => exact iff_of_false (List.not_lt_nil _) (Nat.not_lt_zero _)
    | succ b =>
      rw [List.replicate_succ, List.replicate_succ, List.cons_lt_cons_iff, ih]
      simp

theorem chronological_unaryText : Storage.Chronological unaryText := by
  intro a b
  rw [← not_lt, ← not_lt, unaryText_lt]

/-- A point of time 5, and a cleanup of all that is older. -/
def boundaryCalls : List (HistoryOp String) :=
  [.save ⟨"", "o", "x"⟩ "10" 5, .cleanup 5]

/-- **It fails**: SQLite still has the point, the storage in memory has not. -/
theorem not_agree : ¬ ∀ (text : Time → List Char) (ties : Ties) (ops : List (HistoryOp String)),
    Storage.Chronological text → Log.Each PlainAndOrdered ops → AgreeThroughout text ties ops := by
  intro h
  have hcalls : Log.Each PlainAndOrdered boundaryCalls := by
    refine Log.each_concat.mpr ⟨Log.each_concat.mpr ⟨Log.each_nil, by decide, ?_⟩, trivial⟩
    intro ref value timestamp hmem
    cases hmem
  have hagree := h unaryText .lastInserted boundaryCalls chronological_unaryText hcalls _
    List.prefix_rfl ⟨"", "o", "x"⟩
  exact absurd (hagree.1 0 9) (by decide)

/-! ### The queries in SQLite -/

/-- The rows of one variable are in the order of time. -/
def InOrder (rows : List (HistoryRow V)) : Prop :=
  rows.Pairwise fun a b => a.ref = b.ref → a.timestamp ≤ b.timestamp

/-- Rows of one variable and one time have one value. -/
def SingleValued (rows : List (HistoryRow V)) : Prop :=
  ∀ a ∈ rows, ∀ b ∈ rows, a.ref = b.ref → a.timestamp = b.timestamp → a.value = b.value

variable {text : Time → List Char} {rows : List (HistoryRow V)} {ties : Ties}

/-- The names in the `WHERE` of a query are those of the row. -/
theorem ref_eq_resolved_iff (row : HistoryRow V) (v : VariableRef) :
    (row.serverID = orDefault v.serverID ∧ row.objectName = v.objectName ∧
      row.variableName = v.variableName) ↔ row.ref = v.resolved := by
  unfold HistoryRow.ref VariableRef.resolved
  rw [VariableRef.mk.injEq]

/-- What a query finds by the names. -/
theorem filter_names_eq (rows : List (HistoryRow V)) (v : VariableRef) :
    (rows.filter fun row => row.serverID = orDefault v.serverID ∧
      row.objectName = v.objectName ∧ row.variableName = v.variableName) =
      rows.filter fun row => row.ref = v.resolved :=
  List.filter_congr fun row _ => decide_eq_decide.mpr (ref_eq_resolved_iff row v)

/-- Rows found by the names are in the order of their texts. -/
theorem InOrder.pairwise_filter (h : InOrder rows) (htext : Storage.Chronological text)
    (v : VariableRef) {p : HistoryRow V → Bool} (hp : ∀ row, p row = true → row.ref = v.resolved) :
    (rows.filter p).Pairwise fun a b => text a.timestamp ≤ text b.timestamp := by
  refine (h.sublist List.filter_sublist).imp_of_mem ?_
  intro a b ha hb hab
  apply (htext a.timestamp b.timestamp).mpr
  apply hab
  rw [hp a (List.mem_filter.mp ha).2, hp b (List.mem_filter.mp hb).2]

theorem getHistory_sqlite (htext : Storage.Chronological text) (h : InOrder rows)
    (v : VariableRef) (fromTime toTime : Time) :
    (Storage.sqlite text rows).getHistory v.serverID v.objectName v.variableName fromTime toTime =
      Storage.inRange fromTime toTime (pointsOf rows v.resolved) := by
  have hsort := (h.pairwise_filter htext v (p := fun row => row.serverID = orDefault v.serverID ∧
      row.objectName = v.objectName ∧ row.variableName = v.variableName ∧
      text fromTime ≤ text row.timestamp ∧ text row.timestamp ≤ text toTime) (by
    intro row hrow
    obtain ⟨hserver, hobject, hvariable, -⟩ := of_decide_eq_true hrow
    exact (ref_eq_resolved_iff row v).mp ⟨hserver, hobject, hvariable⟩)).insertionSort_eq
  unfold Storage.getHistory
  simp only [hsort]
  unfold Storage.inRange pointsOf
  rw [List.filter_map, List.filter_filter]
  refine congrArg _ (List.filter_congr fun row _ => ?_)
  rw [Function.comp_apply, HistoryRow.timestamp_point, ← Bool.decide_and]
  apply decide_eq_decide.mpr
  rw [← ref_eq_resolved_iff, htext, htext]
  constructor
  · rintro ⟨hserver, hobject, hvariable, hfrom, hto⟩
    exact ⟨⟨hfrom, hto⟩, hserver, hobject, hvariable⟩
  · rintro ⟨⟨hfrom, hto⟩, hserver, hobject, hvariable⟩
    exact ⟨hserver, hobject, hvariable, hfrom, hto⟩

/-- The last of a list, read backwards and forwards again. -/
theorem reverse_take_reverse {α : Type*} (l : List α) (n : ℕ) :
    (l.reverse.take n).reverse = l.drop (l.length - n) := by
  rw [List.take_reverse, List.reverse_reverse]

theorem getLatest_sqlite_lastInserted (htext : Storage.Chronological text) (h : InOrder rows)
    (v : VariableRef) (count : ℕ) :
    (Storage.sqlite text rows).getLatestBy .lastInserted v count =
      Storage.lastPoints count (pointsOf rows v.resolved) := by
  unfold Storage.getLatestBy
  simp only [filter_names_eq]
  have hsort := (h.pairwise_filter htext v (p := fun row => row.ref = v.resolved)
    fun row hrow => of_decide_eq_true hrow).insertionSort_eq
  rw [hsort, reverse_take_reverse, List.map_drop]
  unfold Storage.lastPoints pointsOf
  rw [List.length_map]

/-- Sorting, seen through what is returned of a row: the one list in order that has the same
points. -/
theorem map_point_insertionSort (le : Time → Time → Prop) [IsTrans Time le] [Std.Total le]
    {r : HistoryRow V → HistoryRow V → Prop} [DecidableRel r]
    (hr : ∀ a b, r a b ↔ le a.timestamp b.timestamp) {points : List (DataPoint V)}
    (hperm : (rows.map HistoryRow.point).Perm points)
    (hsorted : points.Pairwise fun a b => le a.timestamp b.timestamp)
    (hanti : ∀ a ∈ points, ∀ b ∈ points, le a.timestamp b.timestamp →
      le b.timestamp a.timestamp → a = b) :
    (rows.insertionSort r).map HistoryRow.point = points := by
  have : Std.Total r := ⟨fun a b => by rw [hr, hr]; exact Std.Total.total _ _⟩
  have : IsTrans (HistoryRow V) r :=
    ⟨fun a b c hab hbc => (hr a c).mpr (IsTrans.trans _ _ _ ((hr a b).mp hab) ((hr b c).mp hbc))⟩
  have hperm' : ((rows.insertionSort r).map HistoryRow.point).Perm points :=
    ((rows.perm_insertionSort r).map _).trans hperm
  have hpairwise : ((rows.insertionSort r).map HistoryRow.point).Pairwise
      fun a b => le a.timestamp b.timestamp := by
    rw [List.pairwise_map]
    exact (rows.pairwise_insertionSort r).imp fun hab => (hr _ _).mp hab
  refine hperm'.eq_of_pairwise ?_ hpairwise hsorted
  intro a b ha hb
  exact hanti a (hperm'.mem_iff.mp ha) b hb

/-- The points of one variable, in the order of time. -/
theorem InOrder.pairwise_pointsOf (h : InOrder rows) (v : VariableRef) :
    (pointsOf rows v).Pairwise fun a b => a.timestamp ≤ b.timestamp := by
  unfold pointsOf
  rw [List.pairwise_map]
  refine (h.sublist List.filter_sublist).imp_of_mem ?_
  intro a b ha hb hab
  have hav : a.ref = v := of_decide_eq_true (List.mem_filter.mp ha).2
  have hbv : b.ref = v := of_decide_eq_true (List.mem_filter.mp hb).2
  exact hab (hav.trans hbv.symm)

/-- Two points of one variable and one time are the same. -/
theorem SingleValued.eq_of_mem_pointsOf (h : SingleValued rows) {v : VariableRef}
    {a b : DataPoint V} (ha : a ∈ pointsOf rows v) (hb : b ∈ pointsOf rows v)
    (htime : a.timestamp = b.timestamp) : a = b := by
  obtain ⟨row, hrow, rfl⟩ := List.mem_map.mp ha
  obtain ⟨row', hrow', rfl⟩ := List.mem_map.mp hb
  obtain ⟨hmem, href⟩ := List.mem_filter.mp hrow
  obtain ⟨hmem', href'⟩ := List.mem_filter.mp hrow'
  have hrefs : row.ref = row'.ref := (of_decide_eq_true href).trans (of_decide_eq_true href').symm
  have hvalue : row.value = row'.value := h row hmem row' hmem' hrefs htime
  show DataPoint.mk row.timestamp row.value = DataPoint.mk row'.timestamp row'.value
  rw [hvalue, show row.timestamp = row'.timestamp from htime]

theorem getLatest_sqlite_firstInserted (htext : Storage.Chronological text) (h : InOrder rows)
    (hvalues : SingleValued rows) (v : VariableRef) (count : ℕ) :
    (Storage.sqlite text rows).getLatestBy .firstInserted v count =
      Storage.lastPoints count (pointsOf rows v.resolved) := by
  have hsame : ∀ {a b : DataPoint V}, a ∈ pointsOf rows v.resolved →
      b ∈ pointsOf rows v.resolved → a.timestamp = b.timestamp → a = b :=
    fun ha hb => hvalues.eq_of_mem_pointsOf ha hb
  have hpoints : (pointsOf rows v.resolved).Pairwise fun a b => a.timestamp ≤ b.timestamp :=
    h.pairwise_pointsOf v.resolved
  unfold Storage.getLatestBy Storage.getLatest
  simp only [filter_names_eq]
  -- the descending order of the points is the ascending one read backwards
  have hdesc : ((rows.filter fun row => row.ref = v.resolved).insertionSort
      fun a b => text b.timestamp ≤ text a.timestamp).map HistoryRow.point =
        (pointsOf rows v.resolved).reverse := by
    refine map_point_insertionSort (fun a b => b ≤ a) (fun a b => htext _ _)
      (List.reverse_perm _).symm ?_ ?_
    · exact List.pairwise_reverse.mpr hpoints
    · intro a ha b hb hba hab
      exact hsame (List.mem_reverse.mp ha) (List.mem_reverse.mp hb) (le_antisymm hab hba)
  -- and the first of it, in the ascending order, are the last points
  refine map_point_insertionSort (fun a b => a ≤ b) (fun a b => htext _ _) ?_ ?_ ?_
  · rw [List.map_take, hdesc, Storage.lastPoints, ← reverse_take_reverse]
    exact (List.reverse_perm _).symm
  · exact hpoints.sublist (List.drop_sublist _ _)
  · intro a ha b hb hab hba
    exact hsame (List.mem_of_mem_drop ha) (List.mem_of_mem_drop hb) (le_antisymm hab hba)

/-- **The two storages agree on rows in order**, of one value for one time if that is needed. -/
theorem agree_of_inOrder (htext : Storage.Chronological text) (h : InOrder rows)
    (hvalues : ties = .firstInserted → SingleValued rows)
    (hkeys : ∀ v : VariableRef, keyedPoints rows v.key = pointsOf rows v.resolved)
    {data : GoMap String (List (DataPoint V))} (hdata : Storage.Holds rows (.memory data)) :
    Agree ties (.memory data) (.sqlite text rows) := by
  intro v
  refine ⟨fun fromTime toTime => ?_, fun count => ?_⟩
  · rw [hdata.getHistory_memory, getHistory_sqlite htext h, hkeys]
  · cases ties with
    | firstInserted =>
      rw [getLatest_sqlite_firstInserted htext h (hvalues rfl)]
      exact (hdata.getLatest_memory v count).trans (by rw [hkeys])
    | lastInserted =>
      rw [getLatest_sqlite_lastInserted htext h]
      exact (hdata.getLatest_memory v count).trans (by rw [hkeys])

/-! ### What the storages hold -/

variable {ops : List (HistoryOp V)}

/-- **Plain names have a key of their own.** -/
theorem VariableRef.resolved_eq_of_plain {v w : VariableRef} (hserver : PlainName v.serverID)
    (hobject : PlainName v.objectName) (hvariable : PlainName v.variableName)
    (h : v.key = w.key) : v.resolved = w.resolved := by
  have hdefault : ':' ∉ v.resolved.serverID.toList := by
    unfold VariableRef.resolved orDefault
    dsimp only
    split_ifs with hempty
    · decide
    · exact hserver
  -- the other key has no more colons than this one
  have hcount := congrArg (fun key => key.toList.count ':') h
  simp only [VariableRef.toList_key, List.count_append, List.count_cons_self,
    List.count_eq_zero.mpr hdefault, List.count_eq_zero.mpr hobject,
    List.count_eq_zero.mpr hvariable] at hcount
  have hw : ':' ∉ w.resolved.serverID.toList ∧ ':' ∉ w.objectName.toList :=
    ⟨List.count_eq_zero.mp (by omega), List.count_eq_zero.mp (by omega)⟩
  exact VariableRef.resolved_eq_of_key_eq ⟨hdefault, hobject⟩ hw h

/-- The points of a key are the points of the names. -/
theorem keyedPoints_memoryRows (h : Log.Each PlainAndOrdered ops) (v : VariableRef) :
    keyedPoints (memoryRows ops) v.key = pointsOf (memoryRows ops) v.resolved := by
  refine congrArg _ (List.filter_congr fun row hrow => decide_eq_decide.mpr ?_)
  obtain ⟨ref, value, timestamp, hmem, rfl⟩ := exists_save_of_mem_memoryRows hrow
  obtain ⟨pre, post, rfl⟩ := List.append_of_mem hmem
  obtain ⟨⟨hserver, hobject, hvariable⟩, -⟩ := h pre _ post rfl
  rw [HistoryRow.ref_ofSave, VariableRef.key_resolved]
  constructor
  · exact VariableRef.resolved_eq_of_plain hserver hobject hvariable
  · intro hresolved
    rw [← VariableRef.key_resolved, hresolved, VariableRef.key_resolved]

theorem inOrder_memoryRows (h : Log.Each PlainAndOrdered ops) : InOrder (memoryRows ops) := by
  induction ops using List.reverseRecOn with
  | nil => exact List.Pairwise.nil
  | append_singleton ops op ih =>
    obtain ⟨hops, hop⟩ := Log.each_concat.mp h
    cases op with
    | save ref value timestamp =>
      rw [memoryRows_concat_save]
      refine List.pairwise_append.mpr ⟨ih hops, List.pairwise_singleton _ _, ?_⟩
      intro row hrow row' hrow' href
      obtain rfl := List.mem_singleton.mp hrow'
      obtain ⟨ref', value', timestamp', hmem, rfl⟩ := exists_save_of_mem_memoryRows hrow
      exact hop.2 ref' value' timestamp' hmem href
    | cleanup olderThan =>
      rw [memoryRows_concat_cleanup]
      exact (ih hops).sublist List.filter_sublist

theorem sqliteAfter_concat (ops : List (HistoryOp V)) (op : HistoryOp V) :
    sqliteAfter text (ops ++ [op]) = (sqliteAfter text ops).apply op := by
  unfold sqliteAfter
  rw [List.foldl_append]
  rfl

/-- The storages hold the same rows, as long as every call keeps them in agreement. -/
theorem sqliteAfter_eq (htext : Storage.Chronological text)
    (h : Log.Each (KeepsAgreement ties) ops) :
    sqliteAfter text ops = .sqlite text (memoryRows ops) := by
  induction ops using List.reverseRecOn with
  | nil => rfl
  | append_singleton ops op ih =>
    obtain ⟨hops, hop⟩ := Log.each_concat.mp h
    rw [sqliteAfter_concat, ih hops]
    cases op with
    | save ref value timestamp =>
      rw [memoryRows_concat_save]
      rfl
    | cleanup olderThan =>
      rw [memoryRows_concat_cleanup]
      refine (Storage.cleanup_sqlite htext _ _).trans ?_
      refine congrArg _ (List.filter_congr fun row hrow => decide_eq_decide.mpr ?_)
      have hne : row.timestamp ≠ olderThan := hop row hrow
      exact ⟨fun hle => lt_of_le_of_ne hle hne.symm, le_of_lt⟩

theorem singleValued_memoryRows (h : Log.Each (KeepsAgreement .firstInserted) ops) :
    SingleValued (memoryRows ops) := by
  induction ops using List.reverseRecOn with
  | nil =>
    intro a ha
    cases ha
  | append_singleton ops op ih =>
    obtain ⟨hops, hop⟩ := Log.each_concat.mp h
    cases op with
    | save ref value timestamp =>
      rw [memoryRows_concat_save]
      intro a ha b hb href htime
      rcases List.mem_append.mp ha with ha | ha <;> rcases List.mem_append.mp hb with hb | hb
      · exact ih hops a ha b hb href htime
      · obtain rfl := List.mem_singleton.mp hb
        exact hop rfl a ha href htime
      · obtain rfl := List.mem_singleton.mp ha
        exact (hop rfl b hb href.symm htime.symm).symm
      · rw [List.mem_singleton.mp ha, List.mem_singleton.mp hb]
    | cleanup olderThan =>
      rw [memoryRows_concat_cleanup]
      intro a ha b hb
      exact ih hops a (List.mem_of_mem_filter ha) b (List.mem_of_mem_filter hb)

/-- **The storages agree** after calls that all keep them in agreement. -/
theorem agree_of_keepsAgreement (htext : Storage.Chronological text)
    (hplain : Log.Each PlainAndOrdered ops) (h : Log.Each (KeepsAgreement ties) ops) :
    Agree ties (memoryAfter ops) (sqliteAfter text ops) := by
  obtain ⟨data, hdata, hholds⟩ := memoryAfter_holds ops
  rw [hdata, sqliteAfter_eq htext h]
  refine agree_of_inOrder htext (inOrder_memoryRows hplain) ?_ (keyedPoints_memoryRows hplain) hholds
  rintro rfl
  exact singleValued_memoryRows h

/-! ### The calls that break the agreement -/

/-- A cleanup of the time of a point. -/
theorem not_agree_cleanup (htext : Storage.Chronological text)
    (hplain : Log.Each PlainAndOrdered ops) (h : Log.Each (KeepsAgreement ties) ops)
    {row : HistoryRow V} (hrow : row ∈ memoryRows ops) :
    ¬ Agree ties (memoryAfter (ops ++ [.cleanup row.timestamp]))
      (sqliteAfter text (ops ++ [.cleanup row.timestamp])) := by
  intro hagree
  obtain ⟨ref, value, timestamp, -, rfl⟩ := exists_save_of_mem_memoryRows hrow
  obtain ⟨data, hdata, hholds⟩ := memoryAfter_holds (ops ++ [.cleanup timestamp])
  have hhistory := (hagree ref).1 timestamp timestamp
  have horder : InOrder ((memoryRows ops).filter fun row => timestamp ≤ row.timestamp) :=
    (inOrder_memoryRows hplain).sublist List.filter_sublist
  have hcleanup : (Storage.sqlite text (memoryRows ops)).apply (.cleanup timestamp) =
      .sqlite text ((memoryRows ops).filter fun row => timestamp ≤ row.timestamp) :=
    Storage.cleanup_sqlite htext _ _
  rw [show (HistoryRow.ofSave ref value timestamp).timestamp = timestamp from rfl, hdata,
    hholds.getHistory_memory, sqliteAfter_concat, sqliteAfter_eq htext h, hcleanup,
    getHistory_sqlite htext horder] at hhistory
  -- SQLite returns the point
  have hmem : (HistoryRow.ofSave ref value timestamp).point ∈
      Storage.inRange timestamp timestamp (keyedPoints
        (memoryRows (ops ++ [.cleanup timestamp])) ref.key) := by
    rw [hhistory]
    refine List.mem_filter.mpr ⟨List.mem_map_of_mem (List.mem_filter.mpr ⟨?_, ?_⟩), ?_⟩
    · exact List.mem_filter.mpr ⟨hrow, decide_eq_true le_rfl⟩
    · exact decide_eq_true rfl
    · exact decide_eq_true ⟨le_rfl, le_rfl⟩
  -- but the storage in memory has no point of this time
  rw [memoryRows_concat_cleanup] at hmem
  obtain ⟨hmem, htime⟩ := List.mem_filter.mp hmem
  obtain ⟨row, hrow', hpoint⟩ := List.mem_map.mp hmem
  have hlater : timestamp < row.timestamp :=
    of_decide_eq_true (List.mem_filter.mp (List.mem_of_mem_filter hrow')).2
  have hsame : row.timestamp = timestamp := congrArg DataPoint.timestamp hpoint
  exact hlater.ne hsame.symm

theorem HistoryRow.eq_of_ref_point {row : HistoryRow V} {ref : VariableRef} {value : V}
    {timestamp : Time} (href : row.ref = ref.resolved)
    (hpoint : row.point = (HistoryRow.ofSave ref value timestamp).point) :
    row = .ofSave ref value timestamp := by
  obtain ⟨serverID, objectName, variableName, value', timestamp'⟩ := row
  cases href
  cases hpoint
  rfl

/-- A point beside one of its names and its time that has another value. -/
theorem not_agree_save (htext : Storage.Chronological text) {ref : VariableRef} {value : V}
    {timestamp : Time} (hplain : Log.Each PlainAndOrdered (ops ++ [.save ref value timestamp]))
    (h : Log.Each (KeepsAgreement .firstInserted) ops) {row : HistoryRow V}
    (hrow : row ∈ memoryRows ops) (href : row.ref = ref.resolved)
    (htime : row.timestamp = timestamp) (hvalue : row.value ≠ value) :
    ¬ Agree .firstInserted (memoryAfter (ops ++ [.save ref value timestamp]))
      (sqliteAfter text (ops ++ [.save ref value timestamp])) := by
  intro hagree
  set new := HistoryRow.ofSave ref value timestamp with hnew
  set old := (memoryRows ops).filter fun row => row.ref = ref.resolved with hold
  have hfilter : ((memoryRows ops ++ [new]).filter fun row => row.ref = ref.resolved) =
      old ++ [new] := by
    rw [List.filter_append, List.filter_singleton, hnew, HistoryRow.ref_ofSave, decide_eq_true rfl]
    rfl
  have hrowOld : row ∈ old := List.mem_filter.mpr ⟨hrow, decide_eq_true href⟩
  -- the last point in memory is the new one
  obtain ⟨data, hdata, hholds⟩ := memoryAfter_holds (ops ++ [.save ref value timestamp])
  have hlatest := (hagree ref).2 1
  have hmemory : (memoryAfter (ops ++ [.save ref value timestamp])).getLatestBy .firstInserted ref 1 =
      [new.point] := by
    rw [hdata]
    refine (hholds.getLatest_memory ref 1).trans ?_
    rw [keyedPoints_memoryRows hplain, memoryRows_concat_save, pointsOf, hfilter, List.map_append,
      Storage.lastPoints, List.length_append]
    simp
  -- SQLite returns the first of its own order
  have hsqlite : (sqliteAfter text (ops ++ [.save ref value timestamp])).getLatestBy
      .firstInserted ref 1 = ((((old ++ [new]).insertionSort
        fun a b => text b.timestamp ≤ text a.timestamp).take 1).insertionSort
          fun a b => text a.timestamp ≤ text b.timestamp).map HistoryRow.point := by
    rw [sqliteAfter_concat, sqliteAfter_eq htext h, ← hfilter, ← filter_names_eq]
    rfl
  rw [hmemory, hsqlite] at hlatest
  have hperm := (old ++ [new]).perm_insertionSort fun a b => text b.timestamp ≤ text a.timestamp
  have hpair : [row, new].Sublist ((old ++ [new]).insertionSort
      fun a b => text b.timestamp ≤ text a.timestamp) := by
    apply List.pair_sublist_insertionSort
    · rw [htext, htime]
      exact le_rfl
    · exact (List.singleton_sublist.mpr hrowOld).append (List.Sublist.refl [new])
  generalize ((old ++ [new]).insertionSort fun a b => text b.timestamp ≤ text a.timestamp) = sorted
    at hlatest hperm hpair
  cases sorted with
  | nil => cases hpair
  | cons first rest =>
    have hpoint : new.point = first.point := (List.cons.inj hlatest).1
    have hfirst : first.ref = ref.resolved := by
      have hmem : first ∈ old ++ [new] := hperm.mem_iff.mp List.mem_cons_self
      rw [← hfilter] at hmem
      exact of_decide_eq_true (List.mem_filter.mp hmem).2
    have hfirstNew : first = new := HistoryRow.eq_of_ref_point hfirst hpoint.symm
    rw [hfirstNew] at hperm hpair
    have hrest : rest.Perm old := (hperm.trans List.perm_append_comm).cons_inv
    rcases List.sublist_cons_iff.mp hpair with hsub | ⟨l, hl, -⟩
    · -- the new row is among the old ones, and has the value of `row`
      have hmem : new ∈ old := hrest.mem_iff.mp (hsub.subset (by simp))
      exact hvalue (singleValued_memoryRows h row hrow new (List.mem_of_mem_filter hmem) href htime)
    · exact hvalue (congrArg HistoryRow.value (List.cons.inj hl).1)

/-- **Exactly when the storages agree**: at every point of a sequence of calls, if and only if every
call of it keeps them in agreement. -/
theorem agreeThroughout_iff (htext : Storage.Chronological text) (ties : Ties)
    (hplain : Log.Each PlainAndOrdered ops) :
    AgreeThroughout text ties ops ↔ Log.Each (KeepsAgreement ties) ops := by
  constructor
  · intro h
    induction ops using List.reverseRecOn with
    | nil => exact Log.each_nil
    | append_singleton ops op ih =>
      have hops : Log.Each (KeepsAgreement ties) ops :=
        ih (hplain.of_prefix ⟨[op], rfl⟩) fun pre hpre => h pre (hpre.trans ⟨[op], rfl⟩)
      have hagree := h _ List.prefix_rfl
      refine Log.each_concat.mpr ⟨hops, ?_⟩
      cases op with
      | save ref value timestamp =>
        rintro rfl row hrow href htime
        by_contra hvalue
        exact not_agree_save htext hplain hops hrow href htime hvalue hagree
      | cleanup olderThan =>
        rintro row hrow rfl
        exact not_agree_cleanup htext (hplain.of_prefix ⟨_, rfl⟩) hops hrow hagree
  · intro h pre hpre
    exact agree_of_keepsAgreement htext (hplain.of_prefix hpre) (h.of_prefix hpre)

/-- A cleanup between the times of two points. -/
def betweenCalls : List (HistoryOp String) :=
  [.save ⟨"", "o", "x"⟩ "10" 5, .save ⟨"", "o", "x"⟩ "11" 8, .cleanup 6]

theorem agreeThroughout_betweenCalls :
    AgreeThroughout unaryText .firstInserted betweenCalls := by
  have hplain : Log.Each PlainAndOrdered betweenCalls := by
    refine Log.each_concat.mpr ⟨Log.each_concat.mpr ⟨Log.each_concat.mpr
      ⟨Log.each_nil, by decide, ?_⟩, by decide, ?_⟩, trivial⟩
    · intro ref value timestamp hmem
      cases hmem
    · intro ref value timestamp hmem _
      cases List.mem_singleton.mp hmem
      decide
  apply (agreeThroughout_iff chronological_unaryText .firstInserted hplain).mpr
  refine Log.each_concat.mpr ⟨Log.each_concat.mpr ⟨Log.each_concat.mpr ⟨Log.each_nil, ?_⟩, ?_⟩, ?_⟩
  · intro _ row hrow
    cases hrow
  · intro _
    decide
  · show ∀ row ∈ memoryRows _, row.timestamp ≠ 6
    decide

end UnisetPanel
