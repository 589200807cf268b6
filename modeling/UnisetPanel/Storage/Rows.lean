/-
  What a storage holds, as one list of rows.

  Either storage is a list of the points saved and not cleaned up, in the order
  of their saving, each with the names it was saved under (`Storage.Holds`).
  `Save` appends to the list, `Cleanup` takes the old rows out of it, and the
  queries are read off it: in memory by the joined key, in SQLite by the names.
-/
import UnisetPanel.Storage

namespace UnisetPanel

variable {V : Type}

/-! ### Names -/

/-- The names that a point is saved or asked for under. -/
structure VariableRef where
  serverID : String
  objectName : String
  variableName : String
  deriving DecidableEq

namespace VariableRef

/-- The names with the default server in place of an empty one. -/
def resolved (v : VariableRef) : VariableRef := { v with serverID := orDefault v.serverID }

/-- The key of the points in memory. -/
def key (v : VariableRef) : String := makeKey v.serverID v.objectName v.variableName

end VariableRef

theorem orDefault_orDefault (serverID : String) :
    orDefault (orDefault serverID) = orDefault serverID := by
  unfold orDefault
  by_cases h : serverID = ""
  · rw [if_pos h]
    rfl
  · rw [if_neg h, if_neg h]

@[simp] theorem VariableRef.key_resolved (v : VariableRef) : v.resolved.key = v.key := by
  show orDefault (orDefault v.serverID) ++ ":" ++ v.objectName ++ ":" ++ v.variableName = _
  rw [orDefault_orDefault]
  rfl

/-- Lists that are cut at the same mark, at its first place, have the same parts. -/
theorem append_cons_inj_of_notMem {α : Type*} {a : α} {x x' y y' : List α} (hx : a ∉ x)
    (hx' : a ∉ x') (h : x ++ a :: y = x' ++ a :: y') : x = x' ∧ y = y' := by
  induction x generalizing x' with
  | nil =>
    cases x' with
    | nil => exact ⟨rfl, (List.cons.inj h).2⟩
    | cons b x' =>
      obtain rfl : a = b := (List.cons.inj h).1
      exact absurd List.mem_cons_self hx'
  | cons b x ih =>
    cases x' with
    | nil =>
      obtain rfl : b = a := (List.cons.inj h).1
      exact absurd List.mem_cons_self hx
    | cons c x' =>
      obtain ⟨rfl, hrest⟩ := List.cons.inj h
      obtain ⟨rfl, rfl⟩ := ih (fun hb => hx (List.mem_cons_of_mem b hb))
        (fun hb => hx' (List.mem_cons_of_mem b hb)) hrest
      exact ⟨rfl, rfl⟩

/-- The letters of a key. -/
theorem VariableRef.toList_key (v : VariableRef) : v.key.toList =
    v.resolved.serverID.toList ++ ':' :: (v.objectName.toList ++ ':' :: v.variableName.toList) := by
  simp [VariableRef.key, makeKey, VariableRef.resolved]

/-- **Names without a colon in the server and in the object have a key of their own**, whatever the
variable is called. -/
theorem VariableRef.resolved_eq_of_key_eq {v w : VariableRef}
    (hv : ':' ∉ v.resolved.serverID.toList ∧ ':' ∉ v.objectName.toList)
    (hw : ':' ∉ w.resolved.serverID.toList ∧ ':' ∉ w.objectName.toList) (h : v.key = w.key) :
    v.resolved = w.resolved := by
  have hlist := congrArg String.toList h
  rw [v.toList_key, w.toList_key] at hlist
  obtain ⟨hserver, hrest⟩ := append_cons_inj_of_notMem hv.1 hw.1 hlist
  obtain ⟨hobject, hvariable⟩ := append_cons_inj_of_notMem hv.2 hw.2 hrest
  show VariableRef.mk v.resolved.serverID v.objectName v.variableName =
    VariableRef.mk w.resolved.serverID w.objectName w.variableName
  rw [String.toList_injective hserver, String.toList_injective hobject,
    String.toList_injective hvariable]

/-! ### Calls -/

/-- A call that changes a storage. -/
inductive HistoryOp (V : Type) where
  | save (ref : VariableRef) (value : V) (timestamp : Time)
  | cleanup (olderThan : Time)

/-- What a call does. -/
def Storage.apply (st : Storage V) : HistoryOp V → Storage V
  | .save v value timestamp => st.save v.serverID v.objectName v.variableName value timestamp
  | .cleanup olderThan => st.cleanup olderThan

/-- The row of a point that is saved. -/
def HistoryRow.ofSave (v : VariableRef) (value : V) (timestamp : Time) : HistoryRow V :=
  ⟨orDefault v.serverID, v.objectName, v.variableName, value, timestamp⟩

namespace HistoryRow

variable (row : HistoryRow V)

/-- The names of a row. -/
def ref : VariableRef := ⟨row.serverID, row.objectName, row.variableName⟩

/-- What a query returns of a row. -/
def point : DataPoint V := ⟨row.timestamp, row.value⟩

@[simp] theorem ref_ofSave (v : VariableRef) (value : V) (timestamp : Time) :
    (ofSave v value timestamp).ref = v.resolved := rfl

@[simp] theorem timestamp_point : row.point.timestamp = row.timestamp := rfl

end HistoryRow

/-- The points of the rows with the given key. -/
def keyedPoints (rows : List (HistoryRow V)) (key : String) : List (DataPoint V) :=
  (rows.filter fun row => row.ref.key = key).map HistoryRow.point

/-- The points of the rows of the given names. -/
def pointsOf (rows : List (HistoryRow V)) (v : VariableRef) : List (DataPoint V) :=
  (rows.filter fun row => row.ref = v).map HistoryRow.point

namespace Storage

/-- The storage holds these rows. -/
def Holds (rows : List (HistoryRow V)) : Storage V → Prop
  | memory data => ∀ key, (data.lookup key).getD [] = keyedPoints rows key
  | sqlite _ rows' => rows' = rows

variable {rows : List (HistoryRow V)} {st : Storage V}

theorem holds_newMemory : Holds [] (newMemory : Storage V) := by
  intro key
  show (Finmap.lookup key (∅ : GoMap String (List (DataPoint V)))).getD [] = []
  rw [Finmap.lookup_empty]
  rfl

/-- **`Save` appends a row.** -/
theorem Holds.save (h : Holds rows st) (v : VariableRef) (value : V) (timestamp : Time) :
    Holds (rows ++ [.ofSave v value timestamp])
      (st.save v.serverID v.objectName v.variableName value timestamp) := by
  cases st with
  | memory data =>
    intro key
    show (Finmap.lookup key (data.insert v.key _)).getD [] = _
    rw [GoMap.lookup_insert, keyedPoints, List.filter_append, List.map_append]
    by_cases hkey : key = v.key
    · have hrow : decide ((HistoryRow.ofSave v value timestamp).ref.key = key) = true := by
        rw [HistoryRow.ref_ofSave, v.key_resolved, hkey, decide_eq_true rfl]
      rw [if_pos hkey, Option.getD_some, List.filter_singleton, hrow, hkey]
      exact congrArg (· ++ _) (h v.key)
    · have hrow : decide ((HistoryRow.ofSave v value timestamp).ref.key = key) = false := by
        rw [HistoryRow.ref_ofSave, v.key_resolved]
        exact decide_eq_false fun heq => hkey heq.symm
      rw [if_neg hkey, List.filter_singleton, hrow]
      exact (h key).trans (List.append_nil _).symm
  | sqlite text rows' => exact congrArg (· ++ _) h

/-- **`Cleanup` in memory** keeps what is later than the time. -/
theorem Holds.cleanup_memory {data : GoMap String (List (DataPoint V))}
    (h : Holds rows (memory data)) (olderThan : Time) :
    Holds (rows.filter fun row => olderThan < row.timestamp)
      ((memory data).cleanup olderThan) := by
  intro key
  have hpoints := h key
  have hfilter : keyedPoints (rows.filter fun row => olderThan < row.timestamp) key =
      (keyedPoints rows key).filter fun p => olderThan < p.timestamp := by
    unfold keyedPoints
    rw [List.filter_map, List.filter_filter, List.filter_filter]
    simp only [Function.comp_def, HistoryRow.timestamp_point, Bool.and_comm]
    rfl
  rw [hfilter, ← hpoints, GoMap.lookup_filterMap]
  cases data.lookup key with
  | none => rfl
  | some points =>
    rw [Option.bind_some, Option.getD_some]
    by_cases hlen : (points.filter fun p => olderThan < p.timestamp).length = 0
    · rw [if_pos hlen, List.length_eq_zero_iff.mp hlen]
      rfl
    · rw [if_neg hlen]
      rfl

/-- The texts of the times have their order. -/
def Chronological (text : Time → List Char) : Prop := ∀ a b, text a ≤ text b ↔ a ≤ b

/-- **`Cleanup` in SQLite** keeps the time itself, too. -/
theorem cleanup_sqlite {text : Time → List Char} (htext : Chronological text)
    (rows : List (HistoryRow V)) (olderThan : Time) :
    (sqlite text rows).cleanup olderThan =
      sqlite text (rows.filter fun row => olderThan ≤ row.timestamp) := by
  refine congrArg (sqlite text) (List.filter_congr fun row _ => decide_eq_decide.mpr ?_)
  exact not_lt.trans (htext olderThan row.timestamp)

/-! ### The queries in memory -/

/-- The points of a period. -/
def inRange (fromTime toTime : Time) (points : List (DataPoint V)) : List (DataPoint V) :=
  points.filter fun p => fromTime ≤ p.timestamp ∧ p.timestamp ≤ toTime

/-- The last points. -/
def lastPoints (count : ℕ) (points : List (DataPoint V)) : List (DataPoint V) :=
  points.drop (points.length - count)

theorem Holds.getHistory_memory {data : GoMap String (List (DataPoint V))}
    (h : Holds rows (memory data)) (v : VariableRef) (fromTime toTime : Time) :
    (memory data).getHistory v.serverID v.objectName v.variableName fromTime toTime =
      inRange fromTime toTime (keyedPoints rows v.key) := by
  rw [← h v.key]
  refine List.filter_congr fun p _ => decide_eq_decide.mpr ?_
  rw [le_iff_eq_or_lt, le_iff_eq_or_lt, eq_comm (a := fromTime)]

theorem Holds.getLatest_memory {data : GoMap String (List (DataPoint V))}
    (h : Holds rows (memory data)) (v : VariableRef) (count : ℕ) :
    (memory data).getLatest v.serverID v.objectName v.variableName count =
      lastPoints count (keyedPoints rows v.key) := by
  rw [← h v.key]
  show (if ((data.lookup v.key).getD []).length ≤ count then _ else _) = _
  unfold lastPoints
  split_ifs with hle
  · rw [Nat.sub_eq_zero_of_le hle, List.drop_zero]
    rfl
  · rfl

end Storage

end UnisetPanel
