/-
  Whose points the storage in memory returns.

  `makeKey` joins the server, the object and the variable by colons, and names
  may hold colons: the variables of the shared memory are called `ext:…`.  So
  two variables can have one key, and each is answered with the points of both
  (`not_isolated`).  SQLite keeps the names in columns of their own.

  The answers for a variable are those of a storage that only its own points
  were saved in if and only if no other variable with its key was saved
  (`isolated_iff`).  A colon in the name of the variable alone does no harm
  (`isolated_of_noColon`).
-/
import UnisetPanel.Storage.Rows

namespace UnisetPanel

variable {V : Type}

/-- The storage in memory after a sequence of calls. -/
def memoryAfter (ops : List (HistoryOp V)) : Storage V := ops.foldl Storage.apply .newMemory

/-- The call saves a point under these names, or cleans up. -/
def HistoryOp.isOwn (v : VariableRef) : HistoryOp V → Bool
  | .save ref _ _ => ref.resolved = v.resolved
  | .cleanup _ => true

/-- The calls without what they save under other names. -/
def ownCalls (v : VariableRef) (ops : List (HistoryOp V)) : List (HistoryOp V) :=
  ops.filter (HistoryOp.isOwn v)

/-- Two storages answer every query about a variable alike. -/
def SameAnswers (v : VariableRef) (st st' : Storage V) : Prop :=
  (∀ fromTime toTime, st.getHistory v.serverID v.objectName v.variableName fromTime toTime =
      st'.getHistory v.serverID v.objectName v.variableName fromTime toTime) ∧
    ∀ count, st.getLatest v.serverID v.objectName v.variableName count =
      st'.getLatest v.serverID v.objectName v.variableName count

/-- **Isolation**: at every point of a sequence of calls a variable is answered for as if nothing
had been saved under other names. -/
def Isolated (v : VariableRef) (ops : List (HistoryOp V)) : Prop :=
  ∀ pre, pre <+: ops → SameAnswers v (memoryAfter pre) (memoryAfter (ownCalls v pre))

/-! ### One key for two variables -/

/-- Variable `ext:x` of object `o`, as the poller of the shared memory saves it. -/
def externalX : VariableRef := ⟨"", "o", "ext:x"⟩

/-- Variable `x` of object `o:ext`. -/
def plainX : VariableRef := ⟨"", "o:ext", "x"⟩

/-- **It fails**: what is saved for `externalX` is returned for `plainX`. -/
theorem not_isolated : ¬ ∀ (v : VariableRef) (ops : List (HistoryOp String)), Isolated v ops := by
  intro h
  obtain ⟨-, hlatest⟩ := h plainX [.save externalX "10" 5] _ List.prefix_rfl
  exact absurd (hlatest 1) (by decide)

/-! ### The rows behind the answers -/

/-- The rows that the storage in memory holds after a sequence of calls. -/
def memoryRows (ops : List (HistoryOp V)) : List (HistoryRow V) :=
  ops.foldl (fun rows op =>
    match op with
    | .save ref value timestamp => rows ++ [.ofSave ref value timestamp]
    | .cleanup olderThan => rows.filter fun row => olderThan < row.timestamp) []

theorem memoryRows_concat_save (ops : List (HistoryOp V)) (ref : VariableRef) (value : V)
    (timestamp : Time) : memoryRows (ops ++ [.save ref value timestamp]) =
      memoryRows ops ++ [.ofSave ref value timestamp] := by
  unfold memoryRows
  rw [List.foldl_append]
  rfl

theorem memoryRows_concat_cleanup (ops : List (HistoryOp V)) (olderThan : Time) :
    memoryRows (ops ++ [.cleanup olderThan]) =
      (memoryRows ops).filter fun row => olderThan < row.timestamp := by
  unfold memoryRows
  rw [List.foldl_append]
  rfl

theorem memoryAfter_concat (ops : List (HistoryOp V)) (op : HistoryOp V) :
    memoryAfter (ops ++ [op]) = (memoryAfter ops).apply op := by
  unfold memoryAfter
  rw [List.foldl_append]
  rfl

/-- The storage in memory stays in memory, and holds the rows. -/
theorem memoryAfter_holds (ops : List (HistoryOp V)) :
    ∃ data, memoryAfter ops = .memory data ∧ Storage.Holds (memoryRows ops) (.memory data) := by
  induction ops using List.reverseRecOn with
  | nil => exact ⟨∅, rfl, Storage.holds_newMemory⟩
  | append_singleton ops op ih =>
    obtain ⟨data, hdata, hholds⟩ := ih
    rw [memoryAfter_concat, hdata]
    cases op with
    | save ref value timestamp =>
      rw [memoryRows_concat_save]
      exact ⟨_, rfl, hholds.save ref value timestamp⟩
    | cleanup olderThan =>
      rw [memoryRows_concat_cleanup]
      exact ⟨_, rfl, hholds.cleanup_memory olderThan⟩

/-- The answers are the same if and only if the points of the key are. -/
theorem sameAnswers_iff (v : VariableRef) (ops ops' : List (HistoryOp V)) :
    SameAnswers v (memoryAfter ops) (memoryAfter ops') ↔
      keyedPoints (memoryRows ops) v.key = keyedPoints (memoryRows ops') v.key := by
  obtain ⟨data, hdata, hholds⟩ := memoryAfter_holds ops
  obtain ⟨data', hdata', hholds'⟩ := memoryAfter_holds ops'
  rw [hdata, hdata']
  constructor
  · rintro ⟨-, hlatest⟩
    -- a count large enough asks for all points
    have hall := hlatest ((keyedPoints (memoryRows ops) v.key).length +
      (keyedPoints (memoryRows ops') v.key).length)
    rw [hholds.getLatest_memory, hholds'.getLatest_memory] at hall
    have hdrop : ∀ (points : List (DataPoint V)) (n : ℕ), points.length ≤ n →
        Storage.lastPoints n points = points := by
      intro points n hn
      unfold Storage.lastPoints
      rw [Nat.sub_eq_zero_of_le hn, List.drop_zero]
    rw [hdrop _ _ (by omega), hdrop _ _ (by omega)] at hall
    exact hall
  · intro h
    refine ⟨fun fromTime toTime => ?_, fun count => ?_⟩
    · rw [hholds.getHistory_memory, hholds'.getHistory_memory, h]
    · rw [hholds.getLatest_memory, hholds'.getLatest_memory, h]

/-- The rows of the own calls are the own rows. -/
theorem memoryRows_ownCalls (v : VariableRef) (ops : List (HistoryOp V)) :
    memoryRows (ownCalls v ops) = (memoryRows ops).filter fun row => row.ref = v.resolved := by
  induction ops using List.reverseRecOn with
  | nil => rfl
  | append_singleton ops op ih =>
    have hconcat : ownCalls v (ops ++ [op]) =
        if op.isOwn v then ownCalls v ops ++ [op] else ownCalls v ops := by
      unfold ownCalls
      rw [List.filter_append, List.filter_singleton]
      cases op.isOwn v with
      | false => exact List.append_nil _
      | true => rfl
    rw [hconcat]
    cases op with
    | save ref value timestamp =>
      rw [memoryRows_concat_save, List.filter_append, List.filter_singleton, ← ih]
      by_cases hown : ref.resolved = v.resolved
      · have hsave : (HistoryOp.save ref value timestamp).isOwn v = true := decide_eq_true hown
        rw [if_pos hsave, memoryRows_concat_save, HistoryRow.ref_ofSave, decide_eq_true hown]
        rfl
      · have hsave : ¬ (HistoryOp.save ref value timestamp).isOwn v = true :=
          fun h => hown (of_decide_eq_true h)
        rw [if_neg hsave, HistoryRow.ref_ofSave, decide_eq_false hown]
        exact (List.append_nil _).symm
    | cleanup olderThan =>
      have hcleanup : (HistoryOp.cleanup olderThan : HistoryOp V).isOwn v = true := rfl
      rw [if_pos hcleanup, memoryRows_concat_cleanup, memoryRows_concat_cleanup, ih,
        List.filter_filter, List.filter_filter]
      exact List.filter_congr fun row _ => Bool.and_comm _ _

/-! ### Exactly when it holds -/

/-- No point is saved under other names with the same key. -/
def NoSharedKey (v : VariableRef) (ops : List (HistoryOp V)) : Prop :=
  ∀ ref value timestamp, .save ref value timestamp ∈ ops → ref.key = v.key →
    ref.resolved = v.resolved

/-- Every row in memory comes from a call that saved it. -/
theorem exists_save_of_mem_memoryRows {ops : List (HistoryOp V)} {row : HistoryRow V}
    (h : row ∈ memoryRows ops) :
    ∃ ref value timestamp, .save ref value timestamp ∈ ops ∧
      row = .ofSave ref value timestamp := by
  induction ops using List.reverseRecOn with
  | nil => cases h
  | append_singleton ops op ih =>
    have hold : row ∈ memoryRows ops → ∃ ref value timestamp,
        .save ref value timestamp ∈ ops ++ [op] ∧ row = .ofSave ref value timestamp := by
      intro hrow
      obtain ⟨ref, value, timestamp, hmem, rfl⟩ := ih hrow
      exact ⟨ref, value, timestamp, List.mem_append_left _ hmem, rfl⟩
    cases op with
    | save ref value timestamp =>
      rw [memoryRows_concat_save] at h
      rcases List.mem_append.mp h with h | h
      · exact hold h
      · refine ⟨ref, value, timestamp, ?_, List.mem_singleton.mp h⟩
        exact List.mem_append_right _ List.mem_cons_self
    | cleanup olderThan =>
      rw [memoryRows_concat_cleanup] at h
      exact hold (List.mem_of_mem_filter h)

/-- The rows of the variable are among those of its key, and there are fewer of them if a row of the
key has other names. -/
theorem length_pointsOf_lt {rows : List (HistoryRow V)} {v : VariableRef} {row : HistoryRow V}
    (hrow : row ∈ rows) (hkey : row.ref.key = v.key) (hne : row.ref ≠ v.resolved) :
    (keyedPoints (rows.filter fun row => row.ref = v.resolved) v.key).length <
      (keyedPoints rows v.key).length := by
  unfold keyedPoints
  rw [List.length_map, List.length_map, List.filter_comm]
  apply List.length_filter_lt_length_iff_exists.mpr
  refine ⟨row, List.mem_filter.mpr ⟨hrow, decide_eq_true hkey⟩, ?_⟩
  exact fun h => hne (of_decide_eq_true h)

/-- Where nothing is saved under other names with the key, the rows of the key are those of the
variable. -/
theorem isolated_of_noSharedKey {v : VariableRef} {ops : List (HistoryOp V)}
    (h : NoSharedKey v ops) : Isolated v ops := by
  intro pre hpre
  refine (sameAnswers_iff v _ _).mpr ?_
  rw [memoryRows_ownCalls]
  unfold keyedPoints
  rw [List.filter_filter]
  refine congrArg _ (List.filter_congr fun row hrow => ?_)
  obtain ⟨ref, value, timestamp, hmem, rfl⟩ := exists_save_of_mem_memoryRows hrow
  by_cases hkey : ref.key = v.key
  · have hown : ref.resolved = v.resolved := h ref value timestamp (hpre.subset hmem) hkey
    simp [hown]
  · simp [hkey]

/-- **A variable is isolated in exactly the runs** in which no other variable with its key is
saved. -/
theorem isolated_iff (v : VariableRef) (ops : List (HistoryOp V)) :
    Isolated v ops ↔ NoSharedKey v ops := by
  constructor
  · intro h ref value timestamp hmem hkey
    by_contra hne
    -- right after the call its point is returned for `v`
    obtain ⟨pre, post, rfl⟩ := List.append_of_mem hmem
    have hprefix : pre ++ [.save ref value timestamp] <+:
        pre ++ .save ref value timestamp :: post := ⟨post, by simp⟩
    have hpoints := (sameAnswers_iff v _ _).mp (h _ hprefix)
    rw [memoryRows_ownCalls] at hpoints
    have hrow : HistoryRow.ofSave ref value timestamp ∈
        memoryRows (pre ++ [.save ref value timestamp]) := by
      rw [memoryRows_concat_save]
      exact List.mem_append_right _ List.mem_cons_self
    have hlt := length_pointsOf_lt (v := v) hrow (by simpa using hkey) hne
    rw [← hpoints] at hlt
    exact absurd hlt (lt_irrefl _)
  · exact isolated_of_noSharedKey

/-- **Names without a colon in the server and in the object are isolated**: the variables may be
called as they like. -/
theorem isolated_of_noColon {v : VariableRef} {ops : List (HistoryOp V)}
    (hv : ':' ∉ v.resolved.serverID.toList ∧ ':' ∉ v.objectName.toList)
    (hops : ∀ ref value timestamp, .save ref value timestamp ∈ ops →
      ':' ∉ ref.resolved.serverID.toList ∧ ':' ∉ ref.objectName.toList) : Isolated v ops := by
  apply isolated_of_noSharedKey
  intro ref value timestamp hmem hkey
  exact VariableRef.resolved_eq_of_key_eq (hops ref value timestamp hmem) hv hkey

end UnisetPanel
