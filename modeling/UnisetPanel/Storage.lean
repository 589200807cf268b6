/-
  `storage`: the history of values kept for the charts, in memory or in SQLite,
  and the handler that answers from it (`GetVariableHistory`).

  Both kinds keep a point under a server, an object and a variable, and take an
  empty server for `default`.  In memory the three make one key; in SQLite they
  are columns, and the points are found by the order of the texts that the
  driver writes for times, whatever these are.  `SavedUnder` is what is needed
  to know of a storage that a server has no points in it.

  A value is an `interface{}`; in a chart it is a number, which is what `V` is
  if nothing else is said.
-/
import UnisetPanel.GoMap
import UnisetPanel.Timer
import Mathlib.Data.Char
import Mathlib.Data.List.Lex
import Mathlib.Data.List.Sort

namespace UnisetPanel

/-- `storage.DataPoint`. -/
structure DataPoint (V : Type := Float) where
  timestamp : Time
  value : V
  deriving DecidableEq

/-- A row of the table `history`. -/
structure HistoryRow (V : Type := Float) where
  serverID : String
  objectName : String
  variableName : String
  value : V
  timestamp : Time

/-- `memoryStorage` or `sqliteStorage`; `text` is how the SQLite driver writes a time. -/
inductive Storage (V : Type := Float) where
  | memory (data : GoMap String (List (DataPoint V)))
  | sqlite (text : Time → List Char) (rows : List (HistoryRow V))

/-- `DefaultServerID`. -/
def defaultServerID : String := "default"

/-- An empty server is the default one. -/
def orDefault (serverID : String) : String := if serverID = "" then defaultServerID else serverID

/-- `makeKey`. -/
def makeKey (serverID objectName variableName : String) : String :=
  orDefault serverID ++ ":" ++ objectName ++ ":" ++ variableName

namespace Storage

variable {V : Type}

/-- `NewMemoryStorage`. -/
def newMemory : Storage V := memory ∅

/-- `NewSQLiteStorage`, of a new file. -/
def newSQLite (text : Time → List Char) : Storage V := sqlite text []

/-- `Save`. -/
def save (st : Storage V) (serverID objectName variableName : String) (value : V)
    (timestamp : Time) : Storage V :=
  match st with
  | memory data =>
    let key := makeKey serverID objectName variableName
    memory (data.insert key ((data.lookup key).getD [] ++ [⟨timestamp, value⟩]))
  | sqlite text rows =>
    sqlite text (rows ++ [⟨orDefault serverID, objectName, variableName, value, timestamp⟩])

/-- `GetHistory`. -/
def getHistory (st : Storage V) (serverID objectName variableName : String)
    (fromTime toTime : Time) : List (DataPoint V) :=
  match st with
  | memory data =>
    ((data.lookup (makeKey serverID objectName variableName)).getD []).filter fun p =>
      (p.timestamp = fromTime ∨ fromTime < p.timestamp) ∧
        (p.timestamp = toTime ∨ p.timestamp < toTime)
  | sqlite text rows =>
    let found := rows.filter fun row => row.serverID = orDefault serverID ∧
      row.objectName = objectName ∧ row.variableName = variableName ∧
      text fromTime ≤ text row.timestamp ∧ text row.timestamp ≤ text toTime
    (found.insertionSort fun a b => text a.timestamp ≤ text b.timestamp).map
      fun row => ⟨row.timestamp, row.value⟩

/-- `GetLatest`. -/
def getLatest (st : Storage V) (serverID objectName variableName : String) (count : ℕ) :
    List (DataPoint V) :=
  match st with
  | memory data =>
    let points := (data.lookup (makeKey serverID objectName variableName)).getD []
    if points.length ≤ count then points else points.drop (points.length - count)
  | sqlite text rows =>
    let found := rows.filter fun row => row.serverID = orDefault serverID ∧
      row.objectName = objectName ∧ row.variableName = variableName
    let latest := (found.insertionSort fun a b => text b.timestamp ≤ text a.timestamp).take count
    (latest.insertionSort fun a b => text a.timestamp ≤ text b.timestamp).map
      fun row => ⟨row.timestamp, row.value⟩

/-- `Cleanup`. -/
def cleanup (st : Storage V) (olderThan : Time) : Storage V :=
  match st with
  | memory data => memory (data.filterMap fun points =>
      let filtered := points.filter fun p => olderThan < p.timestamp
      if filtered.length = 0 then none else some filtered)
  | sqlite text rows => sqlite text (rows.filter fun row => ¬ text row.timestamp < text olderThan)

/-- `GetVariableHistory`; `count` and `serverID` are the parameters of the query. -/
def getVariableHistory (st : Storage V) (objectName variableName : String) (count : Option ℤ)
    (serverID : String) : Except String (List (DataPoint V)) :=
  if objectName = "" ∨ variableName = "" then
    .error "object name and variable name required"
  else
    .ok (st.getLatest serverID objectName variableName
      (match count with
        | some c => if 0 < c then c.toNat else 100
        | none => 100))

/-! ### Points of one server -/

/-- All points are of one server. -/
def SavedUnder (serverID : String) : Storage V → Prop
  | memory data => ∀ key points, data.lookup key = some points →
    ∃ rest, key = serverID ++ ":" ++ rest
  | sqlite _ rows => ∀ row ∈ rows, row.serverID = serverID

variable {st : Storage V} {serverID : String}

theorem savedUnder_newMemory (serverID : String) : SavedUnder serverID (newMemory : Storage V) := by
  rintro key points h
  cases h

theorem savedUnder_newSQLite (serverID : String) (text : Time → List Char) :
    SavedUnder serverID (newSQLite text : Storage V) := nofun

theorem SavedUnder.save (serverID : String) (h : SavedUnder (orDefault serverID) st)
    (objectName variableName : String) (value : V) (timestamp : Time) :
    SavedUnder (orDefault serverID)
      (st.save serverID objectName variableName value timestamp) := by
  cases st with
  | memory data =>
    intro key points hkey
    rw [GoMap.lookup_insert] at hkey
    split_ifs at hkey with heq
    · refine ⟨objectName ++ ":" ++ variableName, ?_⟩
      rw [heq, makeKey, String.append_assoc, String.append_assoc]
      simp only [String.append_assoc]
    · exact h key points hkey
  | sqlite text rows =>
    intro row hrow
    rcases List.mem_append.mp hrow with hrow | hrow
    · exact h row hrow
    · rw [List.mem_singleton.mp hrow]

/-- A server that does not begin like the one of the points has none. -/
theorem SavedUnder.getLatest_eq_nil {other : String} (h : SavedUnder serverID st)
    (hkey : ∀ rest rest', orDefault other ++ ":" ++ rest ≠ serverID ++ ":" ++ rest')
    (objectName variableName : String) (count : ℕ) :
    st.getLatest other objectName variableName count = [] := by
  cases st with
  | memory data =>
    have hnone : data.lookup (makeKey other objectName variableName) = none := by
      rw [Option.eq_none_iff_forall_ne_some]
      intro points hpoints
      obtain ⟨rest, hrest⟩ := h _ points hpoints
      refine hkey (objectName ++ ":" ++ variableName) rest (Eq.trans ?_ hrest)
      simp only [makeKey, String.append_assoc]
    simp [getLatest, hnone]
  | sqlite text rows =>
    have hfound : rows.filter (fun row => row.serverID = orDefault other ∧
        row.objectName = objectName ∧ row.variableName = variableName) = [] := by
      refine List.filter_eq_nil_iff.mpr fun row hrow => ?_
      have hother : serverID ≠ orDefault other := fun heq => hkey "" "" (by rw [heq])
      simp [h row hrow, hother]
    simp only [getLatest, hfound, List.insertionSort_nil, List.take_nil, List.map_nil]

end Storage

end UnisetPanel
