/-
  The rows of the table of sensors of a tab.

  `sensorMap` has a sensor object for each row: the loads put new objects into
  it, the events write into the object of an id, and a dialog writes into the
  object that it was opened for once the server has accepted its command.  The
  answers of `loadMoreSensors` and `loadPinnedSensors` leave the rows alone that
  the table has, so these change only by what is written into them (`row_step`).
-/
import UnisetPanel.GoMap
import UnisetPanel.Recording.Basic

namespace UnisetPanel

/-! ### The table -/

/-- A sensor object of a table: which of the objects it is, and what it holds. -/
structure SensorRow where
  number : ℕ
  sensor : IONCSensor

/-- `sensorMap` of a table. -/
abbrev SensorMap := GoMap Int64 SensorRow

/-- What the sensor object of an id holds changes. -/
def SensorMap.update (sensorMap : SensorMap) (id : Int64) (f : IONCSensor → IONCSensor) :
    SensorMap :=
  match sensorMap.lookup id with
  | some row => sensorMap.insert id { row with sensor := f row.sensor }
  | none => sensorMap

/-- `handleIONCSensorUpdate`, as far as the map goes. -/
def SensorMap.handleIONCSensorUpdate (sensorMap : SensorMap) (sensor : IONCSensor) : SensorMap :=
  sensorMap.update sensor.id fun _ => sensor

/-- What the user asks the server to do to a sensor. -/
inductive SensorCommand where
  /-- `doSetValue` -/
  | set (value : Int64)
  /-- `doFreeze` -/
  | freeze (value : Int64)
  | quickFreeze
  /-- `doUnfreeze` and `quickUnfreeze` -/
  | unfreeze

/-- What the page writes into the sensor when the server has accepted it. -/
def SensorCommand.update (sensor : IONCSensor) : SensorCommand → IONCSensor
  | .set value => if sensor.frozen then { sensor with realValue := value } else { sensor with value }
  | .freeze value => { sensor with realValue := sensor.value, frozen := true, value }
  | .quickFreeze => { sensor with realValue := sensor.value, frozen := true }
  | .unfreeze => { sensor with frozen := false, value := sensor.realValue }

/-- The table of a tab. -/
structure SensorTable where
  /-- the ids of `allSensors` -/
  allSensors : List Int64
  sensorMap : SensorMap
  /-- how many sensor objects have come -/
  created : ℕ
  /-- the sensor and the object of it that each of the dialogs is about -/
  dialogs : List (Int64 × ℕ)

/-- What happens to the table, but for the events. -/
inductive TableAction where
  /-- `loadSensors`, before its answer -/
  | startLoading
  | loadSensors (sensors : List IONCSensor)
  | loadPinnedSensors (pinnedSensors : List IONCSensor)
  | loadMoreSensors (newSensors : List IONCSensor)
  /-- a dialog about a sensor is opened, or a quick freeze or unfreeze begun -/
  | openDialog (sensorId : Int64)
  /-- the server has accepted what the user asked in a dialog -/
  | commandDone (dialog : ℕ) (command : SensorCommand)

/-- The rows stay that the table has. -/
def TableAction.keepsRows : TableAction → Bool
  | .startLoading | .loadSensors _ => false
  | _ => true

namespace SensorTable

variable (table : SensorTable)

/-- `this.sensorMap.set(sensor.id, sensor)`. -/
def setSensor (sensor : IONCSensor) : SensorTable :=
  { table with
    sensorMap := table.sensorMap.insert sensor.id ⟨table.created, sensor⟩
    created := table.created + 1 }

/-- The answer of `loadSensors`. -/
def loadSensors (sensors : List IONCSensor) : SensorTable :=
  sensors.foldl setSensor { table with allSensors := sensors.map IONCSensor.id, sensorMap := ∅ }

/-- The loop of `loadPinnedSensors`. -/
def addPinned (sensor : IONCSensor) : SensorTable :=
  if (table.sensorMap.lookup sensor.id).isSome then table
  else ({ table with allSensors := sensor.id :: table.allSensors } : SensorTable).setSensor sensor

/-- The answer of `loadMoreSensors`. -/
def loadMoreSensors (newSensors : List IONCSensor) : SensorTable :=
  let uniqueNewSensors := newSensors.filter fun s => s.id ∉ table.allSensors
  uniqueNewSensors.foldl setSensor
    { table with allSensors := table.allSensors ++ uniqueNewSensors.map IONCSensor.id }

/-- The object that the map has for a sensor. -/
def objectOf (sensorId : Int64) : Option ℕ := (table.sensorMap.lookup sensorId).map SensorRow.number

/-- The page writes into the object that a dialog is about; it may not be in the map any more. -/
def commandDone (dialog : Int64 × ℕ) (command : SensorCommand) : SensorTable :=
  if table.objectOf dialog.1 = some dialog.2 then
    { table with sensorMap := table.sensorMap.update dialog.1 command.update }
  else table

/-- One step. -/
def step : TableAction → Option SensorTable
  | .startLoading => some { table with allSensors := [] }
  | .loadSensors sensors => some (table.loadSensors sensors)
  | .loadPinnedSensors pinnedSensors => some (pinnedSensors.foldl addPinned table)
  | .loadMoreSensors newSensors => some (table.loadMoreSensors newSensors)
  | .openDialog sensorId => (table.objectOf sensorId).map fun number =>
    { table with dialogs := table.dialogs ++ [(sensorId, number)] }
  | .commandDone i command => table.dialogs[i]?.map fun dialog => table.commandDone dialog command

end SensorTable

/-! ### The row of a sensor -/

/-- What is written into the row of a sensor: by an event, or by the page itself. -/
inductive RowWrite where
  | event (sensor : IONCSensor)
  | command (command : SensorCommand)

namespace RowWrite

/-- The row afterwards. -/
def apply (row : IONCSensor) : RowWrite → IONCSensor
  | .event sensor => sensor
  | .command c => c.update row

/-- The sensor that an event has brought. -/
def sensor : RowWrite → Option IONCSensor
  | .event sensor => some sensor
  | .command _ => none

/-- Where an event has written last, the row is the sensor that it brought. -/
theorem foldl_apply_of_getLast? {writes : List RowWrite}
    (hlast : ∀ c, writes.getLast? ≠ some (.command c)) {x : IONCSensor}
    (h : (writes.filterMap RowWrite.sensor).getLast? = some x) (row : IONCSensor) :
    writes.foldl apply row = x := by
  rcases List.eq_nil_or_concat writes with rfl | ⟨pre, write, rfl⟩
  · cases h
  · rw [List.concat_eq_append] at h hlast ⊢
    rw [List.foldl_append]
    cases write with
    | event sensor =>
      have hx : (pre.filterMap RowWrite.sensor ++ [sensor]).getLast? = some x := by
        rw [List.filterMap_append] at h
        exact h
      rw [List.getLast?_concat] at hx
      exact Option.some.inj hx
    | command c => exact absurd List.getLast?_concat (hlast c)

end RowWrite

/-- The sensor object of an id, after a change of one. -/
theorem SensorMap.map_lookup_update (m : SensorMap) (a b : Int64) (f : IONCSensor → IONCSensor) :
    (Finmap.lookup b (m.update a f)).map SensorRow.sensor =
      if b = a then ((m.lookup b).map SensorRow.sensor).map f
      else (m.lookup b).map SensorRow.sensor := by
  unfold SensorMap.update
  split
  · next row hrow =>
    rw [GoMap.lookup_insert]
    split_ifs with hb
    · rw [hb, hrow]
      rfl
    · rfl
  · next hnone =>
    split_ifs with hb
    · rw [hb, hnone]
      rfl
    · rfl

/-- A row that is there becomes the last sensor handed to it. -/
theorem SensorMap.map_lookup_handleAll (sensors : List IONCSensor) (id : Int64) (m : SensorMap) :
    (Finmap.lookup id (sensors.foldl handleIONCSensorUpdate m)).map SensorRow.sensor =
      ((m.lookup id).map SensorRow.sensor).map
        (((sensors.filter fun s => s.id = id).map RowWrite.event).foldl RowWrite.apply) := by
  induction sensors generalizing m with
  | nil => exact (Option.map_id' ..).symm
  | cons sensor sensors ih =>
    rw [List.foldl_cons, ih, handleIONCSensorUpdate, map_lookup_update]
    by_cases hid : id = sensor.id
    · rw [if_pos hid, List.filter_cons_of_pos (by simp [hid]), Option.map_map, List.map_cons]
      congr 1
    · rw [if_neg hid, List.filter_cons_of_neg (by simp [Ne.symm hid])]

namespace SensorTable

variable {table table' : SensorTable} {id : Int64}

/-- The row of a sensor. -/
def row (table : SensorTable) (id : Int64) : Option IONCSensor :=
  (table.sensorMap.lookup id).map SensorRow.sensor

/-- The table shows a sensor. -/
structure Shows (table : SensorTable) (id : Int64) : Prop where
  mem : id ∈ table.allSensors
  row : (table.row id).isSome = true

/-- What the page itself writes into the row of a sensor. -/
def writes (table : SensorTable) (id : Int64) : TableAction → List RowWrite
  | .commandDone i command =>
    if table.dialogs[i]?.any fun dialog => dialog.1 = id ∧ table.objectOf id = some dialog.2 then
      [.command command]
    else []
  | _ => []

theorem foldl_setSensor {sensors : List IONCSensor} (h : ∀ sensor ∈ sensors, sensor.id ≠ id)
    (table : SensorTable) : (sensors.foldl setSensor table).allSensors = table.allSensors ∧
      (sensors.foldl setSensor table).row id = table.row id := by
  induction sensors generalizing table with
  | nil => exact ⟨rfl, rfl⟩
  | cons sensor sensors ih =>
    obtain ⟨hids, hrow⟩ := ih (fun x hx => h x (List.mem_cons_of_mem sensor hx))
      (table.setSensor sensor)
    refine ⟨hids, hrow.trans ?_⟩
    show (Finmap.lookup id (table.sensorMap.insert sensor.id _)).map _ = _
    rw [GoMap.lookup_insert, if_neg fun heq => h sensor List.mem_cons_self heq.symm]
    rfl

theorem addPinned_shows (h : table.Shows id) (sensor : IONCSensor) :
    (table.addPinned sensor).Shows id ∧ (table.addPinned sensor).row id = table.row id := by
  unfold addPinned
  split_ifs with hsome
  · exact ⟨h, rfl⟩
  · have hid : id ≠ sensor.id := by
      rintro rfl
      exact hsome ((Option.isSome_map ..).symm.trans h.row)
    have hrow : (({ table with allSensors := sensor.id :: table.allSensors } :
        SensorTable).setSensor sensor).row id = table.row id := by
      show (Finmap.lookup id (table.sensorMap.insert sensor.id _)).map _ = _
      rw [GoMap.lookup_insert, if_neg hid]
      rfl
    exact ⟨⟨List.mem_cons_of_mem _ h.mem, hrow ▸ h.row⟩, hrow⟩

/-- **The step lemma of the table**: the rows that are shown stay, and change only where the page
writes into them. -/
theorem row_step {a : TableAction} (hkeep : a.keepsRows = true) (hs : table.step a = some table')
    (h : table.Shows id) :
    table'.Shows id ∧ table'.row id = (table.row id).map ((table.writes id a).foldl RowWrite.apply) := by
  have hsame : table.row id = (table.row id).map (([] : List RowWrite).foldl RowWrite.apply) :=
    (Option.map_id' ..).symm
  cases a with
  | startLoading | loadSensors => cases hkeep
  | loadPinnedSensors sensors =>
    obtain rfl := Option.some.inj hs
    have hall : (sensors.foldl addPinned table).Shows id ∧
        (sensors.foldl addPinned table).row id = table.row id := by
      clear hs hsame hkeep
      induction sensors generalizing table with
      | nil => exact ⟨h, rfl⟩
      | cons sensor sensors ih =>
        obtain ⟨hshows, hrow⟩ := addPinned_shows h sensor
        obtain ⟨hlast, heq⟩ := ih hshows
        exact ⟨hlast, heq.trans hrow⟩
    exact ⟨hall.1, hall.2.trans hsame⟩
  | loadMoreSensors sensors =>
    obtain rfl := Option.some.inj hs
    have hother : ∀ sensor ∈ sensors.filter fun s => s.id ∉ table.allSensors, sensor.id ≠ id := by
      rintro sensor hmem rfl
      exact of_decide_eq_true (List.mem_filter.mp hmem).2 h.mem
    obtain ⟨hids, hrow⟩ := foldl_setSensor hother
      { table with allSensors := table.allSensors ++
          (sensors.filter fun s => s.id ∉ table.allSensors).map IONCSensor.id }
    have hrow' : (table.loadMoreSensors sensors).row id = table.row id := hrow
    refine ⟨⟨?_, hrow' ▸ h.row⟩, hrow'.trans hsame⟩
    show id ∈ (List.foldl setSensor _ _).allSensors
    rw [hids]
    exact List.mem_append_left _ h.mem
  | openDialog sensorId =>
    obtain ⟨number, -, rfl⟩ := Option.map_eq_some_iff.mp hs
    exact ⟨⟨h.mem, h.row⟩, hsame⟩
  | commandDone i command =>
    obtain ⟨dialog, hi, rfl⟩ := Option.map_eq_some_iff.mp hs
    have hwrites : table.writes id (.commandDone i command) =
        if dialog.1 = id ∧ table.objectOf id = some dialog.2 then [.command command] else [] := by
      show (if table.dialogs[i]?.any _ = true then _ else _) = _
      rw [hi, Option.any_some]
      simp only [decide_eq_true_eq]
    have hrow : (table.commandDone dialog command).row id =
        (table.row id).map ((table.writes id (.commandDone i command)).foldl RowWrite.apply) := by
      rw [hwrites]
      unfold commandDone
      by_cases hobject : table.objectOf dialog.1 = some dialog.2
      · rw [if_pos hobject]
        show (Finmap.lookup id (table.sensorMap.update dialog.1 _)).map _ = _
        rw [SensorMap.map_lookup_update]
        by_cases hid : id = dialog.1
        · subst hid
          rw [if_pos rfl, if_pos ⟨rfl, hobject⟩]
          rfl
        · rw [if_neg hid, if_neg fun h => hid h.1.symm]
          exact hsame
      · -- the object of the dialog is not in the map any more
        have hnot : ¬ (dialog.1 = id ∧ table.objectOf id = some dialog.2) := by
          rintro ⟨rfl, hsome⟩
          exact hobject hsome
        rw [if_neg hobject, if_neg hnot]
        exact hsame
    refine ⟨⟨?_, ?_⟩, hrow⟩
    · unfold commandDone
      split_ifs
      · exact h.mem
      · exact h.mem
    · rw [hrow, Option.isSome_map]
      exact h.row

end SensorTable

end UnisetPanel
