/-
  `uniset.Client`: the requests the panel makes of a UniSet server.

  Each method is one GET of a path below `/api/v2/`, made with `Sprintf` from
  the name of the object, the command and a query.  The name is put in as it
  is.  Queries are escaped in most methods; the supplier and some lists of ids
  are put in as they are, too.

  A server takes the path apart again: what follows `#` is not sent, the query
  begins at `?`, the segments are separated by `/`.  For names without these
  signs every method is read as what it says (`readURL_path`), whatever stands
  in the parts of the query that are not escaped.
-/
import UnisetPanel.QueryString

namespace UnisetPanel

open ByteText QueryString

/-! ### Paths and how they are read -/

/-- What a server sees of a request: the segments of the path and the parameters. -/
structure ServerRequest where
  segments : List Bytes
  params : List Param
  deriving DecidableEq

/-- A path as a server reads it; with a wrong escape in it no request is made. -/
def readURL (path : Bytes) : Option ServerRequest :=
  let url := (cut 35 path).1
  (((cut 63 url).1.splitOn 47).mapM (unescape false)).map fun segments =>
    ⟨segments, parse (cut 63 url).2⟩

/-- No `#`, `%`, `/` or `?`: a text that is one segment of a path. -/
def IsSegment (s : Bytes) : Prop := ∀ b ∈ s, b ≠ 35 ∧ b ≠ 37 ∧ b ≠ 47 ∧ b ≠ 63

instance (s : Bytes) : Decidable (IsSegment s) := List.decidableBAll _ s

section

variable {object verb : Bytes}

theorem IsSegment.notMem (h : IsSegment object) :
    35 ∉ object ∧ 37 ∉ object ∧ 47 ∉ object ∧ 63 ∉ object :=
  ⟨fun hb => (h _ hb).1 rfl, fun hb => (h _ hb).2.1 rfl, fun hb => (h _ hb).2.2.1 rfl,
    fun hb => (h _ hb).2.2.2 rfl⟩

/-- `"%s/verb"`. -/
def command (object verb : Bytes) : Bytes := object ++ 47 :: verb

/-- `"%s/verb?query"`. -/
def commandWith (object verb query : Bytes) : Bytes := command object verb ++ 63 :: query

/-- `path += "?" + encoded`, unless there is nothing encoded. -/
def withQuery (path encoded : Bytes) : Bytes := if encoded = [] then path else path ++ 63 :: encoded

theorem segments_command (ho : IsSegment object) (hv : IsSegment verb) :
    ((command object verb).splitOn 47).mapM (unescape false) = some [object, verb] := by
  unfold command
  rw [List.splitOn_append_cons_self_of_not_mem ho.notMem.2.2.1,
    List.splitOn_eq_singleton hv.notMem.2.2.1]
  simp [unescape_of_plain ho.notMem.2.1, unescape_of_plain hv.notMem.2.1]

theorem notMem_command {b : UInt8} (ho : b ∉ object) (hv : b ∉ verb) (hb : b ≠ 47) :
    b ∉ command object verb := by
  simp [command, ho, hv, hb]

theorem readURL_object (ho : IsSegment object) : readURL object = some ⟨[object], []⟩ := by
  unfold readURL
  rw [cut_of_notMem ho.notMem.1]
  simp only [cut_of_notMem ho.notMem.2.2.2, List.splitOn_eq_singleton ho.notMem.2.2.1]
  simp [unescape_of_plain ho.notMem.2.1, parse, parseParam]

theorem readURL_command (ho : IsSegment object) (hv : IsSegment verb) :
    readURL (command object verb) = some ⟨[object, verb], []⟩ := by
  unfold readURL
  rw [cut_of_notMem (notMem_command ho.notMem.1 hv.notMem.1 (by decide))]
  simp only [cut_of_notMem (notMem_command ho.notMem.2.2.2 hv.notMem.2.2.2 (by decide)),
    segments_command ho hv]
  simp [parse, parseParam]

/-- **Whatever the query is, the command is read as it was meant**, and so is the query as far as
the first `#`. -/
theorem readURL_commandWith (ho : IsSegment object) (hv : IsSegment verb) (query : Bytes) :
    readURL (commandWith object verb query) =
      some ⟨[object, verb], parse (cut 35 query).1⟩ := by
  have h35 : 35 ∉ command object verb := notMem_command ho.notMem.1 hv.notMem.1 (by decide)
  have h63 : 63 ∉ command object verb :=
    notMem_command ho.notMem.2.2.2 hv.notMem.2.2.2 (by decide)
  have hcut : (cut 35 (commandWith object verb query)).1 =
      command object verb ++ 63 :: (cut 35 query).1 := by
    unfold commandWith
    have hfst : ∀ u : Bytes, 35 ∉ u →
        (cut 35 (u ++ 63 :: query)).1 = u ++ 63 :: (cut 35 query).1 := by
      intro u hu
      induction u with
      | nil => rfl
      | cons b u ih =>
        have hb : b ≠ 35 := fun hb => hu (hb ▸ List.mem_cons_self)
        rw [List.cons_append, cut, if_neg hb]
        show b :: _ = _
        rw [ih fun h => hu (List.mem_cons_of_mem b h), List.cons_append]
    exact hfst _ h35
  unfold readURL
  rw [hcut]
  simp only [cut_append h63, segments_command ho hv, Option.map_some]

theorem readURL_withQuery (ho : IsSegment object) (hv : IsSegment verb) (query : Bytes) :
    readURL (withQuery (command object verb) query) =
      some ⟨[object, verb], parse (cut 35 query).1⟩ := by
  unfold withQuery
  split_ifs with h
  · rw [readURL_command ho hv, h]
    rfl
  · exact readURL_commandWith ho hv query

end

/-! ### Values -/

/-- `url.Values.Encode`: the keys in order, the values of one key in the order they were added. -/
def encodeValues (values : List Param) : Bytes :=
  encode (values.insertionSort fun p q => p.1 ≤ q.1)

/-- An encoded query has no `#` in it. -/
theorem notMem_encode (ps : List Param) : 35 ∉ encode ps := by
  have h : ∀ ps : List Param, 35 ∉ [38].intercalate (ps.map encodeParam) := by
    intro ps
    induction ps with
    | nil => simp
    | cons p ps ih =>
      have hp : 35 ∉ encodeParam p := notMem_encodeParam p (by decide) (by decide)
      cases ps with
      | nil => simpa using hp
      | cons q ps =>
        rw [List.map_cons, List.map_cons, List.intercalate_cons_cons]
        rw [List.map_cons] at ih
        simp [hp, ih]
  exact h ps

theorem parse_encodeValues (values : List Param) :
    (parse (cut 35 (encodeValues values)).1).Perm values := by
  unfold encodeValues
  rw [cut_of_notMem (notMem_encode _)]
  show (parse (encode _)).Perm values
  rw [parse_encode]
  exact List.perm_insertionSort _ values

/-- `BuildIDQuery`: the ids with commas between. -/
def buildIDQuery (ids : List ℤ) : Bytes := [44].intercalate (ids.map itoa)

/-! ### The methods -/

/-- `uniset.Client`: where the server is, and in whose name values are set. -/
structure UniSetClient where
  baseURL : Bytes
  supplier : Bytes
  deriving DecidableEq

/-- `values.Set(key, value)`, if the condition holds. -/
def setIf (c : Prop) [Decidable c] (key : String) (value : Bytes) : List Param :=
  if c then [(ascii key, value)] else []

/-- `{supplier}` and the query after it. -/
def supplierQuery (c : UniSetClient) (rest : Bytes) : Bytes :=
  ascii "supplier=" ++ c.supplier ++ 38 :: rest

namespace UniSetClient

variable (c : UniSetClient) (objectName : Bytes)

/-- `GetObjectList`. -/
def getObjectList : Bytes := ascii "list"

/-- `GetObjectData`. -/
def getObjectData : Bytes := objectName

/-- `GetObjectHelp`. -/
def getObjectHelp : Bytes := command objectName (ascii "help")

/-- `GetSMSensors`. -/
def getSMSensors : Bytes := command (ascii "SharedMemory") (ascii "sensors")

/-- `GetIONCSensors`. -/
def getIONCSensors (offset limit : ℤ) (search iotype : Bytes) : Bytes :=
  withQuery (command objectName (ascii "sensors")) <| encodeValues <|
    setIf (offset > 0) "offset" (itoa offset) ++ setIf (limit > 0) "limit" (itoa limit) ++
      setIf (search ≠ []) "search" search ++
      setIf (iotype ≠ [] ∧ iotype ≠ ascii "all") "iotype" iotype

/-- `GetIONCSensorValues`. -/
def getIONCSensorValues (sensors : Bytes) : Bytes :=
  commandWith objectName (ascii "get") (supplierQuery c (ascii "filter=" ++ escape sensors))

/-- `SetIONCSensorValue`. -/
def setIONCSensorValue (sensorID value : ℤ) : Bytes :=
  commandWith objectName (ascii "set") (supplierQuery c (itoa sensorID ++ 61 :: itoa value))

/-- `FreezeIONCSensor`. -/
def freezeIONCSensor (sensorID value : ℤ) : Bytes :=
  commandWith objectName (ascii "freeze") (supplierQuery c (itoa sensorID ++ 61 :: itoa value))

/-- `UnfreezeIONCSensor`. -/
def unfreezeIONCSensor (sensorID : ℤ) : Bytes :=
  commandWith objectName (ascii "unfreeze") (supplierQuery c (itoa sensorID))

/-- `GetIONCConsumers`. -/
def getIONCConsumers (sensors : Bytes) : Bytes :=
  commandWith objectName (ascii "consumers") sensors

/-- `GetIONCLostConsumers`. -/
def getIONCLostConsumers : Bytes := command objectName (ascii "lost")

/-- `GetMBStatus`, `GetOPCUAStatus` and `GetUNetStatus`. -/
def getStatus : Bytes := command objectName (ascii "status")

/-- `GetMBParams` and `GetOPCUAParams`; without a name there is no request. -/
def getParams (params : List Bytes) : Option Bytes :=
  if params = [] then none
  else some <| commandWith objectName (ascii "getparam") <|
    encodeValues (params.map fun p => (ascii "name", p))

/-- `SetMBParams` and `SetOPCUAParams`, of the parameters as `fmt.Sprint` writes them; without any
there is no request. -/
def setParams (params : List Param) : Option Bytes :=
  if params = [] then none
  else some <| commandWith objectName (ascii "setparam") (encodeValues params)

/-- `GetMBRegisters` and, with `sensors` for `registers`, `GetOPCUASensors`. -/
def getItems (verb : String) (search iotype : Bytes) (limit offset : ℤ) : Bytes :=
  withQuery (command objectName (ascii verb)) <| encodeValues <|
    setIf (limit > 0) "limit" (itoa limit) ++ setIf (offset > 0) "offset" (itoa offset) ++
      setIf (search ≠ []) "search" search ++ setIf (iotype ≠ []) "iotype" iotype

/-- `GetMBRegisters`. -/
def getMBRegisters (search iotype : Bytes) (limit offset : ℤ) : Bytes :=
  getItems objectName "registers" search iotype limit offset

/-- `GetMBDevices`. -/
def getMBDevices : Bytes := command objectName (ascii "devices")

/-- `GetMBMode`. -/
def getMBMode : Bytes := commandWith objectName (ascii "mode") (ascii "get")

/-- `GetMBModeSupported`. -/
def getMBModeSupported : Bytes := commandWith objectName (ascii "mode") (ascii "supported=1")

/-- `SetMBMode`. -/
def setMBMode (mode : Bytes) : Bytes :=
  commandWith objectName (ascii "mode") (ascii "set=" ++ escape mode)

/-- `TakeMBControl` and `TakeOPCUAControl`. -/
def takeControl : Bytes := command objectName (ascii "takeControl")

/-- `ReleaseMBControl` and `ReleaseOPCUAControl`. -/
def releaseControl : Bytes := command objectName (ascii "releaseControl")

/-- `GetMBRegisterValues` and `GetOPCUASensorValues`. -/
def getValues (ids : Bytes) : Bytes :=
  commandWith objectName (ascii "get") (ascii "filter=" ++ ids)

/-- `GetOPCUAServerSensorValues`. -/
def getOPCUAServerSensorValues (ids : Bytes) : Bytes :=
  commandWith objectName (ascii "get") (ascii "id=" ++ ids)

/-- `GetOPCUASensors`. -/
def getOPCUASensors (search iotype : Bytes) (limit offset : ℤ) : Bytes :=
  getItems objectName "sensors" search iotype limit offset

/-- `GetOPCUASensor`. -/
def getOPCUASensor (sensorID : ℤ) : Bytes :=
  commandWith objectName (ascii "sensor") (ascii "id=" ++ itoa sensorID)

/-- `GetOPCUADiagnostics`. -/
def getOPCUADiagnostics : Bytes := command objectName (ascii "diagnostics")

/-- `GetUNetReceivers`. -/
def getUNetReceivers : Bytes := command objectName (ascii "receivers")

/-- `GetUNetSenders`. -/
def getUNetSenders : Bytes := command objectName (ascii "senders")

end UniSetClient

/-- A call of a method of the client, with its arguments. -/
inductive UniSetCall where
  | getObjectList
  | getObjectData (objectName : Bytes)
  | getObjectHelp (objectName : Bytes)
  | getSMSensors
  | getIONCSensors (objectName : Bytes) (offset limit : ℤ) (search iotype : Bytes)
  | getIONCSensorValues (objectName sensors : Bytes)
  | setIONCSensorValue (objectName : Bytes) (sensorID value : ℤ)
  | freezeIONCSensor (objectName : Bytes) (sensorID value : ℤ)
  | unfreezeIONCSensor (objectName : Bytes) (sensorID : ℤ)
  | getIONCConsumers (objectName sensors : Bytes)
  | getIONCLostConsumers (objectName : Bytes)
  | getStatus (objectName : Bytes)
  | getParams (objectName : Bytes) (params : List Bytes)
  | setParams (objectName : Bytes) (params : List Param)
  | getMBRegisters (objectName search iotype : Bytes) (limit offset : ℤ)
  | getMBDevices (objectName : Bytes)
  | getMBMode (objectName : Bytes)
  | getMBModeSupported (objectName : Bytes)
  | setMBMode (objectName mode : Bytes)
  | takeControl (objectName : Bytes)
  | releaseControl (objectName : Bytes)
  | getValues (objectName ids : Bytes)
  | getOPCUAServerSensorValues (objectName ids : Bytes)
  | getOPCUASensors (objectName search iotype : Bytes) (limit offset : ℤ)
  | getOPCUASensor (objectName : Bytes) (sensorID : ℤ)
  | getOPCUADiagnostics (objectName : Bytes)
  | getUNetReceivers (objectName : Bytes)
  | getUNetSenders (objectName : Bytes)
  deriving DecidableEq

namespace UniSetCall

/-- The path a call requests, if it makes a request. -/
def path (c : UniSetClient) : UniSetCall → Option Bytes
  | getObjectList => some UniSetClient.getObjectList
  | getObjectData n => some (UniSetClient.getObjectData n)
  | getObjectHelp n => some (UniSetClient.getObjectHelp n)
  | getSMSensors => some UniSetClient.getSMSensors
  | getIONCSensors n offset limit search iotype =>
    some (UniSetClient.getIONCSensors n offset limit search iotype)
  | getIONCSensorValues n sensors => some (c.getIONCSensorValues n sensors)
  | setIONCSensorValue n id value => some (c.setIONCSensorValue n id value)
  | freezeIONCSensor n id value => some (c.freezeIONCSensor n id value)
  | unfreezeIONCSensor n id => some (c.unfreezeIONCSensor n id)
  | getIONCConsumers n sensors => some (UniSetClient.getIONCConsumers n sensors)
  | getIONCLostConsumers n => some (UniSetClient.getIONCLostConsumers n)
  | getStatus n => some (UniSetClient.getStatus n)
  | getParams n params => UniSetClient.getParams n params
  | setParams n params => UniSetClient.setParams n params
  | getMBRegisters n search iotype limit offset =>
    some (UniSetClient.getMBRegisters n search iotype limit offset)
  | getMBDevices n => some (UniSetClient.getMBDevices n)
  | getMBMode n => some (UniSetClient.getMBMode n)
  | getMBModeSupported n => some (UniSetClient.getMBModeSupported n)
  | setMBMode n mode => some (UniSetClient.setMBMode n mode)
  | takeControl n => some (UniSetClient.takeControl n)
  | releaseControl n => some (UniSetClient.releaseControl n)
  | getValues n ids => some (UniSetClient.getValues n ids)
  | getOPCUAServerSensorValues n ids => some (UniSetClient.getOPCUAServerSensorValues n ids)
  | getOPCUASensors n search iotype limit offset =>
    some (UniSetClient.getOPCUASensors n search iotype limit offset)
  | getOPCUASensor n id => some (UniSetClient.getOPCUASensor n id)
  | getOPCUADiagnostics n => some (UniSetClient.getOPCUADiagnostics n)
  | getUNetReceivers n => some (UniSetClient.getUNetReceivers n)
  | getUNetSenders n => some (UniSetClient.getUNetSenders n)

/-- The name that is put into the path. -/
def objectName : UniSetCall → Bytes
  | getObjectList => ascii "list"
  | getSMSensors => ascii "SharedMemory"
  | getObjectData n | getObjectHelp n | getIONCSensors n _ _ _ _ | getIONCSensorValues n _
  | setIONCSensorValue n _ _ | freezeIONCSensor n _ _ | unfreezeIONCSensor n _
  | getIONCConsumers n _ | getIONCLostConsumers n | getStatus n | getParams n _ | setParams n _
  | getMBRegisters n _ _ _ _ | getMBDevices n | getMBMode n | getMBModeSupported n
  | setMBMode n _ | takeControl n | releaseControl n | getValues n _
  | getOPCUAServerSensorValues n _ | getOPCUASensors n _ _ _ _ | getOPCUASensor n _
  | getOPCUADiagnostics n | getUNetReceivers n | getUNetSenders n => n

/-- The texts that are put into the query as they are. -/
def verbatim : UniSetCall → List Bytes
  | getIONCConsumers _ sensors => [sensors]
  | getValues _ ids | getOPCUAServerSensorValues _ ids => [ids]
  | _ => []

/-- **What a call asks for**: the object, the command and its parameters. -/
def meaning (c : UniSetClient) : UniSetCall → ServerRequest
  | getObjectList => ⟨[ascii "list"], []⟩
  | getObjectData n => ⟨[n], []⟩
  | getObjectHelp n => ⟨[n, ascii "help"], []⟩
  | getSMSensors => ⟨[ascii "SharedMemory", ascii "sensors"], []⟩
  | getIONCSensors n offset limit search iotype =>
    ⟨[n, ascii "sensors"],
      setIf (offset > 0) "offset" (itoa offset) ++ setIf (limit > 0) "limit" (itoa limit) ++
        setIf (search ≠ []) "search" search ++
        setIf (iotype ≠ [] ∧ iotype ≠ ascii "all") "iotype" iotype⟩
  | getIONCSensorValues n sensors =>
    ⟨[n, ascii "get"], [(ascii "supplier", c.supplier), (ascii "filter", sensors)]⟩
  | setIONCSensorValue n id value =>
    ⟨[n, ascii "set"], [(ascii "supplier", c.supplier), (itoa id, itoa value)]⟩
  | freezeIONCSensor n id value =>
    ⟨[n, ascii "freeze"], [(ascii "supplier", c.supplier), (itoa id, itoa value)]⟩
  | unfreezeIONCSensor n id =>
    ⟨[n, ascii "unfreeze"], [(ascii "supplier", c.supplier), (itoa id, [])]⟩
  | getIONCConsumers n sensors => ⟨[n, ascii "consumers"], [(sensors, [])]⟩
  | getIONCLostConsumers n => ⟨[n, ascii "lost"], []⟩
  | getStatus n => ⟨[n, ascii "status"], []⟩
  | getParams n params => ⟨[n, ascii "getparam"], params.map fun p => (ascii "name", p)⟩
  | setParams n params => ⟨[n, ascii "setparam"], params⟩
  | getMBRegisters n search iotype limit offset =>
    ⟨[n, ascii "registers"],
      setIf (limit > 0) "limit" (itoa limit) ++ setIf (offset > 0) "offset" (itoa offset) ++
        setIf (search ≠ []) "search" search ++ setIf (iotype ≠ []) "iotype" iotype⟩
  | getMBDevices n => ⟨[n, ascii "devices"], []⟩
  | getMBMode n => ⟨[n, ascii "mode"], [(ascii "get", [])]⟩
  | getMBModeSupported n => ⟨[n, ascii "mode"], [(ascii "supported", ascii "1")]⟩
  | setMBMode n mode => ⟨[n, ascii "mode"], [(ascii "set", mode)]⟩
  | takeControl n => ⟨[n, ascii "takeControl"], []⟩
  | releaseControl n => ⟨[n, ascii "releaseControl"], []⟩
  | getValues n ids => ⟨[n, ascii "get"], [(ascii "filter", ids)]⟩
  | getOPCUAServerSensorValues n ids => ⟨[n, ascii "get"], [(ascii "id", ids)]⟩
  | getOPCUASensors n search iotype limit offset =>
    ⟨[n, ascii "sensors"],
      setIf (limit > 0) "limit" (itoa limit) ++ setIf (offset > 0) "offset" (itoa offset) ++
        setIf (search ≠ []) "search" search ++ setIf (iotype ≠ []) "iotype" iotype⟩
  | getOPCUASensor n id => ⟨[n, ascii "sensor"], [(ascii "id", itoa id)]⟩
  | getOPCUADiagnostics n => ⟨[n, ascii "diagnostics"], []⟩
  | getUNetReceivers n => ⟨[n, ascii "receivers"], []⟩
  | getUNetSenders n => ⟨[n, ascii "senders"], []⟩

end UniSetCall

/-! ### Texts put into a query as they are -/

/-- No `#`, `%`, `&`, `+`, `;` or `=`: a text that is read as it stands. -/
def Verbatim (s : Bytes) : Prop :=
  ∀ b ∈ s, b ≠ 35 ∧ b ≠ 37 ∧ b ≠ 38 ∧ b ≠ 43 ∧ b ≠ 59 ∧ b ≠ 61

instance (s : Bytes) : Decidable (Verbatim s) := List.decidableBAll _ s

theorem Verbatim.notMem {s : Bytes} (h : Verbatim s) :
    35 ∉ s ∧ 37 ∉ s ∧ 38 ∉ s ∧ 43 ∉ s ∧ 59 ∉ s ∧ 61 ∉ s :=
  ⟨fun hb => (h _ hb).1 rfl, fun hb => (h _ hb).2.1 rfl, fun hb => (h _ hb).2.2.1 rfl,
    fun hb => (h _ hb).2.2.2.1 rfl, fun hb => (h _ hb).2.2.2.2.1 rfl,
    fun hb => (h _ hb).2.2.2.2.2 rfl⟩

theorem Verbatim.unescape {s : Bytes} (h : Verbatim s) : unescape true s = some s :=
  unescape_of_plain h.notMem.2.1 fun _ => h.notMem.2.2.2.1

theorem verbatim_itoa (z : ℤ) : Verbatim (itoa z) := by
  intro b hb
  have hne : ∀ x : UInt8, x ≠ 45 → ¬ IsDigit x → b ≠ x := by
    rintro x h45 hd rfl
    rcases mem_itoa hb with hb | hb
    · exact h45 hb
    · exact hd hb
  exact ⟨hne _ (by decide) (by decide), hne _ (by decide) (by decide),
    hne _ (by decide) (by decide), hne _ (by decide) (by decide), hne _ (by decide) (by decide),
    hne _ (by decide) (by decide)⟩

/-- The queries of the pollers are read as they stand. -/
theorem verbatim_buildIDQuery (ids : List ℤ) : Verbatim (buildIDQuery ids) := by
  unfold buildIDQuery
  induction ids with
  | nil => intro b hb; simp at hb
  | cons z ids ih =>
    cases ids with
    | nil => simpa using verbatim_itoa z
    | cons y ids =>
      rw [List.map_cons, List.map_cons, List.intercalate_cons_cons]
      rw [List.map_cons] at ih
      intro b hb
      rcases List.mem_append.mp hb with hb | hb
      · rcases List.mem_append.mp hb with hb | hb
        · exact verbatim_itoa z b hb
        · rw [List.mem_singleton.mp hb]; decide
      · exact ih b hb

/-- One `key=value` whose key is read as it stands, and whose value is. -/
theorem parse_pair {key s value : Bytes} (hkey : Verbatim key) (h38 : 38 ∉ s) (h59 : 59 ∉ s)
    (hs : unescape true s = some value) : parse (key ++ 61 :: s) = [(key, value)] := by
  have h38' : 38 ∉ key ++ 61 :: s := by simp [hkey.notMem.2.2.1, h38]
  have h59' : 59 ∉ key ++ 61 :: s := by simp [hkey.notMem.2.2.2.2.1, h59]
  unfold parse
  rw [List.splitOn_eq_singleton h38', List.filterMap_cons, List.filterMap_nil]
  simp [parseParam, h59', cut_append hkey.notMem.2.2.2.2.2, hkey.unescape, hs]

theorem parse_verbatim {key value : Bytes} (hkey : Verbatim key) (hvalue : Verbatim value) :
    parse (key ++ 61 :: value) = [(key, value)] :=
  parse_pair hkey hvalue.notMem.2.2.1 hvalue.notMem.2.2.2.2.1 hvalue.unescape

theorem parse_escaped {key : Bytes} (hkey : Verbatim key) (value : Bytes) :
    parse (key ++ 61 :: escape value) = [(key, value)] :=
  parse_pair hkey (notMem_escape value (by decide)) (notMem_escape value (by decide))
    (unescape_escape value)

/-- A key without a value. -/
theorem parse_key {key : Bytes} (hkey : Verbatim key) (hne : key ≠ []) :
    parse key = [(key, [])] := by
  unfold parse
  rw [List.splitOn_eq_singleton hkey.notMem.2.2.1, List.filterMap_cons, List.filterMap_nil]
  simp [parseParam, hne, hkey.notMem.2.2.2.2.1, cut_of_notMem hkey.notMem.2.2.2.2.2,
    hkey.unescape, QueryString.unescape]

/-! ### Every method is read as what it says -/

/-- What must hold of the texts of a call that are not escaped. -/
structure UniSetCall.WellFormed (c : UniSetClient) (call : UniSetCall) : Prop where
  objectName : IsSegment call.objectName
  supplier : Verbatim c.supplier
  verbatim : ∀ s ∈ call.verbatim, Verbatim s ∧ s ≠ []

/-- A server reads `r` from `path`, up to the order of the parameters. -/
def ReadsAs (path : Bytes) (r : ServerRequest) : Prop :=
  ∃ params, readURL path = some ⟨r.segments, params⟩ ∧ params.Perm r.params

section

variable {object verb query : Bytes} {ps : List Param}

theorem readsAs_command (ho : IsSegment object) (hv : IsSegment verb) :
    ReadsAs (command object verb) ⟨[object, verb], []⟩ :=
  ⟨[], readURL_command ho hv, List.Perm.nil⟩

theorem readsAs_commandWith (ho : IsSegment object) (hv : IsSegment verb) (h35 : 35 ∉ query)
    (hparse : parse query = ps) : ReadsAs (commandWith object verb query) ⟨[object, verb], ps⟩ := by
  refine ⟨ps, ?_, List.Perm.refl ps⟩
  rw [readURL_commandWith ho hv, cut_of_notMem h35, hparse]

/-- One parameter that is put in as it stands, -/
theorem readsAs_verbatim {key value : Bytes} (ho : IsSegment object) (hv : IsSegment verb)
    (hkey : Verbatim key) (hvalue : Verbatim value) :
    ReadsAs (commandWith object verb (key ++ 61 :: value)) ⟨[object, verb], [(key, value)]⟩ := by
  apply readsAs_commandWith ho hv
  · simp [hkey.notMem.1, hvalue.notMem.1]
  · exact parse_verbatim hkey hvalue

/-- and one that is escaped. -/
theorem readsAs_escaped {key : Bytes} (ho : IsSegment object) (hv : IsSegment verb)
    (hkey : Verbatim key) (value : Bytes) :
    ReadsAs (commandWith object verb (key ++ 61 :: escape value))
      ⟨[object, verb], [(key, value)]⟩ := by
  apply readsAs_commandWith ho hv
  · simp [hkey.notMem.1, notMem_escape value (b := 35) (by decide)]
  · exact parse_escaped hkey value

theorem readsAs_encodeValues (ho : IsSegment object) (hv : IsSegment verb) :
    ReadsAs (commandWith object verb (encodeValues ps)) ⟨[object, verb], ps⟩ :=
  ⟨_, readURL_commandWith ho hv _, parse_encodeValues ps⟩

theorem readsAs_withQuery (ho : IsSegment object) (hv : IsSegment verb) :
    ReadsAs (withQuery (command object verb) (encodeValues ps)) ⟨[object, verb], ps⟩ :=
  ⟨_, readURL_withQuery ho hv _, parse_encodeValues ps⟩

/-- The query of a command in the name of the supplier. -/
theorem parse_supplierQuery {c : UniSetClient} (hsup : Verbatim c.supplier) (h35 : 35 ∉ query)
    (hparse : parse query = ps) : 35 ∉ supplierQuery c query ∧
      parse (supplierQuery c query) = (ascii "supplier", c.supplier) :: ps := by
  have hkey : ascii "supplier=" ++ c.supplier = ascii "supplier" ++ 61 :: c.supplier := by
    show (ascii "supplier" ++ [61]) ++ c.supplier = _
    rw [List.append_assoc, List.singleton_append]
  unfold supplierQuery
  constructor
  · rw [hkey]
    have hs : 35 ∉ ascii "supplier" := by decide
    simp [hs, hsup.notMem.1, h35]
  · rw [hkey, parse_append, parse_verbatim (by decide) hsup, hparse]
    rfl

theorem readsAs_supplierQuery {c : UniSetClient} (ho : IsSegment object) (hv : IsSegment verb)
    (hsup : Verbatim c.supplier) (h35 : 35 ∉ query) (hparse : parse query = ps) :
    ReadsAs (commandWith object verb (supplierQuery c query))
      ⟨[object, verb], (ascii "supplier", c.supplier) :: ps⟩ := by
  obtain ⟨hq, hqs⟩ := parse_supplierQuery hsup h35 hparse
  exact readsAs_commandWith ho hv hq hqs

end

/-- A name that is no segment is read as something else: the data of this object are asked for by
setting a sensor of another. -/
example : (readURL (UniSetClient.getObjectData (ascii "SM/set?supplier=TestProc&12=5"))).map
    ServerRequest.segments = some [ascii "SM", ascii "set"] := by decide

/-! ### Writes -/

/-- The commands of a server that change something. -/
def writeCommands : List Bytes :=
  ["set", "freeze", "unfreeze", "setparam", "takeControl", "releaseControl"].map ascii

/-- A server is asked to change something: by one of the commands, or by `mode` with a `set`. -/
def ServerRequest.isWrite (r : ServerRequest) : Bool :=
  match r.segments with
  | _ :: verb :: _ =>
    decide (verb ∈ writeCommands) ||
      (decide (verb = ascii "mode") && r.params.any fun p => decide (p.1 = ascii "set"))
  | _ => false

/-- The methods that are there to change something. -/
def UniSetCall.isWrite : UniSetCall → Bool
  | setIONCSensorValue _ _ _ | freezeIONCSensor _ _ _ | unfreezeIONCSensor _ _ | setParams _ _
  | setMBMode _ _ | takeControl _ | releaseControl _ => true
  | _ => false

section

variable {object verb : Bytes}

theorem isWrite_of_verb {params : List Param} (hmode : verb ≠ ascii "mode") :
    ServerRequest.isWrite ⟨[object, verb], params⟩ = decide (verb ∈ writeCommands) := by
  simp [ServerRequest.isWrite, hmode]

theorem isWrite_command (ho : IsSegment object) (hv : IsSegment verb) {r : ServerRequest}
    (hmode : verb ≠ ascii "mode") (h : readURL (command object verb) = some r) :
    r.isWrite = decide (verb ∈ writeCommands) := by
  rw [readURL_command ho hv] at h
  obtain rfl := Option.some.inj h
  exact isWrite_of_verb hmode

theorem isWrite_commandWith (ho : IsSegment object) (hv : IsSegment verb) {r : ServerRequest}
    (hmode : verb ≠ ascii "mode") {query : Bytes}
    (h : readURL (commandWith object verb query) = some r) :
    r.isWrite = decide (verb ∈ writeCommands) := by
  rw [readURL_commandWith ho hv] at h
  obtain rfl := Option.some.inj h
  exact isWrite_of_verb hmode

theorem isWrite_withQuery (ho : IsSegment object) (hv : IsSegment verb) {r : ServerRequest}
    (hmode : verb ≠ ascii "mode") {query : Bytes}
    (h : readURL (withQuery (command object verb) query) = some r) :
    r.isWrite = decide (verb ∈ writeCommands) := by
  rw [readURL_withQuery ho hv] at h
  obtain rfl := Option.some.inj h
  exact isWrite_of_verb hmode

end

/-- **A method that is there to read never writes**, and the others always do, whatever texts stand
in the query; the name must be a segment. -/
theorem isWrite_of_path {c : UniSetClient} {call : UniSetCall} (ho : IsSegment call.objectName)
    {path : Bytes} (hpath : call.path c = some path) {r : ServerRequest}
    (h : readURL path = some r) : r.isWrite = call.isWrite := by
  cases call with
  | getObjectList =>
    obtain rfl := Option.some.inj hpath
    have hr : readURL (ascii "list") = some ⟨[ascii "list"], []⟩ := readURL_object (by decide)
    obtain rfl := Option.some.inj (hr.symm.trans h)
    rfl
  | getObjectData n =>
    obtain rfl := Option.some.inj hpath
    obtain rfl := Option.some.inj ((readURL_object ho).symm.trans h)
    rfl
  | getParams | setParams =>
    obtain ⟨-, hsome⟩ := Option.ite_none_left_eq_some.mp hpath
    obtain rfl := Option.some.inj hsome
    exact (isWrite_commandWith ho (by decide) (by decide) h).trans rfl
  | getIONCSensors | getMBRegisters | getOPCUASensors =>
    obtain rfl := Option.some.inj hpath
    exact (isWrite_withQuery ho (by decide) (by decide) h).trans rfl
  | getIONCSensorValues | setIONCSensorValue | freezeIONCSensor | unfreezeIONCSensor
  | getIONCConsumers | getValues | getOPCUAServerSensorValues | getOPCUASensor =>
    obtain rfl := Option.some.inj hpath
    exact (isWrite_commandWith ho (by decide) (by decide) h).trans rfl
  | getMBMode n =>
    obtain rfl := Option.some.inj hpath
    obtain rfl := Option.some.inj ((readURL_commandWith ho (by decide) _).symm.trans h)
    rw [cut_of_notMem (by decide), @parse_key (ascii "get") (by decide) (by decide)]
    rfl
  | getMBModeSupported n =>
    obtain rfl := Option.some.inj hpath
    obtain rfl := Option.some.inj ((readURL_commandWith ho (by decide) _).symm.trans h)
    have hparse : parse (ascii "supported=1") = [(ascii "supported", ascii "1")] :=
      @parse_verbatim (ascii "supported") (ascii "1") (by decide) (by decide)
    rw [cut_of_notMem (by decide), hparse]
    rfl
  | setMBMode n mode =>
    obtain rfl := Option.some.inj hpath
    obtain rfl := Option.some.inj ((readURL_commandWith ho (by decide) _).symm.trans h)
    have h35 : 35 ∉ ascii "set=" ++ escape mode := by
      have hk : 35 ∉ ascii "set=" := by decide
      simp [hk, notMem_escape mode (b := 35) (by decide)]
    have hparse : parse (ascii "set=" ++ escape mode) = [(ascii "set", mode)] :=
      @parse_escaped (ascii "set") (by decide) mode
    rw [cut_of_notMem h35, hparse]
    simp [ServerRequest.isWrite, UniSetCall.isWrite]
  | getSMSensors | getObjectHelp | getIONCLostConsumers | getStatus | getMBDevices | takeControl
  | releaseControl | getOPCUADiagnostics | getUNetReceivers | getUNetSenders =>
    obtain rfl := Option.some.inj hpath
    exact (isWrite_command ho (by decide) (by decide) h).trans rfl

end UnisetPanel
