/-
  `lsMessage`: the commands that are sent to a LogServer.

  A message is a packed record of 131 bytes.  `Marshal` writes its fields one
  after the other and `Unmarshal` reads them in the same order, and refuses
  what is too short or has another magic number.  A Go string is its bytes, and
  so is a name of a log here; in a message it has at most 120 of them and a NUL
  after them.
-/
import UnisetPanel.Binary

namespace UnisetPanel

/-- `MagicNum`. -/
def magicNum : UInt32 := 20201222

/-- `MaxLogNameLen`. -/
def maxLogNameLen : ℕ := 120

/-- `MessageSize`. -/
def messageSize : ℕ := 131

/-- `Message`; a `Command` is a `uint8`. -/
structure LogMessage where
  byteOrder : UInt8
  magic : UInt32
  data : UInt32
  cmd : UInt8
  logName : Vector UInt8 (maxLogNameLen + 1)
  deriving DecidableEq

namespace LogMessage

/-- `SetLogName`: the field is cleared, and what there is room for of the name is copied to its
start. -/
def setLogName (m : LogMessage) (name : List UInt8) : LogMessage :=
  let cleared : Vector UInt8 (maxLogNameLen + 1) := Vector.replicate (maxLogNameLen + 1) 0
  let n := if maxLogNameLen < name.length then maxLogNameLen else name.length
  { m with logName := Vector.ofFn fun i => if i < n then name.getD i 0 else cleared[i] }

/-- `NewMessage`. -/
def newMessage (cmd : UInt8) (data : UInt32) (logname : List UInt8) : LogMessage :=
  ({ byteOrder := 0, magic := magicNum, data, cmd,
     logName := Vector.replicate (maxLogNameLen + 1) 0 } : LogMessage).setLogName logname

/-- `GetLogName`. -/
def getLogName (m : LogMessage) : List UInt8 :=
  match m.logName.toList.findIdx? (· = 0) with
  | some i => m.logName.toList.take i
  | none => m.logName.toList

/-- The field `LogName`. -/
def logNameField : FieldCodec (Vector UInt8 (maxLogNameLen + 1)) :=
  .byteArray (maxLogNameLen + 1)

/-- `Marshal`; a write to a `bytes.Buffer` does not fail. -/
def marshal (m : LogMessage) : List UInt8 :=
  FieldCodec.uint8.encode m.byteOrder ++ FieldCodec.uint32.encode m.magic ++
    FieldCodec.uint32.encode m.data ++ FieldCodec.uint8.encode m.cmd ++
    logNameField.encode m.logName

/-- `binary.Read` of a field, with the error that `Unmarshal` makes of it. -/
def readField {α : Type} (c : FieldCodec α) (name : String) (buf : List UInt8) :
    Except String (α × List UInt8) :=
  match c.read buf with
  | some r => .ok r
  | none => .error ("read " ++ name ++ (if buf = [] then ": EOF" else ": unexpected EOF"))

/-- `Unmarshal`. -/
def unmarshal (data : List UInt8) : Except String LogMessage :=
  if data.length < messageSize then
    .error ("data too short: got " ++ toString data.length ++ ", need " ++ toString messageSize)
  else do
    let (byteOrder, buf) ← readField .uint8 "byte_order" data
    let (magic, buf) ← readField .uint32 "magic" buf
    if magic ≠ magicNum then
      .error ("invalid magic: got " ++ toString magic ++ ", expected " ++ toString magicNum)
    else do
      let (data, buf) ← readField .uint32 "data" buf
      let (cmd, buf) ← readField .uint8 "cmd" buf
      let (logName, _) ← readField logNameField "logname" buf
      return { byteOrder, magic, data, cmd, logName }

/-! ### The format -/

variable {m : LogMessage}

theorem length_marshal (m : LogMessage) : m.marshal.length = messageSize := by
  have hbyteOrder := FieldCodec.uint8.length_encode m.byteOrder
  have hmagic := FieldCodec.uint32.length_encode m.magic
  have hdata := FieldCodec.uint32.length_encode m.data
  have hcmd := FieldCodec.uint8.length_encode m.cmd
  have hlogName := logNameField.length_encode m.logName
  unfold marshal
  simp only [List.length_append, hbyteOrder, hmagic, hdata, hcmd, hlogName]
  rfl

theorem readField_encode_append {α : Type} (c : FieldCodec α) (name : String) (x : α)
    (rest : List UInt8) : readField c name (c.encode x ++ rest) = .ok (x, rest) := by
  unfold readField
  rw [FieldCodec.read_encode_append]

theorem eq_of_readField_eq_ok {α : Type} {c : FieldCodec α} {name : String}
    {buf rest : List UInt8} {x : α} (h : readField c name buf = .ok (x, rest)) :
    buf = c.encode x ++ rest := by
  unfold readField at h
  cases hread : c.read buf with
  | none =>
    rw [hread] at h
    cases h
  | some r =>
    rw [hread] at h
    cases h
    exact FieldCodec.eq_of_read_eq_some hread

/-- **What is marshalled is unmarshalled**, whatever stands after it. -/
theorem unmarshal_marshal_append (hmagic : m.magic = magicNum) (rest : List UInt8) :
    unmarshal (m.marshal ++ rest) = .ok m := by
  have hlength : ¬ (m.marshal ++ rest).length < messageSize := by
    rw [List.length_append, length_marshal]
    omega
  unfold unmarshal
  rw [if_neg hlength]
  have hne : ¬ m.magic ≠ magicNum := fun h => h hmagic
  simp only [marshal, List.append_assoc, readField_encode_append, bind, Except.bind, if_neg hne]
  rfl

/-- What is taken out of a computation that succeeds. -/
theorem exists_of_bind_eq_ok {α β : Type} {x : Except String α} {f : α → Except String β} {b : β}
    (h : (x >>= f) = .ok b) : ∃ a, x = .ok a ∧ f a = .ok b := by
  cases x with
  | error e => cases h
  | ok a => exact ⟨a, rfl, h⟩

/-- **What is unmarshalled was marshalled**, with the magic number. -/
theorem eq_of_unmarshal_eq_ok {bytes : List UInt8} (h : unmarshal bytes = .ok m) :
    messageSize ≤ bytes.length ∧ m.magic = magicNum ∧ ∃ rest, bytes = m.marshal ++ rest := by
  unfold unmarshal at h
  split_ifs at h with hlength
  obtain ⟨⟨byteOrder, buf₁⟩, hbyteOrder, h⟩ := exists_of_bind_eq_ok h
  obtain ⟨⟨magic, buf₂⟩, hmagic, h⟩ := exists_of_bind_eq_ok h
  dsimp only at h
  split_ifs at h with hnum
  obtain ⟨⟨data, buf₃⟩, hdata, h⟩ := exists_of_bind_eq_ok h
  obtain ⟨⟨cmd, buf₄⟩, hcmd, h⟩ := exists_of_bind_eq_ok h
  obtain ⟨⟨logName, rest⟩, hlogName, h⟩ := exists_of_bind_eq_ok h
  cases h
  refine ⟨not_lt.mp hlength, not_not.mp hnum, rest, ?_⟩
  unfold marshal
  rw [List.append_assoc, List.append_assoc, List.append_assoc, List.append_assoc,
    ← eq_of_readField_eq_ok hlogName, ← eq_of_readField_eq_ok hcmd, ← eq_of_readField_eq_ok hdata,
    ← eq_of_readField_eq_ok hmagic]
  exact eq_of_readField_eq_ok hbyteOrder

/-- The magic number that a byte string carries. -/
def carriedMagic (bytes : List UInt8) : UInt32 :=
  UInt32.ofNat (ofLittleEndian ((bytes.drop 1).take 4))

/-- The bytes of a message carry its magic number. -/
theorem carriedMagic_marshal_append (m : LogMessage) (rest : List UInt8) :
    carriedMagic (m.marshal ++ rest) = m.magic := by
  have hbyteOrder : (FieldCodec.uint8.encode m.byteOrder).length = 1 :=
    FieldCodec.uint8.length_encode m.byteOrder
  have hmagic : (FieldCodec.uint32.encode m.magic).length = 4 :=
    FieldCodec.uint32.length_encode m.magic
  unfold carriedMagic marshal
  simp only [List.append_assoc]
  rw [List.drop_left' hbyteOrder, List.take_left' hmagic]
  exact FieldCodec.uint32.decode_encode m.magic

/-! ### The name -/

/-- A byte of the field. -/
theorem getElem_logName_setLogName (m : LogMessage) (name : List UInt8) {i : ℕ}
    (hi : i < maxLogNameLen + 1) : (m.setLogName name).logName[i] =
      if i < (name.take maxLogNameLen).length then name.getD i 0 else 0 := by
  have hn : (if maxLogNameLen < name.length then maxLogNameLen else name.length) =
      (name.take maxLogNameLen).length := by
    rw [List.length_take]
    split_ifs <;> omega
  unfold setLogName
  dsimp only
  rw [Vector.getElem_ofFn, hn]
  split_ifs
  · rfl
  · exact Vector.getElem_replicate hi

/-- The bytes of the field: the name as far as there is room, and NULs. -/
theorem toList_logName_setLogName (m : LogMessage) (name : List UInt8) :
    (m.setLogName name).logName.toList = name.take maxLogNameLen ++
      List.replicate (maxLogNameLen + 1 - (name.take maxLogNameLen).length) 0 := by
  have hle : (name.take maxLogNameLen).length ≤ maxLogNameLen := List.length_take_le _ _
  apply List.ext_getElem
  · simp only [Vector.length_toList, List.length_append, List.length_replicate]
    omega
  · intro i hi _
    have hi' : i < maxLogNameLen + 1 := by
      rw [Vector.length_toList] at hi
      exact hi
    rw [Vector.getElem_toList, getElem_logName_setLogName m name hi']
    by_cases hlt : i < (name.take maxLogNameLen).length
    · have hname : i < name.length := by
        rw [List.length_take] at hlt
        omega
      rw [if_pos hlt, List.getElem_append_left hlt, List.getElem_take]
      simp [List.getD_eq_getElem?_getD, hname]
    · have hge : (name.take maxLogNameLen).length ≤ i := Nat.le_of_not_lt hlt
      rw [if_neg hlt, List.getElem_append_right hge, List.getElem_replicate]

/-- What `GetLogName` returns: the bytes before the first NUL. -/
theorem getLogName_eq (m : LogMessage) :
    m.getLogName = m.logName.toList.takeWhile (· ≠ 0) := by
  unfold getLogName
  induction m.logName.toList with
  | nil => rfl
  | cons b bytes ih =>
    rw [List.findIdx?_cons, List.takeWhile_cons]
    by_cases hb : b = 0
    · simp [hb]
    · cases hfind : bytes.findIdx? (· = 0) with
      | none =>
        rw [hfind] at ih
        simpa [hb] using ih
      | some i =>
        rw [hfind] at ih
        simpa [hb] using ih

/-- **The name of a new message** is the start of the given one, as far as there is room, up to its
first NUL. -/
theorem getLogName_newMessage (cmd : UInt8) (data : UInt32) (name : List UInt8) :
    (newMessage cmd data name).getLogName =
      (name.take (min name.length maxLogNameLen)).takeWhile (· ≠ 0) := by
  have htake : name.take (min name.length maxLogNameLen) = name.take maxLogNameLen := by
    rw [Nat.min_comm, ← List.take_take, List.take_length]
  rw [getLogName_eq, newMessage, toList_logName_setLogName, htake]
  have hpos : maxLogNameLen + 1 - (name.take maxLogNameLen).length ≠ 0 := by
    have hle : (name.take maxLogNameLen).length ≤ maxLogNameLen := List.length_take_le _ _
    omega
  obtain ⟨k, hk⟩ := Nat.exists_eq_succ_of_ne_zero hpos
  rw [hk, List.replicate_succ]
  generalize name.take maxLogNameLen = start
  induction start with
  | nil => rfl
  | cons b start ih =>
    rw [List.cons_append, List.takeWhile_cons, List.takeWhile_cons, ih]

/-- The field ends with a NUL. -/
theorem last_logName_newMessage (cmd : UInt8) (data : UInt32) (name : List UInt8) :
    (newMessage cmd data name).logName[maxLogNameLen] = 0 := by
  have hle : (name.take maxLogNameLen).length ≤ maxLogNameLen := List.length_take_le _ _
  exact (getElem_logName_setLogName _ name (Nat.lt_succ_self maxLogNameLen)).trans
    (if_neg (by omega))

/-! ### The codec -/

/-- **The codec.** Messages with the magic number survive the round trip; what is accepted is the
bytes of the message it gives, and nothing that is too short or carries another magic number is
accepted; a new message has the name it was given, cut as the field requires. -/
theorem codec :
    (∀ m : LogMessage, m.magic = magicNum → unmarshal m.marshal = .ok m) ∧
    (∀ (bytes : List UInt8) (m : LogMessage), unmarshal bytes = .ok m →
      m.marshal = bytes.take messageSize) ∧
    (∀ bytes : List UInt8, bytes.length < messageSize ∨ carriedMagic bytes ≠ magicNum →
      ∃ e, unmarshal bytes = .error e) ∧
    ∀ (cmd : UInt8) (data : UInt32) (name : List UInt8),
      (newMessage cmd data name).getLogName =
          (name.take (min name.length maxLogNameLen)).takeWhile (· ≠ 0) ∧
        (newMessage cmd data name).logName[maxLogNameLen] = 0 := by
  refine ⟨?_, ?_, ?_, ?_⟩
  · intro m hmagic
    have h := unmarshal_marshal_append hmagic []
    rw [List.append_nil] at h
    exact h
  · intro bytes m h
    obtain ⟨-, -, rest, rfl⟩ := eq_of_unmarshal_eq_ok h
    exact (List.take_left' (length_marshal m)).symm
  · intro bytes h
    cases hresult : unmarshal bytes with
    | error e => exact ⟨e, rfl⟩
    | ok m =>
      obtain ⟨hlength, hmagic, rest, hbytes⟩ := eq_of_unmarshal_eq_ok hresult
      rcases h with hshort | hother
      · exact absurd hlength (Nat.not_le_of_lt hshort)
      · rw [hbytes, carriedMagic_marshal_append] at hother
        exact absurd hmagic hother
  · intro cmd data name
    exact ⟨getLogName_newMessage cmd data name, last_logName_newMessage cmd data name⟩

end LogMessage

end UnisetPanel
