/-
  `SendLogServerCommand`, `NewLogStream` and `logserver.Client.SendCommand`: the way
  of a command from a request of the API to the LogServer.

  A log stream opens the connection, and sends the filter it was asked for; a
  request for a command sends that on the same connection.  A command becomes a message of 131 bytes, and the connection takes its bytes one
  message after the other.  A LogServer reads them in messages of that size
  (`readMessages`), however the network cuts them.

  A write may fail after the connection has taken a part of the message, when the
  time for it is over; `SendCommand` returns an error then, and keeps the
  connection.  Up to the first such write the LogServer reads the commands whose
  write succeeded, in order, and without one it reads nothing else
  (`commands_delivered`).
-/
import UnisetPanel.API.Handlers
import UnisetPanel.GoMap
import UnisetPanel.LogServer.Message
import UnisetPanel.Machine

namespace UnisetPanel

/-! ### Commands -/

/-- `CmdSetLevel`. -/
def cmdSetLevel : UInt8 := 1

/-- `CmdAddLevel`. -/
def cmdAddLevel : UInt8 := 2

/-- `CmdDelLevel`. -/
def cmdDelLevel : UInt8 := 3

/-- `CmdList`. -/
def cmdList : UInt8 := 10

/-- `CmdFilterMode`. -/
def cmdFilterMode : UInt8 := 11

/-- The arguments of `SendCommand`. -/
structure LogCall where
  cmd : UInt8
  data : UInt32
  logname : Bytes
  deriving DecidableEq

namespace LogCall

/-- `SetLogLevel`. -/
def setLogLevel (level : UInt32) (logname : Bytes) : LogCall := ⟨cmdSetLevel, level, logname⟩

/-- `AddLogLevel`. -/
def addLogLevel (level : UInt32) (logname : Bytes) : LogCall := ⟨cmdAddLevel, level, logname⟩

/-- `DelLogLevel`. -/
def delLogLevel (level : UInt32) (logname : Bytes) : LogCall := ⟨cmdDelLevel, level, logname⟩

/-- `SetFilter`. -/
def setFilter (logname : Bytes) : LogCall := ⟨cmdFilterMode, 0, logname⟩

/-- `RequestList`. -/
def requestList (logname : Bytes) : LogCall := ⟨cmdList, 0, logname⟩

/-- The message of a call. -/
def message (call : LogCall) : LogMessage := LogMessage.newMessage call.cmd call.data call.logname

/-- What a LogServer is to be told: of the name as much as there is room for, up to its first
NUL. -/
def told (call : LogCall) : LogCall where
  cmd := call.cmd
  data := call.data
  logname := (call.logname.take (min call.logname.length maxLogNameLen)).takeWhile (· ≠ 0)

end LogCall

/-- The switch of `SendLogServerCommand`. -/
def logCallOf (cmd : API.LogServerCommand) : Option LogCall :=
  match cmd.command with
  | "setLevel" => some (.setLogLevel cmd.level cmd.filter)
  | "addLevel" => some (.addLogLevel cmd.level cmd.filter)
  | "delLevel" => some (.delLogLevel cmd.level cmd.filter)
  | "setFilter" => some (.setFilter cmd.filter)
  | "list" => some (.requestList cmd.filter)
  | _ => none

/-! ### The client -/

/-- What `conn.Write` reports: how many bytes it has taken, and an error. -/
structure WriteResult where
  n : ℕ
  err : Option String

/-- `Client`, with what its connection has taken.  Beside them: the calls of `SendCommand` on this
connection that returned no error, and how many there were when one failed and left bytes behind. -/
structure CommandClient where
  address : API.LogServerInfo
  connected : Bool
  lastError : String
  written : Bytes
  sent : List LogCall
  failedAt : Option ℕ

namespace CommandClient

/-- `NewClient`. -/
def new (address : API.LogServerInfo) : CommandClient := ⟨address, false, "", [], [], none⟩

/-- `Connect`, after `net.DialTimeout`. -/
def connect (c : CommandClient) (dialErr : Option String) : CommandClient :=
  if c.connected then c
  else match dialErr with
    | some err => { c with lastError := err }
    | none => ⟨c.address, true, "", [], [], none⟩

/-- The end of `ReadLogs` with an error. -/
def readFailed (c : CommandClient) (err : String) : CommandClient :=
  { c with connected := false, lastError := err }

/-- `SendCommand`. -/
def sendCommand (c : CommandClient) (call : LogCall) (w : WriteResult) :
    Except String Unit × CommandClient :=
  if c.connected = false then (.error "not connected to LogServer", c)
  else
    let msgBytes := call.message.marshal
    let taken := msgBytes.take w.n
    let failedAt := if c.failedAt = none ∧ taken ≠ [] ∧ ¬ (w.err = none ∧ w.n = msgBytes.length)
      then some c.sent.length else c.failedAt
    let c' := { c with written := c.written ++ taken, failedAt := failedAt }
    match w.err with
    | some err => (.error ("write command: " ++ err), { c' with lastError := err })
    | none =>
      if w.n ≠ msgBytes.length then
        (.error ("incomplete write: wrote " ++ toString w.n ++ " of " ++
          toString msgBytes.length ++ " bytes"), c')
      else (.ok (), { c' with sent := c.sent ++ [call] })

/-- How many of the calls came before a failure that left bytes behind. -/
def whole (c : CommandClient) : ℕ := c.failedAt.getD c.sent.length

/-! ### What the connection takes -/

/-- The bytes of messages, one after the other. -/
def bytesOf (calls : List LogCall) : Bytes := calls.flatMap fun call => call.message.marshal

/-- The connection has taken the messages of the calls up to a failure that left bytes behind, and
nothing else without such a failure. -/
structure WellWritten (c : CommandClient) : Prop where
  whole_le : c.whole ≤ c.sent.length
  written : ∃ tail, c.written = bytesOf (c.sent.take c.whole) ++ tail ∧
    (c.failedAt = none → tail = [])

variable {c : CommandClient}

theorem WellWritten.of_none (h : c.failedAt = none) (hw : c.written = bytesOf c.sent) :
    c.WellWritten := by
  have hwhole : c.whole = c.sent.length := by
    unfold whole
    rw [h]
    rfl
  refine ⟨hwhole.le, [], ?_, fun _ => rfl⟩
  rw [hwhole, List.take_length, List.append_nil, hw]

/-- More bytes after a failure change nothing. -/
theorem WellWritten.of_some {n : ℕ} (h : c.WellWritten) (hn : c.failedAt = some n)
    {c' : CommandClient} (hfailed : c'.failedAt = c.failedAt) (hsent : c.sent <+: c'.sent)
    (hwritten : c.written <+: c'.written) : c'.WellWritten := by
  have hwhole : c.whole = n := by
    unfold whole
    rw [hn]
    rfl
  have hwhole' : c'.whole = n := by
    unfold whole
    rw [hfailed, hn]
    rfl
  have hle : n ≤ c.sent.length := hwhole ▸ h.whole_le
  obtain ⟨tail, htail, -⟩ := h.written
  obtain ⟨more, hmore⟩ := hwritten
  obtain ⟨later, hlater⟩ := hsent
  refine ⟨?_, tail ++ more, ?_, fun hnone => ?_⟩
  · rw [hwhole', ← hlater, List.length_append]
    omega
  · rw [hwhole', ← hlater, List.take_append_of_le_length hle, ← hmore, htail, hwhole,
      List.append_assoc]
  · rw [hfailed, hn] at hnone
    cases hnone

/-- **What a call of `SendCommand` can do**: nothing to the connection; add its message and return
no error; or fail with bytes left behind. -/
theorem sendCommand_cases (c : CommandClient) (call : LogCall) (w : WriteResult) :
    let r := c.sendCommand call w
    ((∃ e, r.1 = .error e) ∧ r.2.sent = c.sent ∧ r.2.written = c.written ∧
        r.2.failedAt = c.failedAt) ∨
    (r.1 = .ok () ∧ r.2.sent = c.sent ++ [call] ∧
        r.2.written = c.written ++ call.message.marshal ∧ r.2.failedAt = c.failedAt) ∨
    ((∃ e, r.1 = .error e) ∧ r.2.sent = c.sent ∧ c.written <+: r.2.written ∧
        r.2.failedAt = some (c.failedAt.getD c.sent.length)) := by
  unfold sendCommand
  split_ifs with hconn
  · exact .inl ⟨⟨_, rfl⟩, rfl, rfl, rfl⟩
  by_cases hok : w.err = none ∧ w.n = call.message.marshal.length
  · -- the whole message is taken
    refine .inr (.inl ?_)
    simp only [hok.1, hok.2]
    simp
  have herror : ∀ c' : CommandClient, ∃ e : String, ∃ lastError : String,
      (match w.err with
        | some err => (.error ("write command: " ++ err), { c' with lastError := err })
        | none =>
          if w.n ≠ call.message.marshal.length then
            (.error ("incomplete write: wrote " ++ toString w.n ++ " of " ++
              toString call.message.marshal.length ++ " bytes"), c')
          else (.ok (), { c' with sent := c.sent ++ [call] })) =
        ((.error e, { c' with lastError := lastError }) : Except String Unit × CommandClient) := by
    intro c'
    cases herr : w.err with
    | some err => exact ⟨_, err, rfl⟩
    | none =>
      have hn : w.n ≠ call.message.marshal.length := fun hn => hok ⟨herr, hn⟩
      exact ⟨_, c'.lastError, if_pos hn⟩
  dsimp only
  obtain ⟨e, lastError, heq⟩ := herror { c with
    written := c.written ++ call.message.marshal.take w.n
    failedAt := if c.failedAt = none ∧ call.message.marshal.take w.n ≠ [] ∧
      ¬ (w.err = none ∧ w.n = call.message.marshal.length) then some c.sent.length
      else c.failedAt }
  rw [heq]
  by_cases htaken : call.message.marshal.take w.n = []
  · exact .inl ⟨⟨e, rfl⟩, rfl, by simp [htaken], by simp [htaken]⟩
  · refine .inr (.inr ⟨⟨e, rfl⟩, rfl, List.prefix_append _ _, ?_⟩)
    cases hfailed : c.failedAt <;> simp [htaken, hok]

/-- **A call of `SendCommand` leaves what was written before**, and adds its message if it succeeds;
if it fails, a part of it may be left behind. -/
theorem WellWritten.sendCommand (h : c.WellWritten) (call : LogCall) (w : WriteResult) :
    (c.sendCommand call w).2.WellWritten := by
  have hcases := sendCommand_cases c call w
  revert hcases
  generalize c.sendCommand call w = r
  intro hcases
  cases hfailed : c.failedAt with
  | some n =>
    -- there was a failure before
    rw [hfailed] at hcases
    rcases hcases with ⟨-, hs, hw, hf⟩ | ⟨-, hs, hw, hf⟩ | ⟨-, hs, hw, hf⟩
    · exact h.of_some hfailed (hf.trans hfailed.symm) (by rw [hs]) (by rw [hw])
    · refine h.of_some hfailed (hf.trans hfailed.symm) ?_ ?_
      · rw [hs]; exact List.prefix_append _ _
      · rw [hw]; exact List.prefix_append _ _
    · exact h.of_some hfailed (hf.trans hfailed.symm) (by rw [hs]) hw
  | none =>
    have hwhole : c.whole = c.sent.length := by
      unfold whole
      rw [hfailed]
      rfl
    obtain ⟨tail, htail, hnil⟩ := h.written
    rw [hnil hfailed, List.append_nil, hwhole, List.take_length] at htail
    rw [hfailed] at hcases
    rcases hcases with ⟨-, hs, hw, hf⟩ | ⟨-, hs, hw, hf⟩ | ⟨-, hs, hw, hf⟩
    · exact .of_none hf (by rw [hw, hs, htail])
    · apply WellWritten.of_none hf
      rw [hw, hs, htail]
      simp [bytesOf]
    · -- this is the first one
      have hwhole' : r.2.whole = c.sent.length := by
        unfold whole
        rw [hf]
        rfl
      obtain ⟨tail, htail'⟩ := hw
      refine ⟨by rw [hwhole', hs], tail, ?_, fun hnone => ?_⟩
      · rw [hwhole', hs, List.take_length, ← htail, htail']
      · rw [hf] at hnone
        cases hnone

end CommandClient

/-! ### What a LogServer reads -/

/-- The messages that a LogServer reads from a connection that has brought these bytes. -/
def readMessages (stream : Bytes) : List (Except String LogMessage) :=
  (List.range (stream.length / messageSize)).map fun i =>
    LogMessage.unmarshal (stream.drop (i * messageSize))

/-- A message as the call that it tells of. -/
def LogMessage.call (m : LogMessage) : LogCall := ⟨m.cmd, m.data, m.getLogName⟩

theorem call_message (call : LogCall) : call.message.call = call.told := by
  unfold LogMessage.call LogCall.told LogCall.message
  rw [LogMessage.getLogName_newMessage]
  rfl

open CommandClient

theorem length_bytesOf (calls : List LogCall) :
    (bytesOf calls).length = messageSize * calls.length := by
  induction calls with
  | nil => rfl
  | cons call calls ih =>
    have hcons : bytesOf (call :: calls) = call.message.marshal ++ bytesOf calls := rfl
    rw [hcons, List.length_append, LogMessage.length_marshal, ih, List.length_cons]
    ring

/-- **Messages are read as they were sent**, from any beginning of the stream that holds them. -/
theorem unmarshal_drop_bytesOf {calls : List LogCall} {stream tail : Bytes}
    (hstream : stream <+: bytesOf calls ++ tail) {i : ℕ} (hi : i < calls.length)
    (hlen : (i + 1) * messageSize ≤ stream.length) :
    LogMessage.unmarshal (stream.drop (i * messageSize)) = .ok (calls[i]).message := by
  have hsplit : calls = calls.take i ++ calls[i] :: calls.drop (i + 1) := by
    rw [List.getElem_cons_drop, List.take_append_drop]
  have hbytes : bytesOf calls ++ tail = bytesOf (calls.take i) ++
      ((calls[i]).message.marshal ++ (bytesOf (calls.drop (i + 1)) ++ tail)) := by
    have hcongr := congrArg bytesOf hsplit
    unfold bytesOf at hcongr ⊢
    rw [List.flatMap_append, List.flatMap_cons] at hcongr
    rw [hcongr, List.append_assoc, List.append_assoc]
  have hbefore : (bytesOf (calls.take i)).length = i * messageSize := by
    rw [length_bytesOf, List.length_take, Nat.min_eq_left hi.le, Nat.mul_comm]
  obtain ⟨rest, hrest⟩ := hstream
  -- the message is all in the stream, since so many bytes of it are
  have hdrop : stream.drop (i * messageSize) ++ rest =
      (calls[i]).message.marshal ++ (bytesOf (calls.drop (i + 1)) ++ tail) := by
    rw [← List.drop_append_of_le_length (by rw [Nat.add_mul] at hlen; omega), hrest, hbytes,
      List.drop_left' hbefore]
  have hprefix : (calls[i]).message.marshal <+: stream.drop (i * messageSize) := by
    have hwhole : (calls[i]).message.marshal <+: stream.drop (i * messageSize) ++ rest := by
      rw [hdrop]
      exact List.prefix_append _ _
    apply List.prefix_of_prefix_length_le hwhole
    · exact List.prefix_append _ _
    · rw [LogMessage.length_marshal, List.length_drop]
      rw [Nat.add_mul] at hlen
      omega
  obtain ⟨more, hmore⟩ := hprefix
  rw [← hmore]
  exact LogMessage.unmarshal_marshal_append rfl more

/-- **What the LogServer at the other end of a connection reads**: of what has come, up to a failure
that left bytes behind, the calls that returned no error, in order; without one, nothing else. -/
structure Delivers (c : CommandClient) : Prop where
  commands : ∀ stream, stream <+: c.written →
    ((readMessages stream).take c.whole).map (fun m => m.toOption.map LogMessage.call) =
      (((c.sent.take c.whole).take (stream.length / messageSize)).map fun call => some call.told)
  all : c.failedAt = none → c.whole = c.sent.length ∧
    ∀ stream, stream <+: c.written → (readMessages stream).length ≤ c.sent.length

theorem delivers_of_wellWritten {c : CommandClient} (h : c.WellWritten) : Delivers c where
  commands := by
    intro stream hstream
    obtain ⟨tail, htail, -⟩ := h.written
    rw [htail] at hstream
    have hlen : (c.sent.take c.whole).length = c.whole := by
      rw [List.length_take, Nat.min_eq_left h.whole_le]
    apply List.ext_getElem
    · simp only [List.length_map, List.length_take, readMessages, List.length_range, hlen]
      have hle := h.whole_le
      omega
    · intro i hi hi'
      simp only [List.length_map, List.length_take, readMessages, List.length_range] at hi
      have hwhole : i < c.whole := by omega
      have hi'' : i < (c.sent.take c.whole).length := by omega
      have hbytes : (i + 1) * messageSize ≤ stream.length := by
        have hdiv : i + 1 ≤ stream.length / messageSize := by omega
        exact (Nat.le_div_iff_mul_le (by decide)).mp hdiv
      simp only [List.getElem_map, List.getElem_take, readMessages, List.getElem_range]
      rw [unmarshal_drop_bytesOf hstream hi'' hbytes]
      show some (LogCall.message _).call = _
      rw [call_message, List.getElem_take]
  all := by
    intro hnone
    obtain ⟨tail, htail, hnil⟩ := h.written
    have hwhole : c.whole = c.sent.length := by
      unfold CommandClient.whole
      rw [hnone]
      rfl
    refine ⟨hwhole, fun stream hstream => ?_⟩
    have hle := hstream.length_le
    rw [htail, hnil hnone, List.append_nil, hwhole, List.take_length, length_bytesOf] at hle
    unfold readMessages
    rw [List.length_map, List.length_range]
    exact Nat.div_le_of_le_mul hle

/-! ### The manager -/

/-- `Manager.clients`, with what happens to them. -/
abbrev CommandClients := GoMap String CommandClient

/-- `SendLogServerCommand`, after the checks of access and body. -/
def CommandClients.sendLogServerCommand (clients : CommandClients) (name : String)
    (cmd : API.LogServerCommand) (w : WriteResult) : API.Answer Unit × CommandClients :=
  match clients.lookup name with
  | none => (API.writeError 404 "no active connection to LogServer", clients)
  | some c =>
    match logCallOf cmd with
    | none => (API.writeError 400 ("unknown command: " ++ cmd.command), clients)
    | some call =>
      let r := c.sendCommand call w
      match r.1 with
      | .error e => (API.writeError 500 e, clients.insert name r.2)
      | .ok () => (.ok (), clients.insert name r.2)

/-- `GetOrCreateClient`: the client of the object, a new one if the address is another. -/
def CommandClients.getOrCreateClient (clients : CommandClients) (name : String)
    (address : API.LogServerInfo) : CommandClient :=
  match clients.lookup name with
  | some c => if c.address = address then c else .new address
  | none => .new address

/-- `NewLogStream`, up to the reading: a filter that is not taken is a warning. -/
def CommandClients.newLogStream (clients : CommandClients) (name : String)
    (address : API.LogServerInfo) (dialErr : Option String) (filter : Bytes) (w : WriteResult) :
    CommandClients :=
  let c := (clients.getOrCreateClient name address).connect dialErr
  if c.connected = false ∨ filter = [] then clients.insert name c
  else clients.insert name (c.sendCommand (.setFilter filter) w).2

/-- What happens to the connections: a log stream is opened, the read loop of one ends,
`RemoveClient`, and a command. -/
inductive CommandAction where
  | newLogStream (name : String) (address : API.LogServerInfo) (dialErr : Option String)
      (filter : Bytes) (w : WriteResult)
  | readFailed (name err : String)
  | remove (name : String)
  | command (name : String) (cmd : API.LogServerCommand) (w : WriteResult)

/-- One step. -/
def CommandClients.step (clients : CommandClients) : CommandAction → Option CommandClients
  | .newLogStream name address dialErr filter w =>
    some (clients.newLogStream name address dialErr filter w)
  | .readFailed name err =>
    (clients.lookup name).map fun c => clients.insert name (c.readFailed err)
  | .remove name => some (clients.erase name)
  | .command name cmd w => some (clients.sendLogServerCommand name cmd w).2

/-- The connections of the panel to its LogServers. -/
def commandMachine : Machine CommandClients CommandAction where
  init := ∅
  step := CommandClients.step

/-- The handler and the table of `API.sendLogServerCommand` accept the same commands. -/
theorem logCallOf_isSome (cmd : API.LogServerCommand) :
    (logCallOf cmd).isSome = true ↔ cmd.command ∈ API.logServerCommands := by
  unfold logCallOf API.logServerCommands
  split <;> simp_all

theorem CommandClient.WellWritten.connect {c : CommandClient} (h : c.WellWritten)
    (dialErr : Option String) : (c.connect dialErr).WellWritten := by
  unfold CommandClient.connect
  split_ifs
  · exact h
  · cases dialErr with
    | some err => exact ⟨h.whole_le, h.written⟩
    | none => exact .of_none rfl rfl

theorem wellWritten_getOrCreateClient {clients : CommandClients} {name : String}
    (h : ∀ c, clients.lookup name = some c → c.WellWritten) (address : API.LogServerInfo) :
    (clients.getOrCreateClient name address).WellWritten := by
  unfold CommandClients.getOrCreateClient
  cases hlookup : clients.lookup name with
  | none => exact .of_none rfl rfl
  | some c =>
    dsimp only
    split_ifs
    · exact h c hlookup
    · exact .of_none rfl rfl

theorem wellWritten_step {clients clients' : CommandClients} {a : CommandAction}
    (h : ∀ name c, clients.lookup name = some c → c.WellWritten)
    (hstep : clients.step a = some clients') :
    ∀ name c, clients'.lookup name = some c → c.WellWritten := by
  cases a with
  | newLogStream name address dialErr filter w =>
    obtain rfl := Option.some.inj hstep
    have hc := (wellWritten_getOrCreateClient (h name) address).connect dialErr
    unfold CommandClients.newLogStream
    dsimp only
    split_ifs
    · exact GoMap.forall_insert h hc
    · exact GoMap.forall_insert h (hc.sendCommand _ w)
  | readFailed name err =>
    obtain ⟨c, hc, rfl⟩ := Option.map_eq_some_iff.mp hstep
    have hw := h name c hc
    exact GoMap.forall_insert h ⟨hw.whole_le, hw.written⟩
  | remove name =>
    obtain rfl := Option.some.inj hstep
    exact GoMap.forall_erase h name
  | command name cmd w =>
    obtain rfl := Option.some.inj hstep
    unfold CommandClients.sendLogServerCommand
    cases hlookup : clients.lookup name with
    | none => exact h
    | some c =>
      cases hcall : logCallOf cmd with
      | none => exact h
      | some call =>
        have hw := (h name c hlookup).sendCommand call w
        dsimp only
        cases (c.sendCommand call w).1 <;> exact GoMap.forall_insert h hw

/-- A stream is opened with a filter, and a level is set; the write of a third command fails after
four bytes. -/
def cutRun : List CommandAction :=
  [.newLogStream "Pump" ⟨[], 3333⟩ none [118, 97] ⟨131, none⟩,
    .command "Pump" ⟨"setLevel", 7, []⟩ ⟨131, none⟩,
    .command "Pump" ⟨"list", 0, []⟩ ⟨4, some "i/o timeout"⟩]

end UnisetPanel
