/-
  `logserver.Manager`: the connections to the LogServers and the streams that
  read from them.

  The manager has one client, with one connection, for each object name
  (`getOrCreateClient`).  Every stream of the object reads from that
  connection, in a loop of its own and with a buffer of its own, and closing a
  stream closes the client (`removeClient`).

  `logMachine` has the requests of the API (opening and closing a stream, a
  command), the LogServers that send lines, and the read loops, which take
  what the connection has in pieces of any size, one step at a time and in any
  order.  A LogServer is found by `address`.  What a stream was sent and who
  ended it are remembered beside the source's own fields.
-/
import UnisetPanel.Calls
import UnisetPanel.GoMap
import UnisetPanel.LogServer.ReadLogs

namespace UnisetPanel

/-- What a request of the API names. -/
structure LogRequest where
  serverID : String
  objectName : String
  deriving DecidableEq

/-- Host and port. -/
structure LogAddress where
  host : String
  port : ℕ
  deriving DecidableEq

/-- `Client`, with what its connection has to read. -/
structure LogClient where
  address : LogAddress
  connected : Bool
  unread : List UInt8

/-- `LogStream` with its read loop. -/
structure LogStream where
  request : LogRequest
  client : ℕ
  /-- the buffer of the loop's `bufio.Reader` -/
  buffered : List UInt8
  /-- the channel `Lines` -/
  capacity : ℕ
  queue : List (List UInt8)
  /-- what the callback was given, and whether the channel had room for it -/
  given : List (List UInt8 × Bool)
  /-- the lines that were sent while the stream was open -/
  sent : List (List UInt8)
  /-- `Close` was called -/
  closed : Bool
  /-- the request that ended the loop -/
  endedBy : Option LogRequest

/-- `Manager`; a client is named by its position in `table`. -/
structure LogManager where
  clients : GoMap String ℕ
  table : List LogClient
  streams : List LogStream
  /-- who has written to which address -/
  writes : List (LogRequest × LogAddress)

namespace LogStream

/-- The stream of `NewLogStream`. -/
def new (request : LogRequest) (client : ℕ) (bufferSize : ℤ) : LogStream where
  request := request
  client := client
  buffered := []
  capacity := if bufferSize ≤ 0 then 5000 else bufferSize.toNat
  queue := []
  given := []
  sent := []
  closed := false
  endedBy := none

/-- The loop ends, unless it has already. -/
def endBy (st : LogStream) (r : LogRequest) : LogStream :=
  { st with endedBy := st.endedBy.or (some r) }

/-- The callback: the line goes to the channel if that has room. -/
def callback (st : LogStream) (line : List UInt8) : LogStream :=
  if st.queue.length < st.capacity then
    { st with queue := st.queue ++ [line], given := st.given ++ [(line, true)] }
  else { st with given := st.given ++ [(line, false)] }

end LogStream

namespace LogManager

/-- `NewManager`. -/
def new : LogManager := ⟨∅, [], [], []⟩

/-- `Client.Close`: the connection is closed, and all loops that read from it end. -/
def closeClient (m : LogManager) (c : ℕ) (r : LogRequest) : LogManager :=
  { m with
    table := m.table.modify c fun client => { client with connected := false, unread := [] }
    streams := m.streams.map fun st => if st.client = c then st.endBy r else st }

/-- A new client. -/
def createClient (m : LogManager) (objectName : String) (address : LogAddress) : LogManager × ℕ :=
  ({ m with
    clients := m.clients.insert objectName m.table.length
    table := m.table ++ [⟨address, false, []⟩] }, m.table.length)

/-- `GetOrCreateClient`, for the request `r`. -/
def getOrCreateClient (m : LogManager) (r : LogRequest) (address : LogAddress) : LogManager × ℕ :=
  match m.clients.lookup r.objectName with
  | some c =>
    if (m.table[c]?.map LogClient.address) = some address then (m, c)
    else (m.closeClient c r).createClient r.objectName address
  | none => m.createClient r.objectName address

/-- `Connect`, if it is not connected; `dialed` is whether the dial succeeds. -/
def connect (m : LogManager) (c : ℕ) (dialed : Bool) : Option LogManager :=
  m.table[c]?.bind fun client =>
    if client.connected then some m
    else if dialed then
      some { m with table := m.table.set c { client with connected := true, unread := [] } }
    else none

/-- `SendCommand` to a client; `none` if it is not connected. -/
def sendCommand (m : LogManager) (c : ℕ) (r : LogRequest) : Option LogManager :=
  m.table[c]?.bind fun client =>
    if client.connected then some { m with writes := m.writes ++ [(r, client.address)] } else none

/-- `NewLogStream`, by `HandleLogServerStream`. -/
def newLogStream (m : LogManager) (r : LogRequest) (address : LogAddress) (filter : String)
    (bufferSize : ℤ) (dialed : Bool) : LogManager :=
  let (m, c) := m.getOrCreateClient r address
  match m.connect c dialed with
  | none => m
  | some m =>
    -- an error of the filter is only logged
    let m := if filter = "" then m else (m.sendCommand c r).getD m
    { m with streams := m.streams ++ [.new r c bufferSize] }

/-- `RemoveClient`, for the request `r`. -/
def removeClient (m : LogManager) (r : LogRequest) : LogManager :=
  match m.clients.lookup r.objectName with
  | some c => { m.closeClient c r with clients := m.clients.erase r.objectName }
  | none => m

/-- `LogStream.Close`. -/
def closeStream (m : LogManager) (i : ℕ) (st : LogStream) : LogManager :=
  { m with streams := m.streams.set i { st.endBy st.request with closed := true } }.removeClient
    st.request

/-- The commands that `SendLogServerCommand` knows. -/
def knownCommands : List String := ["setLevel", "addLevel", "delLevel", "setFilter", "list"]

/-- `SendLogServerCommand`; an error changes nothing. -/
def command (m : LogManager) (r : LogRequest) (name : String) : LogManager :=
  match m.clients.lookup r.objectName with
  | none => m
  | some c => if name ∈ knownCommands then (m.sendCommand c r).getD m else m

variable (address : LogRequest → LogAddress)

/-- The LogServer at `a` sends a line on all its connections. -/
def sendLine (m : LogManager) (a : LogAddress) (text : List UInt8) : LogManager :=
  { m with
    table := m.table.map fun client =>
      if client.connected ∧ client.address = a then
        { client with unread := client.unread ++ (text ++ [newline]) }
      else client
    streams := m.streams.map fun st =>
      if st.closed = false ∧ address st.request = a then
        { st with sent := st.sent ++ [text ++ [newline]] }
      else st }

end LogManager

/-- The steps of the manager, of the LogServers and of the read loops. -/
inductive LogAction where
  | openStream (r : LogRequest) (filter : String) (bufferSize : ℤ) (dialed : Bool)
  | closeStream (i : ℕ)
  | command (r : LogRequest) (name : String)
  /-- a LogServer sends a line -/
  | send (a : LogAddress) (text : List UInt8)
  /-- the loop of a stream takes `n` bytes off its connection -/
  | read (i n : ℕ)
  /-- it gives a line to the callback -/
  | give (i : ℕ)
  /-- it has waited for a line in vain -/
  | timeout (i : ℕ)
  /-- the handler takes a line out of the channel -/
  | take (i : ℕ)

namespace LogManager

variable (address : LogRequest → LogAddress)

/-- One step of the loop of the `i`-th stream, as long as that has not ended. -/
def loopStep (m : LogManager) (i : ℕ) (f : LogStream → LogClient → Option (LogStream × LogClient)) :
    Option LogManager :=
  m.streams[i]?.bind fun st =>
    if st.endedBy = none then
      m.table[st.client]?.bind fun client => (f st client).map fun p =>
        { m with streams := m.streams.set i p.1, table := m.table.set st.client p.2 }
    else none

/-- One step. -/
def step (m : LogManager) : LogAction → Option LogManager
  | .openStream r filter bufferSize dialed =>
    some (m.newLogStream r (address r) filter bufferSize dialed)
  | .closeStream i => m.streams[i]?.bind fun st =>
    if st.closed then none else some (m.closeStream i st)
  | .command r name => some (m.command r name)
  | .send a text => if newline ∈ text then none else some (m.sendLine address a text)
  | .read i n => m.loopStep i fun st client =>
    if (cutLine st.buffered).isNone ∧ 0 < n ∧ n ≤ client.unread.length then
      some ({ st with buffered := st.buffered ++ client.unread.take n },
        { client with unread := client.unread.drop n })
    else none
  | .give i => m.loopStep i fun st client =>
    (cutLine st.buffered).map fun (line, after) =>
      ({ st with buffered := after }.callback line, client)
  | .timeout i => m.loopStep i fun st client =>
    if (cutLine st.buffered).isNone ∧ client.unread = [] then
      some ({ st with buffered := [] }, client)
    else none
  | .take i => m.streams[i]?.map fun st =>
    { m with streams := m.streams.set i { st with queue := st.queue.drop 1 } }

end LogManager

/-! ### What the methods do -/

namespace LogManager

variable {m m' : LogManager} {r : LogRequest} {a : LogAddress} {c : ℕ}

/-- The three ways of `GetOrCreateClient`. -/
theorem getOrCreateClient_cases (m : LogManager) (r : LogRequest) (a : LogAddress) :
    (∃ c client, m.clients.lookup r.objectName = some c ∧ m.table[c]? = some client ∧
        client.address = a ∧ m.getOrCreateClient r a = (m, c)) ∨
      (∃ c, m.clients.lookup r.objectName = some c ∧
        (m.table[c]?.map LogClient.address) ≠ some a ∧
        m.getOrCreateClient r a = (m.closeClient c r).createClient r.objectName a) ∨
      (m.clients.lookup r.objectName = none ∧
        m.getOrCreateClient r a = m.createClient r.objectName a) := by
  unfold getOrCreateClient
  cases hlookup : m.clients.lookup r.objectName with
  | none => exact Or.inr (Or.inr ⟨rfl, rfl⟩)
  | some c =>
    by_cases haddress : (m.table[c]?.map LogClient.address) = some a
    · obtain ⟨client, hclient, ha⟩ := Option.map_eq_some_iff.mp haddress
      exact Or.inl ⟨c, client, rfl, hclient, ha, if_pos haddress⟩
    · exact Or.inr (Or.inl ⟨c, rfl, haddress, if_neg haddress⟩)

/-- A new client is the last of the table, and not connected yet. -/
theorem getElem?_table_createClient (m : LogManager) (objectName : String) (a : LogAddress) :
    (m.createClient objectName a).1.table[(m.createClient objectName a).2]? =
      some ⟨a, false, []⟩ :=
  List.getElem?_concat_length

/-- **The client that a request gets** is of the address it asked for. -/
theorem exists_client_getOrCreateClient (m : LogManager) (r : LogRequest) (a : LogAddress) :
    ∃ client, (m.getOrCreateClient r a).1.table[(m.getOrCreateClient r a).2]? = some client ∧
      client.address = a := by
  rcases m.getOrCreateClient_cases r a with
    ⟨c, client, -, hclient, ha, heq⟩ | ⟨c, -, -, heq⟩ | ⟨-, heq⟩
  · rw [heq]
    exact ⟨client, hclient, ha⟩
  · rw [heq]
    exact ⟨_, getElem?_table_createClient _ _ _, rfl⟩
  · rw [heq]
    exact ⟨_, getElem?_table_createClient _ _ _, rfl⟩

/-- `Connect` changes at most the client itself, and leaves its address. -/
theorem connect_eq_some {dialed : Bool} (h : m.connect c dialed = some m') :
    ∃ client, m.table[c]? = some client ∧
      ((client.connected = true ∧ m' = m) ∨ (client.connected = false ∧
        m' = { m with
          table := m.table.set c { client with connected := true, unread := [] } })) := by
  obtain ⟨client, hclient, h⟩ := Option.bind_eq_some_iff.mp h
  refine ⟨client, hclient, ?_⟩
  split_ifs at h with hconnected
  · exact Or.inl ⟨hconnected, (Option.some.inj h).symm⟩
  · exact Or.inr ⟨Bool.eq_false_iff.mpr hconnected, (Option.some.inj h).symm⟩

theorem sendCommand_eq_some (h : m.sendCommand c r = some m') :
    ∃ client, m.table[c]? = some client ∧ client.connected = true ∧
      m' = { m with writes := m.writes ++ [(r, client.address)] } := by
  obtain ⟨client, hclient, h⟩ := Option.bind_eq_some_iff.mp h
  split_ifs at h with hconnected
  exact ⟨client, hclient, hconnected, (Option.some.inj h).symm⟩

/-- `NewLogStream`: the dial fails, or there is one stream more. -/
theorem newLogStream_cases (m : LogManager) (r : LogRequest) (a : LogAddress) (filter : String)
    (bufferSize : ℤ) (dialed : Bool) :
    m.newLogStream r a filter bufferSize dialed = (m.getOrCreateClient r a).1 ∨
      ∃ m₁ ws, (m.getOrCreateClient r a).1.connect (m.getOrCreateClient r a).2 dialed = some m₁ ∧
        (∀ w ∈ ws, w = (r, a)) ∧ m.newLogStream r a filter bufferSize dialed =
          { m₁ with
            writes := m₁.writes ++ ws
            streams := m₁.streams ++ [.new r (m.getOrCreateClient r a).2 bufferSize] } := by
  unfold newLogStream
  dsimp only
  cases hconnect : (m.getOrCreateClient r a).1.connect (m.getOrCreateClient r a).2 dialed with
  | none => exact Or.inl rfl
  | some m₁ =>
    right
    obtain ⟨client, hclient, ha⟩ := m.exists_client_getOrCreateClient r a
    have haddress : ∀ client', m₁.table[(m.getOrCreateClient r a).2]? = some client' →
        client'.address = a := by
      intro client' hclient'
      obtain ⟨client₀, hclient₀, ⟨-, rfl⟩ | ⟨-, rfl⟩⟩ := connect_eq_some hconnect
      · rw [hclient] at hclient'
        exact Option.some.inj hclient' ▸ ha
      · obtain rfl := Option.some.inj (hclient.symm.trans hclient₀)
        rw [List.getElem?_set_self (List.getElem?_eq_some_iff.mp hclient).1] at hclient'
        exact Option.some.inj hclient' ▸ ha
    by_cases hfilter : filter = ""
    · exact ⟨m₁, [], rfl, by simp, by simp [hfilter]⟩
    · cases hsend : m₁.sendCommand (m.getOrCreateClient r a).2 r with
      | none => exact ⟨m₁, [], rfl, by simp, by simp [hfilter, hsend]⟩
      | some m₂ =>
        obtain ⟨client', hclient', -, rfl⟩ := sendCommand_eq_some hsend
        refine ⟨m₁, [(r, client'.address)], rfl, ?_, by simp [hfilter, hsend]⟩
        intro w hw
        rw [List.mem_singleton.mp hw, haddress client' hclient']

/-- A step of a loop. -/
theorem loopStep_eq_some {i : ℕ} {f : LogStream → LogClient → Option (LogStream × LogClient)}
    (h : m.loopStep i f = some m') : ∃ st client st' client', m.streams[i]? = some st ∧
      st.endedBy = none ∧ m.table[st.client]? = some client ∧ f st client = some (st', client') ∧
      m' = { m with streams := m.streams.set i st', table := m.table.set st.client client' } := by
  obtain ⟨st, hst, h⟩ := Option.bind_eq_some_iff.mp h
  split_ifs at h with hended
  obtain ⟨client, hclient, h⟩ := Option.bind_eq_some_iff.mp h
  obtain ⟨⟨st', client'⟩, hf, rfl⟩ := Option.map_eq_some_iff.mp h
  exact ⟨st, client, st', client', hst, hended, hclient, hf, rfl⟩

/-- A stream of a manager that has closed a client. -/
theorem mem_streams_closeClient {st : LogStream} (h : st ∈ (m.closeClient c r).streams) :
    ∃ st₀ ∈ m.streams, st = if st₀.client = c then st₀.endBy r else st₀ := by
  obtain ⟨st₀, hst₀, heq⟩ := List.mem_map.mp h
  exact ⟨st₀, hst₀, heq.symm⟩

/-- `RemoveClient`: there is no client of the name, or it is closed and forgotten. -/
theorem removeClient_cases (m : LogManager) (r : LogRequest) :
    (m.clients.lookup r.objectName = none ∧ m.removeClient r = m) ∨
      ∃ c, m.clients.lookup r.objectName = some c ∧ m.removeClient r =
        { m.closeClient c r with clients := m.clients.erase r.objectName } := by
  unfold removeClient
  cases hlookup : m.clients.lookup r.objectName with
  | none => exact Or.inl ⟨rfl, rfl⟩
  | some c => exact Or.inr ⟨c, rfl, rfl⟩

/-- A command is written at most to the connected client of the name. -/
theorem command_spec (m : LogManager) (r : LogRequest) (name : String) :
    ∃ ws, m.command r name = { m with writes := m.writes ++ ws } ∧
      ∀ w ∈ ws, name ∈ knownCommands ∧ ∃ c client, m.clients.lookup r.objectName = some c ∧
        m.table[c]? = some client ∧ client.connected = true ∧ w = (r, client.address) := by
  have hnothing : ∃ ws, m = { m with writes := m.writes ++ ws } ∧
      ∀ w ∈ ws, name ∈ knownCommands ∧ ∃ c client, m.clients.lookup r.objectName = some c ∧
        m.table[c]? = some client ∧ client.connected = true ∧ w = (r, client.address) := by
    refine ⟨[], ?_, fun w hw => absurd hw List.not_mem_nil⟩
    rw [List.append_nil]
  unfold command
  cases hlookup : m.clients.lookup r.objectName with
  | none =>
    rw [hlookup] at hnothing
    exact hnothing
  | some c =>
    dsimp only
    rw [hlookup] at hnothing
    split_ifs with hknown
    · cases hsend : m.sendCommand c r with
      | none => exact hnothing
      | some m₁ =>
        obtain ⟨client, hclient, hconnected, rfl⟩ := sendCommand_eq_some hsend
        refine ⟨[(r, client.address)], rfl, ?_⟩
        intro w hw
        exact ⟨hknown, c, client, rfl, hclient, hconnected, List.mem_singleton.mp hw⟩
    · exact hnothing

/-! ### The steps that are no requests -/

/-- What the LogServers and the loops leave as it is. -/
structure Keeps (m m' : LogManager) : Prop where
  clients : m'.clients = m.clients
  writes : m'.writes = m.writes
  length : m'.streams.length = m.streams.length
  streams : ∀ (i : ℕ) (st st' : LogStream), m.streams[i]? = some st → m'.streams[i]? = some st' →
    st'.request = st.request ∧ st'.client = st.client ∧ st'.closed = st.closed ∧
      st'.endedBy = st.endedBy
  table : ∀ (c : ℕ) (client : LogClient), m.table[c]? = some client →
    ∃ client', m'.table[c]? = some client' ∧ client'.address = client.address ∧
      client'.connected = client.connected

theorem Keeps.exists_new (hk : Keeps m m') {i : ℕ} {st : LogStream}
    (hst : m.streams[i]? = some st) : ∃ st', m'.streams[i]? = some st' := by
  have hi : i < m'.streams.length := by
    rw [hk.length]
    exact (List.getElem?_eq_some_iff.mp hst).1
  exact ⟨_, List.getElem?_eq_getElem hi⟩

theorem Keeps.exists_old (hk : Keeps m m') {i : ℕ} {st' : LogStream}
    (hst' : m'.streams[i]? = some st') : ∃ st, m.streams[i]? = some st := by
  have hi : i < m.streams.length := by
    rw [← hk.length]
    exact (List.getElem?_eq_some_iff.mp hst').1
  exact ⟨_, List.getElem?_eq_getElem hi⟩

/-- Every stream was there before, with the same request and client, and ended by the same. -/
theorem Keeps.exists_of_mem (hk : Keeps m m') {st' : LogStream} (hst' : st' ∈ m'.streams) :
    ∃ st ∈ m.streams, st'.request = st.request ∧ st'.client = st.client ∧
      st'.closed = st.closed ∧ st'.endedBy = st.endedBy := by
  obtain ⟨i, hi'⟩ := List.mem_iff_getElem?.mp hst'
  obtain ⟨st, hi⟩ := hk.exists_old hi'
  exact ⟨st, List.mem_of_getElem? hi, hk.streams i st st' hi hi'⟩

/-- What a stream and its connection are after a line. -/
theorem getElem?_sendLine (address : LogRequest → LogAddress) (m : LogManager) (a : LogAddress)
    (text : List UInt8) :
    (∀ (i : ℕ) (st st' : LogStream), m.streams[i]? = some st →
      (m.sendLine address a text).streams[i]? = some st' →
      st' = if st.closed = false ∧ address st.request = a then
        { st with sent := st.sent ++ [text ++ [newline]] } else st) ∧
    ∀ (c : ℕ) (client : LogClient), m.table[c]? = some client →
      (m.sendLine address a text).table[c]? = some
        (if client.connected ∧ client.address = a then
          { client with unread := client.unread ++ (text ++ [newline]) }
        else client) := by
  constructor
  · intro i st st' hst hst'
    have hmap := (List.getElem?_map).symm.trans hst'
    rw [hst] at hmap
    exact (Option.some.inj hmap).symm
  · intro c client hclient
    refine List.getElem?_map.trans ?_
    rw [hclient]
    rfl

theorem Keeps.sendLine (address : LogRequest → LogAddress) (m : LogManager) (a : LogAddress)
    (text : List UInt8) : Keeps m (m.sendLine address a text) := by
  obtain ⟨hstream, htable⟩ := getElem?_sendLine address m a text
  refine ⟨rfl, rfl, List.length_map _, ?_, ?_⟩
  · intro i st st' hst hst'
    rw [hstream i st st' hst hst']
    split_ifs <;> exact ⟨rfl, rfl, rfl, rfl⟩
  · intro c client hclient
    refine ⟨_, htable c client hclient, ?_, ?_⟩ <;> split_ifs <;> rfl

/-- One stream changes, and perhaps its connection. -/
theorem Keeps.set {i : ℕ} {st st' : LogStream} {table : List LogClient}
    (hst : m.streams[i]? = some st)
    (hsame : st'.request = st.request ∧ st'.client = st.client ∧ st'.closed = st.closed ∧
      st'.endedBy = st.endedBy)
    (htable : ∀ (c : ℕ) (client : LogClient), m.table[c]? = some client →
      ∃ client', table[c]? = some client' ∧ client'.address = client.address ∧
        client'.connected = client.connected) :
    Keeps m { m with streams := m.streams.set i st', table := table } := by
  refine ⟨rfl, rfl, List.length_set, ?_, htable⟩
  intro j st₁ st₁' hj hj'
  dsimp only at hj'
  rw [Calls.getElem?_set_of_getElem? hst] at hj'
  by_cases hji : j = i
  · rw [if_pos hji] at hj'
    rw [hji, hst] at hj
    rw [← Option.some.inj hj, ← Option.some.inj hj']
    exact hsame
  · rw [if_neg hji, hj] at hj'
    rw [← Option.some.inj hj']
    exact ⟨rfl, rfl, rfl, rfl⟩

/-- What a step of a loop does to its stream and its connection. -/
theorem Keeps.loopStep {i : ℕ} {f : LogStream → LogClient → Option (LogStream × LogClient)}
    (hf : ∀ st client st' client', f st client = some (st', client') →
      (st'.request = st.request ∧ st'.client = st.client ∧ st'.closed = st.closed ∧
        st'.endedBy = st.endedBy) ∧
      client'.address = client.address ∧ client'.connected = client.connected)
    (hstep : m.loopStep i f = some m') : Keeps m m' := by
  obtain ⟨st, client, st', client', hst, -, hclient, hfst, rfl⟩ := loopStep_eq_some hstep
  obtain ⟨hsame, haddress, hconnected⟩ := hf st client st' client' hfst
  refine Keeps.set hst hsame ?_
  intro c client₁ hc
  rw [Calls.getElem?_set_of_getElem? hclient]
  by_cases hcc : c = st.client
  · rw [hcc, hclient] at hc
    rw [if_pos hcc, ← Option.some.inj hc]
    exact ⟨client', rfl, haddress, hconnected⟩
  · rw [if_neg hcc]
    exact ⟨client₁, hc, rfl, rfl⟩

theorem callback_same (st : LogStream) (line : List UInt8) :
    (st.callback line).request = st.request ∧ (st.callback line).client = st.client ∧
      (st.callback line).closed = st.closed ∧ (st.callback line).endedBy = st.endedBy ∧
      (st.callback line).sent = st.sent ∧ (st.callback line).buffered = st.buffered := by
  unfold LogStream.callback
  split_ifs <;> exact ⟨rfl, rfl, rfl, rfl, rfl, rfl⟩

end LogManager

/-- The action is a request of the API. -/
def LogAction.isRequest : LogAction → Bool
  | .openStream _ _ _ _ | .closeStream _ | .command _ _ => true
  | .send _ _ | .read _ _ | .give _ | .timeout _ | .take _ => false

namespace LogManager

/-- **The LogServers and the loops** open, close and end no stream, and write nothing. -/
theorem keeps_of_step {address : LogRequest → LogAddress} {m m' : LogManager} {a : LogAction}
    (ha : a.isRequest = false) (hstep : m.step address a = some m') : Keeps m m' := by
  cases a with
  | openStream r filter bufferSize dialed => cases ha
  | closeStream i => cases ha
  | command r name => cases ha
  | send a text =>
    have hsend : (if newline ∈ text then none else some (m.sendLine address a text)) = some m' :=
      hstep
    split_ifs at hsend
    obtain rfl := Option.some.inj hsend
    exact Keeps.sendLine address m a text
  | read i n =>
    refine Keeps.loopStep ?_ hstep
    intro st client st' client' hread
    split_ifs at hread
    obtain ⟨rfl, rfl⟩ := Prod.mk.inj (Option.some.inj hread)
    exact ⟨⟨rfl, rfl, rfl, rfl⟩, rfl, rfl⟩
  | give i =>
    refine Keeps.loopStep ?_ hstep
    intro st client st' client' hgive
    obtain ⟨⟨line, after⟩, -, hgive⟩ := Option.map_eq_some_iff.mp hgive
    obtain ⟨rfl, rfl⟩ := Prod.mk.inj hgive
    obtain ⟨hrequest, hclient, hclosed, hended, -⟩ :=
      callback_same { st with buffered := after } line
    exact ⟨⟨hrequest, hclient, hclosed, hended⟩, rfl, rfl⟩
  | timeout i =>
    refine Keeps.loopStep ?_ hstep
    intro st client st' client' htimeout
    split_ifs at htimeout
    obtain ⟨rfl, rfl⟩ := Prod.mk.inj (Option.some.inj htimeout)
    exact ⟨⟨rfl, rfl, rfl, rfl⟩, rfl, rfl⟩
  | take i =>
    obtain ⟨st, hst, rfl⟩ := Option.map_eq_some_iff.mp hstep
    exact Keeps.set hst ⟨rfl, rfl, rfl, rfl⟩ fun c client hc => ⟨client, hc, rfl, rfl⟩

end LogManager

/-- The runs of a manager; `address` is where the LogServer of an object listens. -/
def logMachine (address : LogRequest → LogAddress) : Machine LogManager LogAction where
  init := .new
  step := LogManager.step address

end UnisetPanel
