/-
  The handlers of the API that reach something outside the panel: the requests
  they make of UniSet servers, the commands they send to LogServers, and the
  changes of the list of servers and of the poll interval.

  A handler begins with `checkControlAccess` where it writes (`Route.gated`),
  and then checks its arguments in the order of the source and acts.  That of the
  log streams does not, and sends the filter it is given to the LogServer.  What
  is left out of a response is the body of a success.
-/
import UnisetPanel.GoMap
import UnisetPanel.UniSet.Client

namespace UnisetPanel

namespace API

open ByteText QueryString

/-! ### Requests and responses -/

/-- A request: the header `X-Control-Token`, the parts `{name}` and `{id}` of the path, the
parameter `server`, and the query. -/
structure HTTPRequest where
  controlToken : String
  name : Bytes
  id : String
  server : String
  query : List Param

/-- `r.URL.Query().Get(key)`. -/
def HTTPRequest.get (r : HTTPRequest) (key : String) : Bytes :=
  ((r.query.find? fun p => decide (p.1 = ascii key)).map Prod.snd).getD []

/-- `r.URL.Query()[key]`. -/
def HTTPRequest.getAll (r : HTTPRequest) (key : String) : List Bytes :=
  (r.query.filter fun p => decide (p.1 = ascii key)).map Prod.snd

/-- What `writeError` sends. -/
structure HTTPError where
  status : ℕ
  message : String
  deriving DecidableEq

/-- `LogServerCommand`. -/
structure LogServerCommand where
  command : String
  level : UInt32
  filter : Bytes
  deriving DecidableEq

/-- `LogServerInfo`: the host and the port that an object gives of its LogServer. -/
structure LogServerInfo where
  host : Bytes
  port : ℤ
  deriving DecidableEq

/-- `config.ServerConfig`. -/
structure ServerConfig where
  id : String
  url : String
  name : String
  deriving DecidableEq

/-- What a handler does outside the panel, or to its servers. -/
inductive Effect where
  | uniset (client : UniSetClient) (call : UniSetCall)
  | logServer (name : Bytes) (cmd : LogServerCommand)
  /-- `GetOrCreateClient` and `Connect` -/
  | openLogStream (name : Bytes) (address : LogServerInfo)
  | addServer (cfg : ServerConfig)
  | removeServer (id : String)
  /-- the interval in milliseconds -/
  | setPollInterval (interval : ℤ)
  deriving DecidableEq

/-- The fields of `Handlers` that are read here: the clients of the instances of the server manager,
if there is one, with the supplier it gives them; the client of old; the objects with a client of
their LogServer. -/
structure Handlers where
  serverManager : Option (GoMap String UniSetClient)
  supplier : Bytes
  client : Option UniSetClient
  logServerMgr : Option (List Bytes)
  pollInterval : ℤ

/-! ### Helpers -/

/-- The answers of a handler up to its effect. -/
abbrev Answer := Except HTTPError

/-- `writeError`, and the handler returns. -/
def writeError {α : Type} (status : ℕ) (message : String) : Answer α := .error ⟨status, message⟩

/-- The handler returns with this error if the condition holds. -/
def refuseIf (c : Prop) [Decidable c] (status : ℕ) (message : String) : Answer Unit :=
  if c then writeError status message else .ok ()

/-- `requireObjectName`. -/
def requireObjectName (r : HTTPRequest) : Answer Bytes :=
  if r.name = [] then writeError 400 "object name required" else .ok r.name

/-- `getUniSetClient`. -/
def getUniSetClient (h : Handlers) (serverID : String) : Answer UniSetClient :=
  match h.serverManager with
  | some instances =>
    if serverID = "" then writeError 400 "server parameter is required"
    else match instances.lookup serverID with
      | some client => .ok client
      | none => writeError 404 "server not found"
  | none =>
    match h.client with
    | some client => .ok client
    | none => writeError 503 "no client configured"

/-- `requireClient`. -/
def requireClient (h : Handlers) (r : HTTPRequest) : Answer UniSetClient :=
  getUniSetClient h r.server

/-- `decodeJSONBody`; the argument is what the decoder makes of the body. -/
def decodeJSONBody {α : Type} (body : Option α) : Answer α :=
  match body with
  | some req => .ok req
  | none => writeError 400 "invalid request body"

/-- `getPagination`: the offset and the limit. -/
def getPagination (r : HTTPRequest) (defaultLimit : ℤ) : ℤ × ℤ :=
  (((parseInt (r.get "offset")).filter fun o => decide (o ≥ 0)).getD 0,
    ((parseInt (r.get "limit")).filter fun l => decide (l ≥ 0)).getD defaultLimit)

/-- The handlers of the objects: the name, what the call is, the client, the call. -/
def clientHandler (h : Handlers) (r : HTTPRequest) (call : Bytes → Answer UniSetCall) :
    Answer Effect := do
  let name ← requireObjectName r
  let call ← call name
  let client ← requireClient h r
  return .uniset client call

/-! ### Objects and their sensors -/

/-- `GetObjects`; without the client of old the handler panics. -/
def getObjects (h : Handlers) : Answer Effect :=
  match h.client with
  | some client => .ok (.uniset client .getObjectList)
  | none => writeError 0 "panic"

/-- `GetObjectData`. -/
def getObjectData (h : Handlers) (r : HTTPRequest) : Answer Effect := do
  let name ← requireObjectName r
  match h.serverManager with
  | some instances =>
    refuseIf (r.server = "") 400 "server parameter is required"
    match instances.lookup r.server with
    | some client => return .uniset client (.getObjectData name)
    | none => writeError 502 ("server \"" ++ r.server ++ "\" not found")
  | none =>
    match h.client with
    | some client => return .uniset client (.getObjectData name)
    | none => writeError 503 "no client configured"

/-- `GetSMSensors`; without the client of old the handler panics. -/
def getSMSensors (h : Handlers) : Answer Effect :=
  match h.client with
  | some client => .ok (.uniset client .getSMSensors)
  | none => writeError 0 "panic"

/-- `GetIONCSensors`. -/
def getIONCSensors (h : Handlers) (r : HTTPRequest) : Answer Effect :=
  clientHandler h r fun name =>
    let page := getPagination r 100
    .ok (.getIONCSensors name page.1 page.2 (r.get "search") (r.get "iotype"))

/-- A parameter that must not be empty. -/
def requireParam (r : HTTPRequest) (key message : String) : Answer Bytes :=
  if r.get key = [] then writeError 400 message else .ok (r.get key)

/-- `GetIONCSensorValues`. -/
def getIONCSensorValues (h : Handlers) (r : HTTPRequest) : Answer Effect :=
  clientHandler h r fun name => do
    let filter ← requireParam r "filter" "filter parameter required"
    return .getIONCSensorValues name filter

/-- `IONCSetRequest` and `IONCFreezeRequest`. -/
structure IONCSetRequest where
  sensorID : ℤ
  value : ℤ

/-- `SetIONCSensorValue`. -/
def setIONCSensorValue (h : Handlers) (r : HTTPRequest) (body : Option IONCSetRequest) :
    Answer Effect :=
  clientHandler h r fun name => do
    let req ← decodeJSONBody body
    return .setIONCSensorValue name req.sensorID req.value

/-- `FreezeIONCSensor`. -/
def freezeIONCSensor (h : Handlers) (r : HTTPRequest) (body : Option IONCSetRequest) :
    Answer Effect :=
  clientHandler h r fun name => do
    let req ← decodeJSONBody body
    return .freezeIONCSensor name req.sensorID req.value

/-- `UnfreezeIONCSensor`; the request is the id. -/
def unfreezeIONCSensor (h : Handlers) (r : HTTPRequest) (body : Option ℤ) : Answer Effect :=
  clientHandler h r fun name => do
    let sensorID ← decodeJSONBody body
    return .unfreezeIONCSensor name sensorID

/-- `GetIONCConsumers`. -/
def getIONCConsumers (h : Handlers) (r : HTTPRequest) : Answer Effect :=
  clientHandler h r fun name => do
    let sensors ← requireParam r "sensors" "sensors parameter required"
    return .getIONCConsumers name sensors

/-- `GetIONCLostConsumers`. -/
def getIONCLostConsumers (h : Handlers) (r : HTTPRequest) : Answer Effect :=
  clientHandler h r fun name => .ok (.getIONCLostConsumers name)

/-! ### Modbus, OPC UA and UNet -/

/-- `GetMBStatus`, `GetOPCUAStatus` and `GetUNetStatus`. -/
def getStatus (h : Handlers) (r : HTTPRequest) : Answer Effect :=
  clientHandler h r fun name => .ok (.getStatus name)

/-- `GetMBParams` and `GetOPCUAParams`. -/
def getParams (h : Handlers) (r : HTTPRequest) : Answer Effect :=
  clientHandler h r fun name => do
    refuseIf (r.getAll "name" = []) 400 "at least one name parameter required"
    return .getParams name (r.getAll "name")

/-- A member of the object in the body: what `fmt.Sprint` writes of it, and its own members, so
written, if it is an object. -/
structure PayloadField where
  sprint : Bytes
  members : Option (List Param)

/-- `SetMBParams` and `SetOPCUAParams`: the parameters are the members of `params` or, where this is
no object, of the body. -/
def setParams (h : Handlers) (r : HTTPRequest) (body : Option (List (Bytes × PayloadField))) :
    Answer Effect :=
  clientHandler h r fun name => do
    let payload ← decodeJSONBody body
    let raw := (payload.find? fun f => decide (f.1 = ascii "params")).bind fun f => f.2.members
    let params := raw.getD (payload.map fun f => (f.1, f.2.sprint))
    refuseIf (params = []) 400 "no params provided"
    return .setParams name params

/-- `GetMBRegisters`. -/
def getMBRegisters (h : Handlers) (r : HTTPRequest) : Answer Effect :=
  clientHandler h r fun name =>
    let page := getPagination r 0
    .ok (.getMBRegisters name (r.get "search") (r.get "iotype") page.2 page.1)

/-- `GetMBRegisterValues` and `GetOPCUASensorValues`. -/
def getValues (h : Handlers) (r : HTTPRequest) : Answer Effect :=
  clientHandler h r fun name => do
    let filter ← requireParam r "filter" "filter parameter required"
    return .getValues name filter

/-- `GetMBDevices`. -/
def getMBDevices (h : Handlers) (r : HTTPRequest) : Answer Effect :=
  clientHandler h r fun name => .ok (.getMBDevices name)

/-- `GetMBMode`. -/
def getMBMode (h : Handlers) (r : HTTPRequest) : Answer Effect :=
  clientHandler h r fun name => .ok (.getMBMode name)

/-- `GetMBModeSupported`. -/
def getMBModeSupported (h : Handlers) (r : HTTPRequest) : Answer Effect :=
  clientHandler h r fun name => .ok (.getMBModeSupported name)

/-- `SetMBMode`; the request is the mode. -/
def setMBMode (h : Handlers) (r : HTTPRequest) (body : Option Bytes) : Answer Effect :=
  clientHandler h r fun name => do
    let mode ← decodeJSONBody body
    refuseIf (mode = []) 400 "mode is required"
    return .setMBMode name mode

/-- `TakeMBControl` and `TakeOPCUAControl`. -/
def takeObjectControl (h : Handlers) (r : HTTPRequest) : Answer Effect :=
  clientHandler h r fun name => .ok (.takeControl name)

/-- `ReleaseMBControl` and `ReleaseOPCUAControl`. -/
def releaseObjectControl (h : Handlers) (r : HTTPRequest) : Answer Effect :=
  clientHandler h r fun name => .ok (.releaseControl name)

/-- `GetOPCUASensors`. -/
def getOPCUASensors (h : Handlers) (r : HTTPRequest) : Answer Effect :=
  clientHandler h r fun name =>
    let page := getPagination r 0
    .ok (.getOPCUASensors name (r.get "search") (r.get "iotype") page.2 page.1)

/-- `GetOPCUASensor`. -/
def getOPCUASensor (h : Handlers) (r : HTTPRequest) : Answer Effect :=
  clientHandler h r fun name => do
    refuseIf (r.id = "") 400 "sensor id required"
    match parseInt r.id.toUTF8.toList with
    | some id => return .getOPCUASensor name id
    | none => writeError 400 "invalid sensor id"

/-- `GetOPCUADiagnostics`. -/
def getOPCUADiagnostics (h : Handlers) (r : HTTPRequest) : Answer Effect :=
  clientHandler h r fun name => .ok (.getOPCUADiagnostics name)

/-- `GetUNetReceivers`. -/
def getUNetReceivers (h : Handlers) (r : HTTPRequest) : Answer Effect :=
  clientHandler h r fun name => .ok (.getUNetReceivers name)

/-- `GetUNetSenders`. -/
def getUNetSenders (h : Handlers) (r : HTTPRequest) : Answer Effect :=
  clientHandler h r fun name => .ok (.getUNetSenders name)

/-! ### LogServers, servers and settings -/

/-- The commands of `SendLogServerCommand`. -/
def logServerCommands : List String := ["setLevel", "addLevel", "delLevel", "setFilter", "list"]

/-- `SendLogServerCommand`. -/
def sendLogServerCommand (h : Handlers) (r : HTTPRequest) (body : Option LogServerCommand) :
    Answer Effect := do
  let name ← requireObjectName r
  match h.logServerMgr with
  | none => writeError 503 "LogServer manager not available"
  | some clients =>
    match body with
    | none => writeError 400 "invalid command"
    | some cmd =>
      refuseIf (!clients.contains name) 404 "no active connection to LogServer"
      refuseIf (cmd.command ∉ logServerCommands) 400 ("unknown command: " ++ cmd.command)
      return .logServer name cmd

/-- `HandleLogServerStream` up to the loop, with what it does and the error it returns.  `objData` is
what the server answers of the object's LogServer, and `connects` whether `Connect` succeeds; the
error of that is an event of the stream. -/
def handleLogServerStream (h : Handlers) (r : HTTPRequest)
    (objData : Except String (Option LogServerInfo)) (connects : Bool) :
    List Effect × Option HTTPError :=
  match requireObjectName r, h.logServerMgr, getObjectData h r with
  | .error err, _, _ => ([], some err)
  | .ok _, none, _ => ([], some ⟨503, "LogServer manager not available"⟩)
  | .ok _, some _, .error err => ([], some err)
  | .ok name, some _, .ok read =>
    match objData with
    | .error err => ([read], some ⟨502, err⟩)
    | .ok none => ([read], some ⟨404, "object has no LogServer"⟩)
    | .ok (some info) =>
      let address : LogServerInfo :=
        ⟨if info.host = [] then ascii "localhost" else info.host,
          if info.port = 0 then 3333 else info.port⟩
      let filter := r.get "filter"
      let setFilter : List Effect :=
        if connects = true ∧ filter ≠ [] then [.logServer name ⟨"setFilter", 0, filter⟩] else []
      (read :: .openLogStream name address :: setFilter, none)

/-- `generateServerID`: a hash of the characters, as eight hexadecimal digits. -/
def generateServerID (url : String) : String :=
  let hash : UInt32 := url.toList.foldl (fun hash c => hash * 31 + c.val) 0
  let digits := Nat.toDigits 16 hash.toNat
  String.ofList (List.replicate (8 - digits.length) '0' ++ digits)

/-- `AddServer`, with the check of `server.Manager.AddServer`. -/
def addServer (h : Handlers) (body : Option ServerConfig) : Answer Effect :=
  match h.serverManager with
  | none => writeError 503 "server manager not initialized"
  | some instances =>
    match body with
    | none => writeError 400 "invalid JSON"
    | some req => do
      refuseIf (req.url = "") 400 "url is required"
      let cfg := { req with id := if req.id = "" then generateServerID req.url else req.id }
      refuseIf (instances.lookup cfg.id).isSome 409
        ("server with ID \"" ++ cfg.id ++ "\" already exists")
      return .addServer cfg

/-- `RemoveServer`, with the check of `server.Manager.RemoveServer`. -/
def removeServer (h : Handlers) (r : HTTPRequest) : Answer Effect :=
  match h.serverManager with
  | none => writeError 503 "server manager not initialized"
  | some instances => do
    refuseIf (r.id = "") 400 "server id required"
    refuseIf (instances.lookup r.id).isNone 404 ("server with ID \"" ++ r.id ++ "\" not found")
    return .removeServer r.id

/-- `SetPollInterval`; the request is the interval in milliseconds. -/
def setPollInterval (body : Option ℤ) : Answer Effect := do
  let interval ← decodeJSONBody body
  refuseIf (interval < 1000 ∨ interval > 300000) 400
    "interval must be between 1000ms and 300000ms"
  return .setPollInterval interval

/-! ### Routes -/

/-- A route of `setupRoutes` to one of these handlers, with what is decoded of the body, and for a
log stream what it is answered. -/
inductive Route where
  | getObjects
  | getObjectData
  | getSMSensors
  | getIONCSensors
  | getIONCSensorValues
  | setIONCSensorValue (body : Option IONCSetRequest)
  | freezeIONCSensor (body : Option IONCSetRequest)
  | unfreezeIONCSensor (body : Option ℤ)
  | getIONCConsumers
  | getIONCLostConsumers
  | getStatus
  | getParams
  | setParams (body : Option (List (Bytes × PayloadField)))
  | getMBRegisters
  | getValues
  | getMBDevices
  | getMBMode
  | getMBModeSupported
  | setMBMode (body : Option Bytes)
  | takeObjectControl
  | releaseObjectControl
  | getOPCUASensors
  | getOPCUASensor
  | getOPCUADiagnostics
  | getUNetReceivers
  | getUNetSenders
  | logServerStream (objData : Except String (Option LogServerInfo)) (connects : Bool)
  | sendLogServerCommand (body : Option LogServerCommand)
  | addServer (body : Option ServerConfig)
  | removeServer
  | setPollInterval (body : Option ℤ)

namespace Route

/-- The handlers that begin with `checkControlAccess`. -/
def gated : Route → Bool
  | setIONCSensorValue _ | freezeIONCSensor _ | unfreezeIONCSensor _ | setParams _ | setMBMode _
  | takeObjectControl | releaseObjectControl | sendLogServerCommand _ | addServer _
  | removeServer | setPollInterval _ => true
  | _ => false

/-- What a handler with one effect does. -/
def ofAnswer : Answer Effect → List Effect × Option HTTPError
  | .ok e => ([e], none)
  | .error err => ([], some err)

/-- What the handler of a route does after the check of the control, and the error it returns. -/
def handle (h : Handlers) (r : HTTPRequest) : Route → List Effect × Option HTTPError
  | getObjects => ofAnswer (API.getObjects h)
  | getObjectData => ofAnswer (API.getObjectData h r)
  | getSMSensors => ofAnswer (API.getSMSensors h)
  | getIONCSensors => ofAnswer (API.getIONCSensors h r)
  | getIONCSensorValues => ofAnswer (API.getIONCSensorValues h r)
  | setIONCSensorValue body => ofAnswer (API.setIONCSensorValue h r body)
  | freezeIONCSensor body => ofAnswer (API.freezeIONCSensor h r body)
  | unfreezeIONCSensor body => ofAnswer (API.unfreezeIONCSensor h r body)
  | getIONCConsumers => ofAnswer (API.getIONCConsumers h r)
  | getIONCLostConsumers => ofAnswer (API.getIONCLostConsumers h r)
  | getStatus => ofAnswer (API.getStatus h r)
  | getParams => ofAnswer (API.getParams h r)
  | setParams body => ofAnswer (API.setParams h r body)
  | getMBRegisters => ofAnswer (API.getMBRegisters h r)
  | getValues => ofAnswer (API.getValues h r)
  | getMBDevices => ofAnswer (API.getMBDevices h r)
  | getMBMode => ofAnswer (API.getMBMode h r)
  | getMBModeSupported => ofAnswer (API.getMBModeSupported h r)
  | setMBMode body => ofAnswer (API.setMBMode h r body)
  | takeObjectControl => ofAnswer (API.takeObjectControl h r)
  | releaseObjectControl => ofAnswer (API.releaseObjectControl h r)
  | getOPCUASensors => ofAnswer (API.getOPCUASensors h r)
  | getOPCUASensor => ofAnswer (API.getOPCUASensor h r)
  | getOPCUADiagnostics => ofAnswer (API.getOPCUADiagnostics h r)
  | getUNetReceivers => ofAnswer (API.getUNetReceivers h r)
  | getUNetSenders => ofAnswer (API.getUNetSenders h r)
  | logServerStream objData connects => handleLogServerStream h r objData connects
  | sendLogServerCommand body => ofAnswer (API.sendLogServerCommand h r body)
  | addServer body => ofAnswer (API.addServer h body)
  | removeServer => ofAnswer (API.removeServer h r)
  | setPollInterval body => ofAnswer (API.setPollInterval body)

end Route

/-- What an effect changes in the panel itself: the servers, the interval and the clients of
LogServers. -/
def Handlers.apply (h : Handlers) : Effect → Handlers
  | .uniset _ _ | .logServer _ _ => h
  | .openLogStream name _ =>
    { h with logServerMgr := h.logServerMgr.map fun clients =>
        if clients.contains name then clients else name :: clients }
  | .addServer cfg =>
    { h with serverManager := h.serverManager.map fun instances =>
        instances.insert cfg.id ⟨cfg.url.toUTF8.toList, h.supplier⟩ }
  | .removeServer id =>
    { h with serverManager := h.serverManager.map fun instances => instances.erase id }
  | .setPollInterval interval => { h with pollInterval := interval }

/-- `RemoveClient`, when a log stream is closed. -/
def Handlers.removeClient (h : Handlers) (name : Bytes) : Handlers :=
  { h with logServerMgr := h.logServerMgr.map (List.filter (· ≠ name)) }

end API

end UnisetPanel
