/-
  Log streams of different servers.

  The requests name a server and an object, the manager finds its clients by
  the object alone.  So a stream for an object of the same name on another
  server, where the LogServer has another address, closes the client of the
  first; closing it closes the other's; and a command goes to whichever of the
  two is connected (`not_undisturbed`).

  None of this happens in exactly the runs in which no request finds the client
  of another server (`undisturbed_iff`).  Where the names of the objects are
  different, no request ever does (`undisturbed_of_ownNames`).
-/
import UnisetPanel.LogServer.Manager

namespace UnisetPanel

variable {address : LogRequest → LogAddress}

namespace LogManager

/-- **The streams are undisturbed**: each that has ended was ended by a request of its own server
and object, and every command that was accepted was written to the LogServer it was for. -/
structure Undisturbed (address : LogRequest → LogAddress) (m : LogManager) : Prop where
  ended : ∀ st ∈ m.streams, ∀ r ∈ st.endedBy, r = st.request
  written : ∀ w ∈ m.writes, w.2 = address w.1

/-- The client has no open loops but those of the request. -/
def OnlyLoopsOf (m : LogManager) (r : LogRequest) (c : ℕ) : Prop :=
  ∀ st ∈ m.streams, st.client = c → st.endedBy = none → st.request = r

/-- No request finds the client of another server: a stream is opened only where the name has a
client of the same address or without other loops, closed only where the name has a client without
other loops, and a command is sent only where its connected client is of the right LogServer. -/
def FindsOwnClient (address : LogRequest → LogAddress) (m : LogManager) : LogAction → Prop
  | .openStream r _ _ _ => ∀ c ∈ m.clients.lookup r.objectName,
      (m.table[c]?.map LogClient.address) ≠ some (address r) → m.OnlyLoopsOf r c
  | .closeStream i => ∀ st ∈ m.streams[i]?, ∀ c ∈ m.clients.lookup st.request.objectName,
      m.OnlyLoopsOf st.request c
  | .command r name => ∀ c ∈ m.clients.lookup r.objectName, name ∈ knownCommands →
      ∀ client ∈ m.table[c]?, client.connected = true → client.address = address r
  | .send _ _ | .read _ _ | .give _ | .timeout _ | .take _ => True

/-! ### Two servers with an object of one name -/

/-- The LogServers of the servers `s1` and `s2`. -/
def twoAddresses (r : LogRequest) : LogAddress :=
  if r.serverID = "s1" then ⟨"host1", 3333⟩ else ⟨"host2", 3333⟩

/-- A stream for `o` of `s1`, then one for `o` of `s2`. -/
def secondServerRun : List LogAction :=
  [.openStream ⟨"s1", "o"⟩ "" 0 true, .openStream ⟨"s2", "o"⟩ "" 0 true]

/-- A stream for `o` of `s1`, then a command for `o` of `s2`. -/
def foreignCommandRun : List LogAction :=
  [.openStream ⟨"s1", "o"⟩ "" 0 true, .command ⟨"s2", "o"⟩ "setLevel"]

/-- The state after a run. -/
def stateAfter (address : LogRequest → LogAddress) (as : List LogAction) : Option LogManager :=
  (logMachine address).run (logMachine address).init as

/-- **It fails**: the second stream ends the first, and the command goes to the LogServer of the
other server. -/
theorem not_undisturbed :
    (¬ ∀ (address : LogRequest → LogAddress) (as : List LogAction),
      ∀ m ∈ stateAfter address as, ∀ st ∈ m.streams, ∀ r ∈ st.endedBy, r = st.request) ∧
    ¬ ∀ (address : LogRequest → LogAddress) (as : List LogAction),
      ∀ m ∈ stateAfter address as, ∀ w ∈ m.writes, w.2 = address w.1 := by
  constructor
  · intro h
    exact absurd (h twoAddresses secondServerRun) (by decide)
  · intro h
    exact absurd (h twoAddresses foreignCommandRun) (by decide)

/-! ### One step -/

variable {m m' : LogManager} {r : LogRequest} {c i : ℕ}

/-- Closing a client with own loops only. -/
theorem Undisturbed.closeClient (h : m.Undisturbed address) (hown : m.OnlyLoopsOf r c) :
    (m.closeClient c r).Undisturbed address := by
  refine ⟨?_, h.written⟩
  intro st hst q hq
  obtain ⟨st₀, hst₀, rfl⟩ := mem_streams_closeClient hst
  by_cases hclient : st₀.client = c
  · rw [if_pos hclient] at hq ⊢
    cases hended : st₀.endedBy with
    | none =>
      have hr : r = q := by
        rw [LogStream.endBy, hended] at hq
        exact Option.some.inj hq
      rw [← hr]
      exact (hown st₀ hst₀ hclient hended).symm
    | some q₀ =>
      have hq₀ : q₀ = q := by
        rw [LogStream.endBy, hended] at hq
        exact Option.some.inj hq
      exact hq₀ ▸ h.ended st₀ hst₀ q₀ hended
  · rw [if_neg hclient] at hq ⊢
    exact h.ended st₀ hst₀ q hq

/-- Closing a client with a loop of another request ends that. -/
theorem not_ended_closeClient (hother : ¬ m.OnlyLoopsOf r c) :
    ∃ st ∈ (m.closeClient c r).streams, st.endedBy = some r ∧ r ≠ st.request := by
  simp only [OnlyLoopsOf, not_forall] at hother
  obtain ⟨st, hst, hclient, hended, hrequest⟩ := hother
  refine ⟨st.endBy r, List.mem_map.mpr ⟨st, hst, if_pos hclient⟩, ?_, ?_⟩
  · rw [LogStream.endBy, hended]
    rfl
  · exact fun heq => hrequest heq.symm

/-- The LogServers and the loops end nothing and write nothing. -/
theorem Undisturbed.keeps (h : m.Undisturbed address) (hk : Keeps m m') :
    m'.Undisturbed address := by
  constructor
  · intro st hst q hq
    obtain ⟨st₀, hst₀, hrequest, -, -, hended⟩ := hk.exists_of_mem hst
    rw [hended] at hq
    rw [hrequest]
    exact h.ended st₀ hst₀ q hq
  · rw [hk.writes]
    exact h.written

theorem Undisturbed.getOrCreateClient (h : m.Undisturbed address)
    (hown : ∀ c ∈ m.clients.lookup r.objectName,
      (m.table[c]?.map LogClient.address) ≠ some (address r) → m.OnlyLoopsOf r c) :
    (m.getOrCreateClient r (address r)).1.Undisturbed address := by
  rcases m.getOrCreateClient_cases r (address r) with
    ⟨c, client, -, -, -, heq⟩ | ⟨c, hlookup, hne, heq⟩ | ⟨-, heq⟩
  · rw [heq]
    exact h
  · rw [heq]
    exact ⟨(h.closeClient (hown c hlookup hne)).ended, h.written⟩
  · rw [heq]
    exact ⟨h.ended, h.written⟩

/-- A new stream has not ended, and its filter goes to its own LogServer. -/
theorem Undisturbed.newLogStream (h : (m.getOrCreateClient r (address r)).1.Undisturbed address)
    (filter : String) (bufferSize : ℤ) (dialed : Bool) :
    (m.newLogStream r (address r) filter bufferSize dialed).Undisturbed address := by
  rcases m.newLogStream_cases r (address r) filter bufferSize dialed with
    heq | ⟨m₁, ws, hconnect, hws, heq⟩
  · rw [heq]
    exact h
  · have hsame : m₁.streams = (m.getOrCreateClient r (address r)).1.streams ∧
        m₁.writes = (m.getOrCreateClient r (address r)).1.writes := by
      obtain ⟨client, -, ⟨-, rfl⟩ | ⟨-, rfl⟩⟩ := connect_eq_some hconnect <;> exact ⟨rfl, rfl⟩
    rw [heq]
    constructor
    · intro st hst q hq
      rcases List.mem_append.mp hst with hst | hst
      · exact h.ended st (hsame.1 ▸ hst) q hq
      · rw [List.mem_singleton.mp hst] at hq
        cases hq
    · intro w hw
      rcases List.mem_append.mp hw with hw | hw
      · exact h.written w (hsame.2 ▸ hw)
      · rw [hws w hw]

/-- A stream that is closed is ended by its own request. -/
theorem Undisturbed.setClosed (h : m.Undisturbed address) {st : LogStream}
    (hst : m.streams[i]? = some st) : Undisturbed address
      { m with streams := m.streams.set i { st.endBy st.request with closed := true } } := by
  refine ⟨?_, h.written⟩
  intro st₁ hst₁ q hq
  rcases List.mem_or_eq_of_mem_set hst₁ with hold | rfl
  · exact h.ended st₁ hold q hq
  · cases hended : st.endedBy with
    | none =>
      rw [LogStream.endBy, hended] at hq
      exact (Option.some.inj hq).symm
    | some q₀ =>
      rw [LogStream.endBy, hended] at hq
      exact Option.some.inj hq ▸ h.ended st (List.mem_of_getElem? hst) q₀ hended

theorem Undisturbed.closeStream (h : m.Undisturbed address) {st : LogStream}
    (hst : m.streams[i]? = some st)
    (hown : ∀ c ∈ m.clients.lookup st.request.objectName, m.OnlyLoopsOf st.request c) :
    (m.closeStream i st).Undisturbed address := by
  have hself := h.setClosed hst
  unfold LogManager.closeStream
  rcases removeClient_cases
      { m with streams := m.streams.set i { st.endBy st.request with closed := true } }
      st.request with ⟨-, heq⟩ | ⟨c, hlookup, heq⟩
  · rw [heq]
    exact hself
  · rw [heq]
    have honly : OnlyLoopsOf
        { m with streams := m.streams.set i { st.endBy st.request with closed := true } }
        st.request c := by
      intro st₁ hst₁ hclient hended
      rcases List.mem_or_eq_of_mem_set hst₁ with hold | rfl
      · exact hown c hlookup st₁ hold hclient hended
      · rfl
    exact ⟨(hself.closeClient honly).ended, h.written⟩

/-- Every step of an undisturbed manager that meets the condition leaves it undisturbed. -/
theorem Undisturbed.step (h : m.Undisturbed address) {a : LogAction}
    (hown : m.FindsOwnClient address a) (hstep : m.step address a = some m') :
    m'.Undisturbed address := by
  cases a with
  | openStream r filter bufferSize dialed =>
    obtain rfl := Option.some.inj hstep
    exact (h.getOrCreateClient hown).newLogStream filter bufferSize dialed
  | closeStream i =>
    obtain ⟨st, hst, hstep⟩ := Option.bind_eq_some_iff.mp hstep
    split_ifs at hstep with hclosed
    obtain rfl := Option.some.inj hstep
    exact h.closeStream hst (hown st hst)
  | command r name =>
    obtain rfl := Option.some.inj hstep
    obtain ⟨ws, heq, hws⟩ := m.command_spec r name
    rw [heq]
    refine ⟨h.ended, ?_⟩
    intro w hw
    rcases List.mem_append.mp hw with hw | hw
    · exact h.written w hw
    · obtain ⟨hknown, c, client, hlookup, hclient, hconnected, rfl⟩ := hws w hw
      exact hown c hlookup hknown client hclient hconnected
  | send a text => exact h.keeps (keeps_of_step rfl hstep)
  | read i n => exact h.keeps (keeps_of_step rfl hstep)
  | give i => exact h.keeps (keeps_of_step rfl hstep)
  | timeout i => exact h.keeps (keeps_of_step rfl hstep)
  | take i => exact h.keeps (keeps_of_step rfl hstep)

/-- `NewLogStream` keeps the streams that `GetOrCreateClient` leaves. -/
theorem mem_streams_newLogStream {st : LogStream} {a : LogAddress}
    (h : st ∈ (m.getOrCreateClient r a).1.streams) (filter : String) (bufferSize : ℤ)
    (dialed : Bool) : st ∈ (m.newLogStream r a filter bufferSize dialed).streams := by
  rcases m.newLogStream_cases r a filter bufferSize dialed with heq | ⟨m₁, ws, hconnect, -, heq⟩
  · rw [heq]
    exact h
  · have hsame : m₁.streams = (m.getOrCreateClient r a).1.streams := by
      obtain ⟨client, -, ⟨-, rfl⟩ | ⟨-, rfl⟩⟩ := connect_eq_some hconnect <;> rfl
    rw [heq]
    exact List.mem_append_left _ (hsame ▸ h)

/-- **Any other step disturbs a stream.** -/
theorem not_undisturbed_of_step {a : LogAction} (hown : ¬ m.FindsOwnClient address a)
    (hstep : m.step address a = some m') : ¬ m'.Undisturbed address := by
  intro h
  cases a with
  | openStream r filter bufferSize dialed =>
    obtain rfl := Option.some.inj hstep
    simp only [FindsOwnClient, not_forall] at hown
    obtain ⟨c, hlookup, hne, hother⟩ := hown
    obtain ⟨st, hst, hended, hrequest⟩ := not_ended_closeClient hother
    have hget : m.getOrCreateClient r (address r) =
        (m.closeClient c r).createClient r.objectName (address r) := by
      unfold getOrCreateClient
      rw [hlookup]
      exact if_neg hne
    have hmem : st ∈ (m.getOrCreateClient r (address r)).1.streams := by
      rw [hget]
      exact hst
    exact hrequest (h.ended st (mem_streams_newLogStream hmem filter bufferSize dialed) r hended)
  | closeStream i =>
    obtain ⟨st, hst, hstep⟩ := Option.bind_eq_some_iff.mp hstep
    split_ifs at hstep
    obtain rfl := Option.some.inj hstep
    simp only [FindsOwnClient, OnlyLoopsOf, not_forall] at hown
    obtain ⟨st₀, hst₀, c, hlookup, st', hst', hclient, hended, hrequest⟩ := hown
    obtain rfl := Option.some.inj (hst.symm.trans hst₀)
    -- the other loop stands elsewhere in the list
    obtain ⟨j, hj⟩ := List.mem_iff_getElem?.mp hst'
    have hji : i ≠ j := by
      rintro rfl
      exact hrequest (congrArg _ (Option.some.inj (hj.symm.trans hst)))
    have hother : ¬ OnlyLoopsOf
        { m with streams := m.streams.set i { st.endBy st.request with closed := true } }
        st.request c := by
      intro honly
      have hset : (m.streams.set i { st.endBy st.request with closed := true })[j]? = some st' := by
        rw [List.getElem?_set_ne hji]
        exact hj
      exact hrequest (honly st' (List.mem_of_getElem? hset) hclient hended)
    obtain ⟨st₁, hst₁, hended₁, hrequest₁⟩ := not_ended_closeClient hother
    refine hrequest₁ (h.ended st₁ ?_ _ hended₁)
    unfold closeStream removeClient
    dsimp only
    rw [hlookup]
    exact hst₁
  | command r name =>
    obtain rfl := Option.some.inj hstep
    simp only [FindsOwnClient, not_forall] at hown
    obtain ⟨c, hlookup, hknown, client, hclient, hconnected, haddress⟩ := hown
    refine haddress (h.written (r, client.address) ?_)
    unfold command sendCommand
    rw [hlookup]
    dsimp only
    rw [if_pos hknown, hclient, Option.bind_some, if_pos hconnected]
    exact List.mem_append_right _ List.mem_cons_self
  | send a text => exact hown trivial
  | read i n => exact hown trivial
  | give i => exact hown trivial
  | timeout i => exact hown trivial
  | take i => exact hown trivial

theorem undisturbed_new : Undisturbed address .new := by
  constructor
  · intro st hst
    cases hst
  · intro w hw
    cases hw

/-- **Exactly when the streams are undisturbed**: throughout a run, if and only if no request of it
finds the client of another server. -/
theorem undisturbed_iff (address : LogRequest → LogAddress) {as : List LogAction} {m : LogManager}
    (hrun : (logMachine address).run (logMachine address).init as = some m) :
    (logMachine address).Throughout (Undisturbed address) as ↔
      (logMachine address).EveryStep (FindsOwnClient address) as := by
  refine Machine.throughout_iff_everyStep (I := Undisturbed address) undisturbed_new ?_ ?_ ?_ hrun
  · exact fun s a t h hown hstep => h.step hown hstep
  · exact fun s h => h
  · exact fun s a t _ hown hstep => not_undisturbed_of_step hown hstep

/-- The second stream of `secondServerRun` finds the client of the other server. -/
theorem not_everyStep_secondServerRun :
    ¬ (logMachine twoAddresses).EveryStep (FindsOwnClient twoAddresses) secondServerRun := by
  intro h
  obtain ⟨m, hrun⟩ : ∃ m, stateAfter twoAddresses secondServerRun = some m := ⟨_, rfl⟩
  have hall := ((undisturbed_iff twoAddresses hrun).mpr h).last hrun
  have hended : ∀ m ∈ stateAfter twoAddresses secondServerRun, ∀ st ∈ m.streams,
      ∀ r ∈ st.endedBy, r = st.request := by
    intro m' hm'
    obtain rfl := Option.some.inj (hrun.symm.trans hm')
    exact hall.ended
  exact absurd hended (by decide)

/-! ### Objects of one server each -/

variable {server : String → String}

/-- The requests for an object name are all for one server. -/
def OwnNames (server : String → String) (_ : LogManager) : LogAction → Prop
  | .openStream r _ _ _ | .command r _ => r.serverID = server r.objectName
  | .closeStream _ | .send _ _ | .read _ _ | .give _ | .timeout _ | .take _ => True

/-- Every client is of the address of its name and of no other name, and a running loop reads from
the client of its object. -/
structure NamesInv (address : LogRequest → LogAddress) (server : String → String)
    (m : LogManager) : Prop where
  request : ∀ st ∈ m.streams, st.request.serverID = server st.request.objectName
  client : ∀ name c, m.clients.lookup name = some c →
    ∃ client, m.table[c]? = some client ∧ client.address = address ⟨server name, name⟩
  apart : ∀ name name' c, m.clients.lookup name = some c → m.clients.lookup name' = some c →
    name = name'
  loop : ∀ st ∈ m.streams, st.endedBy = none →
    m.clients.lookup st.request.objectName = some st.client

namespace NamesInv

/-- Then no request finds the client of another server. -/
theorem findsOwnClient (h : NamesInv address server m) {a : LogAction}
    (hown : m.OwnNames server a) : m.FindsOwnClient address a := by
  have hrequest : ∀ q : LogRequest, q.serverID = server q.objectName →
      (⟨server q.objectName, q.objectName⟩ : LogRequest) = q := by
    intro q hq
    rw [← hq]
  cases a with
  | openStream r filter bufferSize dialed =>
    intro c hlookup hne
    obtain ⟨client, hclient, haddress⟩ := h.client r.objectName c hlookup
    rw [hrequest r hown] at haddress
    rw [hclient] at hne
    exact absurd (congrArg some haddress) hne
  | closeStream i =>
    intro st hst c hlookup st' hst' hclient hended
    have hmem : st ∈ m.streams := List.mem_of_getElem? hst
    have hfound := h.loop st' hst' hended
    rw [hclient] at hfound
    have hname := h.apart _ _ c hfound hlookup
    rw [← hrequest st'.request (h.request st' hst'), ← hrequest st.request (h.request st hmem),
      hname]
  | command r name =>
    intro c hlookup _ client hclient _
    obtain ⟨client', hclient', haddress⟩ := h.client r.objectName c hlookup
    rw [hrequest r hown] at haddress
    rw [Option.some.inj (hclient.symm.trans hclient')]
    exact haddress
  | send a text => trivial
  | read i n => trivial
  | give i => trivial
  | timeout i => trivial
  | take i => trivial

theorem keeps (h : NamesInv address server m) (hk : Keeps m m') : NamesInv address server m' := by
  constructor
  · intro st hst
    obtain ⟨st₀, hst₀, hrequest, -⟩ := hk.exists_of_mem hst
    rw [hrequest]
    exact h.request st₀ hst₀
  · intro name c hlookup
    rw [hk.clients] at hlookup
    obtain ⟨client, hclient, haddress⟩ := h.client name c hlookup
    obtain ⟨client', hclient', haddress', -⟩ := hk.table c client hclient
    exact ⟨client', hclient', haddress'.trans haddress⟩
  · rw [hk.clients]
    exact h.apart
  · intro st hst hended
    obtain ⟨st₀, hst₀, hrequest, hclient, -, hsame⟩ := hk.exists_of_mem hst
    rw [hk.clients, hrequest, hclient]
    exact h.loop st₀ hst₀ (hsame.symm.trans hended)

/-- A new client under a name that had none. -/
theorem createClient (h : NamesInv address server m) {name : String}
    (hnone : m.clients.lookup name = none) :
    NamesInv address server (m.createClient name (address ⟨server name, name⟩)).1 := by
  have hlookup : ∀ other,
      (m.createClient name (address ⟨server name, name⟩)).1.clients.lookup other =
        if other = name then some m.table.length else m.clients.lookup other :=
    fun other => GoMap.lookup_insert m.clients name other m.table.length
  have hold : ∀ other c, m.clients.lookup other = some c → c < m.table.length := by
    intro other c hc
    obtain ⟨client, hclient, -⟩ := h.client other c hc
    exact (List.getElem?_eq_some_iff.mp hclient).1
  constructor
  · exact h.request
  · intro other c hc
    rw [hlookup] at hc
    split_ifs at hc with heq
    · rw [← Option.some.inj hc, heq]
      exact ⟨_, List.getElem?_concat_length, rfl⟩
    · obtain ⟨client, hclient, haddress⟩ := h.client other c hc
      refine ⟨client, ?_, haddress⟩
      exact (List.getElem?_append_left (hold other c hc)).trans hclient
  · intro other other' c hc hc'
    rw [hlookup] at hc hc'
    split_ifs at hc hc' with heq heq' heq'
    · rw [heq, heq']
    · have hlt := hold other' c hc'
      have hnew := Option.some.inj hc
      omega
    · have hlt := hold other c hc
      have hnew := Option.some.inj hc'
      omega
    · exact h.apart other other' c hc hc'
  · intro st hst hended
    have hfound := h.loop st hst hended
    rw [hlookup, if_neg ?_]
    · exact hfound
    · intro heq
      rw [heq, hnone] at hfound
      cases hfound

theorem getOrCreateClient (h : NamesInv address server m)
    (hown : r.serverID = server r.objectName) :
    NamesInv address server (m.getOrCreateClient r (address r)).1 ∧
      (m.getOrCreateClient r (address r)).1.clients.lookup r.objectName =
        some (m.getOrCreateClient r (address r)).2 := by
  have hrequest : (⟨server r.objectName, r.objectName⟩ : LogRequest) = r := by
    rw [← hown]
  rcases m.getOrCreateClient_cases r (address r) with
    ⟨c, client, hlookup, -, -, heq⟩ | ⟨c, hlookup, hne, -⟩ | ⟨hnone, heq⟩
  · rw [heq]
    exact ⟨h, hlookup⟩
  · obtain ⟨client, hclient, haddress⟩ := h.client r.objectName c hlookup
    rw [hrequest] at haddress
    rw [hclient] at hne
    exact absurd (congrArg some haddress) hne
  · have hnew := h.createClient hnone
    rw [hrequest] at hnew
    rw [heq]
    exact ⟨hnew, Finmap.lookup_insert _⟩

/-- A new stream reads from the client of its object. -/
theorem append (h : NamesInv address server m) (hown : r.serverID = server r.objectName)
    (hlookup : m.clients.lookup r.objectName = some c) {dialed : Bool}
    (hconnect : m.connect c dialed = some m') (ws : List (LogRequest × LogAddress))
    (bufferSize : ℤ) : NamesInv address server
      { m' with writes := ws, streams := m'.streams ++ [.new r c bufferSize] } := by
  obtain ⟨client, hclient, hcases⟩ := connect_eq_some hconnect
  have hsame : m'.clients = m.clients ∧ m'.streams = m.streams ∧
      ∀ (i : ℕ) (client₁ : LogClient), m.table[i]? = some client₁ →
        ∃ client', m'.table[i]? = some client' ∧ client'.address = client₁.address := by
    rcases hcases with ⟨-, rfl⟩ | ⟨-, rfl⟩
    · exact ⟨rfl, rfl, fun i client₁ hi => ⟨client₁, hi, rfl⟩⟩
    · refine ⟨rfl, rfl, fun i client₁ hi => ?_⟩
      dsimp only
      rw [Calls.getElem?_set_of_getElem? hclient]
      by_cases hic : i = c
      · rw [hic, hclient] at hi
        rw [if_pos hic, ← Option.some.inj hi]
        exact ⟨_, rfl, rfl⟩
      · rw [if_neg hic]
        exact ⟨client₁, hi, rfl⟩
  obtain ⟨hclients, hstreams, htable⟩ := hsame
  rw [hclients, hstreams]
  constructor
  · intro st hst
    rcases List.mem_append.mp hst with hst | hst
    · exact h.request st hst
    · rw [List.mem_singleton.mp hst]
      exact hown
  · intro name c₁ hc₁
    obtain ⟨client₁, hclient₁, haddress⟩ := h.client name c₁ hc₁
    obtain ⟨client', hclient', haddress'⟩ := htable c₁ client₁ hclient₁
    exact ⟨client', hclient', haddress'.trans haddress⟩
  · exact h.apart
  · intro st hst hended
    rcases List.mem_append.mp hst with hst | hst
    · exact h.loop st hst hended
    · rw [List.mem_singleton.mp hst]
      exact hlookup

/-- With the client of a name the loops of its object end, and no others. -/
theorem removeClient (h : NamesInv address server m) (r : LogRequest) :
    NamesInv address server (m.removeClient r) := by
  rcases m.removeClient_cases r with ⟨-, heq⟩ | ⟨c, hlookup, heq⟩
  · rw [heq]
    exact h
  · rw [heq]
    have herase : ∀ name, Finmap.lookup name (m.clients.erase r.objectName) =
        if name = r.objectName then none else m.clients.lookup name :=
      fun name => GoMap.lookup_erase m.clients r.objectName name
    constructor
    · intro st hst
      obtain ⟨st₀, hst₀, rfl⟩ := mem_streams_closeClient hst
      have hrequest := h.request st₀ hst₀
      split_ifs <;> exact hrequest
    · intro name c₁ hc₁
      rw [herase] at hc₁
      split_ifs at hc₁
      obtain ⟨client, hclient, haddress⟩ := h.client name c₁ hc₁
      refine ⟨if c = c₁ then { client with connected := false, unread := [] } else client, ?_, ?_⟩
      · refine (List.getElem?_modify _ _ _ _).trans ?_
        rw [hclient]
        split_ifs <;> rfl
      · split_ifs <;> exact haddress
    · intro name name' c₁ hc₁ hc₁'
      rw [herase] at hc₁ hc₁'
      split_ifs at hc₁ hc₁'
      exact h.apart name name' c₁ hc₁ hc₁'
    · intro st hst hended
      obtain ⟨st₀, hst₀, rfl⟩ := mem_streams_closeClient hst
      by_cases hclient : st₀.client = c
      · rw [if_pos hclient] at hended
        exact absurd (Option.or_eq_none_iff.mp hended).2 (Option.some_ne_none r)
      · rw [if_neg hclient] at hended ⊢
        have hfound := h.loop st₀ hst₀ hended
        rw [herase, if_neg ?_]
        · exact hfound
        · intro hname
          rw [hname, hlookup] at hfound
          exact hclient (Option.some.inj hfound).symm

theorem closeStream (h : NamesInv address server m) {st : LogStream}
    (hst : m.streams[i]? = some st) : NamesInv address server (m.closeStream i st) := by
  apply NamesInv.removeClient
  have hmem : st ∈ m.streams := List.mem_of_getElem? hst
  constructor
  · intro st₁ hst₁
    rcases List.mem_or_eq_of_mem_set hst₁ with hold | rfl
    · exact h.request st₁ hold
    · exact h.request st hmem
  · exact h.client
  · exact h.apart
  · intro st₁ hst₁ hended
    rcases List.mem_or_eq_of_mem_set hst₁ with hold | rfl
    · exact h.loop st₁ hold hended
    · exact absurd (Option.or_eq_none_iff.mp hended).2 (Option.some_ne_none st.request)

/-- Every step for the objects of one server each keeps the invariant. -/
theorem step (h : NamesInv address server m) {a : LogAction} (hown : m.OwnNames server a)
    (hstep : m.step address a = some m') : NamesInv address server m' := by
  cases a with
  | openStream r filter bufferSize dialed =>
    obtain rfl := Option.some.inj hstep
    obtain ⟨hget, hlookup⟩ := h.getOrCreateClient hown
    rcases m.newLogStream_cases r (address r) filter bufferSize dialed with
      heq | ⟨m₁, ws, hconnect, -, heq⟩
    · rw [heq]
      exact hget
    · rw [heq]
      exact hget.append hown hlookup hconnect _ bufferSize
  | closeStream i =>
    obtain ⟨st, hst, hstep⟩ := Option.bind_eq_some_iff.mp hstep
    split_ifs at hstep
    obtain rfl := Option.some.inj hstep
    exact h.closeStream hst
  | command r name =>
    obtain rfl := Option.some.inj hstep
    obtain ⟨ws, heq, -⟩ := m.command_spec r name
    rw [heq]
    exact ⟨h.request, h.client, h.apart, h.loop⟩
  | send a text => exact h.keeps (keeps_of_step rfl hstep)
  | read i n => exact h.keeps (keeps_of_step rfl hstep)
  | give i => exact h.keeps (keeps_of_step rfl hstep)
  | timeout i => exact h.keeps (keeps_of_step rfl hstep)
  | take i => exact h.keeps (keeps_of_step rfl hstep)

end NamesInv

theorem namesInv_new : NamesInv address server .new := by
  constructor
  · intro st hst
    cases hst
  · intro name c hc
    cases hc
  · intro name name' c hc
    cases hc
  · intro st hst
    cases hst

/-- **Where no two servers have an object of one name** the streams are undisturbed. -/
theorem undisturbed_of_ownNames {as : List LogAction}
    (hown : (logMachine address).EveryStep (OwnNames server) as) :
    (logMachine address).Throughout (Undisturbed address) as := by
  rintro pre post s rfl hrun
  have hinv : NamesInv address server s ∧ s.Undisturbed address := by
    refine Machine.EveryStep.induction (I := fun s => NamesInv address server s ∧
      s.Undisturbed address) ⟨namesInv_new, undisturbed_new⟩ ?_ hown.left hrun
    rintro s a t ⟨hnames, h⟩ ha hstep
    exact ⟨hnames.step ha hstep, h.step (hnames.findsOwnClient ha) hstep⟩
  exact hinv.2

end LogManager

end UnisetPanel
