/-
  Several log streams of one object.

  They read from one connection, each with a loop and a buffer of its own.  A
  line is taken by the loop that reads first, or half of it by one loop and half
  by another; and the stream that is closed first closes the connection of all
  (`not_wellServed`).

  Every stream is served well in the runs in which its LogServer sends no line
  while two streams are open, none is closed while another is open, and of two open
  streams only the one that was opened first reads (`wellServed_of_oneReader`).
-/
import UnisetPanel.LogServer.Manager

namespace UnisetPanel.LogManager

/-! ### What is wanted -/

/-- A stream has read and given all that its connection has. -/
def Settled (m : LogManager) (st : LogStream) : Prop :=
  (∀ client ∈ m.table[st.client]?, client.unread = []) ∧ newline ∉ st.buffered

instance (m : LogManager) (st : LogStream) : Decidable (m.Settled st) :=
  inferInstanceAs (Decidable ((∀ client ∈ m.table[st.client]?, client.unread = []) ∧
    newline ∉ st.buffered))

/-- **Every stream is served well**: as long as it is open its loop runs, it is given the lines that
were sent to it, whole and in order, and all of them by the time it has read what there is. -/
structure WellServed (m : LogManager) : Prop where
  running : ∀ st ∈ m.streams, st.closed = false → st.endedBy = none
  whole : ∀ st ∈ m.streams, st.given.map Prod.fst <+: st.sent
  received : ∀ st ∈ m.streams, st.closed = false → m.Settled st → st.given.map Prod.fst = st.sent

/-- Streams are opened by the request `r` only. -/
def OnlyRequest (r : LogRequest) (_ : LogManager) : LogAction → Prop
  | .openStream r' _ _ _ => r' = r
  | .closeStream _ | .command _ _ | .send _ _ | .read _ _ | .give _ | .timeout _ | .take _ => True

instance (r : LogRequest) (m : LogManager) : (a : LogAction) → Decidable (OnlyRequest r m a)
  | .openStream r' _ _ _ => inferInstanceAs (Decidable (r' = r))
  | .closeStream _ | .command _ _ | .send _ _ | .read _ _ | .give _ | .timeout _ | .take _ =>
    inferInstanceAs (Decidable True)

/-- The runs of the streams of one object. -/
def oneObjectMachine (address : LogRequest → LogAddress) (r : LogRequest) :
    Machine LogManager LogAction :=
  (logMachine address).guard (OnlyRequest r)

/-- No stream that was opened before the `i`-th is still open. -/
def FirstOpen (m : LogManager) (i : ℕ) : Prop :=
  ∀ j st, j < i → m.streams[j]? = some st → st.closed = true

/-- The LogServer at `own` sends no line while two streams are open, none is closed while another is
open, and of two open streams only the first reads. -/
def OneReader (own : LogAddress) (m : LogManager) : LogAction → Prop
  | .closeStream i => ∀ j st, j ≠ i → m.streams[j]? = some st → st.closed = true
  | .send a _ => a = own → m.streams.countP (fun st => !st.closed) ≤ 1
  | .read i _ => m.FirstOpen i
  | .openStream _ _ _ _ | .command _ _ | .give _ | .timeout _ | .take _ => True

/-! ### Two streams of one object -/

/-- All LogServers at one address. -/
def oneAddress (_ : LogRequest) : LogAddress := ⟨"host", 3333⟩

/-- Two streams for one object. -/
def twoStreams : List LogAction :=
  List.replicate 2 (.openStream ⟨"s", "o"⟩ "" 0 true)

/-- The state after two streams are opened and `as` follows. -/
def afterTwoStreams (as : List LogAction) : Option LogManager :=
  (oneObjectMachine oneAddress ⟨"s", "o"⟩).run .new (twoStreams ++ as)

/-- **It fails.** The close of one stream ends the other; of a line that two loops read in two
pieces one is given the end; and a line that one loop reads the other is not given. -/
theorem not_wellServed :
    (¬ ∀ as, ∀ m ∈ afterTwoStreams as, ∀ st ∈ m.streams, st.closed = false → st.endedBy = none) ∧
    (¬ ∀ as, ∀ m ∈ afterTwoStreams as, ∀ st ∈ m.streams, st.given.map Prod.fst <+: st.sent) ∧
    ¬ ∀ as, ∀ m ∈ afterTwoStreams as, ∀ st ∈ m.streams, st.closed = false → m.Settled st →
      st.given.map Prod.fst = st.sent := by
  refine ⟨?_, ?_, ?_⟩
  · intro h
    exact absurd (h [.closeStream 0]) (by decide)
  · intro h
    exact absurd (h [.send ⟨"host", 3333⟩ [97, 98], .read 0 1, .read 1 2, .give 1]) (by decide)
  · intro h
    exact absurd (h [.send ⟨"host", 3333⟩ [97, 98], .read 0 3, .give 0]) (by decide)

/-! ### The invariant -/

/-- What a stream was given and what it is still to read are the lines it was sent. -/
def Served (st : LogStream) (unread : List UInt8) : Prop :=
  st.sent = st.given.map Prod.fst ++ Lines.complete newline (st.buffered ++ unread) ∧
    Lines.rest newline (st.buffered ++ unread) = []

/-- A stream that has not been sent anything, nor read anything. -/
structure Fresh (st : LogStream) : Prop where
  sent : st.sent = []
  given : st.given = []
  buffered : st.buffered = []

/-- The client of the object is of its address, and not connected for nothing; every open stream
reads from it, the first of them what it was sent, and the others have had nothing to read. -/
structure ReadersInv (address : LogRequest → LogAddress) (r : LogRequest) (m : LogManager) :
    Prop where
  request : ∀ st ∈ m.streams, st.request = r
  closed : ∀ st ∈ m.streams, st.closed = true →
    st.endedBy ≠ none ∧ st.given.map Prod.fst <+: st.sent
  client : ∀ c, m.clients.lookup r.objectName = some c → ∃ client, m.table[c]? = some client ∧
    client.address = address r ∧ (client.connected = true → ∃ st ∈ m.streams, st.closed = false)
  opened : ∀ i st, m.streams[i]? = some st → st.closed = false → st.endedBy = none ∧
    m.clients.lookup r.objectName = some st.client ∧ ∃ client, m.table[st.client]? = some client ∧
      client.connected = true ∧ (m.FirstOpen i → Served st client.unread) ∧
      (¬ m.FirstOpen i → Fresh st)

variable {address : LogRequest → LogAddress} {r : LogRequest} {m m' : LogManager}

/-- **The invariant serves every stream well.** -/
theorem ReadersInv.wellServed (h : ReadersInv address r m) : m.WellServed := by
  constructor
  · intro st hst hopen
    obtain ⟨i, hi⟩ := List.mem_iff_getElem?.mp hst
    exact (h.opened i st hi hopen).1
  · intro st hst
    cases hclosed : st.closed with
    | true => exact (h.closed st hst hclosed).2
    | false =>
      obtain ⟨i, hi⟩ := List.mem_iff_getElem?.mp hst
      obtain ⟨-, -, client, -, -, hserved, hfresh⟩ := h.opened i st hi hclosed
      by_cases hfirst : m.FirstOpen i
      · exact ⟨_, (hserved hfirst).1.symm⟩
      · rw [(hfresh hfirst).given]
        exact List.nil_prefix
  · intro st hst hopen hsettled
    obtain ⟨i, hi⟩ := List.mem_iff_getElem?.mp hst
    obtain ⟨-, -, client, hclient, -, hserved, hfresh⟩ := h.opened i st hi hopen
    by_cases hfirst : m.FirstOpen i
    · have hunread : client.unread = [] := hsettled.1 client hclient
      have hsent := (hserved hfirst).1
      rw [hunread, List.append_nil, (Lines.split_of_notMem hsettled.2).1, List.append_nil] at hsent
      exact hsent.symm
    · rw [(hfresh hfirst).given, (hfresh hfirst).sent]
      rfl

/-- A stream that is given the next line of its buffer. -/
theorem Served.give {st : LogStream} {unread line after : List UInt8} (h : Served st unread)
    (hcut : cutLine st.buffered = some (line, after)) :
    Served ({ st with buffered := after }.callback line) unread := by
  obtain ⟨text, htext, rfl, hbuffered⟩ := eq_of_cutLine_eq_some hcut
  obtain ⟨hsent, hrest⟩ := h
  obtain ⟨hcomplete, hlast⟩ := Lines.split_line htext (after ++ unread)
  rw [hbuffered, List.append_assoc, List.cons_append] at hsent hrest
  rw [hcomplete] at hsent
  rw [hlast] at hrest
  have hgiven : ({ st with buffered := after }.callback (text ++ [newline])).given.map Prod.fst =
      st.given.map Prod.fst ++ [text ++ [newline]] := by
    unfold LogStream.callback
    split_ifs <;> exact List.map_append
  obtain ⟨-, -, -, -, hsame, hbuffer⟩ :=
    callback_same { st with buffered := after } (text ++ [newline])
  refine ⟨?_, ?_⟩
  · rw [hsame, hbuffer, hgiven, List.append_assoc]
    exact hsent
  · rw [hbuffer]
    exact hrest

/-- A stream that is sent a line. -/
theorem Served.send {st : LogStream} {unread text : List UInt8} (h : Served st unread)
    (htext : newline ∉ text) :
    Served { st with sent := st.sent ++ [text ++ [newline]] } (unread ++ (text ++ [newline])) := by
  obtain ⟨hsent, hrest⟩ := h
  obtain ⟨hcomplete, hlast⟩ := Lines.split_line htext []
  refine ⟨?_, ?_⟩
  · show st.sent ++ [text ++ [newline]] = _
    rw [← List.append_assoc, Lines.complete_append, hrest, List.nil_append, hcomplete, hsent,
      List.append_assoc]
    rfl
  · show Lines.rest newline (st.buffered ++ (unread ++ (text ++ [newline]))) = []
    rw [← List.append_assoc, Lines.rest_append, hrest, List.nil_append, hlast]
    rfl

/-! ### One step -/

/-- The streams opened before the `i`-th are open or not whatever follows. -/
theorem firstOpen_append {i : ℕ} {sts : List LogStream} (hm : m'.streams = m.streams ++ sts)
    (hi : i < m.streams.length) : m'.FirstOpen i ↔ m.FirstOpen i := by
  have hold : ∀ j, j < i → m'.streams[j]? = m.streams[j]? := by
    intro j hj
    rw [hm, List.getElem?_append_left (hj.trans hi)]
  constructor
  · intro h j st hj hst
    exact h j st hj ((hold j hj).trans hst)
  · intro h j st hj hst
    exact h j st hj ((hold j hj).symm.trans hst)

/-- `GetOrCreateClient` finds the client of the object, or makes it. -/
theorem ReadersInv.getOrCreateClient (h : ReadersInv address r m) :
    ReadersInv address r (m.getOrCreateClient r (address r)).1 ∧
      (m.getOrCreateClient r (address r)).1.clients.lookup r.objectName =
        some (m.getOrCreateClient r (address r)).2 := by
  rcases m.getOrCreateClient_cases r (address r) with
    ⟨c, client, hlookup, -, -, heq⟩ | ⟨c, hlookup, hne, -⟩ | ⟨hnone, heq⟩
  · rw [heq]
    exact ⟨h, hlookup⟩
  · obtain ⟨client, hclient, haddress, -⟩ := h.client c hlookup
    rw [hclient] at hne
    exact absurd (congrArg some haddress) hne
  · rw [heq]
    refine ⟨⟨h.request, h.closed, ?_, ?_⟩, Finmap.lookup_insert _⟩
    · intro c hc
      have hc' : m.table.length = c :=
        Option.some.inj ((Finmap.lookup_insert _).symm.trans hc)
      refine ⟨⟨address r, false, []⟩, ?_, rfl, fun hconnected => nomatch hconnected⟩
      rw [← hc']
      exact List.getElem?_concat_length
    · intro i st hst hopen
      have hlookup := (h.opened i st hst hopen).2.1
      rw [hnone] at hlookup
      cases hlookup

/-- A new stream of the object. -/
theorem ReadersInv.append {c : ℕ} {dialed : Bool} (h : ReadersInv address r m)
    (hlookup : m.clients.lookup r.objectName = some c) (hconnect : m.connect c dialed = some m')
    (ws : List (LogRequest × LogAddress)) (bufferSize : ℤ) :
    ReadersInv address r
      { m' with writes := ws, streams := m'.streams ++ [.new r c bufferSize] } := by
  obtain ⟨client, hclient, hcases⟩ := connect_eq_some hconnect
  obtain ⟨client', hclient', haddress, hfor⟩ := h.client c hlookup
  obtain rfl : client = client' := Option.some.inj (hclient.symm.trans hclient')
  -- the client is connected now, and new bytes are there only for a stream that was open
  have hnew : m'.streams = m.streams ∧ m'.clients = m.clients ∧
      ∃ client', m'.table[c]? = some client' ∧
      client'.address = address r ∧ client'.connected = true ∧
      ((∃ st ∈ m.streams, st.closed = false) ∨ client'.unread = []) ∧
      ∀ st ∈ m.streams, st.closed = false → client' = client := by
    rcases hcases with ⟨hconnected, rfl⟩ | ⟨hconnected, rfl⟩
    · exact ⟨rfl, rfl, client, hclient, haddress, hconnected, Or.inl (hfor hconnected),
        fun _ _ _ => rfl⟩
    · refine ⟨rfl, rfl, _, List.getElem?_set_self (List.getElem?_eq_some_iff.mp hclient).1,
        haddress, rfl, Or.inr rfl, ?_⟩
      intro st hst hopen
      obtain ⟨i, hi⟩ := List.mem_iff_getElem?.mp hst
      obtain ⟨-, hlookup₁, client₁, hclient₁, hconnected₁, -⟩ := h.opened i st hi hopen
      rw [← Option.some.inj (hlookup.symm.trans hlookup₁), hclient] at hclient₁
      rw [← Option.some.inj hclient₁, hconnected] at hconnected₁
      cases hconnected₁
  obtain ⟨hstreams, hclients, client', hclient', haddress', hconnected', hunread, hsame⟩ := hnew
  rw [hstreams, hclients]
  refine ⟨?_, ?_, ?_, ?_⟩
  · intro st hst
    rcases List.mem_append.mp hst with hst | hst
    · exact h.request st hst
    · rw [List.mem_singleton.mp hst]
      rfl
  · intro st hst hclosed
    rcases List.mem_append.mp hst with hst | hst
    · exact h.closed st hst hclosed
    · rw [List.mem_singleton.mp hst] at hclosed
      cases hclosed
  · intro c₁ hc₁
    rw [← Option.some.inj (hlookup.symm.trans hc₁)]
    exact ⟨client', hclient', haddress',
      fun _ => ⟨_, List.mem_append_right _ (List.mem_singleton_self _), rfl⟩⟩
  · intro i st hst hopen
    rw [Calls.getElem?_append_singleton] at hst
    by_cases hi : i = m.streams.length
    · rw [if_pos hi] at hst
      obtain rfl := Option.some.inj hst
      refine ⟨rfl, hlookup, client', hclient', hconnected', ?_, fun _ => ⟨rfl, rfl, rfl⟩⟩
      intro hfirst
      rcases hunread with ⟨st, hst, hopen⟩ | hunread
      · obtain ⟨j, hj⟩ := List.mem_iff_getElem?.mp hst
        have hj' : j < m.streams.length := (List.getElem?_eq_some_iff.mp hj).1
        have hclosed := hfirst j st (hi ▸ hj') ((List.getElem?_append_left hj').trans hj)
        rw [hopen] at hclosed
        cases hclosed
      · rw [hunread]
        exact ⟨rfl, rfl⟩
    · rw [if_neg hi] at hst
      obtain ⟨hended, hlookup₁, client₁, hclient₁, -, hserved⟩ := h.opened i st hst hopen
      have hc : c = st.client := Option.some.inj (hlookup.symm.trans hlookup₁)
      have hclient₂ : client₁ = client' := by
        rw [← hc, hclient] at hclient₁
        rw [← Option.some.inj hclient₁]
        exact (hsame st (List.mem_of_getElem? hst) hopen).symm
      rw [hclient₂] at hserved
      refine ⟨hended, hlookup₁, client', hc ▸ hclient', hconnected', ?_⟩
      have hfirst : FirstOpen { m' with
          writes := ws, streams := m.streams ++ [.new r c bufferSize] } i ↔ m.FirstOpen i :=
        firstOpen_append rfl (List.getElem?_eq_some_iff.mp hst).1
      exact ⟨fun hf => hserved.1 (hfirst.mp hf), fun hf => hserved.2 fun hf' => hf (hfirst.mpr hf')⟩

theorem Keeps.firstOpen_iff (hk : Keeps m m') (i : ℕ) : m'.FirstOpen i ↔ m.FirstOpen i := by
  constructor
  · intro h j st hj hst
    obtain ⟨st', hst'⟩ := hk.exists_new hst
    rw [← (hk.streams j st st' hst hst').2.2.1]
    exact h j st' hj hst'
  · intro h j st' hj hst'
    obtain ⟨st, hst⟩ := hk.exists_old hst'
    rw [(hk.streams j st st' hst hst').2.2.1]
    exact h j st hj hst

/-- **A step that opens and closes no stream** keeps the invariant if it keeps what the open streams
have been served. -/
theorem ReadersInv.keeps (h : ReadersInv address r m) (hk : Keeps m m')
    (hgone : ∀ (i : ℕ) (st st' : LogStream), m.streams[i]? = some st →
      m'.streams[i]? = some st' → st.closed = true → st'.given = st.given ∧ st'.sent = st.sent)
    (hserved : ∀ (i : ℕ) (st st' : LogStream) (client client' : LogClient),
      m.streams[i]? = some st → m'.streams[i]? = some st' →
      st.closed = false → m.table[st.client]? = some client → m'.table[st.client]? = some client' →
      client.address = address r → client.connected = true →
      (m.FirstOpen i → Served st client.unread → Served st' client'.unread) ∧
        (¬ m.FirstOpen i → Fresh st → Fresh st')) : ReadersInv address r m' := by
  constructor
  · intro st' hst'
    obtain ⟨i, hi'⟩ := List.mem_iff_getElem?.mp hst'
    obtain ⟨st, hi⟩ := hk.exists_old hi'
    rw [(hk.streams i st st' hi hi').1]
    exact h.request st (List.mem_of_getElem? hi)
  · intro st' hst' hclosed
    obtain ⟨i, hi'⟩ := List.mem_iff_getElem?.mp hst'
    obtain ⟨st, hi⟩ := hk.exists_old hi'
    obtain ⟨-, -, hclosed', hended⟩ := hk.streams i st st' hi hi'
    rw [hclosed'] at hclosed
    obtain ⟨hgiven, hsent⟩ := hgone i st st' hi hi' hclosed
    rw [hended, hgiven, hsent]
    exact h.closed st (List.mem_of_getElem? hi) hclosed
  · intro c hc
    rw [hk.clients] at hc
    obtain ⟨client, hclient, haddress, hfor⟩ := h.client c hc
    obtain ⟨client', hclient', haddress', hconnected'⟩ := hk.table c client hclient
    refine ⟨client', hclient', haddress'.trans haddress, ?_⟩
    intro hconnected
    obtain ⟨st, hst, hopen⟩ := hfor (hconnected'.symm.trans hconnected)
    obtain ⟨i, hi⟩ := List.mem_iff_getElem?.mp hst
    obtain ⟨st', hi'⟩ := hk.exists_new hi
    exact ⟨st', List.mem_of_getElem? hi', (hk.streams i st st' hi hi').2.2.1.trans hopen⟩
  · intro i st' hi' hopen
    obtain ⟨st, hi⟩ := hk.exists_old hi'
    obtain ⟨-, hclient, hclosed, hended⟩ := hk.streams i st st' hi hi'
    rw [hclosed] at hopen
    obtain ⟨hnone, hlookup, client, htable, hconnected, hfirst, hfresh⟩ := h.opened i st hi hopen
    obtain ⟨client', htable', -, hconnected'⟩ := hk.table st.client client htable
    obtain ⟨client₁, hclient₁, haddress, -⟩ := h.client st.client hlookup
    rw [← Option.some.inj (htable.symm.trans hclient₁)] at haddress
    obtain ⟨hkeep, hkeepFresh⟩ :=
      hserved i st st' client client' hi hi' hopen htable htable' haddress hconnected
    rw [hclient, hended, hk.clients, hk.firstOpen_iff]
    exact ⟨hnone, hlookup, client', htable', hconnected'.trans hconnected,
      fun hf => hkeep hf (hfirst hf), fun hf => hkeepFresh hf (hfresh hf)⟩

/-- A line, which is for the object only while at most one stream is open. -/
theorem ReadersInv.sendLine {a : LogAddress} {text : List UInt8} (h : ReadersInv address r m)
    (hone : m.OneReader (address r) (.send a text)) (htext : newline ∉ text) :
    ReadersInv address r (m.sendLine address a text) := by
  obtain ⟨hstream, htable⟩ := getElem?_sendLine address m a text
  refine h.keeps (Keeps.sendLine address m a text) ?_ ?_
  · intro i st st' hst hst' hclosed
    rw [hstream i st st' hst hst', if_neg (by rw [hclosed]; exact fun hc => nomatch hc.1)]
    exact ⟨rfl, rfl⟩
  · intro i st st' client client' hst hst' hopen hclient hclient' haddress hconnected
    have hrequest : st.request = r := h.request st (List.mem_of_getElem? hst)
    rw [htable st.client client hclient] at hclient'
    rw [hstream i st st' hst hst', ← Option.some.inj hclient', hrequest, haddress]
    by_cases ha : address r = a
    · rw [if_pos ⟨hopen, ha⟩, if_pos ⟨hconnected, ha⟩]
      refine ⟨fun _ hs => hs.send htext, fun hlater => ?_⟩
      -- an open stream before it would be the second
      simp only [FirstOpen, not_forall] at hlater
      obtain ⟨j, st₀, hj, hst₀, hopen₀⟩ := hlater
      have hij := Calls.eq_of_countP_le_one (hone ha.symm) hst (by rw [hopen]; rfl) hst₀
        (by rw [Bool.not_eq_true] at hopen₀; rw [hopen₀]; rfl)
      omega
    · rw [if_neg fun hc => ha hc.2, if_neg fun hc => ha hc.2]
      exact ⟨fun _ hs => hs, fun _ hf => hf⟩

/-- **A step of a loop** that keeps what its own stream has been served; it leaves what is unread
alone, or it is the loop of the first open stream. -/
theorem ReadersInv.loopStep {i : ℕ} (h : ReadersInv address r m)
    {f : LogStream → LogClient → Option (LogStream × LogClient)}
    (hf : ∀ st client st' client', f st client = some (st', client') →
      (st'.request = st.request ∧ st'.client = st.client ∧ st'.closed = st.closed ∧
        st'.endedBy = st.endedBy) ∧
      (client'.address = client.address ∧ client'.connected = client.connected ∧
        (client'.unread = client.unread ∨ m.FirstOpen i)) ∧
      (Served st client.unread → Served st' client'.unread) ∧
      (m.FirstOpen i ∨ (Fresh st → Fresh st')))
    (hstep : m.loopStep i f = some m') : ReadersInv address r m' := by
  have hk : Keeps m m' := Keeps.loopStep
    (fun st client st' client' hfst => ⟨(hf st client st' client' hfst).1,
      (hf st client st' client' hfst).2.1.1, (hf st client st' client' hfst).2.1.2.1⟩) hstep
  obtain ⟨st, client, st', client', hst, hended, hclient, hfst, rfl⟩ := loopStep_eq_some hstep
  obtain ⟨-, ⟨-, -, hunread⟩, hserved, hfresh⟩ := hf st client st' client' hfst
  have hopen : st.closed = false := by
    rw [← Bool.not_eq_true]
    intro hclosed
    exact (h.closed st (List.mem_of_getElem? hst) hclosed).1 hended
  have hstreams := Calls.getElem?_set_of_getElem? hst st'
  have htable := Calls.getElem?_set_of_getElem? hclient client'
  refine h.keeps hk ?_ ?_
  · intro j st₁ st₁' hj hj' hclosed
    dsimp only at hj'
    rw [hstreams] at hj'
    by_cases hji : j = i
    · rw [hji, hst] at hj
      rw [← Option.some.inj hj, hopen] at hclosed
      cases hclosed
    · rw [if_neg hji, hj] at hj'
      rw [← Option.some.inj hj']
      exact ⟨rfl, rfl⟩
  · intro j st₁ st₁' client₁ client₁' hj hj' hopen₁ hc hc' _ _
    -- all open streams read from the one client of the object
    have hone : st₁.client = st.client :=
      Option.some.inj ((h.opened j st₁ hj hopen₁).2.1.symm.trans (h.opened i st hst hopen).2.1)
    dsimp only at hj' hc'
    rw [htable, if_pos hone] at hc'
    rw [hone, hclient] at hc
    rw [hstreams] at hj'
    rw [← Option.some.inj hc, ← Option.some.inj hc']
    by_cases hji : j = i
    · rw [if_pos hji] at hj'
      rw [hji, hst] at hj
      rw [← Option.some.inj hj, ← Option.some.inj hj', hji]
      refine ⟨fun _ => hserved, fun hlater => ?_⟩
      rcases hfresh with hfirst | hfresh
      · exact absurd hfirst hlater
      · exact hfresh
    · rw [if_neg hji, hj] at hj'
      rw [← Option.some.inj hj']
      refine ⟨fun hfirst hs => ?_, fun _ hs => hs⟩
      rcases hunread with hunread | hfirst'
      · rw [hunread]
        exact hs
      · -- two streams that are both the first
        rcases Nat.lt_or_gt_of_ne hji with hlt | hlt
        · exact absurd (hfirst' j st₁ hlt hj) (by rw [hopen₁]; exact Bool.false_ne_true)
        · exact absurd (hfirst i st hlt hst) (by rw [hopen]; exact Bool.false_ne_true)

/-- The close of the last open stream. -/
theorem ReadersInv.closeStream {i : ℕ} {st : LogStream} (h : ReadersInv address r m)
    (hst : m.streams[i]? = some st) (hopen : st.closed = false)
    (hothers : ∀ j st, j ≠ i → m.streams[j]? = some st → st.closed = true) :
    ReadersInv address r (m.closeStream i st) := by
  obtain ⟨hended, hlookup, client, hclient, -, hserved, -⟩ := h.opened i st hst hopen
  have hrequest : st.request = r := h.request st (List.mem_of_getElem? hst)
  have hfirst : m.FirstOpen i := fun j st' hj => hothers j st' (Nat.ne_of_lt hj)
  have hclosed : ∀ st₁ ∈ m.streams.set i { st.endBy st.request with closed := true },
      st₁.request = r ∧ st₁.closed = true ∧ st₁.endedBy ≠ none ∧
        st₁.given.map Prod.fst <+: st₁.sent := by
    refine Calls.forall_mem_set hst ⟨hrequest, rfl, ?_, ?_⟩ ?_
    · show st.endedBy.or (some st.request) ≠ none
      rw [hended]
      exact Option.some_ne_none _
    · exact ⟨_, (hserved hfirst).1.symm⟩
    · intro j st₁ hji hj
      have hmem := List.mem_of_getElem? hj
      have hclosed₁ := hothers j st₁ hji hj
      exact ⟨h.request st₁ hmem, hclosed₁, h.closed st₁ hmem hclosed₁⟩
  have hall : ∀ st₁ ∈ (m.closeStream i st).streams, st₁.request = r ∧ st₁.closed = true ∧
      st₁.endedBy ≠ none ∧ st₁.given.map Prod.fst <+: st₁.sent := by
    intro st₁ hst₁
    unfold LogManager.closeStream removeClient at hst₁
    dsimp only at hst₁
    rw [hrequest, hlookup] at hst₁
    obtain ⟨st₀, hst₀, rfl⟩ := List.mem_map.mp hst₁
    obtain ⟨hrequest₀, hclosed₀, hended₀, hgiven₀⟩ := hclosed st₀ (hrequest ▸ hst₀)
    by_cases hc : st₀.client = st.client
    · rw [if_pos hc]
      refine ⟨hrequest₀, hclosed₀, ?_, hgiven₀⟩
      show st₀.endedBy.or (some r) ≠ none
      rw [Ne, Option.or_eq_none_iff]
      exact fun hnone => hended₀ hnone.1
    · rw [if_neg hc]
      exact ⟨hrequest₀, hclosed₀, hended₀, hgiven₀⟩
  have hgone : (m.closeStream i st).clients.lookup r.objectName = none := by
    unfold LogManager.closeStream removeClient
    dsimp only
    rw [hrequest, hlookup]
    exact Finmap.lookup_erase _ _
  refine ⟨fun st₁ hst₁ => (hall st₁ hst₁).1, fun st₁ hst₁ _ => (hall st₁ hst₁).2.2, ?_, ?_⟩
  · intro c hc
    rw [hgone] at hc
    cases hc
  · intro j st₁ hj hopen₁
    rw [(hall st₁ (List.mem_of_getElem? hj)).2.1] at hopen₁
    cases hopen₁

/-- A reader takes bytes off the connection. -/
theorem ReadersInv.read {i n : ℕ} (h : ReadersInv address r m)
    (hone : m.OneReader (address r) (.read i n)) (hstep : m.step address (.read i n) = some m') : ReadersInv address r m' := by
  refine h.loopStep ?_ hstep
  intro st client st' client' hread
  split_ifs at hread with hcan
  obtain ⟨rfl, rfl⟩ := Prod.mk.inj (Option.some.inj hread)
  refine ⟨⟨rfl, rfl, rfl, rfl⟩, ⟨rfl, rfl, Or.inr hone⟩, ?_, Or.inl hone⟩
  intro hs
  unfold Served
  rw [List.append_assoc, List.take_append_drop]
  exact hs

/-- A reader gives a whole line to its stream. -/
theorem ReadersInv.give {i : ℕ} (h : ReadersInv address r m)
    (hstep : m.step address (.give i) = some m') : ReadersInv address r m' := by
  refine h.loopStep ?_ hstep
  intro st client st' client' hgive
  obtain ⟨⟨line, after⟩, hcut, hgive⟩ := Option.map_eq_some_iff.mp hgive
  obtain ⟨rfl, rfl⟩ := Prod.mk.inj hgive
  obtain ⟨hrequest, hclient, hclosed, hended, -⟩ :=
    callback_same { st with buffered := after } line
  refine ⟨⟨hrequest, hclient, hclosed, hended⟩, ⟨rfl, rfl, Or.inl rfl⟩, fun hs => hs.give hcut,
    Or.inr ?_⟩
  · intro hfresh
    rw [hfresh.buffered] at hcut
    cases hcut

/-- A reader that waits in vain has nothing buffered. -/
theorem ReadersInv.timeout {i : ℕ} (h : ReadersInv address r m)
    (hstep : m.step address (.timeout i) = some m') : ReadersInv address r m' := by
  refine h.loopStep ?_ hstep
  intro st client st' client' htimeout
  split_ifs at htimeout with hwaits
  obtain ⟨rfl, rfl⟩ := Prod.mk.inj (Option.some.inj htimeout)
  refine ⟨⟨rfl, rfl, rfl, rfl⟩, ⟨rfl, rfl, Or.inl rfl⟩, ?_,
    Or.inr fun hfresh => ⟨hfresh.sent, hfresh.given, rfl⟩⟩
  intro hs
  have hnothing : st.buffered = [] := by
    have hnone :=
      Lines.split_of_notMem (cutLine_eq_none_iff.mp (Option.isNone_iff_eq_none.mp hwaits.1))
    have hrest := hs.2
    rw [hwaits.2, List.append_nil, hnone.2] at hrest
    exact hrest
  unfold Served at hs ⊢
  rw [hnothing] at hs
  exact hs

/-- What is taken from the channel of a stream changes nothing for its reader. -/
theorem ReadersInv.take {i : ℕ} (h : ReadersInv address r m)
    (hstep : m.step address (.take i) = some m') : ReadersInv address r m' := by
  have hk : Keeps m m' := keeps_of_step rfl hstep
  obtain ⟨st, hst, rfl⟩ := Option.map_eq_some_iff.mp hstep
  have hstreams := Calls.getElem?_set_of_getElem? hst { st with queue := st.queue.drop 1 }
  -- the channel is not what the stream was given
  have hqueue : ∀ (j : ℕ) (st₁ st₁' : LogStream), m.streams[j]? = some st₁ →
      (m.streams.set i { st with queue := st.queue.drop 1 })[j]? = some st₁' →
      ∃ queue, st₁' = { st₁ with queue := queue } := by
    intro j st₁ st₁' hj hj'
    rw [hstreams] at hj'
    by_cases hji : j = i
    · rw [if_pos hji] at hj'
      rw [hji, hst] at hj
      rw [← Option.some.inj hj, ← Option.some.inj hj']
      exact ⟨_, rfl⟩
    · rw [if_neg hji, hj] at hj'
      rw [← Option.some.inj hj']
      exact ⟨_, rfl⟩
  refine h.keeps hk ?_ ?_
  · intro j st₁ st₁' hj hj' _
    obtain ⟨queue, rfl⟩ := hqueue j st₁ st₁' hj hj'
    exact ⟨rfl, rfl⟩
  · intro j st₁ st₁' client client' hj hj' _ hc hc' _ _
    obtain ⟨queue, rfl⟩ := hqueue j st₁ st₁' hj hj'
    rw [← Option.some.inj (hc.symm.trans hc')]
    exact ⟨fun _ hs => hs, fun _ hf => ⟨hf.sent, hf.given, hf.buffered⟩⟩

/-- **Every step that meets the condition** keeps the invariant. -/
theorem ReadersInv.step {a : LogAction} (h : ReadersInv address r m)
    (hone : m.OneReader (address r) a) (hrequest : OnlyRequest r m a) (hstep : m.step address a = some m') :
    ReadersInv address r m' := by
  cases a with
  | openStream r' filter bufferSize dialed =>
    obtain rfl : r' = r := hrequest
    obtain rfl := Option.some.inj hstep
    obtain ⟨hget, hlookup⟩ := h.getOrCreateClient
    rcases m.newLogStream_cases r' (address r') filter bufferSize dialed with
      heq | ⟨m₁, ws, hconnect, -, heq⟩
    · rw [heq]
      exact hget
    · rw [heq]
      exact hget.append hlookup hconnect _ bufferSize
  | closeStream i =>
    obtain ⟨st, hst, hstep⟩ := Option.bind_eq_some_iff.mp hstep
    split_ifs at hstep with hclosed
    obtain rfl := Option.some.inj hstep
    exact h.closeStream hst (Bool.eq_false_iff.mpr hclosed) hone
  | command r' name =>
    obtain rfl := Option.some.inj hstep
    obtain ⟨ws, heq, -⟩ := m.command_spec r' name
    rw [heq]
    exact ⟨h.request, h.closed, h.client, h.opened⟩
  | send a text =>
    have hsend : (if newline ∈ text then none else some (m.sendLine address a text)) = some m' :=
      hstep
    split_ifs at hsend with htext
    obtain rfl := Option.some.inj hsend
    exact h.sendLine hone htext
  | read i n => exact h.read hone hstep
  | give i => exact h.give hstep
  | timeout i => exact h.timeout hstep
  | take i => exact h.take hstep

theorem readersInv_new : ReadersInv address r .new := by
  refine ⟨?_, ?_, ?_, ?_⟩
  · intro st hst
    cases hst
  · intro st hst
    cases hst
  · intro c hc
    cases hc
  · intro i st hst
    cases hst

/-! ### Every run -/

/-- **Every stream of the object is served well** in every state of a run in which its LogServer
sends no line while two streams are open, none is closed while another is open, and of two open
streams only the first reads. -/
theorem wellServed_of_oneReader (address : LogRequest → LogAddress) (r : LogRequest)
    {as : List LogAction} (hone : (oneObjectMachine address r).EveryStep (OneReader (address r)) as) :
    (oneObjectMachine address r).Throughout WellServed as := by
  rintro pre post m rfl hrun
  have hinv : ReadersInv address r m := by
    refine Machine.EveryStep.induction (I := ReadersInv address r) readersInv_new ?_ hone.left hrun
    intro s a t hs hc hstep
    obtain ⟨hrequest, hstep⟩ := Machine.guard_step_eq_some.mp hstep
    exact hs.step hc hrequest hstep
  exact hinv.wellServed

/-- A stream is opened and given a line; then a second one is opened, a LogServer elsewhere sends a
line, and the loop of the second waits in vain. -/
def secondStream : List LogAction :=
  [.openStream ⟨"s", "o"⟩ "" 0 true, .send ⟨"host", 3333⟩ [97, 98], .read 0 3, .give 0,
    .openStream ⟨"s", "o"⟩ "" 0 true, .send ⟨"other", 3333⟩ [99], .timeout 1]

theorem wellServed_secondStream : (∃ m,
    (oneObjectMachine oneAddress ⟨"s", "o"⟩).run .new secondStream = some m ∧
      m.streams.map (fun st => st.given.map Prod.fst) = [[[97, 98, newline]], []]) ∧
    (oneObjectMachine oneAddress ⟨"s", "o"⟩).Throughout WellServed secondStream := by
  refine ⟨⟨_, rfl, rfl⟩, wellServed_of_oneReader oneAddress ⟨"s", "o"⟩ ?_⟩
  refine ((((((Machine.everyStep_nil.concat rfl ?_).concat rfl ?_).concat rfl ?_).concat rfl
    ?_).concat rfl ?_).concat rfl ?_).concat rfl ?_
  · trivial
  · intro _
    show List.countP _ _ ≤ 1
    decide
  · intro j st hj
    cases hj
  · trivial
  · trivial
  · intro heq
    exact absurd heq (by decide)
  · trivial

end UnisetPanel.LogManager
