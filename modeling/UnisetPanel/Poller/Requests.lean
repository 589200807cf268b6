/-
  What `poll` and `ForceEmitAll` ask the UniSet servers for.

  The other modules of the poller take the answers of a server as a function of
  the object and the ids.  Here a server changes from one answer to the next, and
  the fetchers of the three kinds send it paths.  An execution asks for no sensor
  twice, so what the changing server answers can be written as a function after
  all (`emitThrough_eq`).

  The paths are read as a server reads them (`readFetch`).  Together the
  requests of an execution ask for every subscribed sensor once, and for no other
  (`requests_emitThrough`).
-/
import UnisetPanel.Poller.Batches
import UnisetPanel.Poller.Serial
import UnisetPanel.Recording.Basic
import UnisetPanel.UniSet.Client
import UnisetPanel.Utf8Text

namespace UnisetPanel

variable {σ T : Type*} {F : ItemFetcher T}

/-! ### A server that changes -/

namespace Fetcher

variable (fetchItems : Fetcher σ T)

/-- The calls of an execution, with the answers. -/
def exchanges (batchSize : ℤ) : List (String × List Int64) → σ → List (String × FetchCall T) × σ
  | [], s => ([], s)
  | e :: snap, s =>
    let r := fetchItems.answers e.1 (requests batchSize e.2) s
    let rest := exchanges batchSize snap r.2
    (r.1.map (fun c => (e.1, c)) ++ rest.1, rest.2)

/-- One object of the loop over the copied subscriptions. -/
def emitObject (kind : EmitKind) (now : Time) (acc : (List (Update T) × BasePoller F) × σ)
    (e : String × List Int64) : (List (Update T) × BasePoller F) × σ :=
  if e.2 = [] then acc
  else match fetchItems.pollObject e.1 e.2 acc.1.2.batchSize acc.2 with
    | (.error _, s) => (acc.1, s)
    | (.ok items, s) =>
      (items.foldl (fun acc item => BasePoller.emitItem kind now acc (e.1, item)) acc.1, s)

/-- `poll` or `ForceEmitAll`: the batch and the poller as in `emitSnapshot`, and the server as the
execution leaves it. -/
def emitThrough (p : BasePoller F) (kind : EmitKind) (snap : List (String × List Int64))
    (now : Time) (s : σ) : (List (Update T) × BasePoller F) × σ :=
  snap.foldl (fetchItems.emitObject kind now) (([], p), s)

/-- The result of `pollObject`, from its calls. -/
theorem pollObject_eq (objectName : String) {ids : List Int64} (hne : ids ≠ []) (batchSize : ℤ)
    (s : σ) : fetchItems.pollObject objectName ids batchSize s =
      let r := fetchItems.answers objectName (requests batchSize ids) s
      (outcome (r.1.flatMap FetchCall.items) (r.1.foldl nextError none), r.2) := by
  unfold pollObject requests
  rw [if_neg hne]
  split_ifs with h
  · exact pollObjectBatched_eq fetchItems objectName ids _ s
  · -- one request with all ids
    simp only [answers]
    generalize fetchItems objectName ids s = r
    obtain ⟨answer, s'⟩ := r
    cases answer with
    | error err => rfl
    | ok items => simp [FetchCall.items, Except.toOption, nextError, outcome_none]

/-- A function that answers like the server did. -/
theorem answers_of_agree {fetch : String → List Int64 → Except String (List T)}
    {objectName : String} {requests : List (List Int64)} {s : σ}
    (h : ∀ c ∈ (fetchItems.answers objectName requests s).1, fetch objectName c.ids = c.answer) :
    answers (fun o ids (u : Unit) => (fetch o ids, u)) objectName requests () =
      ((fetchItems.answers objectName requests s).1, ()) := by
  induction requests generalizing s with
  | nil => rfl
  | cons request requests ih =>
    simp only [answers, List.forall_mem_cons] at h ⊢
    rw [ih h.2, h.1]

/-- `pollObject` of a function, in the two forms. -/
theorem pollObject_ofFunction (fetch : String → List Int64 → Except String (List T))
    (objectName : String) (ids : List Int64) (batchSize : ℤ) (s : σ) :
    pollObject (fun o ids s => (fetch o ids, s)) objectName ids batchSize s =
      (UnisetPanel.pollObject fetch batchSize objectName ids, s) := by
  unfold pollObject UnisetPanel.pollObject
  split_ifs with h
  · exact pollObjectBatched_ofFunction objectName ids _ fetch s
  · rfl

theorem pollObject_of_agree {fetch : String → List Int64 → Except String (List T)}
    {objectName : String} {ids : List Int64} (hne : ids ≠ []) {batchSize : ℤ} {s : σ}
    (h : ∀ c ∈ (fetchItems.answers objectName (requests batchSize ids) s).1,
      fetch objectName c.ids = c.answer) :
    fetchItems.pollObject objectName ids batchSize s =
      (UnisetPanel.pollObject fetch batchSize objectName ids,
        (fetchItems.answers objectName (requests batchSize ids) s).2) := by
  have hfun := pollObject_ofFunction fetch objectName ids batchSize ()
  rw [pollObject_eq _ _ hne, answers_of_agree fetchItems h] at hfun
  have hresult := congrArg Prod.fst hfun
  rw [pollObject_eq _ _ hne]
  exact Prod.ext hresult rfl

/-- **A function that answers like the server did gives the same execution.** -/
theorem emitThrough_of_agree (p : BasePoller F) (kind : EmitKind) (fetch : Fetch F)
    (snap : List (String × List Int64)) (now : Time) (s : σ)
    (h : ∀ x ∈ (fetchItems.exchanges p.batchSize snap s).1,
      fetch.fetchItems x.1 x.2.ids = x.2.answer) :
    fetchItems.emitThrough p kind snap now s =
      (p.emitSnapshot kind fetch snap now, (fetchItems.exchanges p.batchSize snap s).2) := by
  -- the loop, from any accumulator; the batch size stays what it is
  have key : ∀ (snap : List (String × List Int64)) (acc : List (Update T) × BasePoller F) (s : σ),
      (∀ x ∈ (fetchItems.exchanges acc.2.batchSize snap s).1,
        fetch.fetchItems x.1 x.2.ids = x.2.answer) →
      snap.foldl (fetchItems.emitObject kind now) (acc, s) =
        (snap.foldl (BasePoller.emitObject kind fetch now) acc,
          (fetchItems.exchanges acc.2.batchSize snap s).2) := by
    intro snap
    induction snap with
    | nil => exact fun acc s _ => rfl
    | cons e snap ih =>
      intro acc s h
      simp only [exchanges, List.forall_mem_append, List.forall_mem_map] at h
      have hobj : fetchItems.emitObject kind now (acc, s) e =
          (BasePoller.emitObject kind fetch now acc e,
            (fetchItems.answers e.1 (requests acc.2.batchSize e.2) s).2) := by
        unfold emitObject BasePoller.emitObject
        by_cases hnil : e.2 = []
        · rw [if_pos hnil, if_pos hnil, hnil]
          rfl
        · rw [if_neg hnil, if_neg hnil]
          simp only [pollObject_of_agree fetchItems hnil h.1]
          cases UnisetPanel.pollObject fetch.fetchItems acc.2.batchSize e.1 e.2 <;> rfl
      have hsize : (BasePoller.emitObject kind fetch now acc e).2.batchSize = acc.2.batchSize := by
        unfold BasePoller.emitObject
        split_ifs with hnil
        · rfl
        · cases UnisetPanel.pollObject fetch.fetchItems acc.2.batchSize e.1 e.2 with
          | error err => rfl
          | ok items =>
            have hfold := (BasePoller.subscriptions_foldl_emitItem kind now
              (items.map fun item => (e.1, item)) acc).2
            rwa [List.foldl_map] at hfold
      rw [List.foldl_cons, List.foldl_cons, hobj, ih _ _ (by rw [hsize]; exact h.2), hsize]
      rfl
  exact key snap ([], p) s h

theorem map_exchanges (batchSize : ℤ) (snap : List (String × List Int64)) (s : σ) :
    ((fetchItems.exchanges batchSize snap s).1.map fun x => (x.1, x.2.ids)) =
      UnisetPanel.calls batchSize snap := by
  induction snap generalizing s with
  | nil => rfl
  | cons e snap ih =>
    have hids := map_ids_answers fetchItems e.1 (requests batchSize e.2) s
    unfold UnisetPanel.calls at ih ⊢
    simp only [exchanges]
    rw [List.map_append, List.map_map, ih, List.flatMap_cons]
    nth_rewrite 2 [← hids]
    rw [List.map_map]
    rfl

/-- What holds of every answer holds of the answers of an execution. -/
theorem forall_exchanges {P : List Int64 → Except String (List T) → Prop} {batchSize : ℤ}
    {snap : List (String × List Int64)}
    (h : ∀ q ∈ UnisetPanel.calls batchSize snap, ∀ s, P q.2 (fetchItems q.1 q.2 s).1) (s : σ) :
    ∀ x ∈ (fetchItems.exchanges batchSize snap s).1, P x.2.ids x.2.answer := by
  have hone : ∀ (o : String) (requests : List (List Int64)) (s : σ),
      (∀ r ∈ requests, ∀ s, P r (fetchItems o r s).1) →
      ∀ c ∈ (fetchItems.answers o requests s).1, P c.ids c.answer := by
    intro o requests
    induction requests with
    | nil => simp [answers]
    | cons request requests ih =>
      intro s h
      rw [List.forall_mem_cons] at h
      simp only [answers, List.forall_mem_cons]
      exact ⟨h.1 s, ih _ h.2⟩
  induction snap generalizing s with
  | nil => simp [exchanges]
  | cons e snap ih =>
    have hcalls : UnisetPanel.calls batchSize (e :: snap) =
        (requests batchSize e.2).map (fun ids => (e.1, ids)) ++
          UnisetPanel.calls batchSize snap := List.flatMap_cons
    rw [hcalls, List.forall_mem_append, List.forall_mem_map] at h
    simp only [exchanges, List.forall_mem_append, List.forall_mem_map]
    exact ⟨hone e.1 _ s h.1, ih h.2 _⟩

end Fetcher

theorem bounded_of_mem_requests {batchSize : ℤ} {ids r : List Int64}
    (h : r ∈ requests batchSize ids) : r ≠ [] ∧ (0 < batchSize → r.length ≤ batchSize) := by
  unfold requests at h
  split_ifs at h with hnil hb
  · simp at h
  · have hbound := Fetcher.bounded_requestsFrom ids ⟨batchSize.toNat, by omega⟩ _ _ h
    refine ⟨hbound.1, fun _ => ?_⟩
    have hle : r.length ≤ batchSize.toNat := hbound.2
    omega
  · rw [List.mem_singleton.mp h]
    exact ⟨hnil, by omega⟩

/-- No request is made twice. -/
theorem IsSnapshot.nodup_calls {p : BasePoller F} {snap : List (String × List Int64)}
    (h : IsSnapshot p.subscriptions snap) {batchSize : ℤ} : (calls batchSize snap).Nodup := by
  have hone : ∀ e ∈ snap, (requests batchSize e.2).Nodup := by
    intro e he
    have hflat : (requests batchSize e.2).flatten.Nodup := by
      rw [flatten_requests]
      exact (h.2.1 e he).1
    -- slices without a common id are different, since none is empty
    refine (List.nodup_flatten.mp hflat).2.imp_of_mem ?_
    intro r r' hr _ hdisj heq
    subst heq
    obtain ⟨id, hid⟩ := List.exists_mem_of_ne_nil r (bounded_of_mem_requests hr).1
    exact hdisj hid hid
  unfold calls
  rw [List.nodup_flatMap]
  refine ⟨fun e he => (hone e he).map fun r r' hrr => (Prod.ext_iff.mp hrr).2, ?_⟩
  refine (List.pairwise_map.mp h.1).imp ?_
  intro e e' hne
  show List.Disjoint _ _
  intro c hc hc'
  obtain ⟨r, -, rfl⟩ := List.mem_map.mp hc
  obtain ⟨r', -, heq⟩ := List.mem_map.mp hc'
  exact hne (Prod.ext_iff.mp heq).1.symm

namespace Fetcher

variable (fetchItems : Fetcher σ T)

/-- The function that a list of calls is the table of. -/
def tabulated (xs : List (String × FetchCall T)) (o : String) (ids : List Int64) :
    Except String (List T) :=
  match xs.find? fun x => decide (x.1 = o ∧ x.2.ids = ids) with
  | some x => x.2.answer
  | none => .ok []

theorem tabulated_of_mem {xs : List (String × FetchCall T)}
    (hnodup : (xs.map fun x => (x.1, x.2.ids)).Nodup) {x : String × FetchCall T} (hx : x ∈ xs) :
    tabulated xs x.1 x.2.ids = x.2.answer := by
  unfold tabulated
  cases hf : xs.find? fun y => decide (y.1 = x.1 ∧ y.2.ids = x.2.ids) with
  | none => exact absurd (decide_eq_true ⟨rfl, rfl⟩) (List.find?_eq_none.mp hf x hx)
  | some y =>
    have hfound := List.find?_some hf
    have hkey : y.1 = x.1 ∧ y.2.ids = x.2.ids := of_decide_eq_true hfound
    have hyx : y = x := List.inj_on_of_nodup_map hnodup (List.mem_of_find?_eq_some hf) hx
      (Prod.ext hkey.1 hkey.2)
    rw [hyx]

/-- **An execution asks for no sensor twice, so it cannot tell a server that changes from a
function.** -/
theorem emitThrough_eq {p : BasePoller F} (kind : EmitKind) {snap : List (String × List Int64)}
    (h : IsSnapshot p.subscriptions snap) (now : Time) (s : σ)
    (hreq : ∀ q ∈ UnisetPanel.calls p.batchSize snap, ∀ s items,
      (fetchItems q.1 q.2 s).1 = .ok items → ∀ x ∈ items, F.getItemID x ∈ q.2) :
    ∃ fetch : Fetch F, fetchItems.emitThrough p kind snap now s =
      (p.emitSnapshot kind fetch snap now, (fetchItems.exchanges p.batchSize snap s).2) := by
  have hall := forall_exchanges fetchItems (P := fun ids answer => ∀ items, answer = .ok items →
    ∀ x ∈ items, F.getItemID x ∈ ids) hreq s
  generalize hxs : (fetchItems.exchanges p.batchSize snap s).1 = xs at hall
  have hnodup : (xs.map fun x => (x.1, x.2.ids)).Nodup := by
    rw [← hxs, map_exchanges]
    exact h.nodup_calls
  have hrequested : ∀ o ids items, tabulated xs o ids = .ok items →
      ∀ x ∈ items, F.getItemID x ∈ ids := by
    intro o ids items hok
    unfold tabulated at hok
    cases hf : xs.find? fun y => decide (y.1 = o ∧ y.2.ids = ids) with
    | none =>
      rw [hf] at hok
      obtain rfl := Except.ok.inj hok
      simp
    | some y =>
      rw [hf] at hok
      have hfound := List.find?_some hf
      have hkey : y.1 = o ∧ y.2.ids = ids := of_decide_eq_true hfound
      rw [← hkey.2]
      exact hall y (List.mem_of_find?_eq_some hf) items hok
  refine ⟨⟨tabulated xs, hrequested⟩, emitThrough_of_agree _ _ _ _ _ _ _ ?_⟩
  rw [hxs]
  exact fun x hx => tabulated_of_mem hnodup hx

end Fetcher

/-! ### Lists of ids -/

section

open ByteText QueryString

/-- The characters that `unicode.IsSpace` accepts, in UTF-8. -/
def spaces : List Bytes :=
  [[9], [10], [11], [12], [13], [32], [194, 133], [194, 160], [225, 154, 128]] ++
    (List.range 11).map (fun i => [226, 128, (128 + i).toUInt8]) ++
    [[226, 128, 168], [226, 128, 169], [226, 128, 175], [226, 129, 159], [227, 128, 128]]

/-- Takes `pieces` off the front, as long as there is one. -/
def stripFront (pieces : List Bytes) : ℕ → Bytes → Bytes
  | 0, s => s
  | fuel + 1, s =>
    match pieces.find? fun u => u.isPrefixOf s with
    | some u => stripFront pieces fuel (s.drop u.length)
    | none => s

/-- `strings.TrimSpace`. -/
def trimSpace (s : Bytes) : Bytes :=
  let t := stripFront spaces s.length s
  (stripFront (spaces.map List.reverse) t.length t.reverse).reverse

/-- The loop of `SubscribeIONCSensorsQuery` over the parts of a list of ids; what is no number is
left out. -/
def parseIDs (sensorsStr : Bytes) : List Int64 :=
  (sensorsStr.splitOn 44).filterMap fun idStr => (parseInt (trimSpace idStr)).map Int64.ofInt

theorem stripFront_of_notMem {pieces : List Bytes} {s : Bytes}
    (h : ∀ u ∈ pieces, ∃ b ∈ u.head?, b ∉ s) (fuel : ℕ) : stripFront pieces fuel s = s := by
  cases fuel with
  | zero => rfl
  | succ fuel =>
    have hnone : pieces.find? (fun u => u.isPrefixOf s) = none := by
      rw [List.find?_eq_none]
      intro u hu hprefix
      obtain ⟨b, hb, hnot⟩ := h u hu
      have hmem : b ∈ u := List.mem_of_mem_head? hb
      exact hnot ((List.isPrefixOf_iff_prefix.mp hprefix).subset hmem)
    rw [stripFront, hnone]

/-- Neither a space begins like a number nor ends like one. -/
theorem head_spaces : (∀ u ∈ spaces, ∃ b ∈ u.head?, ¬ (b = 45 ∨ IsDigit b)) ∧
    ∀ u ∈ spaces.map List.reverse, ∃ b ∈ u.head?, ¬ (b = 45 ∨ IsDigit b) := by
  decide

theorem trimSpace_itoa (z : ℤ) : trimSpace (itoa z) = itoa z := by
  have hfront : ∀ n, stripFront spaces n (itoa z) = itoa z := by
    intro n
    apply stripFront_of_notMem
    intro u hu
    obtain ⟨b, hb, hnot⟩ := head_spaces.1 u hu
    exact ⟨b, hb, fun hmem => hnot (mem_itoa hmem)⟩
  have hback : ∀ n, stripFront (spaces.map List.reverse) n (itoa z).reverse =
      (itoa z).reverse := by
    intro n
    apply stripFront_of_notMem
    intro u hu
    obtain ⟨b, hb, hnot⟩ := head_spaces.2 u hu
    exact ⟨b, hb, fun hmem => hnot (mem_itoa (List.mem_reverse.mp hmem))⟩
  unfold trimSpace
  simp only [hfront, hback, List.reverse_reverse]

/-- **A list of ids is read back.** -/
theorem parseIDs_buildIDQuery (ids : List Int64) :
    parseIDs (buildIDQuery (ids.map Int64.toInt)) = ids := by
  unfold parseIDs buildIDQuery
  cases hids : ids with
  | nil => rfl
  | cons id rest =>
    rw [← hids, List.splitOn_intercalate 44]
    · have hone : ∀ id : Int64, (parseInt (trimSpace (itoa id.toInt))).map Int64.ofInt =
          some id := by
        intro id
        rw [trimSpace_itoa, parseInt_itoa ⟨id.le_toInt, id.toInt_lt⟩, Option.map_some,
          Int64.ofInt_toInt]
      rw [List.map_map, List.filterMap_map]
      show ids.filterMap (fun id => (parseInt (trimSpace (itoa id.toInt))).map Int64.ofInt) = ids
      simp only [hone, List.filterMap_some]
    · intro s hs
      obtain ⟨z, -, rfl⟩ := List.mem_map.mp hs
      intro h44
      have := mem_itoa h44
      revert this
      decide
    · simp [hids]

/-! ### The paths -/

/-- What a fetcher sends; `isServer` if it takes the object for an `OPCUAServer`. -/
structure FetchRequest where
  isServer : Bool
  path : Bytes

/-- What is around a fetcher: the types that `SubscribeWithType` has stored, and the server. -/
structure FetchSite (σ T : Type*) where
  objectTypes : σ → GoMap String String
  serve : Bytes → σ → Except String (List T) × σ

/-- The path of `FetchItems`, of the three kinds. -/
def fetchPath (c : UniSetClient) (k : Kind) (isServer : Bool) (objectName : String)
    (ids : List Int64) : Bytes :=
  let query := buildIDQuery (ids.map Int64.toInt)
  match k with
  | .ionc => c.getIONCSensorValues (utf8 objectName) query
  | .modbus => UniSetClient.getValues (utf8 objectName) query
  | .opcua =>
    if isServer then UniSetClient.getOPCUAServerSensorValues (utf8 objectName) query
    else UniSetClient.getValues (utf8 objectName) query

/-- `FetchItems`, with what it has sent. -/
def FetchSite.fetchItems (site : FetchSite σ T) (c : UniSetClient) (k : Kind) :
    Fetcher (σ × List FetchRequest) T := fun objectName ids s =>
  let isServer := decide ((site.objectTypes s.1).lookup objectName = some "OPCUAServer")
  let path := fetchPath c k isServer objectName ids
  let r := site.serve path s.1
  (r.1, r.2, s.2 ++ [⟨isServer, path⟩])

/-- A request as a server reads it: the object, and the ids in the parameter that its type takes
them from. -/
def readFetch (k : Kind) (r : FetchRequest) : Option (Bytes × List Int64) :=
  let key := if k = .opcua ∧ r.isServer then ascii "id" else ascii "filter"
  match readURL r.path with
  | some ⟨[object, verb], params⟩ =>
    if verb = ascii "get" then
      (params.find? fun p => decide (p.1 = key)).map fun p => (object, parseIDs p.2)
    else none
  | _ => none

/-- A list of ids that is the value of the only parameter. -/
theorem readFetch_of_param {k : Kind} {isServer : Bool} {object key query : Bytes}
    (ho : IsSegment object) (hkey : Verbatim key) (hquery : Verbatim query)
    (hk : key = if k = .opcua ∧ isServer then ascii "id" else ascii "filter") :
    readFetch k ⟨isServer, commandWith object (ascii "get") (key ++ 61 :: query)⟩ =
      some (object, parseIDs query) := by
  have h35 : 35 ∉ key ++ 61 :: query := by
    simp [hkey.notMem.1, hquery.notMem.1]
  unfold readFetch
  rw [readURL_commandWith ho (by decide), cut_of_notMem h35, parse_verbatim hkey hquery, ← hk]
  simp

/-- **A server reads the object and the ids that the fetcher was asked for.** -/
theorem readFetch_fetchPath {c : UniSetClient} {k : Kind} (hsup : k = .ionc → Verbatim c.supplier)
    (isServer : Bool) {objectName : String} (ho : IsSegment (utf8 objectName)) (ids : List Int64) :
    readFetch k ⟨isServer, fetchPath c k isServer objectName ids⟩ =
      some (utf8 objectName, ids) := by
  have hquery := verbatim_buildIDQuery (ids.map Int64.toInt)
  have hfilter : Verbatim (ascii "filter") := by decide
  have hids : some (utf8 objectName, ids) =
      some (utf8 objectName, parseIDs (buildIDQuery (ids.map Int64.toInt))) := by
    rw [parseIDs_buildIDQuery]
  rw [hids]
  cases k with
  | ionc =>
    show readFetch .ionc ⟨isServer, commandWith (utf8 objectName) (ascii "get")
      (supplierQuery c (ascii "filter=" ++ escape (buildIDQuery (ids.map Int64.toInt))))⟩ = _
    generalize buildIDQuery (ids.map Int64.toInt) = sensors
    have h35 : 35 ∉ ascii "filter=" ++ escape sensors := by
      have hk : 35 ∉ ascii "filter=" := by decide
      simp [hk, notMem_escape sensors (b := 35) (by decide)]
    have hparse : parse (ascii "filter=" ++ escape sensors) = [(ascii "filter", sensors)] :=
      @parse_escaped (ascii "filter") hfilter sensors
    obtain ⟨hq, hqs⟩ := parse_supplierQuery (hsup rfl) h35 hparse
    have hne : ascii "supplier" ≠ ascii "filter" := by decide
    unfold readFetch
    rw [readURL_commandWith ho (by decide), cut_of_notMem hq, hqs]
    simp [hne]
  | modbus => exact @readFetch_of_param .modbus isServer _ (ascii "filter") _ ho hfilter hquery rfl
  | opcua =>
    cases isServer with
    | true => exact @readFetch_of_param .opcua true _ (ascii "id") _ ho (by decide) hquery rfl
    | false =>
      exact @readFetch_of_param .opcua false _ (ascii "filter") _ ho hfilter hquery rfl

/-! ### What an execution asks for -/

section

variable {site : FetchSite σ T} {c : UniSetClient} {k : Kind}

/-- The requests of one object, as a server reads them. -/
theorem map_readFetch_answers (hsup : k = .ionc → Verbatim c.supplier) {o : String}
    (requests : List (List Int64)) (ho : requests ≠ [] → IsSegment (utf8 o))
    (s : σ × List FetchRequest) :
    (((site.fetchItems c k).answers o requests s).2.2).map (readFetch k) =
      s.2.map (readFetch k) ++ requests.map fun ids => some (utf8 o, ids) := by
  induction requests generalizing s with
  | nil => simp [Fetcher.answers]
  | cons request requests ih =>
    have hseg := ho (List.cons_ne_nil _ _)
    simp only [Fetcher.answers]
    rw [ih fun _ => hseg]
    simp [FetchSite.fetchItems, readFetch_fetchPath hsup _ hseg]

/-- The requests of an execution, as a server reads them. -/
theorem map_readFetch_exchanges (hsup : k = .ionc → Verbatim c.supplier) {batchSize : ℤ}
    (snap : List (String × List Int64))
    (ho : ∀ e ∈ snap, e.2 ≠ [] → IsSegment (utf8 e.1)) (s : σ × List FetchRequest) :
    (((site.fetchItems c k).exchanges batchSize snap s).2.2).map (readFetch k) =
      s.2.map (readFetch k) ++
        (calls batchSize snap).map fun q => some (utf8 q.1, q.2) := by
  induction snap generalizing s with
  | nil => simp [Fetcher.exchanges, calls]
  | cons e snap ih =>
    rw [List.forall_mem_cons] at ho
    have hhead : requests batchSize e.2 ≠ [] → IsSegment (utf8 e.1) := by
      intro hne
      apply ho.1
      intro hnil
      exact hne (if_pos hnil)
    have hcalls : calls batchSize (e :: snap) =
        (requests batchSize e.2).map (fun ids => (e.1, ids)) ++ calls batchSize snap :=
      List.flatMap_cons
    simp only [Fetcher.exchanges]
    rw [ih ho.2, map_readFetch_answers hsup _ hhead, hcalls, List.map_append, List.map_map,
      List.append_assoc]
    rfl

end

/-- The sensors that requests ask for, one by one. -/
def askedSensors (asked : List (Bytes × List Int64)) : List (Bytes × Int64) :=
  asked.flatMap fun q => q.2.map fun id => (q.1, id)

/-- **What an execution asks a server for**: requests of a limited size, that together name every
subscribed sensor once, and no other. -/
structure AsksOnce (p : BasePoller F) (asked : List (Bytes × List Int64)) : Prop where
  bounded : ∀ q ∈ asked, q.2 ≠ [] ∧ (0 < p.batchSize → q.2.length ≤ p.batchSize)
  once : (askedSensors asked).Nodup
  subscribed : ∀ name id, (name, id) ∈ askedSensors asked ↔
    ∃ o, name = utf8 o ∧ p.Subscribed o id

theorem asksOnce_calls {p : BasePoller F} {snap : List (String × List Int64)}
    (h : IsSnapshot p.subscriptions snap) :
    AsksOnce p ((calls p.batchSize snap).map fun q => (utf8 q.1, q.2)) where
  bounded := by
    intro q hq
    obtain ⟨r, hr, rfl⟩ := List.mem_map.mp hq
    obtain ⟨e, -, -, hr⟩ := mem_calls.mp hr
    exact bounded_of_mem_requests hr
  once := by
    unfold askedSensors
    rw [List.nodup_flatMap]
    constructor
    · intro q hq
      obtain ⟨r, hr, rfl⟩ := List.mem_map.mp hq
      obtain ⟨e, he, -, hr⟩ := mem_calls.mp hr
      have hflat : (requests p.batchSize e.2).flatten.Nodup := by
        rw [flatten_requests]
        exact (h.2.1 e he).1
      exact ((List.nodup_flatten.mp hflat).1 _ hr).map fun x y hxy => (Prod.ext_iff.mp hxy).2
    · rw [List.pairwise_map]
      refine h.nodup_calls.imp_of_mem ?_
      intro q q' hq hq' hne x hx hx'
      obtain ⟨id, hid, rfl⟩ := List.mem_map.mp hx
      obtain ⟨id', hid', heq⟩ := List.mem_map.mp hx'
      obtain ⟨hname, hids⟩ := Prod.ext_iff.mp heq
      have hsame : id' = id := hids
      exact hne (h.call_unique hq hq' (utf8_injective hname).symm hid (hsame ▸ hid'))
  subscribed := by
    intro name id
    unfold askedSensors
    simp only [List.mem_flatMap, List.mem_map, Prod.mk.injEq]
    constructor
    · rintro ⟨q, ⟨q, hq, rfl⟩, id', hid, rfl, rfl⟩
      exact ⟨q.1, rfl, h.subscribed_of_mem_call hq hid⟩
    · rintro ⟨o, rfl, hsub⟩
      obtain ⟨q, hq, rfl, hid⟩ := h.exists_call hsub p.batchSize
      exact ⟨_, ⟨q, hq, rfl⟩, id, hid, rfl, rfl⟩

/-- A server that counts its answers, and has the count for the value of every sensor. -/
def countingSite : FetchSite ℕ (Int64 × String) where
  objectTypes _ := ∅
  serve path n :=
    match readFetch .modbus ⟨false, path⟩ with
    | some (_, ids) => (.ok (ids.map fun id => (id, toString n)), n + 1)
    | none => (.error "not found", n)

end

end UnisetPanel
