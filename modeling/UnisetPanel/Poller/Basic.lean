/-
  `BasePoller` — the polling core of `internal/poller/base.go` that the IONC,
  Modbus and OPCUA pollers share.

  `poll` and `ForceEmitAll` copy the subscriptions, fetch each object (in
  batches, if configured), compare or store the hash of every item and pass
  what is left to the callback as one batch.  They differ in what they do with
  one item only (`observe`), so they are two instances of `emitSnapshot`.

  The order in which Go visits a map is free, so an execution gets the copy of
  the subscriptions as an argument (`IsSnapshot` says which lists are one), and
  what the server answers is an argument too (`Fetch`).

  The state is read through `Subscribed` and `lastValue`, and each operation has
  one lemma about each.
-/
import UnisetPanel.GoMap
import UnisetPanel.Timer
import Mathlib.Data.Finset.Dedup
import Mathlib.Tactic.SplitIfs

namespace UnisetPanel

/-- What a poller has to know about the items of its kind (the pure methods of `ItemFetcher`). -/
structure ItemFetcher (T : Type*) where
  getItemID : T → Int64
  getValueHash : T → String

/-- Items that are an id and a value. -/
def pairFetcher : ItemFetcher (Int64 × String) where
  getItemID := Prod.fst
  getValueHash := Prod.snd

/-- An update as the `makeUpdate` of each kind builds it. -/
structure Update (T : Type*) where
  objectName : String
  item : T
  timestamp : Time
  deriving DecidableEq, Repr

variable {T : Type*}

/-- The answers of the server during one execution: `FetchItems` fails or returns items with
requested ids. -/
structure Fetch (F : ItemFetcher T) where
  fetchItems : String → List Int64 → Except String (List T)
  requested : ∀ o ids items, fetchItems o ids = .ok items → ∀ x ∈ items, F.getItemID x ∈ ids

/-- The state of a `BasePoller` whose items are read by `F`. -/
structure BasePoller (F : ItemFetcher T) where
  batchSize : ℤ
  /-- object name → set of ids -/
  subscriptions : GoMap String (Finset Int64)
  /-- object name → id → value hash -/
  lastValues : GoMap String (GoMap Int64 String)

/-- `NewBasePoller`. -/
def newBasePoller (F : ItemFetcher T) (batchSize : ℤ) : BasePoller F where
  batchSize := batchSize
  subscriptions := ∅
  lastValues := ∅

/-- A copy of the subscriptions, as a `range` loop over the two levels of maps makes it. -/
def IsSnapshot (subs : GoMap String (Finset Int64)) (snap : List (String × List Int64)) : Prop :=
  (snap.map Prod.fst).Nodup ∧
  (∀ e ∈ snap, e.2.Nodup ∧ subs.lookup e.1 = some e.2.toFinset) ∧
  ∀ o ∈ subs.keys, o ∈ snap.map Prod.fst

instance (subs : GoMap String (Finset Int64)) (snap : List (String × List Int64)) :
    Decidable (IsSnapshot subs snap) :=
  inferInstanceAs (Decidable (_ ∧ _ ∧ _))

/-- The two operations that emit. -/
inductive EmitKind where
  | poll
  | forceEmitAll
  deriving DecidableEq, Repr

/-! ### Fetching an object -/

/-- The loop of `pollObjectBatched` from index `i`, with the items and the error collected so
far. -/
def pollObjectBatchedFrom (fetchItems : String → List Int64 → Except String (List T))
    (objectName : String) (ids : List Int64) (batchSize : ℕ) :
    ℕ → ℕ → List T → Option String → List T × Option String
  | 0, _, allItems, lastErr => (allItems, lastErr)
  | fuel + 1, i, allItems, lastErr =>
    if i < ids.length then
      let batch := ids.extract i (min (i + batchSize) ids.length)
      match fetchItems objectName batch with
      | .error err =>
        pollObjectBatchedFrom fetchItems objectName ids batchSize fuel (i + batchSize) allItems
          (some err)
      | .ok items =>
        pollObjectBatchedFrom fetchItems objectName ids batchSize fuel (i + batchSize)
          (allItems ++ items) lastErr
    else (allItems, lastErr)

/-- `pollObjectBatched`: an error is returned only if there is not a single item.  The loop runs at
most once per id. -/
def pollObjectBatched (fetchItems : String → List Int64 → Except String (List T))
    (objectName : String) (ids : List Int64) (batchSize : ℕ) : Except String (List T) :=
  match pollObjectBatchedFrom fetchItems objectName ids batchSize ids.length 0 [] none with
  | ([], some err) => .error err
  | (allItems, _) => .ok allItems

/-- `pollObject`. -/
def pollObject (fetchItems : String → List Int64 → Except String (List T)) (batchSize : ℤ)
    (objectName : String) (ids : List Int64) : Except String (List T) :=
  if 0 < batchSize ∧ batchSize < ids.length then
    pollObjectBatched fetchItems objectName ids batchSize.toNat
  else fetchItems objectName ids

namespace BasePoller

variable {F : ItemFetcher T} (p : BasePoller F)

/-! ### The methods -/

/-- `Subscribe`. -/
def subscribe (objectName : String) (ids : List Int64) : BasePoller F :=
  { p with
    subscriptions := p.subscriptions.insert objectName
      ((p.subscriptions.lookup objectName).getD ∅ ∪ ids.toFinset)
    lastValues := match p.lastValues.lookup objectName with
      | none => p.lastValues.insert objectName ∅
      | some _ => p.lastValues }

/-- `Unsubscribe`: with the last id of an object its two entries go. -/
def unsubscribe (objectName : String) (ids : List Int64) : BasePoller F :=
  match p.subscriptions.lookup objectName with
  | none => p
  | some items =>
    if items \ ids.toFinset = ∅ then
      { p with
        subscriptions := p.subscriptions.erase objectName
        lastValues := p.lastValues.erase objectName }
    else
      { p with
        subscriptions := p.subscriptions.insert objectName (items \ ids.toFinset)
        lastValues := match p.lastValues.lookup objectName with
          | none => p.lastValues
          | some values => p.lastValues.insert objectName (values.eraseAll ids) }

/-- `UnsubscribeAll`. -/
def unsubscribeAll (objectName : String) : BasePoller F :=
  { p with
    subscriptions := p.subscriptions.erase objectName
    lastValues := p.lastValues.erase objectName }

/-- The recorded hash of an item, if there is one. -/
def lastValue (objectName : String) (id : Int64) : Option String :=
  p.lastValues.lookup₂ objectName id

/-- `updateLastValue`. -/
def updateLastValue (objectName : String) (item : T) : BasePoller F :=
  { p with
    lastValues := p.lastValues.insert₂ objectName (F.getItemID item) (F.getValueHash item) }

/-- `hasValueChanged`: whether the hash is new, and the state with it recorded. -/
def hasValueChanged (objectName : String) (item : T) : Bool × BasePoller F :=
  if p.lastValue objectName (F.getItemID item) ≠ some (F.getValueHash item) then
    (true, p.updateLastValue objectName item)
  else (false, p)

/-- What the two operations do with one item: whether it is emitted, and the state afterwards. -/
def observe (kind : EmitKind) (objectName : String) (item : T) : Bool × BasePoller F :=
  match kind with
  | .poll => p.hasValueChanged objectName item
  | .forceEmitAll => (true, p.updateLastValue objectName item)

/-- One item of the loop over the fetched items; `acc` is the batch so far and the poller. -/
def emitItem (kind : EmitKind) (now : Time) (acc : List (Update T) × BasePoller F)
    (x : String × T) : List (Update T) × BasePoller F :=
  (if (acc.2.observe kind x.1 x.2).1 then acc.1 ++ [⟨x.1, x.2, now⟩] else acc.1,
    (acc.2.observe kind x.1 x.2).2)

/-- One object of the loop over the copied subscriptions. -/
def emitObject (kind : EmitKind) (fetch : Fetch F) (now : Time)
    (acc : List (Update T) × BasePoller F) (e : String × List Int64) :
    List (Update T) × BasePoller F :=
  if e.2 = [] then acc
  else match pollObject fetch.fetchItems acc.2.batchSize e.1 e.2 with
    | .error _ => acc
    | .ok items => items.foldl (fun acc item => emitItem kind now acc (e.1, item)) acc

/-- The whole loop: the batch passed to the callback (which is not called for an empty one), and the
poller afterwards. -/
def emitSnapshot (kind : EmitKind) (fetch : Fetch F) (snap : List (String × List Int64))
    (now : Time) : List (Update T) × BasePoller F :=
  snap.foldl (emitObject kind fetch now) ([], p)

/-- `poll`. -/
def poll : Fetch F → List (String × List Int64) → Time → List (Update T) × BasePoller F :=
  p.emitSnapshot .poll

/-- `ForceEmitAll`. -/
def forceEmitAll : Fetch F → List (String × List Int64) → Time →
    List (Update T) × BasePoller F :=
  p.emitSnapshot .forceEmitAll

/-- The item is subscribed. -/
def Subscribed (objectName : String) (id : Int64) : Prop :=
  id ∈ (p.subscriptions.lookup objectName).getD ∅

instance (objectName : String) (id : Int64) : Decidable (p.Subscribed objectName id) :=
  inferInstanceAs (Decidable (id ∈ (p.subscriptions.lookup objectName).getD ∅))

/-! ### What the methods do to subscriptions and recorded hashes -/

variable {p}

theorem subscribed_iff {o : String} {id : Int64} :
    p.Subscribed o id ↔ ∃ items, p.subscriptions.lookup o = some items ∧ id ∈ items := by
  unfold Subscribed
  cases p.subscriptions.lookup o <;> simp

/-- The subscriptions alone decide. -/
theorem subscribed_congr {q : BasePoller F} (h : q.subscriptions = p.subscriptions) (o : String)
    (id : Int64) : q.Subscribed o id ↔ p.Subscribed o id := by
  unfold Subscribed
  rw [h]

theorem subscribed_subscribe {o o' : String} {ids : List Int64} {id : Int64} :
    (p.subscribe o ids).Subscribed o' id ↔ o' = o ∧ id ∈ ids ∨ p.Subscribed o' id := by
  unfold Subscribed subscribe
  rw [GoMap.lookup_insert]
  by_cases h : o' = o
  · subst h
    simp [or_comm]
  · simp [h]

@[simp] theorem lastValue_subscribe (p : BasePoller F) (o o' : String) (ids : List Int64)
    (id : Int64) : (p.subscribe o ids).lastValue o' id = p.lastValue o' id := by
  unfold lastValue subscribe GoMap.lookup₂
  cases h : p.lastValues.lookup o with
  | some values => rfl
  | none =>
    show Option.bind (Finmap.lookup o' (p.lastValues.insert o ∅)) _ = _
    rw [GoMap.lookup_insert]
    by_cases ho : o' = o
    · rw [if_pos ho, ho, h]
      exact Finmap.lookup_empty id
    · rw [if_neg ho]

theorem subscribed_unsubscribe {o o' : String} {ids : List Int64} {id : Int64} :
    (p.unsubscribe o ids).Subscribed o' id ↔ p.Subscribed o' id ∧ ¬ (o' = o ∧ id ∈ ids) := by
  unfold unsubscribe
  cases h : p.subscriptions.lookup o with
  | none =>
    -- an object without an entry has no subscribed id
    constructor
    · intro hs
      refine ⟨hs, fun ⟨ho, _⟩ => ?_⟩
      obtain ⟨items, hi, -⟩ := subscribed_iff.mp hs
      rw [ho, h] at hi
      cases hi
    · exact fun hs => hs.1
  | some items =>
    by_cases ho : o' = o
    · subst ho
      have hmem : id ∈ items \ ids.toFinset ↔ p.Subscribed o' id ∧ ¬ (o' = o' ∧ id ∈ ids) := by
        unfold Subscribed
        simp [h]
      rw [← hmem]
      unfold Subscribed
      simp only
      split_ifs with hempty
      · simp [hempty]
      · simp
    · unfold Subscribed
      simp only
      split_ifs with hempty
      · simp [ho]
      · simp [ho]

/-- `Unsubscribe` forgets the hashes of the given ids, or of the whole object with its last id. -/
theorem lastValue_unsubscribe (p : BasePoller F) (o o' : String) (ids : List Int64) (id : Int64) :
    (p.unsubscribe o ids).lastValue o' id =
      if o' = o ∧ (∃ items, p.subscriptions.lookup o = some items ∧
        (id ∈ ids ∨ items \ ids.toFinset = ∅)) then none
      else p.lastValue o' id := by
  unfold unsubscribe lastValue GoMap.lookup₂
  cases h : p.subscriptions.lookup o with
  | none => simp
  | some items =>
    by_cases ho : o' = o
    · subst ho
      simp only [Option.some.injEq, true_and, exists_eq_left']
      by_cases hempty : items \ ids.toFinset = ∅
      · simp [hempty]
      · simp only [hempty, if_false, or_false]
        cases hv : p.lastValues.lookup o' with
        | none => simp [hv]
        | some values => simp [GoMap.lookup_eraseAll]
    · simp only [ho, false_and, if_false]
      by_cases hempty : items \ ids.toFinset = ∅
      · simp [hempty, ho]
      · simp only [hempty, if_false]
        cases hv : p.lastValues.lookup o with
        | none => rfl
        | some values => simp [ho]

/-- The ids that stay subscribed keep their hashes. -/
theorem lastValue_unsubscribe_of_subscribed {o o' : String} {ids : List Int64} {id : Int64}
    (h : (p.unsubscribe o ids).Subscribed o' id) :
    (p.unsubscribe o ids).lastValue o' id = p.lastValue o' id := by
  rw [lastValue_unsubscribe, if_neg]
  rintro ⟨rfl, items, hitems, hid⟩
  obtain ⟨hsub, hno⟩ := subscribed_unsubscribe.mp h
  rcases hid with hid | hempty
  · exact hno ⟨rfl, hid⟩
  · -- the entry is not dropped, since `id` is left in it
    obtain ⟨items', hitems', hmem⟩ := subscribed_iff.mp hsub
    obtain rfl : items = items' := Option.some.inj (hitems.symm.trans hitems')
    have : id ∈ items \ ids.toFinset := by
      rw [Finset.mem_sdiff, List.mem_toFinset]
      exact ⟨hmem, fun hc => hno ⟨rfl, hc⟩⟩
    rw [hempty] at this
    exact absurd this (Finset.notMem_empty id)

/-- The ids that were subscribed and are given lose them. -/
theorem lastValue_unsubscribe_eq_none {o : String} {ids : List Int64} {id : Int64}
    (h : p.Subscribed o id) (hid : id ∈ ids) : (p.unsubscribe o ids).lastValue o id = none := by
  obtain ⟨items, hitems, -⟩ := subscribed_iff.mp h
  rw [lastValue_unsubscribe, if_pos ⟨rfl, items, hitems, Or.inl hid⟩]

theorem subscribed_unsubscribeAll {o o' : String} {id : Int64} :
    (p.unsubscribeAll o).Subscribed o' id ↔ p.Subscribed o' id ∧ o' ≠ o := by
  unfold Subscribed unsubscribeAll
  rw [GoMap.lookup_erase]
  by_cases h : o' = o <;> simp [h]

theorem lastValue_unsubscribeAll (p : BasePoller F) (o o' : String) (id : Int64) :
    (p.unsubscribeAll o).lastValue o' id = if o' = o then none else p.lastValue o' id := by
  unfold lastValue unsubscribeAll GoMap.lookup₂
  rw [GoMap.lookup_erase]
  by_cases h : o' = o <;> simp [h]

theorem lastValue_updateLastValue (p : BasePoller F) (o o' : String) (item : T) (id : Int64) :
    (p.updateLastValue o item).lastValue o' id =
      if o' = o ∧ id = F.getItemID item then some (F.getValueHash item)
      else p.lastValue o' id :=
  GoMap.lookup₂_insert₂ p.lastValues o o' (F.getItemID item) id (F.getValueHash item)

/-- **Either operation records the hash of the item and changes no other.** -/
theorem lastValue_observe (p : BasePoller F) (kind : EmitKind) (o o' : String) (item : T)
    (id : Int64) : (p.observe kind o item).2.lastValue o' id =
      if o' = o ∧ id = F.getItemID item then some (F.getValueHash item)
      else p.lastValue o' id := by
  cases kind with
  | forceEmitAll => exact lastValue_updateLastValue p o o' item id
  | poll =>
    show (p.hasValueChanged o item).2.lastValue o' id = _
    unfold hasValueChanged
    split_ifs with hne heq heq
    · rw [lastValue_updateLastValue, if_pos heq]
    · rw [lastValue_updateLastValue, if_neg heq]
    · -- unchanged: the recorded hash is that of the item already
      rw [heq.1, heq.2]
      exact not_not.mp hne
    · rfl

/-- `ForceEmitAll` emits every item, `poll` those with a new hash. -/
theorem observe_fst (p : BasePoller F) (kind : EmitKind) (o : String) (item : T) :
    (p.observe kind o item).1 = true ↔
      kind = .forceEmitAll ∨ p.lastValue o (F.getItemID item) ≠ some (F.getValueHash item) := by
  cases kind with
  | forceEmitAll => simp [observe]
  | poll =>
    show (p.hasValueChanged o item).1 = true ↔ _
    unfold hasValueChanged
    split_ifs with h <;> simp [h]

@[simp] theorem subscriptions_observe (p : BasePoller F) (kind : EmitKind) (o : String) (item : T) :
    (p.observe kind o item).2.subscriptions = p.subscriptions := by
  cases kind with
  | forceEmitAll => rfl
  | poll =>
    show (p.hasValueChanged o item).2.subscriptions = _
    unfold hasValueChanged
    split_ifs <;> rfl

@[simp] theorem batchSize_observe (p : BasePoller F) (kind : EmitKind) (o : String) (item : T) :
    (p.observe kind o item).2.batchSize = p.batchSize := by
  cases kind with
  | forceEmitAll => rfl
  | poll =>
    show (p.hasValueChanged o item).2.batchSize = _
    unfold hasValueChanged
    split_ifs <;> rfl

/-! ### No hash without a subscription -/

/-- Every recorded hash belongs to a subscribed item. -/
def Clean (p : BasePoller F) : Prop := ∀ o id, p.lastValue o id ≠ none → p.Subscribed o id

theorem clean_newBasePoller (batchSize : ℤ) : (newBasePoller F batchSize).Clean :=
  fun _ _ h => absurd rfl h

theorem Clean.subscribe (h : p.Clean) (o : String) (ids : List Int64) :
    (p.subscribe o ids).Clean := by
  intro o' id hne
  rw [lastValue_subscribe] at hne
  exact subscribed_subscribe.mpr (Or.inr (h o' id hne))

theorem Clean.unsubscribe (h : p.Clean) (o : String) (ids : List Int64) :
    (p.unsubscribe o ids).Clean := by
  intro o' id hne
  have hsub : p.Subscribed o' id := by
    apply h o' id
    intro hnone
    apply hne
    rw [lastValue_unsubscribe, hnone]
    split_ifs <;> rfl
  refine subscribed_unsubscribe.mpr ⟨hsub, ?_⟩
  rintro ⟨rfl, hid⟩
  exact hne (lastValue_unsubscribe_eq_none hsub hid)

theorem Clean.unsubscribeAll (h : p.Clean) (o : String) : (p.unsubscribeAll o).Clean := by
  intro o' id hne
  rw [lastValue_unsubscribeAll] at hne
  by_cases ho : o' = o
  · rw [if_pos ho] at hne
    exact absurd rfl hne
  · rw [if_neg ho] at hne
    exact subscribed_unsubscribeAll.mpr ⟨h o' id hne, ho⟩

/-- Looking at a subscribed item records nothing else. -/
theorem Clean.observe (h : p.Clean) (kind : EmitKind) {o : String} {item : T}
    (hsub : p.Subscribed o (F.getItemID item)) : (p.observe kind o item).2.Clean := by
  intro o' id hne
  rw [subscribed_congr (subscriptions_observe p kind o item)]
  rw [lastValue_observe] at hne
  by_cases heq : o' = o ∧ id = F.getItemID item
  · rw [heq.1, heq.2]
    exact hsub
  · rw [if_neg heq] at hne
    exact h o' id hne

end BasePoller

end UnisetPanel
