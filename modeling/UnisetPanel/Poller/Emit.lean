/-
  What an execution of `poll` or `ForceEmitAll` emits.

  `calls` lists the requests an execution makes: one for each object, or one
  for each batch.  `fetchedItems` lists the items that come back, in order; a
  request that fails contributes nothing.  The execution then looks at these
  items one after the other (`emitSnapshot_eq`), and for each single sensor
  this is change detection (`emitted_emitSnapshot`): the stream of its items is
  compared with the recorded hash, which ends up being that of the last one.
-/
import UnisetPanel.Poller.Basic
import UnisetPanel.Changes

namespace UnisetPanel

variable {T : Type*} {F : ItemFetcher T}

/-! ### The requests -/

/-- The slices that `pollObjectBatched` requests from index `i` on. -/
def requestsFrom (ids : List Int64) (batchSize : ℕ) : ℕ → ℕ → List (List Int64)
  | 0, _ => []
  | fuel + 1, i =>
    if i < ids.length then
      ids.extract i (min (i + batchSize) ids.length) ::
        requestsFrom ids batchSize fuel (i + batchSize)
    else []

/-- The ids of one object, as they are requested. -/
def requests (batchSize : ℤ) (ids : List Int64) : List (List Int64) :=
  if ids = [] then []
  else if 0 < batchSize ∧ batchSize < ids.length then
    requestsFrom ids batchSize.toNat ids.length 0
  else [ids]

/-- The requests of an execution, with the object each is about. -/
def calls (batchSize : ℤ) (snap : List (String × List Int64)) : List (String × List Int64) :=
  snap.flatMap fun e => (requests batchSize e.2).map fun ids => (e.1, ids)

/-- The items of an answer; none if the request failed. -/
def answer (fetchItems : String → List Int64 → Except String (List T))
    (c : String × List Int64) : List (String × T) :=
  match fetchItems c.1 c.2 with
  | .error _ => []
  | .ok items => items.map fun x => (c.1, x)

/-- The items an execution fetches, in order. -/
def fetchedItems (fetchItems : String → List Int64 → Except String (List T)) (batchSize : ℤ)
    (snap : List (String × List Int64)) : List (String × T) :=
  (calls batchSize snap).flatMap (answer fetchItems)

theorem flatten_requestsFrom (ids : List Int64) {batchSize : ℕ} (hb : 0 < batchSize)
    (fuel i : ℕ) (h : ids.length ≤ i + fuel) :
    (requestsFrom ids batchSize fuel i).flatten = ids.drop i := by
  induction fuel generalizing i with
  | zero => exact (List.drop_eq_nil_of_le h).symm
  | succ fuel ih =>
    unfold requestsFrom
    split_ifs with hi
    · rw [List.flatten_cons, ih (i + batchSize) (by omega), List.extract_eq_take_drop]
      rcases Nat.le_total (i + batchSize) ids.length with hle | hle
      · rw [Nat.min_eq_left hle, Nat.add_sub_cancel_left, ← List.drop_drop,
          List.take_append_drop]
      · rw [Nat.min_eq_right hle, List.drop_eq_nil_of_le hle, List.append_nil]
        exact List.take_of_length_le (by simp)
    · exact (List.drop_eq_nil_of_le (Nat.not_lt.mp hi)).symm

/-- **Every id is requested exactly once, in order.** -/
theorem flatten_requests (batchSize : ℤ) (ids : List Int64) :
    (requests batchSize ids).flatten = ids := by
  unfold requests
  split_ifs with hnil hb
  · exact hnil.symm
  · exact flatten_requestsFrom ids (by omega) ids.length 0 (by omega)
  · simp

/-! ### The items -/

theorem pollObjectBatchedFrom_fst (fetchItems : String → List Int64 → Except String (List T))
    (o : String) (ids : List Int64) (batchSize fuel i : ℕ) (allItems : List T)
    (lastErr : Option String) :
    ((pollObjectBatchedFrom fetchItems o ids batchSize fuel i allItems lastErr).1.map
        fun x => (o, x)) =
      (allItems.map fun x => (o, x)) ++
        (requestsFrom ids batchSize fuel i).flatMap fun r => answer fetchItems (o, r) := by
  induction fuel generalizing i allItems lastErr with
  | zero => simp [pollObjectBatchedFrom, requestsFrom]
  | succ fuel ih =>
    unfold pollObjectBatchedFrom requestsFrom
    split_ifs with hi
    · rw [List.flatMap_cons]
      have hans : answer fetchItems (o, ids.extract i (min (i + batchSize) ids.length)) =
          match fetchItems o (ids.extract i (min (i + batchSize) ids.length)) with
          | .error _ => []
          | .ok items => items.map fun x => (o, x) := rfl
      cases hf : fetchItems o (ids.extract i (min (i + batchSize) ids.length)) with
      | error err =>
        -- a failed request is skipped
        rw [hf] at hans
        simp only [hf]
        rw [ih, hans, List.nil_append]
      | ok items =>
        rw [hf] at hans
        simp only [hf]
        rw [ih, hans, List.map_append, List.append_assoc]
    · simp

/-- The items of `pollObject` are those of its requests, whether or not it reports an error. -/
theorem pollObject_items (fetchItems : String → List Int64 → Except String (List T))
    (batchSize : ℤ) (o : String) {ids : List Int64} (hne : ids ≠ []) :
    (match pollObject fetchItems batchSize o ids with
      | .error _ => []
      | .ok items => items.map fun x => (o, x)) =
      (requests batchSize ids).flatMap fun r => answer fetchItems (o, r) := by
  unfold pollObject requests
  rw [if_neg hne]
  split_ifs with hb
  · have hfst := pollObjectBatchedFrom_fst fetchItems o ids batchSize.toNat ids.length 0 [] none
    rw [List.map_nil, List.nil_append] at hfst
    rw [← hfst]
    unfold pollObjectBatched
    obtain ⟨allItems, lastErr⟩ :=
      pollObjectBatchedFrom fetchItems o ids batchSize.toNat ids.length 0 [] none
    cases allItems with
    | cons x xs => rfl
    | nil => cases lastErr <;> rfl
  · rw [List.flatMap_singleton]
    rfl

/-! ### The loop -/

namespace BasePoller

/-- Looking at items one after the other changes neither subscriptions nor batch size. -/
theorem subscriptions_foldl_emitItem (kind : EmitKind) (now : Time) (xs : List (String × T))
    (acc : List (Update T) × BasePoller F) :
    (xs.foldl (emitItem kind now) acc).2.subscriptions = acc.2.subscriptions ∧
      (xs.foldl (emitItem kind now) acc).2.batchSize = acc.2.batchSize := by
  induction xs generalizing acc with
  | nil => exact ⟨rfl, rfl⟩
  | cons x xs ih =>
    rw [List.foldl_cons, (ih _).1, (ih _).2]
    exact ⟨subscriptions_observe .., batchSize_observe ..⟩

/-- **An execution looks at the fetched items one after the other.** -/
theorem emitSnapshot_eq (p : BasePoller F) (kind : EmitKind) (fetch : Fetch F)
    (snap : List (String × List Int64)) (now : Time) :
    p.emitSnapshot kind fetch snap now =
      (fetchedItems fetch.fetchItems p.batchSize snap).foldl (emitItem kind now) ([], p) := by
  have key : ∀ (snap : List (String × List Int64)) (acc : List (Update T) × BasePoller F),
      snap.foldl (emitObject kind fetch now) acc =
        (fetchedItems fetch.fetchItems acc.2.batchSize snap).foldl (emitItem kind now) acc := by
    intro snap
    induction snap with
    | nil => exact fun acc => rfl
    | cons e snap ih =>
      intro acc
      -- one object: the items of its requests
      have hobj : emitObject kind fetch now acc e = ((requests acc.2.batchSize e.2).flatMap
          fun r => answer fetch.fetchItems (e.1, r)).foldl (emitItem kind now) acc := by
        unfold emitObject
        by_cases hnil : e.2 = []
        · rw [if_pos hnil, hnil]
          rfl
        · rw [if_neg hnil, ← pollObject_items fetch.fetchItems acc.2.batchSize e.1 hnil]
          cases pollObject fetch.fetchItems acc.2.batchSize e.1 e.2 with
          | error err => rfl
          | ok items => rw [List.foldl_map]
      have hsplit : fetchedItems fetch.fetchItems acc.2.batchSize (e :: snap) =
          ((requests acc.2.batchSize e.2).flatMap fun r => answer fetch.fetchItems (e.1, r)) ++
            fetchedItems fetch.fetchItems acc.2.batchSize snap := by
        unfold fetchedItems calls
        rw [List.flatMap_cons, List.flatMap_append, List.flatMap_map]
      rw [List.foldl_cons, ih, hobj, (subscriptions_foldl_emitItem kind now _ acc).2, hsplit,
        List.foldl_append]
  exact key snap ([], p)

end BasePoller

/-! ### One sensor -/

/-- A sensor of a poller: an object and an id. -/
structure ItemRef where
  objectName : String
  id : Int64
  deriving DecidableEq, Repr

/-- What happened to one sensor: an item that `poll` or `ForceEmitAll` fetched or emitted. -/
abbrev ItemEvent (T : Type*) := EmitKind × T

/-- The hash of the item of an event. -/
def eventHash (F : ItemFetcher T) (e : ItemEvent T) : String := F.getValueHash e.2

/-- The event belongs to `ForceEmitAll`. -/
def isForced (e : ItemEvent T) : Bool := decide (e.1 = .forceEmitAll)

/-- The items about `r`, as events of an execution of `kind`. -/
def itemsOf (F : ItemFetcher T) (r : ItemRef) (kind : EmitKind) (xs : List (String × T)) :
    List (ItemEvent T) :=
  (xs.filter fun x => x.1 = r.objectName ∧ F.getItemID x.2 = r.id).map fun x => (kind, x.2)

/-- The updates about `r` in a batch, as events of an execution of `kind`. -/
def updatesOf (F : ItemFetcher T) (r : ItemRef) (kind : EmitKind) (batch : List (Update T)) :
    List (ItemEvent T) :=
  (batch.filter fun u => u.objectName = r.objectName ∧ F.getItemID u.item = r.id).map
    fun u => (kind, u.item)

theorem itemsOf_cons (r : ItemRef) (kind : EmitKind) (x : String × T) (xs : List (String × T)) :
    itemsOf F r kind (x :: xs) =
      if x.1 = r.objectName ∧ F.getItemID x.2 = r.id then (kind, x.2) :: itemsOf F r kind xs
      else itemsOf F r kind xs := by
  unfold itemsOf
  by_cases h : x.1 = r.objectName ∧ F.getItemID x.2 = r.id
  · rw [if_pos h, List.filter_cons_of_pos (by simp [h]), List.map_cons]
  · rw [if_neg h, List.filter_cons_of_neg (by simpa using h)]

theorem itemsOf_append (r : ItemRef) (kind : EmitKind) (xs ys : List (String × T)) :
    itemsOf F r kind (xs ++ ys) = itemsOf F r kind xs ++ itemsOf F r kind ys := by
  unfold itemsOf
  rw [List.filter_append, List.map_append]

theorem updatesOf_append (r : ItemRef) (kind : EmitKind) (us vs : List (Update T)) :
    updatesOf F r kind (us ++ vs) = updatesOf F r kind us ++ updatesOf F r kind vs := by
  unfold updatesOf
  rw [List.filter_append, List.map_append]

theorem updatesOf_singleton (r : ItemRef) (kind : EmitKind) (u : Update T) :
    updatesOf F r kind [u] =
      if u.objectName = r.objectName ∧ F.getItemID u.item = r.id then [(kind, u.item)] else [] := by
  unfold updatesOf
  by_cases h : u.objectName = r.objectName ∧ F.getItemID u.item = r.id
  · rw [if_pos h, List.filter_cons_of_pos (by simp [h])]
    rfl
  · rw [if_neg h, List.filter_cons_of_neg (by simpa using h)]
    rfl

namespace BasePoller

/-- **Looking at items is change detection for each sensor**, from its recorded hash on. -/
theorem updatesOf_foldl_emitItem (r : ItemRef) (kind : EmitKind) (now : Time)
    (xs : List (String × T)) (acc : List (Update T) × BasePoller F) :
    updatesOf F r kind (xs.foldl (emitItem kind now) acc).1 = updatesOf F r kind acc.1 ++
        changes (eventHash F) isForced (acc.2.lastValue r.objectName r.id)
          (itemsOf F r kind xs) ∧
      (xs.foldl (emitItem kind now) acc).2.lastValue r.objectName r.id =
        lastKey (eventHash F) (acc.2.lastValue r.objectName r.id) (itemsOf F r kind xs) := by
  induction xs generalizing acc with
  | nil => exact ⟨(List.append_nil _).symm, rfl⟩
  | cons x xs ih =>
    obtain ⟨ihup, ihlast⟩ := ih (emitItem kind now acc x)
    rw [List.foldl_cons, ihup, ihlast, itemsOf_cons]
    have hlast : (emitItem kind now acc x).2.lastValue r.objectName r.id =
        if r.objectName = x.1 ∧ r.id = F.getItemID x.2 then some (F.getValueHash x.2)
        else acc.2.lastValue r.objectName r.id :=
      lastValue_observe acc.2 kind x.1 r.objectName x.2 r.id
    have hemit : (emitItem kind now acc x).1 =
        if (acc.2.observe kind x.1 x.2).1 then acc.1 ++ [⟨x.1, x.2, now⟩] else acc.1 := rfl
    by_cases hr : x.1 = r.objectName ∧ F.getItemID x.2 = r.id
    · -- the item is about `r`
      rw [if_pos hr]
      rw [if_pos ⟨hr.1.symm, hr.2.symm⟩] at hlast
      rw [hlast, lastKey_cons]
      refine ⟨?_, rfl⟩
      have hobs := observe_fst acc.2 kind x.1 x.2
      rw [hr.1, hr.2] at hobs
      have hkeep : isForced (kind, x.2) = true ∨
          acc.2.lastValue r.objectName r.id ≠ some (eventHash F (kind, x.2)) ↔
            (acc.2.observe kind r.objectName x.2).1 = true := by
        rw [hobs]
        simp [isForced, eventHash]
      rw [hemit, hr.1]
      by_cases hk : (acc.2.observe kind r.objectName x.2).1 = true
      · rw [if_pos hk, changes_cons_pos _ _ (hkeep.mpr hk), updatesOf_append, updatesOf_singleton,
          if_pos ⟨rfl, hr.2⟩, List.append_assoc]
        rfl
      · rw [if_neg hk, changes_cons_neg _ _ (mt hkeep.mp hk)]
        rfl
    · -- it is about another sensor
      rw [if_neg hr]
      rw [if_neg fun h => hr ⟨h.1.symm, h.2.symm⟩] at hlast
      rw [hlast, hemit]
      refine ⟨?_, rfl⟩
      by_cases hk : (acc.2.observe kind x.1 x.2).1 = true
      · rw [if_pos hk, updatesOf_append, updatesOf_singleton, if_neg hr, List.append_nil]
      · rw [if_neg hk]

/-- **What an execution emits about a sensor, and the hash it leaves.** -/
theorem updatesOf_emitSnapshot (p : BasePoller F) (r : ItemRef) (kind : EmitKind)
    (fetch : Fetch F) (snap : List (String × List Int64)) (now : Time) :
    updatesOf F r kind (p.emitSnapshot kind fetch snap now).1 =
        changes (eventHash F) isForced (p.lastValue r.objectName r.id)
          (itemsOf F r kind (fetchedItems fetch.fetchItems p.batchSize snap)) ∧
      (p.emitSnapshot kind fetch snap now).2.lastValue r.objectName r.id =
        lastKey (eventHash F) (p.lastValue r.objectName r.id)
          (itemsOf F r kind (fetchedItems fetch.fetchItems p.batchSize snap)) := by
  rw [emitSnapshot_eq]
  exact updatesOf_foldl_emitItem r kind now _ ([], p)

@[simp] theorem subscriptions_emitSnapshot (p : BasePoller F) (kind : EmitKind) (fetch : Fetch F)
    (snap : List (String × List Int64)) (now : Time) :
    (p.emitSnapshot kind fetch snap now).2.subscriptions = p.subscriptions := by
  rw [emitSnapshot_eq]
  exact (subscriptions_foldl_emitItem kind now _ ([], p)).1

/-- `ForceEmitAll` emits every item it fetches. -/
theorem forceEmitAll_fst (p : BasePoller F) (fetch : Fetch F) (snap : List (String × List Int64))
    (now : Time) : (p.forceEmitAll fetch snap now).1 =
      (fetchedItems fetch.fetchItems p.batchSize snap).map fun x => ⟨x.1, x.2, now⟩ := by
  have key : ∀ (xs : List (String × T)) (acc : List (Update T) × BasePoller F),
      (xs.foldl (emitItem .forceEmitAll now) acc).1 =
        acc.1 ++ xs.map fun x => ⟨x.1, x.2, now⟩ := by
    intro xs
    induction xs with
    | nil => exact fun acc => (List.append_nil acc.1).symm
    | cons x xs ih =>
      intro acc
      rw [List.foldl_cons, ih, List.map_cons]
      show acc.1 ++ [_] ++ _ = _
      rw [List.append_assoc]
      rfl
  unfold forceEmitAll
  rw [emitSnapshot_eq, key, List.nil_append]

end BasePoller

end UnisetPanel
