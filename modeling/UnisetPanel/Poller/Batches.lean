/-
  `pollObject` and `pollObjectBatched` (`internal/poller/base.go`), with a fetcher
  that may change between two calls.

  The loop asks for consecutive slices of the ids until they are used up, skips
  the slices that fail, and reports an error only if it has no item.  `calls` are
  the calls of `FetchItems` that it makes, each with its answer, as a fetcher sees
  them that writes them down (`logged`).  For a fetcher that answers pointwise the
  slices make no difference (`pollObjectBatched_spec`).

  The other modules of the poller take a fetcher that is a function of the ids;
  there the two definitions agree (`pollObjectBatched_ofFunction`).
-/
import UnisetPanel.Poller.Emit
import Mathlib.Data.PNat.Basic

namespace UnisetPanel

variable {σ T : Type*}

/-- `ItemFetcher.FetchItems`; `σ` is what the fetcher and its server keep between two calls. -/
abbrev Fetcher (σ T : Type*) := String → List Int64 → σ → Except String (List T) × σ

/-- A call of `FetchItems` and its answer. -/
structure FetchCall (T : Type*) where
  ids : List Int64
  answer : Except String (List T)

namespace FetchCall

/-- The items of a call; none if it failed. -/
def items (c : FetchCall T) : List T := c.answer.toOption.getD []

/-- The call failed. -/
def Failed (c : FetchCall T) : Prop := ∃ err, c.answer = .error err

end FetchCall

namespace Fetcher

variable (fetchItems : Fetcher σ T) (objectName : String) (ids : List Int64) (batchSize : ℕ+)

/-- The loop of `pollObjectBatched` from index `i`, with the items and the error collected so far.
(The sum does not overflow: it is `batchSize` at first, and less than twice the length later.) -/
def batchedLoop (i : ℕ) (allItems : List T) (lastErr : Option String) (s : σ) :
    (List T × Option String) × σ :=
  if i < ids.length then
    let last := if ids.length < i + batchSize then ids.length else i + batchSize
    let batch := ids.extract i last
    match fetchItems objectName batch s with
    | (.error err, s) => batchedLoop (i + batchSize) allItems (some err) s
    | (.ok items, s) => batchedLoop (i + batchSize) (allItems ++ items) lastErr s
  else ((allItems, lastErr), s)
termination_by ids.length - i
decreasing_by all_goals have := batchSize.pos; omega

/-- `pollObjectBatched`. -/
def pollObjectBatched (s : σ) : Except String (List T) × σ :=
  match fetchItems.batchedLoop objectName ids batchSize 0 [] none s with
  | (([], some err), s) => (.error err, s)
  | ((allItems, _), s) => (.ok allItems, s)

/-- `pollObject`. -/
def pollObject (batchSize : ℤ) (s : σ) : Except String (List T) × σ :=
  if h : 0 < batchSize ∧ batchSize < ids.length then
    fetchItems.pollObjectBatched objectName ids ⟨batchSize.toNat, by omega⟩ s
  else fetchItems objectName ids s

/-- The same fetcher, writing down its calls. -/
def logged : Fetcher (σ × List (FetchCall T)) T := fun objectName ids s =>
  let r := fetchItems objectName ids s.1
  (r.1, r.2, s.2 ++ [⟨ids, r.1⟩])

/-- The calls of `FetchItems` that `pollObjectBatched` makes. -/
def calls (s : σ) : List (FetchCall T) :=
  (fetchItems.logged.pollObjectBatched objectName ids batchSize (s, [])).2.2

/-- The concatenation of the results for the elements; none if there is one that has none. -/
def concat (result : Int64 → Option (List T)) (ids : List Int64) : Option (List T) :=
  (ids.mapM result).map List.flatten

/-- **The fetcher answers pointwise**: each id has a result of its own, which may be a failure, and
the result for a list is the concatenation of the results for its elements. -/
def Pointwise : Prop :=
  ∃ result : Int64 → Option (List T), ∀ ids s,
    (fetchItems objectName ids s).1.toOption = concat result ids

/-! ### The slices, and their answers -/

/-- The answers to one request after the other. -/
def answers : List (List Int64) → σ → List (FetchCall T) × σ
  | [], s => ([], s)
  | request :: requests, s =>
    let r := fetchItems objectName request s
    let rest := answers requests r.2
    (⟨request, r.1⟩ :: rest.1, rest.2)

/-- What a call leaves of `lastErr`. -/
def nextError (lastErr : Option String) (c : FetchCall T) : Option String :=
  match c.answer with
  | .error err => some err
  | .ok _ => lastErr

/-- What the code makes of the items and the error that it has collected. -/
def outcome (allItems : List T) (lastErr : Option String) : Except String (List T) :=
  match allItems, lastErr with
  | [], some err => .error err
  | allItems, _ => .ok allItems

theorem outcome_eq_error_iff {allItems : List T} {lastErr : Option String} :
    (∃ err, outcome allItems lastErr = .error err) ↔ lastErr ≠ none ∧ allItems = [] := by
  unfold outcome
  cases allItems <;> cases lastErr <;> simp

theorem eq_of_outcome_eq_ok {allItems items : List T} {lastErr : Option String}
    (h : outcome allItems lastErr = .ok items) : items = allItems := by
  unfold outcome at h
  cases allItems <;> cases lastErr <;> simp_all

theorem outcome_none (allItems : List T) : outcome allItems none = .ok allItems := by
  cases allItems <;> rfl

/-- One round of the loop. -/
theorem batchedLoop_of_lt {i : ℕ} (allItems : List T) (lastErr : Option String) (s : σ)
    (hi : i < ids.length) :
    fetchItems.batchedLoop objectName ids batchSize i allItems lastErr s =
      let c : FetchCall T := ⟨ids.extract i (min (i + batchSize) ids.length),
        (fetchItems objectName (ids.extract i (min (i + batchSize) ids.length)) s).1⟩
      fetchItems.batchedLoop objectName ids batchSize (i + batchSize) (allItems ++ c.items)
        (nextError lastErr c)
        (fetchItems objectName (ids.extract i (min (i + batchSize) ids.length)) s).2 := by
  have hlast : (if ids.length < i + batchSize then ids.length else i + batchSize) =
      min (i + batchSize) ids.length := by
    split_ifs <;> omega
  rw [batchedLoop, if_pos hi]
  simp only [hlast]
  generalize fetchItems objectName (ids.extract i (min (i + batchSize) ids.length)) s = r
  obtain ⟨answer, s'⟩ := r
  cases answer with
  | error err =>
    -- a slice that fails is skipped
    simp [FetchCall.items, Except.toOption, nextError]
  | ok items => simp [FetchCall.items, Except.toOption, nextError]

/-- **The loop asks for the slices in order**, and collects what comes. -/
theorem batchedLoop_eq (fuel i : ℕ) (allItems : List T) (lastErr : Option String) (s : σ)
    (h : ids.length ≤ i + fuel) :
    fetchItems.batchedLoop objectName ids batchSize i allItems lastErr s =
      let r := fetchItems.answers objectName (requestsFrom ids batchSize fuel i) s
      ((allItems ++ r.1.flatMap FetchCall.items, r.1.foldl nextError lastErr), r.2) := by
  induction fuel generalizing i allItems lastErr s with
  | zero =>
    rw [batchedLoop, if_neg (by omega)]
    simp [requestsFrom, answers]
  | succ fuel ih =>
    have hpos := batchSize.pos
    unfold requestsFrom
    by_cases hi : i < ids.length
    · rw [batchedLoop_of_lt _ _ _ _ _ _ _ hi, ih _ _ _ _ (by omega), if_pos hi]
      simp only [answers, List.flatMap_cons, List.append_assoc, List.foldl_cons]
    · rw [batchedLoop, if_neg hi, if_neg hi]
      simp [answers]

theorem pollObjectBatched_eq (s : σ) :
    fetchItems.pollObjectBatched objectName ids batchSize s =
      let r := fetchItems.answers objectName (requestsFrom ids batchSize ids.length 0) s
      (outcome (r.1.flatMap FetchCall.items) (r.1.foldl nextError none), r.2) := by
  rw [pollObjectBatched, batchedLoop_eq _ _ _ _ ids.length 0 _ _ _ (by omega)]
  simp only [List.nil_append]
  generalize fetchItems.answers objectName (requestsFrom ids batchSize ids.length 0) s = r
  generalize r.1.flatMap FetchCall.items = allItems
  generalize r.1.foldl nextError none = lastErr
  cases allItems <;> cases lastErr <;> rfl

/-- **Writing down the calls changes nothing**, and writes down the requests with their answers. -/
theorem answers_logged (requests : List (List Int64)) (s : σ) (log : List (FetchCall T)) :
    fetchItems.logged.answers objectName requests (s, log) =
      let r := fetchItems.answers objectName requests s
      (r.1, r.2, log ++ r.1) := by
  induction requests generalizing s log with
  | nil => simp [answers]
  | cons request requests ih =>
    simp only [answers, logged]
    rw [ih]
    simp

theorem map_ids_answers (requests : List (List Int64)) (s : σ) :
    ((fetchItems.answers objectName requests s).1).map FetchCall.ids = requests := by
  induction requests generalizing s with
  | nil => rfl
  | cons request requests ih => exact congrArg (request :: ·) (ih _)

/-- **The calls** are the requests with their answers, and a fetcher that writes them down gives the
same result. -/
theorem pollObjectBatched_logged (s : σ) :
    fetchItems.logged.pollObjectBatched objectName ids batchSize (s, []) =
      let r := fetchItems.pollObjectBatched objectName ids batchSize s
      (r.1, r.2, (fetchItems.answers objectName (requestsFrom ids batchSize ids.length 0) s).1) := by
  rw [pollObjectBatched_eq, pollObjectBatched_eq, answers_logged]
  simp only [List.nil_append]

theorem calls_eq (s : σ) : fetchItems.calls objectName ids batchSize s =
    (fetchItems.answers objectName (requestsFrom ids batchSize ids.length 0) s).1 := by
  rw [calls, pollObjectBatched_logged]

/-- What `pollObjectBatched` returns, from its calls. -/
theorem fst_pollObjectBatched (s : σ) :
    (fetchItems.pollObjectBatched objectName ids batchSize s).1 =
      let cs := fetchItems.calls objectName ids batchSize s
      outcome (cs.flatMap FetchCall.items) (cs.foldl nextError none) := by
  rw [pollObjectBatched_eq, calls_eq]

/-! ### What holds of the slices and of the errors -/

theorem bounded_requestsFrom (fuel i : ℕ) {request : List Int64}
    (h : request ∈ requestsFrom ids batchSize fuel i) :
    request ≠ [] ∧ request.length ≤ batchSize := by
  induction fuel generalizing i with
  | zero => simp [requestsFrom] at h
  | succ fuel ih =>
    have hpos := batchSize.pos
    unfold requestsFrom at h
    split_ifs at h with hi
    · rcases List.mem_cons.mp h with rfl | h
      · have hlen : (ids.extract i (min (i + batchSize) ids.length)).length =
            min (i + batchSize) ids.length - i := by
          rw [List.extract_eq_take_drop, List.length_take, List.length_drop]
          omega
        refine ⟨?_, by omega⟩
        apply List.ne_nil_of_length_pos
        omega
      · exact ih _ h
    · simp at h

/-- No error is left exactly if no call failed. -/
theorem foldl_nextError_eq_none (cs : List (FetchCall T)) (lastErr : Option String) :
    cs.foldl nextError lastErr = none ↔ lastErr = none ∧ ∀ c ∈ cs, ¬ c.Failed := by
  induction cs generalizing lastErr with
  | nil => simp
  | cons c cs ih =>
    have hnext : nextError lastErr c = none ↔ lastErr = none ∧ ¬ c.Failed := by
      unfold nextError FetchCall.Failed
      cases c.answer <;> simp
    rw [List.foldl_cons, ih, hnext, List.forall_mem_cons, and_assoc]

/-- The results of two lists, put together. -/
theorem concat_append {result : Int64 → Option (List T)} {xs ys : List Int64} {as bs : List T}
    (hx : concat result xs = some as) (hy : concat result ys = some bs) :
    concat result (xs ++ ys) = some (as ++ bs) := by
  unfold concat at hx hy ⊢
  obtain ⟨parts, hparts, rfl⟩ := Option.map_eq_some_iff.mp hx
  obtain ⟨parts', hparts', rfl⟩ := Option.map_eq_some_iff.mp hy
  rw [List.mapM_append, hparts, hparts']
  simp

/-- Calls that did not fail, of a fetcher that answers pointwise. -/
theorem concat_flatten {result : Int64 → Option (List T)} {cs : List (FetchCall T)}
    (hpoint : ∀ c ∈ cs, c.answer.toOption = concat result c.ids)
    (hok : ∀ c ∈ cs, ¬ c.Failed) :
    concat result (cs.map FetchCall.ids).flatten = some (cs.flatMap FetchCall.items) := by
  induction cs with
  | nil => rfl
  | cons c cs ih =>
    rw [List.forall_mem_cons] at hpoint hok
    have hc : c.answer.toOption = some c.items := by
      unfold FetchCall.items
      cases h : c.answer with
      | error err => exact absurd ⟨err, h⟩ hok.1
      | ok items => rfl
    rw [List.map_cons, List.flatten_cons, List.flatMap_cons]
    exact concat_append (hpoint.1 ▸ hc) (ih hpoint.2 hok.2)

theorem toOption_answers {result : Int64 → Option (List T)}
    (hpoint : ∀ ids s, (fetchItems objectName ids s).1.toOption = concat result ids)
    (requests : List (List Int64)) (s : σ) :
    ∀ c ∈ (fetchItems.answers objectName requests s).1,
      c.answer.toOption = concat result c.ids := by
  induction requests generalizing s with
  | nil => simp [answers]
  | cons request requests ih =>
    simp only [answers, List.forall_mem_cons]
    exact ⟨hpoint request s, ih _⟩

/-! ### Batched and unbatched polling -/

/-- **Polling in batches**: what `pollObjectBatched` asks for and what it returns. -/
structure PollsInBatches (s : σ) : Prop where
  /-- The calls are those of the run itself. -/
  logged : (fetchItems.logged.pollObjectBatched objectName ids batchSize (s, [])).1 =
    (fetchItems.pollObjectBatched objectName ids batchSize s).1
  slices : ((fetchItems.calls objectName ids batchSize s).map FetchCall.ids).flatten = ids
  bounded : ∀ c ∈ fetchItems.calls objectName ids batchSize s,
    c.ids ≠ [] ∧ c.ids.length ≤ batchSize
  unbatched : fetchItems.Pointwise objectName →
    (∀ c ∈ fetchItems.calls objectName ids batchSize s, ¬ c.Failed) →
    ∀ s', (fetchItems.pollObjectBatched objectName ids batchSize s).1 =
      (fetchItems objectName ids s').1
  items : ∀ items, (fetchItems.pollObjectBatched objectName ids batchSize s).1 = .ok items →
    items = (fetchItems.calls objectName ids batchSize s).flatMap FetchCall.items
  error : (∃ err, (fetchItems.pollObjectBatched objectName ids batchSize s).1 = .error err) ↔
    (∃ c ∈ fetchItems.calls objectName ids batchSize s, c.Failed) ∧
      (fetchItems.calls objectName ids batchSize s).flatMap FetchCall.items = []

/-- A list of calls without a failure gives its items. -/
theorem fst_pollObjectBatched_of_not_failed (s : σ)
    (hok : ∀ c ∈ fetchItems.calls objectName ids batchSize s, ¬ c.Failed) :
    (fetchItems.pollObjectBatched objectName ids batchSize s).1 =
      .ok ((fetchItems.calls objectName ids batchSize s).flatMap FetchCall.items) := by
  have hnone := (foldl_nextError_eq_none (fetchItems.calls objectName ids batchSize s) none).mpr
    ⟨rfl, hok⟩
  rw [fst_pollObjectBatched]
  simp only [hnone, outcome_none]

/-- **Batched polling**: the slices make up the ids, and for a fetcher that answers pointwise they
make no difference. -/
theorem pollObjectBatched_spec (s : σ) : fetchItems.PollsInBatches objectName ids batchSize s where
  logged := by rw [pollObjectBatched_logged]
  slices := by
    rw [calls_eq, map_ids_answers]
    exact flatten_requestsFrom ids batchSize.pos ids.length 0 (by omega)
  bounded := by
    intro c hc
    rw [calls_eq] at hc
    have hmem := List.mem_map_of_mem (f := FetchCall.ids) hc
    rw [map_ids_answers] at hmem
    exact bounded_requestsFrom ids batchSize _ _ hmem
  unbatched := by
    rintro ⟨result, hpoint⟩ hok s'
    have hcalls : ∀ c ∈ fetchItems.calls objectName ids batchSize s,
        c.answer.toOption = concat result c.ids := by
      rw [calls_eq]
      exact toOption_answers fetchItems objectName hpoint _ s
    have hconcat := concat_flatten hcalls hok
    have hids : ((fetchItems.calls objectName ids batchSize s).map FetchCall.ids).flatten = ids := by
      rw [calls_eq, map_ids_answers]
      exact flatten_requestsFrom ids batchSize.pos ids.length 0 (by omega)
    rw [hids, ← hpoint ids s'] at hconcat
    rw [fst_pollObjectBatched_of_not_failed _ _ _ _ s hok]
    cases hanswer : (fetchItems objectName ids s').1 with
    | error err => simp [hanswer, Except.toOption] at hconcat
    | ok items =>
      rw [hanswer] at hconcat
      exact congrArg Except.ok (Option.some.inj hconcat).symm
  items := by
    intro items h
    rw [fst_pollObjectBatched] at h
    exact eq_of_outcome_eq_ok h
  error := by
    have hnone := foldl_nextError_eq_none (fetchItems.calls objectName ids batchSize s) none
    have hfailed : (∃ c ∈ fetchItems.calls objectName ids batchSize s, c.Failed) ↔
        (fetchItems.calls objectName ids batchSize s).foldl nextError none ≠ none := by
      rw [Ne, hnone]
      simp
    rw [hfailed, fst_pollObjectBatched]
    exact outcome_eq_error_iff

example : (calls (fun _ ids n => (.ok ids, n + 1)) "Object1" [1, 2, 3, 4, 5] 2 (0 : ℕ)).map
    FetchCall.ids = [[1, 2], [3, 4], [5]] := by
  rw [calls_eq]
  rfl

/-- **For a fetcher that answers pointwise, `pollObject` is `FetchItems`** unless a call fails. -/
theorem pollObject_eq_fetchItems (batchSize : ℤ) (s : σ) (hpoint : fetchItems.Pointwise objectName)
    (hok : ∀ h : 0 < batchSize, ∀ c ∈ fetchItems.calls objectName ids
      ⟨batchSize.toNat, by omega⟩ s, ¬ c.Failed) :
    (fetchItems.pollObject objectName ids batchSize s).1 = (fetchItems objectName ids s).1 := by
  unfold pollObject
  split_ifs with h
  · exact (pollObjectBatched_spec fetchItems objectName ids _ s).unbatched hpoint (hok h.1) s
  · rfl

/-! ### Fetchers that are functions -/

/-- The loop over a function of the ids. -/
theorem batchedLoop_ofFunction (fetch : String → List Int64 → Except String (List T))
    (fuel i : ℕ) (allItems : List T) (lastErr : Option String) (s : σ)
    (h : ids.length ≤ i + fuel) :
    batchedLoop (fun o ids s => (fetch o ids, s)) objectName ids batchSize i allItems lastErr s =
      (pollObjectBatchedFrom fetch objectName ids batchSize fuel i allItems lastErr, s) := by
  induction fuel generalizing i allItems lastErr with
  | zero =>
    rw [batchedLoop, if_neg (by omega)]
    rfl
  | succ fuel ih =>
    have hpos := batchSize.pos
    unfold pollObjectBatchedFrom
    by_cases hi : i < ids.length
    · rw [batchedLoop_of_lt _ _ _ _ _ _ _ hi, if_pos hi, ih _ _ _ (by omega)]
      simp only [nextError, FetchCall.items]
      cases fetch objectName (ids.extract i (min (i + batchSize) ids.length)) with
      | error err => simp [Except.toOption]
      | ok items => simp [Except.toOption]
    · rw [batchedLoop, if_neg hi, if_neg hi]

/-- **There the two definitions agree.** -/
theorem pollObjectBatched_ofFunction (fetch : String → List Int64 → Except String (List T)) (s : σ) :
    pollObjectBatched (fun o ids s => (fetch o ids, s)) objectName ids batchSize s =
      (UnisetPanel.pollObjectBatched fetch objectName ids batchSize, s) := by
  rw [pollObjectBatched, batchedLoop_ofFunction objectName ids batchSize fetch ids.length 0 _ _ _
    (by omega), UnisetPanel.pollObjectBatched]
  generalize pollObjectBatchedFrom fetch objectName ids batchSize ids.length 0 [] none = r
  obtain ⟨allItems, lastErr⟩ := r
  cases allItems <;> cases lastErr <;> rfl

end Fetcher

end UnisetPanel
