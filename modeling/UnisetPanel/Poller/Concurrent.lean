/-
  Executions that interleave.

  `poll` and `ForceEmitAll` hold the lock only while they copy the
  subscriptions and while they look at one item; they fetch, and call the
  callback, outside it.  Here an execution (`Exec`) is taken apart at these
  points: it starts with a copy of the subscriptions, fetches one object after
  the other, looks at one item after the other, and finishes by delivering its
  batch.  Any number of executions and any subscription changes interleave.

  An execution whose steps follow each other undisturbed is the `poll` or
  `ForceEmitAll` of `Basic` (`run_alone`).
-/
import UnisetPanel.Poller.Emit
import UnisetPanel.Calls

namespace UnisetPanel

variable {T : Type*} {F : ItemFetcher T}

/-- An execution of `poll` or `ForceEmitAll` in progress. -/
structure Exec (T : Type*) where
  kind : EmitKind
  /-- the objects of the copy that are not fetched yet -/
  todo : List (String × List Int64)
  /-- the fetched items not looked at yet -/
  items : List (String × T)
  batch : List (Update T)
  now : Time
  finished : Bool
  deriving DecidableEq

/-- What an execution gets for one object: an object without ids is skipped, one that failed too. -/
def received (c : String × List Int64) (result : Except String (List T)) : List (String × T) :=
  if c.2 = [] then []
  else match result with
    | .error _ => []
    | .ok items => items.map fun x => (c.1, x)

theorem mem_received {c : String × List Int64} {result : Except String (List T)} {x : String × T}
    (h : x ∈ received c result) :
    c.2 ≠ [] ∧ x.1 = c.1 ∧ ∃ items, result = .ok items ∧ x.2 ∈ items := by
  unfold received at h
  by_cases hnil : c.2 = []
  · rw [if_pos hnil] at h
    cases h
  · rw [if_neg hnil] at h
    cases result with
    | error err => cases h
    | ok items =>
      obtain ⟨y, hy, rfl⟩ := List.mem_map.mp h
      exact ⟨hnil, rfl, items, rfl, hy⟩

namespace Exec

variable (e : Exec T)

/-- `pollObject` returns for the next object. -/
def fetchNext (result : Except String (List T)) : Option (Exec T) :=
  match e.finished, e.items, e.todo with
  | false, [], c :: rest => some { e with todo := rest, items := received c result }
  | _, _, _ => none

/-- The next item is looked at, under the lock. -/
def lookAt (p : BasePoller F) : Option (Exec T × BasePoller F) :=
  match e.finished, e.items with
  | false, x :: rest =>
    let r := BasePoller.emitItem e.kind e.now (e.batch, p) x
    some ({ e with items := rest, batch := r.1 }, r.2)
  | _, _ => none

/-- Everything is fetched and looked at: the batch is delivered. -/
def deliver : Option (Exec T) :=
  match e.finished, e.items, e.todo with
  | false, [], [] => some { e with finished := true }
  | _, _, _ => none

/-- The execution still has `r` to fetch or to look at. -/
def Holds (F : ItemFetcher T) (r : ItemRef) : Prop :=
  (∃ c ∈ e.todo, c.1 = r.objectName ∧ r.id ∈ c.2) ∨
    ∃ x ∈ e.items, x.1 = r.objectName ∧ F.getItemID x.2 = r.id

instance (r : ItemRef) : Decidable (e.Holds F r) := inferInstanceAs (Decidable (_ ∨ _))

variable {e} {e' : Exec T}

theorem fetchNext_eq_some {result : Except String (List T)} (h : e.fetchNext result = some e') :
    e.finished = false ∧ e.items = [] ∧ ∃ c rest, e.todo = c :: rest ∧
      e' = { e with todo := rest, items := received c result } := by
  unfold fetchNext at h
  split at h
  · rename_i c rest hf hi ht
    exact ⟨hf, hi, c, rest, ht, (Option.some.inj h).symm⟩
  · cases h

theorem lookAt_eq_some {p p' : BasePoller F} (h : e.lookAt p = some (e', p')) :
    e.finished = false ∧ ∃ x rest, e.items = x :: rest ∧
      e' = { e with
        items := rest
        batch := (BasePoller.emitItem e.kind e.now (e.batch, p) x).1 } ∧
      p' = (BasePoller.emitItem e.kind e.now (e.batch, p) x).2 := by
  unfold lookAt at h
  split at h
  · rename_i x rest hf hi
    obtain ⟨rfl, rfl⟩ := Prod.mk.inj (Option.some.inj h)
    exact ⟨hf, x, rest, hi, rfl, rfl⟩
  · cases h

theorem deliver_eq_some (h : e.deliver = some e') :
    e.finished = false ∧ e.items = [] ∧ e.todo = [] ∧ e' = { e with finished := true } := by
  unfold deliver at h
  split at h
  · rename_i hf hi ht
    exact ⟨hf, hi, ht, (Option.some.inj h).symm⟩
  · cases h

end Exec

/-- A poller and its executions, oldest first; an execution is named by its position. -/
structure PollerState (F : ItemFetcher T) where
  poller : BasePoller F
  execs : List (Exec T)

/-- One atomic step. -/
inductive ConcurrentAction (T : Type*) where
  | subscribe (objectName : String) (ids : List Int64)
  | unsubscribe (objectName : String) (ids : List Int64)
  | unsubscribeAll (objectName : String)
  | start (kind : EmitKind) (snap : List (String × List Int64)) (now : Time)
  | fetch (i : ℕ) (result : Except String (List T))
  | item (i : ℕ)
  | finish (i : ℕ)

namespace PollerState

/-- One step. -/
def step (s : PollerState F) : ConcurrentAction T → Option (PollerState F)
  | .subscribe o ids => some { s with poller := s.poller.subscribe o ids }
  | .unsubscribe o ids => some { s with poller := s.poller.unsubscribe o ids }
  | .unsubscribeAll o => some { s with poller := s.poller.unsubscribeAll o }
  | .start kind snap now =>
    if IsSnapshot s.poller.subscriptions snap then
      some { s with execs := s.execs ++ [⟨kind, snap, [], [], now, false⟩] }
    else none
  | .fetch i result => do
    let e ← s.execs[i]?
    let e' ← e.fetchNext result
    some { s with execs := s.execs.set i e' }
  | .item i => do
    let e ← s.execs[i]?
    let r ← e.lookAt s.poller
    some { poller := r.2, execs := s.execs.set i r.1 }
  | .finish i => do
    let e ← s.execs[i]?
    let e' ← e.deliver
    some { s with execs := s.execs.set i e' }

variable {s s' : PollerState F}

theorem step_start {kind : EmitKind} {snap : List (String × List Int64)} {now : Time}
    (h : s.step (.start kind snap now) = some s') :
    IsSnapshot s.poller.subscriptions snap ∧
      s' = { s with execs := s.execs ++ [⟨kind, snap, [], [], now, false⟩] } := by
  obtain ⟨hs, h⟩ := Option.ite_none_right_eq_some.mp h
  exact ⟨hs, (Option.some.inj h).symm⟩

theorem step_fetch {i : ℕ} {result : Except String (List T)}
    (h : s.step (.fetch i result) = some s') :
    ∃ e e', s.execs[i]? = some e ∧ e.fetchNext result = some e' ∧
      s' = { s with execs := s.execs.set i e' } := by
  simp only [step, Option.bind_eq_bind, Option.bind_eq_some_iff] at h
  obtain ⟨e, he, e', he', heq⟩ := h
  exact ⟨e, e', he, he', (Option.some.inj heq).symm⟩

theorem step_item {i : ℕ} (h : s.step (.item i) = some s') :
    ∃ e e' p', s.execs[i]? = some e ∧ e.lookAt s.poller = some (e', p') ∧
      s' = { poller := p', execs := s.execs.set i e' } := by
  simp only [step, Option.bind_eq_bind, Option.bind_eq_some_iff] at h
  obtain ⟨e, he, ⟨e', p'⟩, hr, heq⟩ := h
  exact ⟨e, e', p', he, hr, (Option.some.inj heq).symm⟩

theorem step_finish {i : ℕ} (h : s.step (.finish i) = some s') :
    ∃ e e', s.execs[i]? = some e ∧ e.deliver = some e' ∧
      s' = { s with execs := s.execs.set i e' } := by
  simp only [step, Option.bind_eq_bind, Option.bind_eq_some_iff] at h
  obtain ⟨e, he, e', he', heq⟩ := h
  exact ⟨e, e', he, he', (Option.some.inj heq).symm⟩

/-! ### What is fetched and delivered -/

/-- The items about `r` that an execution from position `n` on fetches in a step. -/
def fetchedFrom (n : ℕ) (r : ItemRef) (s : PollerState F) :
    ConcurrentAction T → List (ItemEvent T)
  | .fetch i result =>
    if n ≤ i then
      ((s.execs[i]?).bind fun e => e.fetchNext result).elim [] fun e => itemsOf F r e.kind e.items
    else []
  | _ => []

/-- The updates about `r` that an execution from position `n` on delivers in a step. -/
def deliveredFrom (n : ℕ) (r : ItemRef) (s : PollerState F) :
    ConcurrentAction T → List (ItemEvent T)
  | .finish i =>
    if n ≤ i then (s.execs[i]?).elim [] fun e => updatesOf F r e.kind e.batch else []
  | _ => []

/-- No execution is in progress. -/
def Quiet (s : PollerState F) : Prop := ∀ e ∈ s.execs, e.finished = true

instance : Decidable s.Quiet := inferInstanceAs (Decidable (∀ e ∈ s.execs, e.finished = true))

end PollerState

/-- The runs from a poller `p` that is not executing anything. -/
def concurrentMachine (p : BasePoller F) : Machine (PollerState F) (ConcurrentAction T) where
  init := ⟨p, []⟩
  step := PollerState.step

theorem concurrentMachine_step (p : BasePoller F) (s : PollerState F) (a : ConcurrentAction T) :
    (concurrentMachine p).step s a = s.step a := rfl

/-! ### An undisturbed execution -/

/-- The steps that execution `i` has left for the objects of `snap`, if the server answers with
`fetch`. -/
def execSteps (fetch : Fetch F) (batchSize : ℤ) (i : ℕ) :
    List (String × List Int64) → List (ConcurrentAction T)
  | [] => [.finish i]
  | c :: rest =>
    let result := pollObject fetch.fetchItems batchSize c.1 c.2
    .fetch i result :: (received c result).map (fun _ => .item i) ++
      execSteps fetch batchSize i rest

open BasePoller

/-- Looking at the items one step at a time. -/
theorem run_items (p₀ p : BasePoller F) (es : List (Exec T)) (e : Exec T)
    (hf : e.finished = false) (xs : List (String × T)) (hxs : e.items = xs) :
    (concurrentMachine p₀).run ⟨p, es ++ [e]⟩ (xs.map fun _ => .item es.length) =
      some ⟨(xs.foldl (emitItem e.kind e.now) (e.batch, p)).2,
        es ++ [{ e with
          items := []
          batch := (xs.foldl (emitItem e.kind e.now) (e.batch, p)).1 }]⟩ := by
  induction xs generalizing p e with
  | nil =>
    obtain ⟨kind, todo, items, batch, now, finished⟩ := e
    simp only at hxs
    subst hxs
    rfl
  | cons x xs ih =>
    have hlook : e.lookAt p = some ({ e with
        items := xs
        batch := (emitItem e.kind e.now (e.batch, p) x).1 },
        (emitItem e.kind e.now (e.batch, p) x).2) := by
      unfold Exec.lookAt
      rw [hf, hxs]
    have hstep : (concurrentMachine p₀).step ⟨p, es ++ [e]⟩ (.item es.length) =
        some ⟨(emitItem e.kind e.now (e.batch, p) x).2, es ++ [{ e with
          items := xs
          batch := (emitItem e.kind e.now (e.batch, p) x).1 }]⟩ := by
      rw [concurrentMachine_step]
      simp [PollerState.step, hlook]
    rw [List.map_cons, Machine.run_cons, hstep, Option.bind_some, ih _ _ (by exact hf) rfl]
    rfl

/-- The rest of an execution that is left alone. -/
theorem run_execSteps (p₀ : BasePoller F) (fetch : Fetch F) (snap : List (String × List Int64))
    (p : BasePoller F) (es : List (Exec T)) (e : Exec T) (hf : e.finished = false)
    (hi : e.items = []) (ht : e.todo = snap) :
    (concurrentMachine p₀).run ⟨p, es ++ [e]⟩ (execSteps fetch p.batchSize es.length snap) =
      some ⟨(snap.foldl (emitObject e.kind fetch e.now) (e.batch, p)).2,
        es ++ [{ e with
          todo := []
          items := []
          batch := (snap.foldl (emitObject e.kind fetch e.now) (e.batch, p)).1
          finished := true }]⟩ := by
  induction snap generalizing p e with
  | nil =>
    obtain ⟨kind, todo, items, batch, now, finished⟩ := e
    simp only at hf hi ht
    subst hf hi ht
    show (concurrentMachine p₀).run _ [.finish es.length] = _
    rw [Machine.run_singleton]
    rw [concurrentMachine_step]
    simp [PollerState.step, Exec.deliver]
  | cons c snap ih =>
    have hnext : e.fetchNext (pollObject fetch.fetchItems p.batchSize c.1 c.2) = some { e with
        todo := snap
        items := received c (pollObject fetch.fetchItems p.batchSize c.1 c.2) } := by
      unfold Exec.fetchNext
      rw [hf, hi, ht]
    have hstep : (concurrentMachine p₀).step ⟨p, es ++ [e]⟩
        (.fetch es.length (pollObject fetch.fetchItems p.batchSize c.1 c.2)) =
        some ⟨p, es ++ [{ e with
          todo := snap
          items := received c (pollObject fetch.fetchItems p.batchSize c.1 c.2) }]⟩ := by
      rw [concurrentMachine_step]
      simp [PollerState.step, hnext]
    -- looking at what came back is `emitObject`
    have hobj : emitObject e.kind fetch e.now (e.batch, p) c =
        (received c (pollObject fetch.fetchItems p.batchSize c.1 c.2)).foldl
          (emitItem e.kind e.now) (e.batch, p) := by
      unfold emitObject received
      by_cases hnil : c.2 = []
      · rw [if_pos hnil, if_pos hnil]
        rfl
      · rw [if_neg hnil, if_neg hnil]
        cases pollObject fetch.fetchItems p.batchSize c.1 c.2 with
        | error err => rfl
        | ok items => rw [List.foldl_map]
    have hbatch : (emitObject e.kind fetch e.now (e.batch, p) c).2.batchSize = p.batchSize := by
      rw [hobj]
      exact (subscriptions_foldl_emitItem e.kind e.now _ (e.batch, p)).2
    show (concurrentMachine p₀).run _ (.fetch _ _ :: (_ ++ _)) = _
    rw [Machine.run_cons, hstep, Option.bind_some, Machine.run_append,
      run_items p₀ p es _ (by exact hf) _ rfl, Option.bind_some, List.foldl_cons]
    simp only
    rw [← hobj, ← hbatch, ih _ _ (by exact hf) rfl rfl]

/-- **An undisturbed execution is the operation of the serial poller**: from a copy of the
subscriptions to the delivery it records and delivers what `poll` or `ForceEmitAll` does. -/
theorem run_alone (p₀ p : BasePoller F) (es : List (Exec T)) (kind : EmitKind) (fetch : Fetch F)
    (snap : List (String × List Int64)) (now : Time) (hsnap : IsSnapshot p.subscriptions snap) :
    (concurrentMachine p₀).run ⟨p, es⟩
        (.start kind snap now :: execSteps fetch p.batchSize es.length snap) =
      some ⟨(p.emitSnapshot kind fetch snap now).2,
        es ++ [⟨kind, [], [], (p.emitSnapshot kind fetch snap now).1, now, true⟩]⟩ := by
  have hstep : (concurrentMachine p₀).step ⟨p, es⟩ (.start kind snap now) =
      some ⟨p, es ++ [⟨kind, snap, [], [], now, false⟩]⟩ := if_pos hsnap
  rw [Machine.run_cons, hstep, Option.bind_some]
  exact run_execSteps p₀ fetch snap p es ⟨kind, snap, [], [], now, false⟩ rfl rfl rfl

end UnisetPanel
