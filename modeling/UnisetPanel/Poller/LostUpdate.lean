/-
  `poll` in parallel with `ForceEmitAll`.

  Two executions record hashes item by item, but deliver their batches at the
  end.  One that recorded a value first may deliver it last, and then the
  subscriber shows an older value than the recorded one, which no later poll
  corrects (`not_noLostUpdate`).

  The last delivered value is the recorded one in the runs in which an
  execution delivers a value that is not the recorded one any more only while
  another execution still has that one to deliver
  (`noLostUpdate_of_notOvertaken`).
-/
import UnisetPanel.Poller.Resubscribe

namespace UnisetPanel

variable {T : Type*} {F : ItemFetcher T}

open PollerState

/-- A poller with the subscriptions made by the given calls of `Subscribe`. -/
def subscribedPoller (F : ItemFetcher T) (batchSize : ℤ) (subs : List (String × List Int64)) :
    BasePoller F :=
  subs.foldl (fun p c => p.subscribe c.1 c.2) (newBasePoller F batchSize)

/-- The subscriptions stay as they are. -/
def KeepsSubscriptions (_ : PollerState F) : ConcurrentAction T → Prop
  | .subscribe _ _ => False
  | .unsubscribe _ _ => False
  | .unsubscribeAll _ => False
  | _ => True

instance (s : PollerState F) : (a : ConcurrentAction T) → Decidable (KeepsSubscriptions s a)
  | .subscribe _ _ | .unsubscribe _ _ | .unsubscribeAll _ => inferInstanceAs (Decidable False)
  | .start _ _ _ | .fetch _ _ | .item _ | .finish _ => inferInstanceAs (Decidable True)

/-- The runs of any number of executions of both kinds over fixed subscriptions. -/
def emitMachine (F : ItemFetcher T) (batchSize : ℤ) (subs : List (String × List Int64)) :
    Machine (PollerState F) (ConcurrentAction T) :=
  (concurrentMachine (subscribedPoller F batchSize subs)).guard KeepsSubscriptions

/-- The hash of the last value delivered about `r` in the run `as`. -/
def lastDelivered (M : Machine (PollerState F) (ConcurrentAction T)) (r : ItemRef)
    (as : List (ConcurrentAction T)) : Option String :=
  lastKey (eventHash F) none (M.outputs (deliveredFrom 0 r) M.init as)

/-- **No update is lost**: when all executions have finished, the last value delivered about a
subscribed item is the recorded one. -/
def NoLostUpdate (M : Machine (PollerState F) (ConcurrentAction T)) : Prop :=
  ∀ (as : List (ConcurrentAction T)) (s : PollerState F), M.run M.init as = some s → s.Quiet →
    ∀ r : ItemRef, s.poller.Subscribed r.objectName r.id →
      lastDelivered M r as = s.poller.lastValue r.objectName r.id

/-- The hash of the last value about `r` in the batch of an execution. -/
def Exec.lastHash (F : ItemFetcher T) (e : Exec T) (r : ItemRef) : Option String :=
  lastKey (eventHash F) none (updatesOf F r e.kind e.batch)

/-- The item an update is about. -/
def Update.ref (F : ItemFetcher T) (u : Update T) : ItemRef := ⟨u.objectName, F.getItemID u.item⟩

/-- Another execution than the `i`-th has the recorded value of `r` to deliver last. -/
def AnotherDelivers (s : PollerState F) (i : ℕ) (r : ItemRef) : Prop :=
  ∃ j ∈ List.range s.execs.length, j ≠ i ∧ ∃ e ∈ s.execs[j]?, e.finished = false ∧
    e.lastHash F r ≠ none ∧ e.lastHash F r = s.poller.lastValue r.objectName r.id

instance (s : PollerState F) (i : ℕ) (r : ItemRef) : Decidable (AnotherDelivers s i r) :=
  inferInstanceAs (Decidable (∃ j ∈ List.range s.execs.length, j ≠ i ∧ ∃ e ∈ s.execs[j]?,
    e.finished = false ∧ e.lastHash F r ≠ none ∧
      e.lastHash F r = s.poller.lastValue r.objectName r.id))

/-- An execution delivers last about each item the recorded value, unless another execution has that
one still to deliver. -/
def NotOvertaken (s : PollerState F) : ConcurrentAction T → Prop
  | .finish i => ∀ e ∈ s.execs[i]?, ∀ u ∈ e.batch,
      e.lastHash F (u.ref F) = s.poller.lastValue (u.ref F).objectName (u.ref F).id ∨
        AnotherDelivers s i (u.ref F)
  | _ => True

instance (s : PollerState F) : (a : ConcurrentAction T) → Decidable (NotOvertaken s a)
  | .finish i => inferInstanceAs (Decidable (∀ e ∈ s.execs[i]?, ∀ u ∈ e.batch,
      e.lastHash F (u.ref F) = s.poller.lastValue (u.ref F).objectName (u.ref F).id ∨
        AnotherDelivers s i (u.ref F)))
  | .subscribe _ _ | .unsubscribe _ _ | .unsubscribeAll _ | .start _ _ _ | .fetch _ _
  | .item _ => inferInstanceAs (Decidable True)

/-! ### The overtaken poll -/

/-- A poll looks at value 1 of the sensor; then `ForceEmitAll` runs as a whole and delivers value 2;
then the poll delivers value 1. -/
def lostRun : List (ConcurrentAction (Int64 × String)) :=
  [.start .poll [("o", [1])] 0, .fetch 0 (.ok [(1, "1")]), .item 0,
    .start .forceEmitAll [("o", [1])] 1, .fetch 1 (.ok [(1, "2")]), .item 1, .finish 1, .finish 0]

/-- **It fails**: after `lostRun` the subscriber shows value 1, and value 2 is recorded. -/
theorem not_noLostUpdate : ¬ NoLostUpdate (emitMachine pairFetcher 0 [("o", [1])]) := by
  intro h
  exact absurd (h lostRun _ rfl (by decide) ⟨"o", 1⟩ (by decide)) (by decide)

/-! ### The invariant -/

/-- The recorded value of every item was delivered last, or some execution will deliver it. -/
def DeliveryInv (s : PollerState F) (delivered : ItemRef → List (ItemEvent T)) : Prop :=
  ∀ r : ItemRef, lastKey (eventHash F) none (delivered r) = s.poller.lastValue r.objectName r.id ∨
    ∃ (i : ℕ) (e : Exec T), s.execs[i]? = some e ∧ e.finished = false ∧ e.lastHash F r ≠ none ∧
      e.lastHash F r = s.poller.lastValue r.objectName r.id

variable {s s' : PollerState F} {delivered : ItemRef → List (ItemEvent T)}

/-- A step that changes neither the batches nor the hashes. -/
theorem DeliveryInv.congr (h : DeliveryInv s delivered) (hp : s'.poller = s.poller)
    (hexecs : ∀ (i : ℕ) (e : Exec T), s.execs[i]? = some e → e.finished = false →
      ∃ e', s'.execs[i]? = some e' ∧ e'.finished = false ∧ e'.kind = e.kind ∧
        e'.batch = e.batch) : DeliveryInv s' delivered := by
  intro r
  rw [hp]
  rcases h r with h | ⟨i, e, he, hf, hne, hlast⟩
  · exact Or.inl h
  · obtain ⟨e', he', hf', hkind, hbatch⟩ := hexecs i e he hf
    have hsame : e'.lastHash F r = e.lastHash F r := by
      unfold Exec.lastHash
      rw [hkind, hbatch]
    exact Or.inr ⟨i, e', he', hf', by rw [hsame]; exact hne, by rw [hsame]; exact hlast⟩

/-- Looking at an item: a new value is recorded by the execution that will deliver it. -/
theorem DeliveryInv.item (h : DeliveryInv s delivered) {i : ℕ} {e e' : Exec T}
    {p' : BasePoller F} (he : s.execs[i]? = some e) (hlook : e.lookAt s.poller = some (e', p')) :
    DeliveryInv ⟨p', s.execs.set i e'⟩ delivered := by
  have hget := Calls.getElem?_set_of_getElem? he e'
  obtain ⟨hf, x, rest, -, he', hp'⟩ := Exec.lookAt_eq_some hlook
  have hf' : e'.finished = false := by
    rw [he']
    exact hf
  intro r
  obtain ⟨hup, hlast⟩ := BasePoller.updatesOf_foldl_emitItem r e.kind e.now [x] (e.batch, s.poller)
  rw [List.foldl_cons, List.foldl_nil] at hup hlast
  have hhash : e'.lastHash F r = lastKey (eventHash F) (e.lastHash F r)
      (changes (eventHash F) isForced (s.poller.lastValue r.objectName r.id)
        (itemsOf F r e.kind [x])) := by
    unfold Exec.lastHash
    rw [← lastKey_append, he']
    exact congrArg _ hup
  show _ = p'.lastValue r.objectName r.id ∨ _
  have hkept := lastKey_changes (eventHash F) isForced (s.poller.lastValue r.objectName r.id)
    (itemsOf F r e.kind [x])
  rw [← hlast, ← hp'] at hkept
  by_cases hchange : changes (eventHash F) isForced (s.poller.lastValue r.objectName r.id)
      (itemsOf F r e.kind [x]) = []
  · -- nothing new about `r`: the recorded value and the batch are as before
    rw [hchange, lastKey_nil] at hkept hhash
    rw [← hkept]
    rcases h r with h | ⟨j, d, hd, hdf, hne, hdlast⟩
    · exact Or.inl h
    · right
      by_cases hj : j = i
      · subst hj
        obtain rfl : e = d := Option.some.inj (he.symm.trans hd)
        exact ⟨j, e', (hget j).trans (if_pos rfl), hf', by rw [hhash]; exact hne,
          by rw [hhash]; exact hdlast⟩
      · exact ⟨j, d, (hget j).trans ((if_neg hj).trans hd), hdf, hne, hdlast⟩
  · -- a new value: this execution will deliver it
    right
    have hnew := lastKey_of_ne_nil (eventHash F) hchange (e.lastHash F r)
      (s.poller.lastValue r.objectName r.id)
    refine ⟨i, e', (hget i).trans (if_pos rfl), hf', ?_, ?_⟩
    · rw [hhash]
      exact hnew.2
    · rw [hhash, hnew.1, hkept]

/-- A delivery that is not overtaken. -/
theorem DeliveryInv.finish (h : DeliveryInv s delivered) {i : ℕ}
    (hover : NotOvertaken s (.finish i)) {e : Exec T} (he : s.execs[i]? = some e) (e' : Exec T) :
    DeliveryInv { s with execs := s.execs.set i e' }
      fun r => delivered r ++ deliveredFrom 0 r s (.finish i) := by
  have hget := Calls.getElem?_set_of_getElem? he e'
  have hother : ∀ (j : ℕ) (d : Exec T), j ≠ i → s.execs[j]? = some d →
      (s.execs.set i e')[j]? = some d := by
    intro j d hj hd
    rw [hget j, if_neg hj]
    exact hd
  intro r
  have hout : deliveredFrom 0 r s (.finish i) = updatesOf F r e.kind e.batch := by
    simp [deliveredFrom, he]
  show lastKey (eventHash F) none (delivered r ++ deliveredFrom 0 r s (.finish i)) =
      s.poller.lastValue r.objectName r.id ∨ _
  rw [hout, lastKey_append]
  by_cases hnil : updatesOf F r e.kind e.batch = []
  · -- nothing about `r` is delivered
    rw [hnil, lastKey_nil]
    rcases h r with h | ⟨j, d, hd, hdf, hne, hlast⟩
    · exact Or.inl h
    · -- the execution that will deliver it is another one
      have hj : j ≠ i := by
        rintro rfl
        obtain rfl : e = d := Option.some.inj (he.symm.trans hd)
        apply hne
        unfold Exec.lastHash
        rw [hnil, lastKey_nil]
      exact Or.inr ⟨j, d, hother j d hj hd, hdf, hne, hlast⟩
  · -- something about `r` is, and by `hover` either it is the recorded value or another will follow
    obtain ⟨v, hv⟩ := List.exists_mem_of_ne_nil _ hnil
    obtain ⟨u, hu, -⟩ := List.mem_map.mp hv
    obtain ⟨hmem, hmatch⟩ := List.mem_filter.mp hu
    have hr : u.ref F = r := by
      obtain ⟨hobj, hid⟩ := of_decide_eq_true hmatch
      unfold Update.ref
      rw [hobj, hid]
    have := hover e (by rw [he]; rfl) u hmem
    rw [hr] at this
    rcases this with hlast | ⟨j, -, hj, d, hd, hdf, hne, hlast⟩
    · left
      rw [← hlast]
      exact (lastKey_of_ne_nil (eventHash F) hnil _ none).1
    · exact Or.inr ⟨j, d, hother j d hj hd, hdf, hne, hlast⟩

/-- **The step lemma.** -/
theorem DeliveryInv.step {a : ConcurrentAction T} (h : DeliveryInv s delivered)
    (hkeep : KeepsSubscriptions s a) (hover : NotOvertaken s a) (hs : s.step a = some s') :
    DeliveryInv s' fun r => delivered r ++ deliveredFrom 0 r s a := by
  have hnone : (∀ r, deliveredFrom 0 r s a = []) → DeliveryInv s' delivered →
      DeliveryInv s' fun r => delivered r ++ deliveredFrom 0 r s a := by
    intro hnil h' r
    show lastKey _ _ (delivered r ++ deliveredFrom 0 r s a) = _ ∨ _
    rw [hnil r, List.append_nil]
    exact h' r
  cases a with
  | subscribe o ids => exact hkeep.elim
  | unsubscribe o ids => exact hkeep.elim
  | unsubscribeAll o => exact hkeep.elim
  | start kind snap now =>
    apply hnone fun _ => rfl
    obtain ⟨-, rfl⟩ := step_start hs
    refine h.congr rfl fun i e he hf => ⟨e, ?_, hf, rfl, rfl⟩
    exact (List.getElem?_append_left (List.getElem?_eq_some_iff.mp he).1).trans he
  | fetch i result =>
    apply hnone fun _ => rfl
    obtain ⟨e, e', he, hnext, rfl⟩ := step_fetch hs
    obtain ⟨hf, -, c, rest, -, rfl⟩ := Exec.fetchNext_eq_some hnext
    refine h.congr rfl fun j d hd hdf => ?_
    by_cases hj : j = i
    · subst hj
      obtain rfl : e = d := Option.some.inj (he.symm.trans hd)
      exact ⟨_, (Calls.getElem?_set_of_getElem? he _ j).trans (if_pos rfl), hf, rfl, rfl⟩
    · exact ⟨d, (Calls.getElem?_set_of_getElem? he _ j).trans ((if_neg hj).trans hd), hdf, rfl, rfl⟩
  | item i =>
    apply hnone fun _ => rfl
    obtain ⟨e, e', p', he, hlook, rfl⟩ := step_item hs
    exact h.item he hlook
  | finish i =>
    obtain ⟨e, e', he, -, rfl⟩ := step_finish hs
    exact h.finish hover he e'

/-! ### The main theorem -/

variable {batchSize : ℤ}

theorem lastValue_subscribedPoller (subs : List (String × List Int64)) (o : String) (id : Int64) :
    (subscribedPoller F batchSize subs).lastValue o id = none := by
  have key : ∀ (p : BasePoller F), p.lastValue o id = none →
      (subs.foldl (fun p c => p.subscribe c.1 c.2) p).lastValue o id = none := by
    induction subs with
    | nil => exact fun p hp => hp
    | cons c subs ih =>
      intro p hp
      apply ih
      rw [BasePoller.lastValue_subscribe]
      exact hp
  exact key (newBasePoller F batchSize) rfl

/-- **No update is lost** in every run in which no delivery is overtaken. -/
theorem noLostUpdate_of_notOvertaken (F : ItemFetcher T) (batchSize : ℤ)
    (subs : List (String × List Int64)) :
    NoLostUpdate ((emitMachine F batchSize subs).guard NotOvertaken) := by
  intro as s hrun hquiet r _
  have hinv : DeliveryInv s fun r =>
      ((emitMachine F batchSize subs).guard NotOvertaken).outputs (deliveredFrom 0 r)
        ((emitMachine F batchSize subs).guard NotOvertaken).init as := by
    refine Machine.history_induction (P := fun as s => DeliveryInv s fun r =>
      ((emitMachine F batchSize subs).guard NotOvertaken).outputs (deliveredFrom 0 r)
        ((emitMachine F batchSize subs).guard NotOvertaken).init as) ?_ ?_ hrun
    · intro r
      exact Or.inl (lastValue_subscribedPoller subs r.objectName r.id).symm
    · intro as s a t has ih hstep
      obtain ⟨hover, hstep'⟩ := Machine.guard_step_eq_some.mp hstep
      obtain ⟨hkeep, hstep'⟩ := Machine.guard_step_eq_some.mp hstep'
      have := ih.step hkeep hover hstep'
      simp only [Machine.outputs_concat has hstep]
      exact this
  rcases hinv r with h | ⟨i, e, he, hf, -⟩
  · exact h
  · rw [hquiet e (List.mem_of_getElem? he)] at hf
    cases hf

end UnisetPanel
