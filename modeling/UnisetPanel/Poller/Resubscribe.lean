/-
  Re-subscription against a poll in flight.

  `Unsubscribe` forgets the hash of an item so that the first poll after the
  next `Subscribe` reports it anew.  A poll that copied the subscriptions before
  the `Unsubscribe` records the hash again when it looks at the item, and then
  the item stays recorded without a subscription and is not reported
  (`not_noStaleHash_and_not_reEmits`).

  Both properties hold in the runs in which nothing is unsubscribed that a poll
  in progress still has to fetch or to look at, and the server answers with
  requested items (`noStaleHash_and_reEmits_of_notInFlight`).  The invariant is
  that what a poll still holds is subscribed; after a `Subscribe` it carries
  over, phase by phase, that the first item fetched is the first one delivered
  (`FreshInv`).
-/
import UnisetPanel.Poller.Concurrent

namespace UnisetPanel

variable {T : Type*} {F : ItemFetcher T}

open PollerState

/-- `pollLoop` is one goroutine, and here it is the only one that emits. -/
def Sequential (s : PollerState F) : ConcurrentAction T → Prop
  | .start kind _ _ => kind = .poll ∧ s.Quiet
  | _ => True

instance (s : PollerState F) : (a : ConcurrentAction T) → Decidable (Sequential s a)
  | .start kind _ _ => inferInstanceAs (Decidable (kind = .poll ∧ s.Quiet))
  | .subscribe _ _ | .unsubscribe _ _ | .unsubscribeAll _ | .fetch _ _ | .item _
  | .finish _ => inferInstanceAs (Decidable True)

/-- The runs of a new poller whose `pollLoop` polls, with subscription changes at any time. -/
def pollLoopMachine (F : ItemFetcher T) (batchSize : ℤ) :
    Machine (PollerState F) (ConcurrentAction T) :=
  (concurrentMachine (newBasePoller F batchSize)).guard Sequential

/-- **No stale hash**: when no poll is in progress, every recorded hash belongs to a subscribed
item. -/
def NoStaleHash (M : Machine (PollerState F) (ConcurrentAction T)) : Prop :=
  ∀ s, M.Reachable s → s.Quiet → s.poller.Clean

/-- **A re-subscribed item is reported**: after a `Subscribe` of an item that was not subscribed,
the first item about it that a later poll fetches is, once the polls are done, the first one that
they delivered. -/
def ReEmits (M : Machine (PollerState F) (ConcurrentAction T)) : Prop :=
  ∀ (s₀ s₁ s₂ : PollerState F) (r : ItemRef) (ids : List Int64) (as : List (ConcurrentAction T)),
    M.Reachable s₀ → ¬ s₀.poller.Subscribed r.objectName r.id → r.id ∈ ids →
    M.step s₀ (.subscribe r.objectName ids) = some s₁ → M.run s₁ as = some s₂ → s₂.Quiet →
    (M.outputs (deliveredFrom s₀.execs.length r) s₁ as).head? =
      (M.outputs (fetchedFrom s₀.execs.length r) s₁ as).head?

/-- The execution still has something of the object to fetch or to look at. -/
def Exec.HoldsObject (e : Exec T) (objectName : String) : Prop :=
  (∃ c ∈ e.todo, c.1 = objectName ∧ c.2 ≠ []) ∨ ∃ x ∈ e.items, x.1 = objectName

instance (e : Exec T) (objectName : String) : Decidable (e.HoldsObject objectName) :=
  inferInstanceAs (Decidable (_ ∨ _))

/-- Nothing is unsubscribed that an execution in progress still holds, and the server answers with
requested items. -/
def NotInFlight (s : PollerState F) : ConcurrentAction T → Prop
  -- It is not enough that an item is subscribed when the execution looks at it: it may have been
  -- unsubscribed and subscribed again meanwhile, and then its hash is recorded before the next poll.
  | .unsubscribe o ids => ∀ e ∈ s.execs, e.finished = false → ∀ id ∈ ids, ¬ e.Holds F ⟨o, id⟩
  | .unsubscribeAll o => ∀ e ∈ s.execs, e.finished = false → ¬ e.HoldsObject o
  | .fetch i (.ok items) =>
    ∀ e ∈ s.execs[i]?, ∀ c ∈ e.todo.head?, c.2 ≠ [] → ∀ x ∈ items, F.getItemID x ∈ c.2
  | _ => True

instance (e : Exec T) (o : String) (ids : List Int64) :
    Decidable (∀ id ∈ ids, ¬ e.Holds F ⟨o, id⟩) :=
  List.decidableBAll (fun id => ¬ e.Holds F ⟨o, id⟩) ids

instance (s : PollerState F) : (a : ConcurrentAction T) → Decidable (NotInFlight s a)
  | .unsubscribe o ids => inferInstanceAs (Decidable (∀ e ∈ s.execs,
      e.finished = false → ∀ id ∈ ids, ¬ e.Holds F ⟨o, id⟩))
  | .unsubscribeAll o =>
    inferInstanceAs (Decidable (∀ e ∈ s.execs, e.finished = false → ¬ e.HoldsObject o))
  | .fetch i (.ok items) => inferInstanceAs (Decidable (∀ e ∈ s.execs[i]?, ∀ c ∈ e.todo.head?,
      c.2 ≠ [] → ∀ x ∈ items, F.getItemID x ∈ c.2))
  | .fetch _ (.error _) | .subscribe _ _ | .start _ _ _ | .item _
  | .finish _ => inferInstanceAs (Decidable True)

/-! ### The stale poll -/

/-- Sensor 1 is unsubscribed between the fetch of a poll and its look at the item. -/
def staleRun : List (ConcurrentAction (Int64 × String)) :=
  [.subscribe "o" [1], .start .poll [("o", [1])] 0, .fetch 0 (.ok [(1, "7")]),
    .unsubscribe "o" [1], .item 0, .finish 0]

/-- The next poll after a new `Subscribe`. -/
def nextPoll : List (ConcurrentAction (Int64 × String)) :=
  [.start .poll [("o", [1])] 1, .fetch 1 (.ok [(1, "7")]), .item 1, .finish 1]

/-- **Both fail.** After `staleRun` the hash of sensor 1 is recorded though it is not subscribed,
and the poll after the next `Subscribe` does not report it. -/
theorem not_noStaleHash_and_not_reEmits :
    ¬ NoStaleHash (pollLoopMachine pairFetcher 0) ∧ ¬ ReEmits (pollLoopMachine pairFetcher 0) := by
  have hreach : (pollLoopMachine pairFetcher 0).Reachable _ := ⟨staleRun, rfl⟩
  constructor
  · intro h
    exact absurd (h _ hreach (by decide) "o" 1 (by decide)) (by decide)
  · intro h
    have := h _ _ _ ⟨"o", 1⟩ [1] nextPoll hreach (by decide) (by decide) rfl rfl (by decide)
    exact absurd this (by decide)

/-! ### What an execution holds -/

namespace Exec

variable {e e' : Exec T}

theorem not_holds_of_not_holdsObject {o : String} (h : ¬ e.HoldsObject o) (id : Int64) :
    ¬ e.Holds F ⟨o, id⟩ := by
  rintro (⟨c, hc, hco, hid⟩ | ⟨x, hx, hxo, -⟩)
  · exact h (Or.inl ⟨c, hc, hco, fun hnil => by rw [hnil] at hid; cases hid⟩)
  · exact h (Or.inr ⟨x, hx, hxo⟩)

/-- What came back was held before, if the server answers with requested items. -/
theorem holds_of_fetchNext {result : Except String (List T)} (h : e.fetchNext result = some e')
    (hreq : ∀ items, result = .ok items →
      ∀ c ∈ e.todo.head?, c.2 ≠ [] → ∀ x ∈ items, F.getItemID x ∈ c.2)
    {r : ItemRef} (hr : e'.Holds F r) : e.Holds F r := by
  obtain ⟨-, -, c, rest, htodo, rfl⟩ := fetchNext_eq_some h
  left
  rcases hr with ⟨d, hd, hdr⟩ | ⟨x, hx, hxo, hxid⟩
  · exact ⟨d, by rw [htodo]; exact List.mem_cons_of_mem c hd, hdr⟩
  · obtain ⟨hnil, hxc, items, hres, hxi⟩ := mem_received hx
    refine ⟨c, by rw [htodo]; exact List.mem_cons_self, hxc.symm.trans hxo, ?_⟩
    have := hreq items hres c (by rw [htodo]; rfl) hnil x.2 hxi
    rwa [hxid] at this

theorem holds_of_lookAt {p p' : BasePoller F} (h : e.lookAt p = some (e', p')) {r : ItemRef}
    (hr : e'.Holds F r) : e.Holds F r := by
  obtain ⟨-, x, rest, hitems, rfl, -⟩ := lookAt_eq_some h
  rcases hr with hr | ⟨y, hy, hyr⟩
  · exact Or.inl hr
  · exact Or.inr ⟨y, by rw [hitems]; exact List.mem_cons_of_mem x hy, hyr⟩

/-- The item looked at is held. -/
theorem holds_head {x : String × T} {rest : List (String × T)} (h : e.items = x :: rest) :
    e.Holds F ⟨x.1, F.getItemID x.2⟩ :=
  Or.inr ⟨x, by rw [h]; exact List.mem_cons_self, rfl, rfl⟩

/-- What an execution will deliver about `r` of the items it has fetched, when the recorded hash is
`last`. -/
def pending (F : ItemFetcher T) (r : ItemRef) (last : Option String) (e : Exec T) :
    List (ItemEvent T) :=
  updatesOf F r e.kind e.batch ++ changes (eventHash F) isForced last (itemsOf F r e.kind e.items)

/-- Looking at an item does not change what will be delivered. -/
theorem pending_lookAt {p p' : BasePoller F} (h : e.lookAt p = some (e', p')) (r : ItemRef) :
    e'.pending F r (p'.lastValue r.objectName r.id) =
      e.pending F r (p.lastValue r.objectName r.id) := by
  obtain ⟨-, x, rest, hitems, rfl, rfl⟩ := lookAt_eq_some h
  obtain ⟨hup, hlast⟩ := BasePoller.updatesOf_foldl_emitItem r e.kind e.now [x] (e.batch, p)
  rw [List.foldl_cons, List.foldl_nil] at hup hlast
  have hsplit : itemsOf F r e.kind (x :: rest) =
      itemsOf F r e.kind [x] ++ itemsOf F r e.kind rest := itemsOf_append r e.kind [x] rest
  unfold pending
  rw [hup, hlast, hitems, hsplit, changes_append, List.append_assoc]

theorem pending_of_not_holds {r : ItemRef} (h : ¬ e.Holds F r) (last : Option String) :
    e.pending F r last = updatesOf F r e.kind e.batch := by
  have hnil : itemsOf F r e.kind e.items = [] := by
    unfold itemsOf
    rw [List.map_eq_nil_iff, List.filter_eq_nil_iff]
    intro x hx hmatch
    exact h (Or.inr ⟨x, hx, by simpa using hmatch⟩)
  unfold pending
  rw [hnil, changes_nil, List.append_nil]

end Exec

/-! ### The invariant of the executions in progress -/

/-- The invariant: every recorded hash belongs to a subscribed item, so does everything an execution
in progress holds, and there is at most one such execution. -/
structure PollInv (s : PollerState F) : Prop where
  clean : s.poller.Clean
  held : ∀ (i : ℕ) (e : Exec T), s.execs[i]? = some e → e.finished = false → ∀ r : ItemRef, e.Holds F r →
    s.poller.Subscribed r.objectName r.id
  unique : ∀ (i j : ℕ) (e e' : Exec T), s.execs[i]? = some e → s.execs[j]? = some e' → e.finished = false →
    e'.finished = false → i = j

/-- A step of one execution keeps the invariant if it holds nothing new. -/
theorem PollInv.setExec {s : PollerState F} (h : PollInv s) {i : ℕ} {e e' : Exec T}
    (he : s.execs[i]? = some e) (hf : e.finished = false) {p' : BasePoller F} (hclean : p'.Clean)
    (hsubs : p'.subscriptions = s.poller.subscriptions)
    (hholds : ∀ r : ItemRef, e'.finished = false → e'.Holds F r → e.Holds F r) :
    PollInv ⟨p', s.execs.set i e'⟩ := by
  have hget := Calls.getElem?_set_of_getElem? he e'
  have hold : ∀ (j : ℕ) (d : Exec T), (s.execs.set i e')[j]? = some d → d.finished = false →
      ∃ d', s.execs[j]? = some d' ∧ d'.finished = false := by
    intro j d hd hdf
    rw [hget j] at hd
    by_cases hj : j = i
    · rw [hj]
      exact ⟨e, he, hf⟩
    · rw [if_neg hj] at hd
      exact ⟨d, hd, hdf⟩
  refine ⟨hclean, ?_, ?_⟩
  · intro j d hd hdf r hr
    rw [BasePoller.subscribed_congr hsubs]
    have hd' : (s.execs.set i e')[j]? = some d := hd
    rw [hget j] at hd'
    by_cases hj : j = i
    · rw [if_pos hj] at hd'
      obtain rfl : e' = d := Option.some.inj hd'
      exact h.held i e he hf r (hholds r hdf hr)
    · rw [if_neg hj] at hd'
      exact h.held j d hd' hdf r hr
  · intro j k d d' hd hd' hdf hdf'
    obtain ⟨c, hc, hcf⟩ := hold j d hd hdf
    obtain ⟨c', hc', hcf'⟩ := hold k d' hd' hdf'
    exact h.unique j k c c' hc hc' hcf hcf'

/-- What is unsubscribed is not held: `Unsubscribe` leaves what is held alone. -/
theorem PollInv.unsubscribe {s : PollerState F} (h : PollInv s) {o : String} {ids : List Int64}
    (hin : NotInFlight s (.unsubscribe o ids)) :
    PollInv { s with poller := s.poller.unsubscribe o ids } := by
  refine ⟨h.clean.unsubscribe o ids, ?_, h.unique⟩
  intro i e he hf r hr
  refine BasePoller.subscribed_unsubscribe.mpr ⟨h.held i e he hf r hr, ?_⟩
  rintro ⟨rfl, hid⟩
  exact hin e (List.mem_of_getElem? he) hf r.id hid hr

theorem PollInv.unsubscribeAll {s : PollerState F} (h : PollInv s) {o : String}
    (hin : NotInFlight s (.unsubscribeAll o)) :
    PollInv { s with poller := s.poller.unsubscribeAll o } := by
  refine ⟨h.clean.unsubscribeAll o, ?_, h.unique⟩
  intro i e he hf r hr
  refine BasePoller.subscribed_unsubscribeAll.mpr ⟨h.held i e he hf r hr, ?_⟩
  rintro rfl
  exact Exec.not_holds_of_not_holdsObject (hin e (List.mem_of_getElem? he) hf) r.id hr

theorem PollInv.start {s : PollerState F} (h : PollInv s) {kind : EmitKind}
    {snap : List (String × List Int64)} (now : Time) (hquiet : s.Quiet)
    (hsnap : IsSnapshot s.poller.subscriptions snap) :
    PollInv { s with execs := s.execs ++ [⟨kind, snap, [], [], now, false⟩] } := by
  have hget := Calls.getElem?_append_singleton s.execs (⟨kind, snap, [], [], now, false⟩ : Exec T)
  -- only the new execution is in progress
  have hnew : ∀ (j : ℕ) (d : Exec T), (s.execs ++ [⟨kind, snap, [], [], now, false⟩])[j]? = some d →
      d.finished = false → j = s.execs.length ∧ d = ⟨kind, snap, [], [], now, false⟩ := by
    intro j d hd hdf
    rw [hget j] at hd
    by_cases hj : j = s.execs.length
    · rw [if_pos hj] at hd
      exact ⟨hj, (Option.some.inj hd).symm⟩
    · rw [if_neg hj] at hd
      rw [hquiet d (List.mem_of_getElem? hd)] at hdf
      cases hdf
  refine ⟨h.clean, ?_, ?_⟩
  · intro j d hd hdf r hr
    obtain ⟨-, rfl⟩ := hnew j d hd hdf
    rcases hr with ⟨c, hc, hco, hid⟩ | ⟨x, hx, -⟩
    · obtain ⟨-, hitems⟩ := hsnap.2.1 c hc
      rw [hco] at hitems
      exact BasePoller.subscribed_iff.mpr ⟨_, hitems, List.mem_toFinset.mpr hid⟩
    · cases hx
  · intro j k d d' hd hd' hdf hdf'
    rw [(hnew j d hd hdf).1, (hnew k d' hd' hdf').1]

/-- **The step lemma.** -/
theorem PollInv.step {s s' : PollerState F} {a : ConcurrentAction T} (h : PollInv s)
    (hseq : Sequential s a) (hin : NotInFlight s a) (hs : s.step a = some s') : PollInv s' := by
  cases a with
  | subscribe o ids =>
    obtain rfl := Option.some.inj hs
    refine ⟨h.clean.subscribe o ids, ?_, h.unique⟩
    intro i e he hf r hr
    exact BasePoller.subscribed_subscribe.mpr (Or.inr (h.held i e he hf r hr))
  | unsubscribe o ids =>
    obtain rfl := Option.some.inj hs
    exact h.unsubscribe hin
  | unsubscribeAll o =>
    obtain rfl := Option.some.inj hs
    exact h.unsubscribeAll hin
  | start kind snap now =>
    obtain ⟨hsnap, rfl⟩ := step_start hs
    exact h.start now hseq.2 hsnap
  | fetch i result =>
    obtain ⟨e, e', he, hnext, rfl⟩ := step_fetch hs
    refine h.setExec he (Exec.fetchNext_eq_some hnext).1 h.clean rfl ?_
    intro r _ hr
    refine Exec.holds_of_fetchNext hnext ?_ hr
    rintro items rfl
    exact hin e (by rw [he]; rfl)
  | item i =>
    obtain ⟨e, e', p', he, hlook, rfl⟩ := step_item hs
    obtain ⟨hf, x, rest, hitems, -, hp⟩ := Exec.lookAt_eq_some hlook
    refine h.setExec he hf ?_ ?_ fun r _ hr => Exec.holds_of_lookAt hlook hr
    · rw [hp]
      exact h.clean.observe e.kind (h.held i e he hf _ (Exec.holds_head hitems))
    · rw [hp]
      exact BasePoller.subscriptions_observe s.poller e.kind x.1 x.2
  | finish i =>
    obtain ⟨e, e', he, hdel, rfl⟩ := step_finish hs
    obtain ⟨hf, -, -, rfl⟩ := Exec.deliver_eq_some hdel
    exact h.setExec he hf h.clean rfl fun r hf' _ => by cases hf'

/-- Changing subscriptions changes the hash of `r` only to none, and only if no execution holds
`r`. -/
theorem PollInv.lastValue_of_unsubscribed {s : PollerState F} (h : PollInv s) {q : BasePoller F}
    {r : ItemRef} (hclean : q.Clean)
    (hsub : q.Subscribed r.objectName r.id →
      q.lastValue r.objectName r.id = s.poller.lastValue r.objectName r.id)
    (hheld : s.poller.Subscribed r.objectName r.id → ¬ q.Subscribed r.objectName r.id →
      ∀ (i : ℕ) (e : Exec T), s.execs[i]? = some e → e.finished = false → ¬ e.Holds F r) :
    q.lastValue r.objectName r.id = s.poller.lastValue r.objectName r.id ∨
      q.lastValue r.objectName r.id = none ∧
        ∀ (i : ℕ) (e : Exec T), s.execs[i]? = some e → e.finished = false → ¬ e.Holds F r := by
  by_cases hq : q.Subscribed r.objectName r.id
  · exact Or.inl (hsub hq)
  · have hnone : q.lastValue r.objectName r.id = none := by
      by_contra hne
      exact hq (hclean _ _ hne)
    by_cases hp : s.poller.Subscribed r.objectName r.id
    · exact Or.inr ⟨hnone, hheld hp hq⟩
    · left
      rw [hnone]
      by_contra hne
      exact hp (h.clean _ _ (Ne.symm hne))

theorem PollInv.lastValue_unsubscribe {s : PollerState F} (h : PollInv s) {o : String}
    {ids : List Int64} (hin : NotInFlight s (.unsubscribe o ids)) (r : ItemRef) :
    (s.poller.unsubscribe o ids).lastValue r.objectName r.id =
        s.poller.lastValue r.objectName r.id ∨
      (s.poller.unsubscribe o ids).lastValue r.objectName r.id = none ∧
        ∀ (i : ℕ) (e : Exec T), s.execs[i]? = some e → e.finished = false → ¬ e.Holds F r := by
  refine h.lastValue_of_unsubscribed (h.clean.unsubscribe o ids)
    BasePoller.lastValue_unsubscribe_of_subscribed ?_
  intro hp hq i e he hf
  have hgone : r.objectName = o ∧ r.id ∈ ids := by
    by_contra hno
    exact hq (BasePoller.subscribed_unsubscribe.mpr ⟨hp, hno⟩)
  obtain ⟨rfl, hid⟩ := hgone
  exact hin e (List.mem_of_getElem? he) hf r.id hid

theorem PollInv.lastValue_unsubscribeAll {s : PollerState F} (h : PollInv s) {o : String}
    (hin : NotInFlight s (.unsubscribeAll o)) (r : ItemRef) :
    (s.poller.unsubscribeAll o).lastValue r.objectName r.id =
        s.poller.lastValue r.objectName r.id ∨
      (s.poller.unsubscribeAll o).lastValue r.objectName r.id = none ∧
        ∀ (i : ℕ) (e : Exec T), s.execs[i]? = some e → e.finished = false → ¬ e.Holds F r := by
  refine h.lastValue_of_unsubscribed (h.clean.unsubscribeAll o) ?_ ?_
  · intro hq
    rw [BasePoller.lastValue_unsubscribeAll, if_neg (BasePoller.subscribed_unsubscribeAll.mp hq).2]
  · intro hp hq i e he hf
    have ho : r.objectName = o := by
      by_contra hno
      exact hq (BasePoller.subscribed_unsubscribeAll.mpr ⟨hp, hno⟩)
    subst ho
    exact Exec.not_holds_of_not_holdsObject (hin e (List.mem_of_getElem? he) hf) r.id

/-! ### From a subscription to the first delivery -/

/-- What holds after a `Subscribe` of `r`, when there were `n` executions: `fetched` and `delivered`
are what the executions from `n` on fetched and delivered about `r` so far.  The older ones hold
nothing about `r`; and what the newer ones delivered, together with what the one in progress will
deliver, starts with the first item they fetched. -/
structure FreshInv (n : ℕ) (r : ItemRef) (s : PollerState F)
    (fetched delivered : List (ItemEvent T)) : Prop where
  len : n ≤ s.execs.length
  old : ∀ (i : ℕ) (e : Exec T), i < n → s.execs[i]? = some e → e.finished = false →
    ¬ e.Holds F r
  busy : ∀ (i : ℕ) (e : Exec T), n ≤ i → s.execs[i]? = some e → e.finished = false →
    (delivered ++ e.pending F r (s.poller.lastValue r.objectName r.id)).head? = fetched.head?
  quiet : (∀ (i : ℕ) (e : Exec T), n ≤ i → s.execs[i]? = some e → e.finished = true) →
    delivered.head? = fetched.head?
  unrecorded : fetched = [] → s.poller.lastValue r.objectName r.id = none

variable {n : ℕ} {r : ItemRef} {s s' : PollerState F} {fetched delivered : List (ItemEvent T)}

/-- A change of the subscriptions. -/
theorem FreshInv.setPoller (h : FreshInv n r s fetched delivered) {q : BasePoller F}
    (hq : q.lastValue r.objectName r.id = s.poller.lastValue r.objectName r.id ∨
      q.lastValue r.objectName r.id = none ∧
        ∀ (i : ℕ) (e : Exec T), s.execs[i]? = some e → e.finished = false → ¬ e.Holds F r) :
    FreshInv n r { s with poller := q } fetched delivered := by
  refine ⟨h.len, h.old, ?_, h.quiet, ?_⟩
  · intro i e hi he hf
    have := h.busy i e hi he hf
    rcases hq with hq | ⟨-, hno⟩
    · rw [hq]
      exact this
    · rw [Exec.pending_of_not_holds (hno i e he hf)] at this ⊢
      exact this
  · intro hnil
    rcases hq with hq | ⟨hq, -⟩
    · exact hq.trans (h.unrecorded hnil)
    · exact hq

/-- A new poll starts when no other is in progress. -/
theorem FreshInv.start (h : FreshInv n r s fetched delivered) {kind : EmitKind}
    {snap : List (String × List Int64)} (now : Time) (hquiet : s.Quiet) :
    FreshInv n r { s with execs := s.execs ++ [⟨kind, snap, [], [], now, false⟩] }
      fetched delivered := by
  have hget := Calls.getElem?_append_singleton s.execs (⟨kind, snap, [], [], now, false⟩ : Exec T)
  have hall : delivered.head? = fetched.head? :=
    h.quiet fun i e _ he => hquiet e (List.mem_of_getElem? he)
  refine ⟨?_, ?_, ?_, fun _ => hall, h.unrecorded⟩
  · rw [List.length_append]
    exact Nat.le_add_right_of_le h.len
  · intro i e hi he hf
    have hne : i ≠ s.execs.length := Nat.ne_of_lt (Nat.lt_of_lt_of_le hi h.len)
    have he' : s.execs[i]? = some e := by
      rw [← he]
      show _ = (s.execs ++ _)[i]?
      rw [hget i, if_neg hne]
    exact h.old i e hi he' hf
  · intro i e _ he hf
    have he' : (s.execs ++ [⟨kind, snap, [], [], now, false⟩])[i]? = some e := he
    rw [hget i] at he'
    by_cases hi : i = s.execs.length
    · rw [if_pos hi] at he'
      obtain rfl := Option.some.inj he'
      show (delivered ++ []).head? = _
      rw [List.append_nil, hall]
    · rw [if_neg hi] at he'
      rw [hquiet e (List.mem_of_getElem? he')] at hf
      cases hf

/-- A step of one execution in progress, if what it will deliver agrees with what is fetched. -/
theorem FreshInv.setExec (h : FreshInv n r s fetched delivered) (hinv : PollInv s) {i : ℕ}
    {e e' : Exec T} (he : s.execs[i]? = some e) (hf : e.finished = false) {p' : BasePoller F}
    {fetched' delivered' : List (ItemEvent T)} (hf' : e'.finished = false)
    (hold : i < n → ¬ e'.Holds F r)
    (hbusy : n ≤ i → (delivered' ++ e'.pending F r (p'.lastValue r.objectName r.id)).head? =
      fetched'.head?)
    (hquiet : i < n → delivered'.head? = fetched'.head?)
    (hnone : fetched' = [] → p'.lastValue r.objectName r.id = none) :
    FreshInv n r ⟨p', s.execs.set i e'⟩ fetched' delivered' := by
  have hget := Calls.getElem?_set_of_getElem? he e'
  -- the other executions are finished
  have hother : ∀ (j : ℕ) (d : Exec T), (s.execs.set i e')[j]? = some d → d.finished = false →
      j = i ∧ d = e' := by
    intro j d hd hdf
    rw [hget j] at hd
    by_cases hj : j = i
    · rw [if_pos hj] at hd
      exact ⟨hj, (Option.some.inj hd).symm⟩
    · rw [if_neg hj] at hd
      exact absurd (hinv.unique j i d e hd he hdf hf) hj
  refine ⟨?_, ?_, ?_, ?_, hnone⟩
  · rw [List.length_set]
    exact h.len
  · intro j d hj hd hdf
    obtain ⟨rfl, rfl⟩ := hother j d hd hdf
    exact hold hj
  · intro j d hj hd hdf
    obtain ⟨rfl, rfl⟩ := hother j d hd hdf
    exact hbusy hj
  · intro hall
    rcases Nat.lt_or_ge i n with hi | hi
    · exact hquiet hi
    · have := hall i e' hi ((hget i).trans (if_pos rfl))
      rw [hf'] at this
      cases this

/-- While an older execution is in progress, no newer one is. -/
theorem FreshInv.head?_of_old (h : FreshInv n r s fetched delivered) (hinv : PollInv s) {i : ℕ}
    {e : Exec T} (he : s.execs[i]? = some e) (hf : e.finished = false) (hi : i < n) :
    delivered.head? = fetched.head? := by
  apply h.quiet
  intro j d hj hd
  by_contra hdf
  have := hinv.unique j i d e hd he (by simpa using hdf) hf
  omega

/-- A fetch: what comes back first is kept first. -/
theorem FreshInv.fetch (h : FreshInv n r s fetched delivered) (hinv : PollInv s) {i : ℕ}
    {result : Except String (List T)} (hin : NotInFlight s (.fetch i result)) {e e' : Exec T}
    (he : s.execs[i]? = some e) (hnext : e.fetchNext result = some e') :
    FreshInv n r { s with execs := s.execs.set i e' }
      (fetched ++ fetchedFrom n r s (.fetch i result)) delivered := by
  have hout : fetchedFrom n r s (.fetch i result) =
      if n ≤ i then itemsOf F r e'.kind e'.items else [] := by
    simp [fetchedFrom, he, hnext]
  have hheld : e'.Holds F r → e.Holds F r := by
    apply Exec.holds_of_fetchNext hnext
    rintro items rfl
    exact hin e (by rw [he]; rfl)
  obtain ⟨hf, hi, c, rest, -, rfl⟩ := Exec.fetchNext_eq_some hnext
  refine h.setExec hinv he hf hf ?_ ?_ ?_ ?_
  · exact fun hin hr => h.old i e hin he hf (hheld hr)
  · intro hni
    rw [hout, if_pos hni]
    -- the batch so far, and then what came back
    have hbatch : (delivered ++ updatesOf F r e.kind e.batch).head? = fetched.head? := by
      have hbusy := h.busy i e hni he hf
      unfold Exec.pending at hbusy
      rw [hi] at hbusy
      rw [← hbusy]
      show _ = (delivered ++ (updatesOf F r e.kind e.batch ++ [])).head?
      rw [List.append_nil]
    show (delivered ++ (updatesOf F r e.kind e.batch ++
        changes (eventHash F) isForced (s.poller.lastValue r.objectName r.id)
          (itemsOf F r e.kind (received c result)))).head? =
      (fetched ++ itemsOf F r e.kind (received c result)).head?
    rw [← List.append_assoc, List.head?_append, hbatch, List.head?_append]
    cases fetched with
    | nil => rw [h.unrecorded rfl, head?_changes_none]
    | cons x xs => rfl
  · intro hin
    rw [hout, if_neg (Nat.not_le.mpr hin), List.append_nil]
    exact h.head?_of_old hinv he hf hin
  · exact fun hnil => h.unrecorded (List.append_eq_nil_iff.mp hnil).1

/-- Looking at an item moves it from the fetched to the kept ones. -/
theorem FreshInv.item (h : FreshInv n r s fetched delivered) (hinv : PollInv s) {i : ℕ}
    {e e' : Exec T} {p' : BasePoller F} (he : s.execs[i]? = some e)
    (hlook : e.lookAt s.poller = some (e', p')) :
    FreshInv n r ⟨p', s.execs.set i e'⟩ fetched delivered := by
  obtain ⟨hf, x, rest, hitems, he', hp'⟩ := Exec.lookAt_eq_some hlook
  refine h.setExec hinv he hf (by rw [he']; exact hf) ?_ ?_ ?_ ?_
  · exact fun hi hr => h.old i e hi he hf (Exec.holds_of_lookAt hlook hr)
  · intro hi
    rw [Exec.pending_lookAt hlook]
    exact h.busy i e hi he hf
  · exact h.head?_of_old hinv he hf
  · intro hnil
    -- without a fetched item about `r`, this one is about another sensor
    have hother : itemsOf F r e.kind [x] = [] := by
      have hsplit : itemsOf F r e.kind e.items =
          itemsOf F r e.kind [x] ++ itemsOf F r e.kind rest := by
        rw [hitems]
        exact itemsOf_append r e.kind [x] rest
      suffices hall : itemsOf F r e.kind e.items = [] by
        rw [hsplit] at hall
        exact (List.append_eq_nil_iff.mp hall).1
      rcases Nat.lt_or_ge i n with hi | hi
      · -- an older execution holds nothing about `r`
        have hno := h.old i e hi he hf
        unfold itemsOf
        rw [List.map_eq_nil_iff, List.filter_eq_nil_iff]
        exact fun y hy hmatch => hno (Or.inr ⟨y, hy, by simpa using hmatch⟩)
      · -- a newer one would deliver the item, as no hash of `r` is recorded
        have hbusy := h.busy i e hi he hf
        rw [hnil, List.head?_nil, List.head?_eq_none_iff, h.unrecorded hnil] at hbusy
        have hchanges := (List.append_eq_nil_iff.mp (List.append_eq_nil_iff.mp hbusy).2).2
        rw [← List.head?_eq_none_iff, ← head?_changes_none (eventHash F) isForced,
          List.head?_eq_none_iff]
        exact hchanges
    obtain ⟨-, hlast⟩ := BasePoller.updatesOf_foldl_emitItem r e.kind e.now [x] (e.batch, s.poller)
    rw [hother] at hlast
    rw [hp']
    exact hlast.trans (h.unrecorded hnil)

/-- A poll that finishes delivers what it had kept. -/
theorem FreshInv.finish (h : FreshInv n r s fetched delivered) (hinv : PollInv s) {i : ℕ}
    {e e' : Exec T} (he : s.execs[i]? = some e) (hdel : e.deliver = some e') :
    FreshInv n r { s with execs := s.execs.set i e' } fetched
      (delivered ++ deliveredFrom n r s (.finish i)) := by
  have hout : deliveredFrom n r s (.finish i) =
      if n ≤ i then updatesOf F r e.kind e.batch else [] := by
    simp [deliveredFrom, he]
  obtain ⟨hf, hi, -, rfl⟩ := Exec.deliver_eq_some hdel
  have hget := Calls.getElem?_set_of_getElem? he { e with finished := true }
  have hother : ∀ (j : ℕ) (d : Exec T), (s.execs.set i { e with finished := true })[j]? = some d →
      d.finished = false → j ≠ i ∧ s.execs[j]? = some d := by
    intro j d hd hdf
    rw [hget j] at hd
    by_cases hj : j = i
    · rw [if_pos hj] at hd
      obtain rfl := Option.some.inj hd
      cases hdf
    · rw [if_neg hj] at hd
      exact ⟨hj, hd⟩
  refine ⟨?_, ?_, ?_, ?_, h.unrecorded⟩
  · rw [List.length_set]
    exact h.len
  · intro j d hj hd hdf
    exact h.old j d hj (hother j d hd hdf).2 hdf
  · intro j d _ hd hdf
    obtain ⟨hji, hd'⟩ := hother j d hd hdf
    exact absurd (hinv.unique j i d e hd' he hdf hf) hji
  · intro _
    rw [hout]
    rcases Nat.lt_or_ge i n with hin | hin
    · rw [if_neg (Nat.not_le.mpr hin), List.append_nil]
      exact h.head?_of_old hinv he hf hin
    · rw [if_pos hin, ← h.busy i e hin he hf]
      unfold Exec.pending
      rw [hi]
      show _ = (delivered ++ (updatesOf F r e.kind e.batch ++ [])).head?
      rw [List.append_nil]

/-- **The step lemma of the freshness invariant.** -/
theorem FreshInv.step {a : ConcurrentAction T} (h : FreshInv n r s fetched delivered)
    (hinv : PollInv s) (hseq : Sequential s a) (hin : NotInFlight s a) (hs : s.step a = some s') :
    FreshInv n r s' (fetched ++ fetchedFrom n r s a) (delivered ++ deliveredFrom n r s a) := by
  cases a with
  | subscribe o ids =>
    obtain rfl := Option.some.inj hs
    show FreshInv n r _ (fetched ++ []) (delivered ++ [])
    rw [List.append_nil, List.append_nil]
    exact h.setPoller (Or.inl (BasePoller.lastValue_subscribe s.poller o r.objectName ids r.id))
  | unsubscribe o ids =>
    obtain rfl := Option.some.inj hs
    show FreshInv n r _ (fetched ++ []) (delivered ++ [])
    rw [List.append_nil, List.append_nil]
    exact h.setPoller (hinv.lastValue_unsubscribe hin r)
  | unsubscribeAll o =>
    obtain rfl := Option.some.inj hs
    show FreshInv n r _ (fetched ++ []) (delivered ++ [])
    rw [List.append_nil, List.append_nil]
    exact h.setPoller (hinv.lastValue_unsubscribeAll hin r)
  | start kind snap now =>
    obtain ⟨-, rfl⟩ := step_start hs
    show FreshInv n r _ (fetched ++ []) (delivered ++ [])
    rw [List.append_nil, List.append_nil]
    exact h.start now hseq.2
  | fetch i result =>
    obtain ⟨e, e', he, hnext, rfl⟩ := step_fetch hs
    show FreshInv n r _ _ (delivered ++ [])
    rw [List.append_nil]
    exact h.fetch hinv hin he hnext
  | item i =>
    obtain ⟨e, e', p', he, hlook, rfl⟩ := step_item hs
    show FreshInv n r _ (fetched ++ []) (delivered ++ [])
    rw [List.append_nil, List.append_nil]
    exact h.item hinv he hlook
  | finish i =>
    obtain ⟨e, e', he, hdel, rfl⟩ := step_finish hs
    show FreshInv n r _ (fetched ++ []) _
    rw [List.append_nil]
    exact h.finish hinv he hdel

/-! ### The main theorem -/

variable {batchSize : ℤ}

theorem pollLoop_step {a : ConcurrentAction T}
    (h : ((pollLoopMachine F batchSize).guard NotInFlight).step s a = some s') :
    Sequential s a ∧ NotInFlight s a ∧ s.step a = some s' := by
  obtain ⟨hin, h⟩ := Machine.guard_step_eq_some.mp h
  obtain ⟨hseq, h⟩ := Machine.guard_step_eq_some.mp h
  exact ⟨hseq, hin, h⟩

theorem pollInv_of_reachable
    (h : ((pollLoopMachine F batchSize).guard NotInFlight).Reachable s) : PollInv s := by
  refine Machine.Reachable.induction (P := PollInv) ?_ ?_ h
  · refine ⟨BasePoller.clean_newBasePoller batchSize, ?_, ?_⟩
    · intro i e he
      cases he
    · intro i j e e' he
      cases he
  · intro s a t _ ih hstep
    obtain ⟨hseq, hin, hstep⟩ := pollLoop_step hstep
    exact ih.step hseq hin hstep

/-- **The run lemma of the freshness invariant.** -/
theorem FreshInv.run {t : PollerState F} {as : List (ConcurrentAction T)}
    (h : FreshInv n r s fetched delivered)
    (hr : ((pollLoopMachine F batchSize).guard NotInFlight).Reachable s)
    (hrun : ((pollLoopMachine F batchSize).guard NotInFlight).run s as = some t) :
    FreshInv n r t
      (fetched ++ ((pollLoopMachine F batchSize).guard NotInFlight).outputs (fetchedFrom n r) s as)
      (delivered ++
        ((pollLoopMachine F batchSize).guard NotInFlight).outputs (deliveredFrom n r) s as) := by
  induction as generalizing s fetched delivered with
  | nil =>
    obtain rfl := Option.some.inj hrun
    show FreshInv n r _ (fetched ++ []) (delivered ++ [])
    rw [List.append_nil, List.append_nil]
    exact h
  | cons a as ih =>
    obtain ⟨u, hu, hut⟩ := Machine.run_cons_eq_some _ |>.mp hrun
    obtain ⟨hseq, hin, hstep⟩ := pollLoop_step hu
    rw [Machine.outputs_cons as hu, Machine.outputs_cons as hu, ← List.append_assoc,
      ← List.append_assoc]
    exact ih (h.step (pollInv_of_reachable hr) hseq hin hstep) (hr.step hu) hut

/-- **Re-subscription works** in every run in which nothing is unsubscribed that a poll in progress
still holds. -/
theorem noStaleHash_and_reEmits_of_notInFlight (F : ItemFetcher T) (batchSize : ℤ) :
    NoStaleHash ((pollLoopMachine F batchSize).guard NotInFlight) ∧
      ReEmits ((pollLoopMachine F batchSize).guard NotInFlight) := by
  constructor
  · exact fun s hs _ => (pollInv_of_reachable hs).clean
  · intro s₀ s₁ s₂ r ids as hr hnot _ hsub hrun hquiet
    have hinv := pollInv_of_reachable hr
    -- the executions in progress at the `Subscribe` hold nothing about `r`
    have hfresh : FreshInv s₀.execs.length r s₁ [] [] := by
      obtain rfl := Option.some.inj (pollLoop_step hsub).2.2
      refine ⟨le_rfl, ?_, ?_, fun _ => rfl, ?_⟩
      · exact fun i e _ he hf hheld => hnot (hinv.held i e he hf r hheld)
      · intro i e hi he _
        have : s₀.execs[i]? = some e := he
        rw [List.getElem?_eq_none hi] at this
        cases this
      · intro _
        rw [BasePoller.lastValue_subscribe]
        by_contra hne
        exact hnot (hinv.clean _ _ hne)
    have := hfresh.run (hr.step hsub) hrun
    exact this.quiet fun i e _ he => hquiet e (List.mem_of_getElem? he)

end UnisetPanel
