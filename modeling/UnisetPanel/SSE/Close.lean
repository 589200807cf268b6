/-
  The `done` channels of the clients of the event hub (`internal/api/sse.go`),
  and the two paths that close them.

  `RemoveClient` deletes its client under `mu`, and tests and closes `done` after
  it has let go of `mu`.  `Close` tests and closes the channel of every client of
  the map under `mu`.  The deletion decides who may close: a client that is in
  the map is closed by `Close` alone, and one that has left it by the request
  that removes it (`ChannelsInv`).  So the test of either path still holds when
  it closes, and no channel is closed twice (`closed_exactly_once`).

  `AddClientWithToken` is one section, `RemoveClient` a deletion, a test and a
  close, and `Close` takes `mu`, visits its clients with a test and a close each,
  and lets go of `mu`; all calls interleave.  A client is removed by the request
  that added it, when that ends.
-/
import UnisetPanel.Calls
import Mathlib.Data.Finset.Basic
import Mathlib.Tactic.Common

namespace UnisetPanel

/-- The hub as far as the channels go; a client is named by its pointer. -/
structure HubChannels where
  clients : Finset ℕ
  /-- the clients whose `done` is closed -/
  done : Finset ℕ
  /-- somebody holds `mu` -/
  locked : Bool
  /-- the next pointer to allocate -/
  nextPtr : ℕ
  /-- a closed channel was closed again -/
  panicked : Bool
  /-- the clients that were registered when a `Close` ran -/
  found : Finset ℕ
  deriving DecidableEq

namespace HubChannels

/-- `NewSSEHub`. -/
def newSSEHub : HubChannels := ⟨∅, ∅, false, 0, false, ∅⟩

/-- `close(client.done)`. -/
def closeDone (h : HubChannels) (client : ℕ) : HubChannels :=
  { h with done := insert client h.done, panicked := h.panicked || client ∈ h.done }

end HubChannels

/-- Whoever calls the hub. -/
inductive HubRequest where
  /-- `HandleSSE`: a client is added, and removed when the request ends -/
  | handleSSE
  | close
  deriving DecidableEq

/-- Where a call stands. -/
inductive HubCall where
  /-- `AddClientWithToken` is called -/
  | adding
  /-- it has returned the client -/
  | serving (client : ℕ)
  /-- `RemoveClient` has deleted the client -/
  | deleted (client : ℕ)
  /-- its test has found `done` open -/
  | closing (client : ℕ)
  /-- it has dealt with `done` -/
  | removed (client : ℕ)
  /-- `Close` is called -/
  | closeCalled
  /-- it holds `mu` and still has these clients to visit -/
  | visiting (range : List ℕ)
  /-- its test of a client has found `done` open -/
  | visitingOpen (client : ℕ) (range : List ℕ)
  | closed
  deriving DecidableEq

namespace HubCall

/-- A call begins. -/
def start : HubRequest → HubCall
  | .handleSSE => .adding
  | .close => .closeCalled

/-- One section of a call; `range` is the order in which `Close` visits the clients. -/
def next (range : List ℕ) (h : HubChannels) : HubCall → Option (HubChannels × HubCall)
  | .adding =>
    if h.locked then none
    else some ({ h with clients := insert h.nextPtr h.clients, nextPtr := h.nextPtr + 1 },
      .serving h.nextPtr)
  | .serving client =>
    if h.locked then none
    else some ({ h with clients := h.clients.erase client }, .deleted client)
  | .deleted client => some (h, if client ∈ h.done then .removed client else .closing client)
  | .closing client => some (h.closeDone client, .removed client)
  | .removed _ => none
  | .closeCalled =>
    if h.locked then none
    else if range.Nodup ∧ range.toFinset = h.clients then
      some ({ h with locked := true, found := h.found ∪ h.clients }, .visiting range)
    else none
  | .visiting [] => some ({ h with clients := ∅, locked := false }, .closed)
  | .visiting (client :: range) =>
    some (h, if client ∈ h.done then .visiting range else .visitingOpen client range)
  | .visitingOpen client range => some (h.closeDone client, .visiting range)
  | .closed => none

/-- The client that a handler has added. -/
def client : HubCall → Option ℕ
  | .serving client | .deleted client | .closing client | .removed client => some client
  | .adding | .closeCalled | .visiting _ | .visitingOpen _ _ | .closed => none

/-- The call holds `mu` between two of its sections. -/
def holds : HubCall → Bool
  | .visiting _ | .visitingOpen _ _ => true
  | .adding | .serving _ | .deleted _ | .closing _ | .removed _ | .closeCalled | .closed => false

/-- The call has nothing left to do but, perhaps, to serve. -/
def settled : HubCall → Bool
  | .serving _ | .removed _ | .closed => true
  | .adding | .deleted _ | .closing _ | .closeCalled | .visiting _ | .visitingOpen _ _ => false

end HubCall

/-- The calls in progress over a hub. -/
abbrev ChannelsState := Calls HubChannels HubCall

/-- The runs of any number of calls over a new hub. -/
def channelsMachine : Machine ChannelsState (CallAction HubRequest (List ℕ)) :=
  Calls.machine HubChannels.newSSEHub HubCall.start HubCall.next

/-! ### The invariant -/

/-- What holds of a call with the hub as it is: who has left the map, and what `Close` has
visited. -/
def HubCall.Sound (h : HubChannels) : HubCall → Prop
  | .adding | .closeCalled | .closed => True
  | .serving client => client < h.nextPtr
  | .deleted client => client < h.nextPtr ∧ client ∉ h.clients
  | .closing client => client < h.nextPtr ∧ client ∉ h.clients ∧ client ∉ h.done
  | .removed client => client < h.nextPtr ∧ client ∉ h.clients ∧ client ∈ h.done
  | .visiting range => range.Nodup ∧ (∀ c ∈ range, c ∈ h.clients) ∧
      ∀ c ∈ h.clients, c ∉ range → c ∈ h.done
  | .visitingOpen client range => (client :: range).Nodup ∧ client ∉ h.done ∧
      (∀ c ∈ client :: range, c ∈ h.clients) ∧ ∀ c ∈ h.clients, c ∉ client :: range → c ∈ h.done

/-- No channel was closed twice; every call is sound; a client has one handler; `mu` is held by at
most one call; and who was found by a `Close` is closed or is yet to be visited. -/
structure ChannelsInv (s : ChannelsState) : Prop where
  panicked : s.shared.panicked = false
  fresh : ∀ c ∈ s.shared.clients, c < s.shared.nextPtr
  sound : ∀ k ∈ s.calls, k.Sound s.shared
  unique : ∀ (i j : ℕ) (k k' : HubCall) (c : ℕ), s.calls[i]? = some k → s.calls[j]? = some k' →
    k.client = some c → k'.client = some c → i = j
  holder : s.calls.countP HubCall.holds = s.shared.locked.toNat
  found : ∀ c ∈ s.shared.found, c ∈ s.shared.done ∨
    (s.shared.locked = true ∧ c ∈ s.shared.clients)

namespace HubCall

variable {h h' : HubChannels} {k k' : HubCall}

/-- A call stays sound while others move: if nobody enters the map but new clients, and neither a
channel that it is about to close is closed nor, while it holds `mu`, the map changed. -/
theorem Sound.of_others (hk : k.Sound h)
    (hclients : ∀ c ∈ h'.clients, c ∈ h.clients ∨ h.nextPtr ≤ c)
    (hnext : h.nextPtr ≤ h'.nextPtr) (hdone : ∀ c ∈ h.done, c ∈ h'.done)
    (hclosing : ∀ c, k = .closing c → c ∈ h'.done → c ∈ h.done)
    (hvisiting : ∀ c range, k = .visitingOpen c range → c ∈ h'.done → c ∈ h.done)
    (hholds : k.holds = true → h'.clients = h.clients) : k.Sound h' := by
  have hleft : ∀ c, c < h.nextPtr → c ∉ h.clients → c ∉ h'.clients := by
    intro c hlt hc hc'
    have := hclients c hc'
    grind
  cases k with
  | adding | closeCalled | closed => trivial
  | serving c => exact Nat.lt_of_lt_of_le hk hnext
  | deleted c => exact ⟨Nat.lt_of_lt_of_le hk.1 hnext, hleft c hk.1 hk.2⟩
  | closing c =>
    obtain ⟨hlt, hc, hopen⟩ := hk
    exact ⟨Nat.lt_of_lt_of_le hlt hnext, hleft c hlt hc, fun hd => hopen (hclosing c rfl hd)⟩
  | removed c =>
    obtain ⟨hlt, hc, hd⟩ := hk
    exact ⟨Nat.lt_of_lt_of_le hlt hnext, hleft c hlt hc, hdone c hd⟩
  | visiting range =>
    obtain ⟨hnodup, hmem, hvisited⟩ := hk
    rw [Sound, hholds rfl]
    exact ⟨hnodup, hmem, fun c hc hrange => hdone c (hvisited c hc hrange)⟩
  | visitingOpen client range =>
    obtain ⟨hnodup, hopen, hmem, hvisited⟩ := hk
    rw [Sound, hholds rfl]
    exact ⟨hnodup, fun hd => hopen (hvisiting client range rfl hd), hmem,
      fun c hc hrange => hdone c (hvisited c hc hrange)⟩

theorem Sound.client_lt (hk : k.Sound h) {c : ℕ} (hc : k.client = some c) : c < h.nextPtr := by
  cases k with
  | serving client => exact Option.some.inj hc ▸ hk
  | deleted client | closing client | removed client => exact Option.some.inj hc ▸ hk.1
  | adding | closeCalled | visiting range | visitingOpen client range | closed => cases hc

/-- The first of those to be visited is closed. -/
theorem Sound.visiting_tail {client : ℕ} {range : List ℕ}
    (hk : (HubCall.visiting (client :: range)).Sound h) (hdone : client ∈ h.done) :
    (HubCall.visiting range).Sound h := by
  obtain ⟨hnodup, hmem, hvisited⟩ := hk
  refine ⟨(List.nodup_cons.mp hnodup).2, fun c hc => hmem c (List.mem_cons_of_mem _ hc), ?_⟩
  intro c hc hrange
  by_cases heq : c = client
  · exact heq ▸ hdone
  · exact hvisited c hc (by simp [heq, hrange])

end HubCall

namespace ChannelsState

variable {s : ChannelsState} {i : ℕ} {k : HubCall}

/-- `mu` is held by a call. -/
theorem locked_iff (h : ChannelsInv s) :
    s.shared.locked = true ↔ ∃ k ∈ s.calls, k.holds = true := by
  rw [← List.countP_pos_iff, h.holder]
  cases s.shared.locked <;> decide

theorem holds_of_locked_false (h : ChannelsInv s) (hlocked : s.shared.locked = false)
    (hk : k ∈ s.calls) : k.holds = false := by
  by_contra hholds
  have := (locked_iff h).mpr ⟨k, hk, by simpa using hholds⟩
  simp [hlocked] at this

/-- Between two calls of `Close` all that they found is closed. -/
theorem found_of_locked_false (h : ChannelsInv s) (hlocked : s.shared.locked = false) :
    ∀ c ∈ s.shared.found, c ∈ s.shared.done := by
  intro c hc
  refine (h.found c hc).resolve_right ?_
  rw [hlocked]
  simp

/-- No two calls hold `mu`. -/
theorem holds_unique (h : ChannelsInv s) (hk : s.calls[i]? = some k) (hholds : k.holds = true)
    {j : ℕ} {x : HubCall} (hx : s.calls[j]? = some x) (hj : j ≠ i) : x.holds = false := by
  have hle : s.calls.countP HubCall.holds ≤ 1 := by
    rw [h.holder]
    cases s.shared.locked <;> simp
  by_contra hxholds
  exact hj (Calls.eq_of_countP_le_one hle hx (by simpa using hxholds) hk hholds)

/-- The move of a call keeps the calls apart if it does not take the client of another. -/
theorem unique_set (h : ChannelsInv s) (hk : s.calls[i]? = some k) (k' : HubCall)
    (hclient : ∀ c, k'.client = some c → k.client = some c ∨ s.shared.nextPtr ≤ c) :
    ∀ (j l : ℕ) (x y : HubCall) (c : ℕ), (s.calls.set i k')[j]? = some x →
      (s.calls.set i k')[l]? = some y → x.client = some c → y.client = some c → j = l := by
  have hold : ∀ (j : ℕ) (x : HubCall) (c : ℕ), (s.calls.set i k')[j]? = some x →
      x.client = some c → j = i ∧ k'.client = some c ∨ j ≠ i ∧ s.calls[j]? = some x := by
    intro j x c hx hc
    rw [Calls.getElem?_set_of_getElem? hk] at hx
    by_cases hj : j = i
    · rw [if_pos hj] at hx
      exact Or.inl ⟨hj, Option.some.inj hx ▸ hc⟩
    · rw [if_neg hj] at hx
      exact Or.inr ⟨hj, hx⟩
  have hnew : ∀ (j : ℕ) (x : HubCall) (c : ℕ), j ≠ i → s.calls[j]? = some x →
      x.client = some c → k'.client ≠ some c := by
    intro j x c hj hx hc hc'
    have hlt := (h.sound x (List.mem_of_getElem? hx)).client_lt hc
    rcases hclient c hc' with hkc | hge
    · exact hj (h.unique j i x k c hx hk hc hkc)
    · omega
  intro j l x y c hx hy hxc hyc
  rcases hold j x c hx hxc with ⟨hj, hxc'⟩ | ⟨hj, hx'⟩ <;>
    rcases hold l y c hy hyc with ⟨hl, hyc'⟩ | ⟨hl, hy'⟩
  · rw [hj, hl]
  · exact absurd hxc' (hnew l y c hl hy' hyc)
  · exact absurd hyc' (hnew j x c hj hx' hxc)
  · exact h.unique j l x y c hx' hy' hxc hyc

/-- **A move keeps the invariant** if it keeps what is said about the hub, if it leaves a sound
call, and if the other calls stay sound. -/
theorem inv_set (h : ChannelsInv s) (hk : s.calls[i]? = some k) {t : HubChannels} {k' : HubCall}
    (hpanicked : t.panicked = false) (hfresh : ∀ c ∈ t.clients, c < t.nextPtr)
    (hself : k'.Sound t) (hother : ∀ j x, j ≠ i → s.calls[j]? = some x → x.Sound t)
    (hclient : ∀ c, k'.client = some c → k.client = some c ∨ s.shared.nextPtr ≤ c)
    (hholds : k'.holds.toNat + s.shared.locked.toNat = k.holds.toNat + t.locked.toNat)
    (hfound : ∀ c ∈ t.found, c ∈ t.done ∨ (t.locked = true ∧ c ∈ t.clients)) :
    ChannelsInv ⟨t, s.calls.set i k'⟩ where
  panicked := hpanicked
  fresh := hfresh
  sound := Calls.forall_mem_set hk hself hother
  unique := unique_set h hk k' hclient
  holder := by
    have hcount := Calls.countP_set hk k' HubCall.holds
    have := h.holder
    show (s.calls.set i k').countP HubCall.holds = t.locked.toNat
    omega
  found := hfound

/-- A call that has left the map, or holds `mu`, finds the channel open that it is about to
close. -/
theorem inv_closeDone (h : ChannelsInv s) (hk : s.calls[i]? = some k) {c : ℕ} {k' : HubCall}
    (hopen : c ∉ s.shared.done) (hself : k'.Sound (s.shared.closeDone c))
    (hclosing : ∀ j, j ≠ i → s.calls[j]? ≠ some (.closing c))
    (hvisiting : ∀ j range, j ≠ i → s.calls[j]? ≠ some (.visitingOpen c range))
    (hclient : ∀ c, k'.client = some c → k.client = some c) (hholds : k'.holds = k.holds) :
    ChannelsInv ⟨s.shared.closeDone c, s.calls.set i k'⟩ := by
  refine inv_set h hk ?_ h.fresh hself ?_ (fun c hc => Or.inl (hclient c hc)) (by
    rw [hholds]
    rfl) ?_
  · show (s.shared.panicked || decide (c ∈ s.shared.done)) = false
    rw [h.panicked, decide_eq_false hopen]
    rfl
  · intro j x hj hx
    refine (h.sound x (List.mem_of_getElem? hx)).of_others (fun _ => Or.inl) le_rfl
      (fun _ => Finset.mem_insert_of_mem) ?_ ?_ (fun _ => rfl)
    · rintro c' rfl hc'
      refine (Finset.mem_insert.mp hc').resolve_left ?_
      rintro rfl
      exact hclosing j hj hx
    · rintro c' range rfl hc'
      refine (Finset.mem_insert.mp hc').resolve_left ?_
      rintro rfl
      exact hvisiting j range hj hx
  · intro c' hc'
    exact (h.found c' hc').imp_left Finset.mem_insert_of_mem

/-- A client is added while nobody holds `mu`. -/
theorem inv_addClient (h : ChannelsInv s) (hk : s.calls[i]? = some .adding)
    (hlocked : s.shared.locked = false) :
    ChannelsInv ⟨{ s.shared with
      clients := insert s.shared.nextPtr s.shared.clients
      nextPtr := s.shared.nextPtr + 1 }, s.calls.set i (.serving s.shared.nextPtr)⟩ := by
  refine inv_set h hk h.panicked ?_ (Nat.lt_succ_self _) ?_ ?_ rfl ?_
  · intro c hc
    rcases Finset.mem_insert.mp hc with rfl | hc
    · exact Nat.lt_succ_self _
    · exact Nat.lt_succ_of_lt (h.fresh c hc)
  · intro j x hj hx
    refine (h.sound x (List.mem_of_getElem? hx)).of_others ?_ (Nat.le_succ _) (fun _ => id)
      (fun _ _ => id) (fun _ _ _ => id) ?_
    · intro c hc
      exact (Finset.mem_insert.mp hc).symm.imp_right (fun heq => heq.ge)
    · intro hholds
      rw [holds_of_locked_false h hlocked (List.mem_of_getElem? hx)] at hholds
      cases hholds
  · intro c hc
    exact Or.inr (Option.some.inj hc).le
  · exact fun c hc => Or.inl (found_of_locked_false h hlocked c hc)

/-- A client leaves the map while nobody holds `mu`. -/
theorem inv_removeClient (h : ChannelsInv s) {client : ℕ} (hk : s.calls[i]? = some (.serving client))
    (hlocked : s.shared.locked = false) :
    ChannelsInv ⟨{ s.shared with clients := s.shared.clients.erase client },
      s.calls.set i (.deleted client)⟩ := by
  have hsound := h.sound _ (List.mem_of_getElem? hk)
  refine inv_set h hk h.panicked (fun c hc => h.fresh c (Finset.mem_of_mem_erase hc))
    ⟨hsound, Finset.notMem_erase _ _⟩ ?_ (fun c => Or.inl) rfl ?_
  · intro j x hj hx
    refine (h.sound x (List.mem_of_getElem? hx)).of_others
      (fun c hc => Or.inl (Finset.mem_of_mem_erase hc)) le_rfl (fun _ => id) (fun _ _ => id)
      (fun _ _ _ => id) ?_
    intro hholds
    rw [holds_of_locked_false h hlocked (List.mem_of_getElem? hx)] at hholds
    cases hholds
  · exact fun c hc => Or.inl (found_of_locked_false h hlocked c hc)

/-- `Close` takes `mu`, and is to visit the clients there are. -/
theorem inv_closeBegins (h : ChannelsInv s) (hk : s.calls[i]? = some .closeCalled)
    (hlocked : s.shared.locked = false) {range : List ℕ} (hnodup : range.Nodup)
    (hrange : range.toFinset = s.shared.clients) :
    ChannelsInv ⟨{ s.shared with locked := true, found := s.shared.found ∪ s.shared.clients },
      s.calls.set i (.visiting range)⟩ := by
  have hmem : ∀ c, c ∈ range ↔ c ∈ s.shared.clients := fun c => by rw [← hrange, List.mem_toFinset]
  refine inv_set h hk h.panicked h.fresh ?_ ?_ (fun c hc => by cases hc) ?_ ?_
  · exact ⟨hnodup, fun c => (hmem c).mp, fun c hc hn => absurd ((hmem c).mpr hc) hn⟩
  · intro j x hj hx
    exact (h.sound x (List.mem_of_getElem? hx)).of_others (fun _ => Or.inl) le_rfl (fun _ => id)
      (fun _ _ => id) (fun _ _ _ => id) (fun _ => rfl)
  · rw [hlocked]
    rfl
  · intro c hc
    rcases Finset.mem_union.mp hc with hc | hc
    · exact Or.inl (found_of_locked_false h hlocked c hc)
    · exact Or.inr ⟨rfl, hc⟩

/-- `Close` has visited all clients, and lets go of `mu`. -/
theorem inv_closeEnds (h : ChannelsInv s) (hk : s.calls[i]? = some (.visiting [])) :
    ChannelsInv ⟨{ s.shared with clients := ∅, locked := false }, s.calls.set i .closed⟩ := by
  obtain ⟨-, -, hvisited⟩ := h.sound _ (List.mem_of_getElem? hk)
  have hlocked := (locked_iff h).mpr ⟨_, List.mem_of_getElem? hk, rfl⟩
  refine inv_set h hk h.panicked (fun c hc => absurd hc (Finset.notMem_empty c)) trivial ?_
    (fun c hc => by cases hc) ?_ ?_
  · intro j x hj hx
    refine (h.sound x (List.mem_of_getElem? hx)).of_others
      (fun c hc => absurd hc (Finset.notMem_empty c)) le_rfl (fun _ => id) (fun _ _ => id)
      (fun _ _ _ => id) ?_
    -- nobody else holds `mu`
    intro hholds
    rw [holds_unique h hk rfl hx hj] at hholds
    cases hholds
  · rw [hlocked]
    rfl
  · intro c hc
    left
    rcases h.found c hc with hdone | ⟨-, hmem⟩
    · exact hdone
    · exact hvisited c hmem List.not_mem_nil

/-- **The step lemma.** -/
theorem inv_move (h : ChannelsInv s) {e : List ℕ} {t : HubChannels} {k' : HubCall}
    (hk : s.calls[i]? = some k) (hnext : k.next e s.shared = some (t, k')) :
    ChannelsInv ⟨t, s.calls.set i k'⟩ := by
  have hsound := h.sound k (List.mem_of_getElem? hk)
  have hsame : ∀ j x, j ≠ i → s.calls[j]? = some x → x.Sound s.shared :=
    fun j x _ hx => h.sound x (List.mem_of_getElem? hx)
  cases k with
  | adding =>
    obtain ⟨hlocked, heq⟩ := Option.ite_none_left_eq_some.mp hnext
    obtain ⟨rfl, rfl⟩ := Prod.mk.inj (Option.some.inj heq)
    exact inv_addClient h hk (by simpa using hlocked)
  | serving client =>
    obtain ⟨hlocked, heq⟩ := Option.ite_none_left_eq_some.mp hnext
    obtain ⟨rfl, rfl⟩ := Prod.mk.inj (Option.some.inj heq)
    exact inv_removeClient h hk (by simpa using hlocked)
  | deleted client =>
    obtain ⟨rfl, rfl⟩ := Prod.mk.inj (Option.some.inj hnext)
    refine inv_set h hk h.panicked h.fresh ?_ hsame ?_ ?_ h.found
    · split_ifs with hdone
      · exact ⟨hsound.1, hsound.2, hdone⟩
      · exact ⟨hsound.1, hsound.2, hdone⟩
    · intro c hc
      left
      split_ifs at hc <;> exact hc
    · split_ifs <;> rfl
  | closing client =>
    obtain ⟨rfl, rfl⟩ := Prod.mk.inj (Option.some.inj hnext)
    obtain ⟨hlt, hleft, hopen⟩ := hsound
    refine inv_closeDone h hk hopen ⟨hlt, hleft, Finset.mem_insert_self _ _⟩ ?_ ?_
      (fun _ => id) rfl
    · intro j hj hx
      exact hj (h.unique j i _ _ client hx hk rfl rfl)
    · intro j range _ hx
      obtain ⟨-, -, hmem, -⟩ := h.sound _ (List.mem_of_getElem? hx)
      exact hleft (hmem client List.mem_cons_self)
  | removed client => cases hnext
  | closeCalled =>
    obtain ⟨hlocked, hnext⟩ := Option.ite_none_left_eq_some.mp hnext
    obtain ⟨⟨hnodup, hrange⟩, heq⟩ := Option.ite_none_right_eq_some.mp hnext
    obtain ⟨rfl, rfl⟩ := Prod.mk.inj (Option.some.inj heq)
    exact inv_closeBegins h hk (by simpa using hlocked) hnodup hrange
  | visiting range =>
    cases range with
    | nil =>
      obtain ⟨rfl, rfl⟩ := Prod.mk.inj (Option.some.inj hnext)
      exact inv_closeEnds h hk
    | cons client range =>
      obtain ⟨rfl, rfl⟩ := Prod.mk.inj (Option.some.inj hnext)
      refine inv_set h hk h.panicked h.fresh ?_ hsame ?_ ?_ h.found
      · split_ifs with hdone
        · exact hsound.visiting_tail hdone
        · exact ⟨hsound.1, hdone, hsound.2⟩
      · intro c hc
        split_ifs at hc <;> cases hc
      · split_ifs <;> rfl
  | visitingOpen client range =>
    obtain ⟨rfl, rfl⟩ := Prod.mk.inj (Option.some.inj hnext)
    obtain ⟨hnodup, hopen, hmem, hvisited⟩ := hsound
    refine inv_closeDone h hk hopen ?_ ?_ ?_ (fun c hc => by cases hc) rfl
    · have hclosed : (HubCall.visiting (client :: range)).Sound (s.shared.closeDone client) :=
        ⟨hnodup, hmem, fun c hc hrange => Finset.mem_insert_of_mem (hvisited c hc hrange)⟩
      exact hclosed.visiting_tail (Finset.mem_insert_self _ _)
    · intro j _ hx
      obtain ⟨-, hleft, -⟩ := h.sound _ (List.mem_of_getElem? hx)
      exact hleft (hmem client List.mem_cons_self)
    · intro j range' hj hx
      have := holds_unique h hk rfl hx hj
      cases this
  | closed => cases hnext

/-- **The invariant holds in every reachable state.** -/
theorem inv_of_reachable (hs : channelsMachine.Reachable s) : ChannelsInv s := by
  refine hs.induction (P := ChannelsInv) ?_ ?_
  · constructor
    · rfl
    · exact fun c hc => absurd hc (Finset.notMem_empty c)
    · exact fun k hk => absurd hk List.not_mem_nil
    · intro i j k k' c hk
      cases hk
    · rfl
    · exact fun c hc => absurd hc (Finset.notMem_empty c)
  · intro s a s' _ ih hstep
    cases a with
    | call x =>
      obtain rfl := Calls.step_call hstep
      have hstart : (HubCall.start x).client = none ∧ (HubCall.start x).holds = false ∧
          (HubCall.start x).Sound s.shared := by
        cases x <;> exact ⟨rfl, rfl, trivial⟩
      obtain ⟨hclient, hholds, hsound⟩ := hstart
      refine ⟨ih.panicked, ih.fresh, ?_, ?_, ?_, ih.found⟩
      · intro k hk
        rcases List.mem_append.mp hk with hk | hk
        · exact ih.sound k hk
        · exact List.mem_singleton.mp hk ▸ hsound
      · intro i j k k' c hk hk' hc hc'
        rw [Calls.getElem?_append_singleton] at hk hk'
        have hold : ∀ {i : ℕ} {k : HubCall}, (if i = s.calls.length then some (HubCall.start x)
            else s.calls[i]?) = some k → k.client = some c → s.calls[i]? = some k := by
          intro i k hk hc
          split_ifs at hk
          · rw [← Option.some.inj hk, hclient] at hc
            cases hc
          · exact hk
        exact ih.unique i j k k' c (hold hk hc) (hold hk' hc') hc hc'
      · rw [List.countP_append, ih.holder]
        simp [hholds]
    | move i e =>
      obtain ⟨k, t, k', hk, hnext, rfl⟩ := Calls.step_move hstep
      exact inv_move ih hk hnext

/-- All calls have finished but for the clients that are still served. -/
def Settled (s : ChannelsState) : Prop := ∀ k ∈ s.calls, k.settled = true

instance (s : ChannelsState) : Decidable s.Settled :=
  inferInstanceAs (Decidable (∀ k ∈ s.calls, k.settled = true))

/-- The client was removed by its handler, or registered when a `Close` ran. -/
def MustClose (s : ChannelsState) (client : ℕ) : Prop :=
  HubCall.removed client ∈ s.calls ∨ client ∈ s.shared.found

end ChannelsState

/-- **No channel is closed twice, and none stays open.** In every run of any number of clients, each
removed at most once, and any number of calls of `Close`, no closed channel is closed again; and
when all calls have finished, `done` is closed for every client that was removed or that was
registered when a `Close` ran. -/
theorem closed_exactly_once {as : List (CallAction HubRequest (List ℕ))} {s : ChannelsState}
    (hrun : channelsMachine.run channelsMachine.init as = some s) :
    s.shared.panicked = false ∧
      (s.Settled → ∀ client, s.MustClose client → client ∈ s.shared.done) := by
  have hinv := ChannelsState.inv_of_reachable ⟨as, hrun⟩
  refine ⟨hinv.panicked, ?_⟩
  rintro hsettled client (hremoved | hfound)
  · exact (hinv.sound _ hremoved).2.2
  · refine (hinv.found client hfound).resolve_right ?_
    rintro ⟨hlocked, -⟩
    obtain ⟨k, hk, hholds⟩ := (ChannelsState.locked_iff hinv).mp hlocked
    have hk := hsettled k hk
    cases k <;> simp [HubCall.holds, HubCall.settled] at hholds hk

/-- Two clients; `Close` tests the channel of the first while that is being removed. -/
theorem closed_exactly_once_twoClients : ∃ s : ChannelsState,
    s.shared.panicked = false ∧ s.shared.done = {0, 1} ∧
      (s.Settled → ∀ client, s.MustClose client → client ∈ s.shared.done) := by
  have hrun : channelsMachine.run channelsMachine.init
      [.call .handleSSE, .call .handleSSE, .call .close, .move 0 [], .move 1 [], .move 0 [],
        .move 0 [], .move 2 [1], .move 0 [], .move 2 [], .move 2 [], .move 2 []] = some _ := rfl
  obtain ⟨hpanicked, hclosed⟩ := closed_exactly_once hrun
  exact ⟨_, hpanicked, by decide, hclosed⟩

end UnisetPanel
