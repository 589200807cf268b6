/-
  Whether the list of objects is published when a server comes back.

  `checkHealth` publishes the list when it has read `connected = false` before
  its own `UpdateStatus`.  The status can be turned on by a request of the API
  too, and then the next health check reads `true` and publishes nothing
  (`not_republishes`); it can also go off and on again while a health check
  that has read `true` is under way.

  In the runs without these two the list is published after every
  reconnection, and once only (`republishes_of_seesConnection`).
-/
import UnisetPanel.Server.Instance

namespace UnisetPanel

/-! ### What is wanted -/

namespace InstanceEvent

/-- The status goes on. -/
def isConnects : InstanceEvent → Bool
  | .connects => true
  | .status _ _ | .checked _ _ => false

/-- A health check has succeeded. -/
def isChecked : InstanceEvent → Bool
  | .checked _ _ => true
  | .connects | .status _ _ => false

/-- A list of objects is published. -/
def isPublished : InstanceEvent → Bool
  | .checked _ published => published.isSome
  | .connects | .status _ _ => false

theorem isChecked_of_isPublished (e : InstanceEvent) (h : e.isPublished = true) :
    e.isChecked = true := by
  cases e with
  | checked objects published => rfl
  | connects | status connected lastError => cases h

end InstanceEvent

/-- The status has gone on since the last successful health check. -/
def owed (events : List InstanceEvent) : Bool :=
  Log.since InstanceEvent.isConnects InstanceEvent.isChecked events

/-- The first health check that succeeds after the status went on publishes the list it has
fetched. -/
def PublishesIfOwed (events : List InstanceEvent) : InstanceEvent → Prop
  | .checked objects published => owed events = true → published = some objects
  | .connects | .status _ _ => True

/-- A list is published only if the status has gone on since the last one was. -/
def PublishesOnce (events : List InstanceEvent) : InstanceEvent → Prop
  | .checked _ published => published ≠ none →
      Log.since InstanceEvent.isConnects InstanceEvent.isPublished events = true
  | .connects | .status _ _ => True

/-- **The list is published after every reconnection**, no later than by the next successful health
check, and at most once for each. -/
def Republishes (as : List InstanceAction) : Prop :=
  ∀ s : InstanceState, instanceMachine.run instanceMachine.init as = some s →
    Log.Each PublishesIfOwed s.shared.events ∧ Log.Each PublishesOnce s.shared.events

/-! ### The condition -/

namespace StatusCall

/-- What a health check that is to succeed has read. -/
def hasRead (k : StatusCall) : Option Bool :=
  match k.request, k.phase with
  | .checkHealth, .updating (.ok _) | .checkHealth, .updated (.ok _) _
  | .checkHealth, .notified (.ok _) | .checkHealth, .counted _ => some k.wasConnected
  | _, _ => none

/-- A health check that is to read the flag, and to succeed. -/
def isToRead (k : StatusCall) : Bool :=
  match k.phase with
  | .answered (.ok _) => true
  | _ => false

/-- A request that is to set the flag. -/
def isToSet (k : StatusCall) : Bool :=
  match k.phase with
  | .updating (.ok _) => true
  | _ => false

end StatusCall

/-- A health check finds the flag on only if the status has not gone on since the last health check,
and the flag is not turned on while a health check that has found it on is under way. -/
def SeesConnection (s : InstanceState) : InstanceAction → Prop
  | .call _ => True
  | .move i _ => ∀ k ∈ s.calls[i]?,
      (k.isToRead = true → s.shared.status.connected = true → owed s.shared.events = false) ∧
      (k.isToSet = true → s.shared.status.connected = false →
        ∀ k' ∈ s.calls, k'.hasRead ≠ some true)

instance (s : InstanceState) : (a : InstanceAction) → Decidable (SeesConnection s a)
  | .call _ => inferInstanceAs (Decidable True)
  | .move i _ => inferInstanceAs (Decidable (∀ k ∈ s.calls[i]?,
      (k.isToRead = true → s.shared.status.connected = true → owed s.shared.events = false) ∧
      (k.isToSet = true → s.shared.status.connected = false →
        ∀ k' ∈ s.calls, k'.hasRead ≠ some true)))

/-! ### The reconnection that a request of the API sees first -/

/-- A new instance; `GetObjects` succeeds, then a health check does. -/
def seenByApiRun : List InstanceAction :=
  .call .getObjects :: List.replicate 5 (.move 0 ⟨.ok ["o"], 1⟩) ++
    .call .checkHealth :: List.replicate 6 (.move 1 ⟨.ok ["o"], 2⟩)

/-- **It fails**: the health check of `seenByApiRun` publishes nothing. -/
theorem not_republishes : ¬ ∀ as, Republishes as := by
  intro h
  obtain ⟨s, hs, hevents⟩ : ∃ s, instanceMachine.run instanceMachine.init seenByApiRun = some s ∧
      s.shared.events = [.connects, .status true "", .checked ["o"] none] :=
    ⟨_, rfl, rfl⟩
  have hpublishes := (h seenByApiRun s hs).1 [.connects, .status true ""] (.checked ["o"] none) []
    hevents
  exact absurd (hpublishes (by decide)) (by decide)

/-! ### The invariant -/

/-- What a health check has read fits what is owed: it has read `true` only if nothing is owed, and
`false` if something is, or will be by its own `UpdateStatus`. -/
def StatusCall.Fits (connected owed : Bool) (k : StatusCall) : Prop :=
  (k.hasRead = some true → owed = false) ∧
    (k.hasRead = some false → owed = true ∨ (k.isToSet = true ∧ connected = false))

/-- All health checks fit, and so far the list was published when it had to be. -/
structure PublishInv (s : InstanceState) : Prop where
  publishes : Log.Each PublishesIfOwed s.shared.events
  once : Log.Each PublishesOnce s.shared.events
  fits : ∀ k ∈ s.calls, k.Fits s.shared.status.connected (owed s.shared.events)

variable {s s' : InstanceState} {e : StatusEnv} {t t' : InstanceTrace} {k k' : StatusCall}
  {connected owes : Bool}

theorem StatusCall.fits_of_hasRead_eq_none (h : k.hasRead = none) : k.Fits connected owes := by
  constructor
  · intro hread
    rw [h] at hread
    cases hread
  · intro hread
    rw [h] at hread
    cases hread

/-- A health check that goes on after its `UpdateStatus`. -/
theorem StatusCall.Fits.of_hasRead (h : k.Fits connected owes) (hset : k.isToSet = false)
    (hread : k'.hasRead = k.hasRead) : k'.Fits connected owes := by
  refine ⟨fun htrue => h.1 (hread ▸ htrue), fun hfalse => ?_⟩
  rcases h.2 (hread ▸ hfalse) with howed | ⟨hset', -⟩
  · exact Or.inl howed
  · rw [hset] at hset'
    cases hset'

/-- Only a health check in progress has read anything. -/
theorem StatusCall.checking_of_hasRead (h : k.hasRead ≠ none) : k.checking = true := by
  obtain ⟨request, phase, wasConnected⟩ := k
  cases request with
  | checkHealth =>
    cases phase with
    | returned => exact absurd rfl h
    | called | answered answer | updating answer | updated answer statusChanged
    | notified answer | counted objects => simp [checking]
  | getObjects | getObjectData objectName => cases phase <;> exact absurd rfl h

theorem owed_concat (events : List InstanceEvent) (e : InstanceEvent) :
    owed (events ++ [e]) = (!e.isChecked && (e.isConnects || owed events)) :=
  Log.since_concat events e

/-- An event that is no health check. -/
theorem PublishInv.each_concat (h : PublishInv s) {e : InstanceEvent}
    (he : e.isChecked = false) :
    Log.Each PublishesIfOwed (s.shared.events ++ [e]) ∧
      Log.Each PublishesOnce (s.shared.events ++ [e]) := by
  cases e with
  | checked objects published => cases he
  | connects | status connected lastError =>
    exact ⟨Log.each_concat.mpr ⟨h.publishes, trivial⟩, Log.each_concat.mpr ⟨h.once, trivial⟩⟩

/-- A request takes a step after which it fits, and the others do. -/
theorem PublishInv.move {i : ℕ} (hk : s.calls[i]? = some k)
    (hpublishes : Log.Each PublishesIfOwed t.events) (honce : Log.Each PublishesOnce t.events)
    (hself : k'.Fits t.status.connected (owed t.events))
    (hother : ∀ j x, j ≠ i → s.calls[j]? = some x → x.Fits t.status.connected (owed t.events)) :
    PublishInv ⟨t, s.calls.set i k'⟩ :=
  ⟨hpublishes, honce, Calls.forall_mem_set hk hself hother⟩

/-- A section that shows nothing and leaves the flag. -/
theorem PublishInv.keep (h : PublishInv s) {i : ℕ} (hk : s.calls[i]? = some k)
    (hconnected : t.status.connected = s.shared.status.connected)
    (hevents : t.events = s.shared.events)
    (hself : k'.Fits s.shared.status.connected (owed s.shared.events)) :
    PublishInv ⟨t, s.calls.set i k'⟩ := by
  have hpublishes := h.publishes
  have honce := h.once
  have hfits := h.fits
  rw [← hevents] at hpublishes honce hfits hself
  rw [← hconnected] at hfits hself
  apply PublishInv.move hk hpublishes honce hself
  intro j x _ hx
  exact hfits x (List.mem_of_getElem? hx)

/-- The section of `UpdateStatus`: it turns the flag on, or it shows nothing. -/
theorem StatusCall.next_updating {request : StatusRequest} {was : Bool} {answer : ServerAnswer}
    (h : StatusCall.next e t ⟨request, .updating answer, was⟩ = some (t', k')) :
    (∃ statusChanged, k' = ⟨request, .updated answer statusChanged, was⟩) ∧
      t'.status.connected = answer.isOk ∧
      ((t.status.connected = false ∧ answer.isOk = true ∧ t'.events = t.events ++ [.connects]) ∨
        ((answer.isOk = true → t.status.connected = true) ∧ t'.events = t.events)) := by
  cases h
  refine ⟨⟨_, rfl⟩, rfl, ?_⟩
  by_cases hon : t.status.connected = false ∧ answer.isOk = true
  · left
    refine ⟨hon.1, hon.2, ?_⟩
    show t.events ++ _ = t.events ++ [.connects]
    rw [if_pos hon]
  · right
    constructor
    · intro hok
      cases hconnected : t.status.connected with
      | true => rfl
      | false => exact absurd ⟨hconnected, hok⟩ hon
    · show t.events ++ _ = t.events
      rw [if_neg hon, List.append_nil]

theorem PublishInv.updating (h : PublishInv s) {i : ℕ} {request : StatusRequest} {was : Bool}
    {answer : ServerAnswer} (hk : s.calls[i]? = some ⟨request, .updating answer, was⟩)
    (hsees : SeesConnection s (.move i e))
    (hnext : StatusCall.next e s.shared ⟨request, .updating answer, was⟩ = some (t, k')) :
    PublishInv ⟨t, s.calls.set i k'⟩ := by
  have hself : StatusCall.Fits s.shared.status.connected (owed s.shared.events)
      ⟨request, .updating answer, was⟩ := h.fits _ (List.mem_of_getElem? hk)
  obtain ⟨⟨statusChanged, rfl⟩, hconnected, hcase⟩ := StatusCall.next_updating hnext
  have hread : StatusCall.hasRead ⟨request, .updated answer statusChanged, was⟩ =
      StatusCall.hasRead ⟨request, .updating answer, was⟩ := by
    cases request <;> cases answer <;> rfl
  rcases hcase with ⟨hoff, hok, hevents⟩ | ⟨hsame, hevents⟩
  · -- the flag goes on: a publication is owed, and by `hsees` nobody has read `true`
    have howed : owed t.events = true := by
      rw [hevents, owed_concat]
      rfl
    have hset : StatusCall.isToSet ⟨request, .updating answer, was⟩ = true := by
      cases answer with
      | error err => cases hok
      | ok objects => rfl
    have hnobody := (hsees _ (Option.mem_def.mpr hk)).2 hset hoff
    have hfits : ∀ x ∈ s.calls, x.Fits t.status.connected (owed t.events) := by
      intro x hx
      refine ⟨fun htrue => absurd htrue (hnobody x hx), fun _ => Or.inl howed⟩
    obtain ⟨hpublishes, honce⟩ := h.each_concat (e := .connects) rfl
    rw [← hevents] at hpublishes honce
    apply PublishInv.move hk hpublishes honce
    · refine ⟨fun htrue => ?_, fun _ => Or.inl howed⟩
      rw [hread] at htrue
      exact absurd htrue (hnobody _ (List.mem_of_getElem? hk))
    · intro j x _ hx
      exact hfits x (List.mem_of_getElem? hx)
  · apply PublishInv.move hk (hevents ▸ h.publishes) (hevents ▸ h.once)
    all_goals rw [hevents, hconnected]
    · -- the request itself has found the flag on, or it is to fail
      refine ⟨fun htrue => hself.1 (hread ▸ htrue), fun hfalse => ?_⟩
      rw [hread] at hfalse
      have hok : answer.isOk = true := by
        cases answer with
        | ok objects => rfl
        | error err => cases request <;> cases hfalse
      rcases hself.2 hfalse with howed | ⟨-, hoff⟩
      · exact Or.inl howed
      · rw [hsame hok] at hoff
        cases hoff
    · -- the flag is as it was, or it is off now
      intro j x _ hx
      obtain ⟨htrue, hfalse⟩ := h.fits x (List.mem_of_getElem? hx)
      refine ⟨htrue, fun hread => (hfalse hread).imp_right fun hset => ⟨hset.1, ?_⟩⟩
      cases hok : answer.isOk with
      | false => rfl
      | true =>
        rw [hsame hok] at hset
        exact hset.2

/-- The end of a successful health check. -/
theorem PublishInv.counted (h : PublishInv s) (hone : s.calls.countP StatusCall.checking ≤ 1)
    {i : ℕ} {was : Bool} {objects : List String}
    (hk : s.calls[i]? = some ⟨.checkHealth, .counted objects, was⟩)
    (hnext : StatusCall.next e s.shared ⟨.checkHealth, .counted objects, was⟩ = some (t, k')) :
    PublishInv ⟨t, s.calls.set i k'⟩ := by
  have hself : StatusCall.Fits s.shared.status.connected (owed s.shared.events)
      ⟨.checkHealth, .counted objects, was⟩ := h.fits _ (List.mem_of_getElem? hk)
  cases hnext
  apply PublishInv.move hk
  · refine Log.each_concat.mpr ⟨h.publishes, fun howed => ?_⟩
    cases was with
    | false => rfl
    | true =>
      rw [hself.1 rfl] at howed
      cases howed
  · refine Log.each_concat.mpr ⟨h.once, fun hpublished => ?_⟩
    cases was with
    | true => exact absurd rfl hpublished
    | false =>
      rcases hself.2 rfl with howed | ⟨hset, -⟩
      · exact Log.since_mono InstanceEvent.isChecked_of_isPublished howed
      · cases hset
  · exact StatusCall.fits_of_hasRead_eq_none rfl
  · -- no other health check is in progress
    intro j x hj hx
    apply StatusCall.fits_of_hasRead_eq_none
    by_contra hread
    exact hj (Calls.eq_of_countP_le_one hone hx (StatusCall.checking_of_hasRead hread) hk rfl)

/-- **The step lemma.** -/
theorem PublishInv.step {a : InstanceAction} (h : PublishInv s)
    (hone : s.calls.countP StatusCall.checking ≤ 1) (hsees : SeesConnection s a)
    (hs : instanceMachine.step s a = some s') : PublishInv s' := by
  cases a with
  | call request =>
    obtain ⟨-, rfl⟩ := InstanceState.step_call hs
    refine ⟨h.publishes, h.once, fun k hk => ?_⟩
    rcases List.mem_append.mp hk with hk | hk
    · exact h.fits k hk
    · rw [List.mem_singleton.mp hk]
      apply StatusCall.fits_of_hasRead_eq_none
      cases request <;> rfl
  | move i e =>
    obtain ⟨k, t, k', hk, hnext, rfl⟩ := InstanceState.step_move hs
    have hself : k.Fits s.shared.status.connected (owed s.shared.events) :=
      h.fits k (List.mem_of_getElem? hk)
    obtain ⟨request, phase, wasConnected⟩ := k
    cases phase with
    | called =>
      cases request with
      | checkHealth =>
        cases hnext
        exact h.keep hk rfl rfl (StatusCall.fits_of_hasRead_eq_none rfl)
      | getObjects | getObjectData objectName =>
        cases hnext
        exact h.keep hk rfl rfl (StatusCall.fits_of_hasRead_eq_none rfl)
    | answered answer =>
      cases hnext
      apply h.keep hk rfl rfl
      cases answer with
      | error err =>
        apply StatusCall.fits_of_hasRead_eq_none
        cases request <;> rfl
      | ok objects =>
        have howed := (hsees _ (Option.mem_def.mpr hk)).1 rfl
        cases request with
        | checkHealth =>
          -- it has read the flag as it is
          refine ⟨fun htrue => howed (Option.some.inj htrue), fun hfalse => ?_⟩
          exact Or.inr ⟨rfl, Option.some.inj hfalse⟩
        | getObjects | getObjectData objectName => exact StatusCall.fits_of_hasRead_eq_none rfl
    | updating answer => exact h.updating hk hsees hnext
    | updated answer statusChanged =>
      have hread : StatusCall.hasRead ⟨request, .notified answer, wasConnected⟩ =
          StatusCall.hasRead ⟨request, .updated answer statusChanged, wasConnected⟩ := by
        cases request <;> cases answer <;> rfl
      have hself' := hself.of_hasRead rfl hread
      cases hnext
      cases statusChanged with
      | false => exact h.keep hk rfl (List.append_nil _) hself'
      | true =>
        obtain ⟨hpublishes, honce⟩ := h.each_concat
          (e := .status answer.isOk (answer.err.getD "")) rfl
        have howed : owed (s.shared.events ++ [.status answer.isOk (answer.err.getD "")]) =
            owed s.shared.events := owed_concat _ _
        apply PublishInv.move hk hpublishes honce
        · exact howed.symm ▸ hself'
        · intro j x _ hx
          exact howed.symm ▸ h.fits x (List.mem_of_getElem? hx)
    | notified answer =>
      cases answer with
      | error err =>
        cases hnext
        apply h.keep hk rfl rfl
        apply StatusCall.fits_of_hasRead_eq_none
        cases request <;> rfl
      | ok objects =>
        cases request with
        | checkHealth =>
          cases hnext
          exact h.keep hk rfl rfl (hself.of_hasRead rfl rfl)
        | getObjects | getObjectData objectName =>
          cases hnext
          exact h.keep hk rfl rfl (StatusCall.fits_of_hasRead_eq_none rfl)
    | counted objects =>
      cases request with
      | checkHealth => exact h.counted hone hk hnext
      | getObjects | getObjectData objectName =>
        cases hnext
        exact h.keep hk rfl rfl (StatusCall.fits_of_hasRead_eq_none rfl)
    | returned => cases hnext

/-! ### The main theorem -/

/-- **The list is published after every reconnection**, and once only, in every run whose health
checks see it. -/
theorem republishes_of_seesConnection {as : List InstanceAction}
    (hsees : instanceMachine.EveryStep SeesConnection as) : Republishes as := by
  intro s hrun
  have hinv : instanceMachine.Reachable s ∧ PublishInv s := by
    refine Machine.EveryStep.induction (I := fun s => instanceMachine.Reachable s ∧ PublishInv s)
      ⟨Machine.reachable_init _, Log.each_nil, Log.each_nil, fun k hk => by cases hk⟩ ?_ hsees hrun
    rintro s a s' ⟨hreach, h⟩ ha hstep
    exact ⟨hreach.step hstep, h.step (InstanceState.countP_checking_le_one hreach) ha hstep⟩
  exact ⟨hinv.2.publishes, hinv.2.once⟩

/-- A health check that finds the server, and a request for the list of its objects. -/
theorem republishes_checkThenObjects : Republishes
    (.call .checkHealth :: List.replicate 6 (.move 0 ⟨.ok ["o"], 1⟩) ++
      .call .getObjects :: List.replicate 4 (.move 1 ⟨.ok ["o"], 2⟩)) := by
  apply republishes_of_seesConnection
  have hrun : (instanceMachine.guard SeesConnection).run instanceMachine.init
      (.call .checkHealth :: List.replicate 6 (.move 0 ⟨.ok ["o"], 1⟩) ++
        .call .getObjects :: List.replicate 4 (.move 1 ⟨.ok ["o"], 2⟩)) = some _ := rfl
  exact Machine.everyStep_of_run_guard hrun

end UnisetPanel
