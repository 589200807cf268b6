/-
  What the status callbacks say.

  `UpdateStatus` decides under `mu` that the status has changed and calls
  `statusCallback` with the new one after it has let go of `mu`.  Two opposite
  changes can be told in reverse order, and then the panel shows a status that
  the instance does not have, until the status changes again
  (`not_agreesWhenQuiet`).

  The status told last is that of the instance in the runs in which a status
  that is not the current one any more is told only while a request is still
  to tell the current one (`agreesWhenQuiet_of_statusInTime`).
-/
import UnisetPanel.Server.Instance

namespace UnisetPanel

/-- The status that a request is to tell. -/
def StatusCall.toTell (k : StatusCall) : Option Bool :=
  match k.phase with
  | .updated answer statusChanged => if statusChanged then some answer.isOk else none
  | .called | .answered _ | .updating _ | .notified _ | .counted _ | .returned => none

/-- The status that an event tells. -/
def InstanceEvent.told : InstanceEvent → Option Bool
  | .status connected _ => some connected
  | .connects | .checked _ _ => none

/-- The status told last. -/
def lastTold (events : List InstanceEvent) : Option Bool :=
  (events.filterMap InstanceEvent.told).getLast?

theorem lastTold_append (events : List InstanceEvent) (seen : List InstanceEvent) :
    lastTold (events ++ seen) = (lastTold seen).or (lastTold events) := by
  unfold lastTold
  rw [List.filterMap_append, List.getLast?_append]

/-- **The status told last is that of the instance** when all requests have returned, if one was
told at all. -/
def AgreesWhenQuiet (as : List InstanceAction) : Prop :=
  ∀ s : InstanceState, instanceMachine.run instanceMachine.init as = some s → s.Quiet →
    ∀ connected, lastTold s.shared.events = some connected →
      connected = s.shared.status.connected

/-- What the `i`-th request is to tell. -/
def InstanceState.toTell (s : InstanceState) (i : ℕ) : Option Bool :=
  s.calls[i]?.bind StatusCall.toTell

/-- A request tells the current status, unless another one is still to tell that. -/
def StatusInTime (s : InstanceState) : InstanceAction → Prop
  | .call _ => True
  | .move i _ => ∀ connected ∈ s.toTell i, connected = s.shared.status.connected ∨
      ∃ j ∈ List.range s.calls.length, j ≠ i ∧ s.toTell j = some s.shared.status.connected

instance (s : InstanceState) : (a : InstanceAction) → Decidable (StatusInTime s a)
  | .call _ => inferInstanceAs (Decidable True)
  | .move i _ => inferInstanceAs (Decidable (∀ connected ∈ s.toTell i,
      connected = s.shared.status.connected ∨
        ∃ j ∈ List.range s.calls.length, j ≠ i ∧ s.toTell j = some s.shared.status.connected))

/-! ### Two changes told in reverse order -/

/-- The steps of the `i`-th request, to which the server gives `answer`. -/
def statusSteps (i n : ℕ) (answer : ServerAnswer) : List InstanceAction :=
  List.replicate n (.move i ⟨answer, 0⟩)

/-- A health check finds the server; before it tells so, a request for the data of an object fails
and tells that. -/
def reversedRun : List InstanceAction :=
  .call .checkHealth :: statusSteps 0 3 (.ok ["o"]) ++
    .call (.getObjectData "o") :: statusSteps 1 4 (.error "timeout") ++ statusSteps 0 3 (.ok ["o"])

/-- **It fails**: after `reversedRun` the panel has been told last that the server is connected, and
it is not. -/
theorem not_agreesWhenQuiet : ¬ ∀ as, AgreesWhenQuiet as := by
  intro h
  exact absurd (h reversedRun _ rfl (by decide) true (by decide)) (by decide)

/-! ### The invariant -/

/-- The status of the instance was told last, or some request is to tell it. -/
def StatusInv (s : InstanceState) : Prop :=
  (lastTold s.shared.events).getD false = s.shared.status.connected ∨
    ∃ i, s.toTell i = some s.shared.status.connected

variable {s s' : InstanceState} {e : StatusEnv} {t t' : InstanceTrace} {k k' : StatusCall}

/-- A section changes the status and leaves the request to tell that, or it leaves the status and
tells what the request has to tell. -/
theorem StatusCall.tells_of_next (h : k.next e t = some (t', k')) :
    (k.toTell = none ∧ k'.toTell = some t'.status.connected) ∨
      (t'.status.connected = t.status.connected ∧ k'.toTell = none ∧
        lastTold t'.events = k.toTell.or (lastTold t.events)) := by
  obtain ⟨request, phase, wasConnected⟩ := k
  cases phase with
  | called =>
    right
    cases request <;> cases h <;> exact ⟨rfl, rfl, rfl⟩
  | answered answer =>
    right
    cases h
    exact ⟨rfl, rfl, rfl⟩
  | updating answer =>
    cases h
    by_cases hchanged : t.status.connected = answer.isOk
    · -- nothing changes, and nothing is seen
      right
      have hseen : ¬ (t.status.connected = false ∧ answer.isOk = true) := by
        rintro ⟨hfalse, htrue⟩
        rw [hfalse, htrue] at hchanged
        cases hchanged
      refine ⟨hchanged.symm, ?_, ?_⟩
      · simp [toTell, hchanged]
      · show lastTold (t.events ++ _) = lastTold t.events
        rw [if_neg hseen, List.append_nil]
    · left
      have hdiffer : (t.status.connected != answer.isOk) = true := bne_iff_ne.mpr hchanged
      refine ⟨rfl, ?_⟩
      show (if (t.status.connected != answer.isOk) = true then some answer.isOk else none) = _
      rw [if_pos hdiffer]
  | updated answer statusChanged =>
    right
    cases h
    refine ⟨rfl, rfl, ?_⟩
    rw [lastTold_append]
    cases statusChanged <;> rfl
  | notified answer =>
    right
    cases answer with
    | error err =>
      cases h
      exact ⟨rfl, rfl, rfl⟩
    | ok objects => cases request <;> cases h <;> exact ⟨rfl, rfl, rfl⟩
  | counted objects =>
    right
    cases request with
    | checkHealth =>
      cases h
      refine ⟨rfl, rfl, ?_⟩
      rw [lastTold_append]
      rfl
    | getObjects | getObjectData objectName =>
      cases h
      exact ⟨rfl, rfl, rfl⟩
  | returned => cases h

/-- **The step lemma.** -/
theorem StatusInv.step {a : InstanceAction} (h : StatusInv s) (htime : StatusInTime s a)
    (hs : instanceMachine.step s a = some s') : StatusInv s' := by
  cases a with
  | call request =>
    obtain ⟨-, rfl⟩ := InstanceState.step_call hs
    refine h.imp_right ?_
    rintro ⟨i, hi⟩
    refine ⟨i, ?_⟩
    obtain ⟨k, hk, htell⟩ := Option.bind_eq_some_iff.mp hi
    have hold : (s.calls ++ [StatusCall.start request])[i]? = some k := by
      rw [List.getElem?_append_left (List.getElem?_eq_some_iff.mp hk).1]
      exact hk
    exact Option.bind_eq_some_iff.mpr ⟨k, hold, htell⟩
  | move i e =>
    obtain ⟨k, t, k', hk, hnext, rfl⟩ := InstanceState.step_move hs
    have hget := Calls.getElem?_set_of_getElem? hk k'
    have hi : s.toTell i = k.toTell := by
      show s.calls[i]?.bind StatusCall.toTell = k.toTell
      rw [hk]
      rfl
    rcases StatusCall.tells_of_next hnext with ⟨-, hchange⟩ | ⟨hsame, -, htold⟩
    · -- the request that has changed the status is to tell it
      right
      refine ⟨i, ?_⟩
      show (s.calls.set i k')[i]?.bind StatusCall.toTell = _
      rw [hget i, if_pos rfl]
      exact hchange
    · have hother : ∀ j, j ≠ i → s.toTell j = some s.shared.status.connected →
          StatusInv ⟨t, s.calls.set i k'⟩ := by
        intro j hj htell
        right
        refine ⟨j, ?_⟩
        show (s.calls.set i k')[j]?.bind StatusCall.toTell = some t.status.connected
        rw [hget j, if_neg hj, hsame]
        exact htell
      cases htell : k.toTell with
      | none =>
        -- the request tells nothing, so what was told last is as before
        rcases h with h | ⟨j, hj⟩
        · left
          show (lastTold t.events).getD false = t.status.connected
          rw [htold, htell, hsame]
          exact h
        · apply hother j _ hj
          rintro rfl
          rw [hi, htell] at hj
          cases hj
      | some connected =>
        rcases htime connected (hi.trans htell) with rfl | ⟨j, -, hj, hjtell⟩
        · left
          show (lastTold t.events).getD false = t.status.connected
          rw [htold, htell, hsame]
          rfl
        · exact hother j hj hjtell

/-! ### The main theorem -/

/-- **The status told last is that of the instance** in every run in which each status is told in
time. -/
theorem agreesWhenQuiet_of_statusInTime {as : List InstanceAction}
    (htime : instanceMachine.EveryStep StatusInTime as) : AgreesWhenQuiet as := by
  intro s hrun hquiet connected htold
  have hinv : StatusInv s := by
    refine Machine.EveryStep.induction (I := StatusInv) (Or.inl rfl) ?_ htime hrun
    intro s a s' h ha hstep
    exact h.step ha hstep
  rcases hinv with h | ⟨i, hi⟩
  · rw [htold] at h
    exact h
  · -- a request that is to tell something has not returned
    obtain ⟨k, hk, htell⟩ := Option.bind_eq_some_iff.mp hi
    have hreturned : k.phase = .returned := hquiet k (List.mem_of_getElem? hk)
    rw [StatusCall.toTell, hreturned] at htell
    cases htell

/-- Two health checks, one after the other. -/
theorem agreesWhenQuiet_twoChecks : AgreesWhenQuiet
    (.call .checkHealth :: statusSteps 0 6 (.ok ["o"]) ++
      .call .checkHealth :: statusSteps 1 5 (.error "timeout")) := by
  apply agreesWhenQuiet_of_statusInTime
  have hrun : (instanceMachine.guard StatusInTime).run instanceMachine.init
      (.call .checkHealth :: statusSteps 0 6 (.ok ["o"]) ++
        .call .checkHealth :: statusSteps 1 5 (.error "timeout")) = some _ := rfl
  exact Machine.everyStep_of_run_guard hrun

end UnisetPanel
