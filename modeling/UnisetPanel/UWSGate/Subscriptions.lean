/-
  What the subscription methods of the UWebSocketGate poller do.

  For each of `Subscribe` and `Unsubscribe`: which sensors each object is
  subscribed to afterwards, which names are handed to the client, and whose
  values are forgotten.  Nothing after this module unfolds the two loops.

  `allSensors` is the union over the objects.  Subscribing adds the names that
  are handed to the client to it, and unsubscribing removes them
  (`allSensors_subscribe`, `allSensors_unsubscribe`).
-/
import UnisetPanel.UWSGate.Poller
import UnisetPanel.Replica

namespace UnisetPanel

namespace UWSGatePoller

variable {R : Type} {p : UWSGatePoller R}

theorem sensorsOf_insert (p : UWSGatePoller R) (o o' : String) (s : Finset String) :
    sensorsOf { p with subscriptions := p.subscriptions.insert o s } o' =
      if o' = o then s else p.sensorsOf o' := by
  unfold sensorsOf
  rw [GoMap.lookup_insert]
  by_cases h : o' = o
  · rw [if_pos h, if_pos h, Option.getD_some]
  · rw [if_neg h, if_neg h]

theorem not_subscribed_of_lookup {o : String} (h : p.subscriptions.lookup o = none) (name : String) :
    ¬ p.Subscribed o name := by
  unfold Subscribed sensorsOf
  rw [h]
  exact Finset.notMem_empty name

/-- An object that is subscribed to something has an entry. -/
theorem Subscribed.mem_keys {o name : String} (h : p.Subscribed o name) :
    o ∈ p.subscriptions.keys := by
  rw [Finmap.mem_keys, ← Finmap.lookup_isSome, Option.isSome_iff_ne_none]
  intro hnone
  exact not_subscribed_of_lookup hnone name h

theorem someObject_iff {name : String} : p.SomeObject name ↔ ∃ o, p.Subscribed o name := by
  constructor
  · rintro ⟨o, -, h⟩
    exact ⟨o, h⟩
  · rintro ⟨o, h⟩
    exact ⟨o, h.mem_keys, h⟩

/-- The sensors that some object is subscribed to. -/
def allSensors (p : UWSGatePoller R) : Finset String := p.subscriptions.keys.biUnion p.sensorsOf

theorem mem_allSensors {name : String} : name ∈ p.allSensors ↔ ∃ o, p.Subscribed o name := by
  rw [← someObject_iff, allSensors, Finset.mem_biUnion]
  rfl

/-! ### `Subscribe` -/

/-- One name of the loop. -/
theorem mem_subscribeName (acc : Finset String × List String) (name n : String) :
    (n ∈ (subscribeName acc name).1 ↔ n ∈ acc.1 ∨ n = name) ∧
      (n ∈ (subscribeName acc name).2 ↔ n ∈ acc.2 ∨ n = name ∧ n ∉ acc.1) := by
  unfold subscribeName
  split_ifs with hmem
  · constructor
    · refine (or_iff_left_of_imp ?_).symm
      rintro rfl
      exact hmem
    · refine (or_iff_left_of_imp ?_).symm
      rintro ⟨rfl, hn⟩
      exact absurd hmem hn
  · rw [Finset.mem_insert, List.mem_append, List.mem_singleton]
    refine ⟨or_comm, or_congr_right (and_iff_left_of_imp ?_).symm⟩
    rintro rfl
    exact hmem

theorem foldl_subscribeName (names : List String) (acc : Finset String × List String) (n : String) :
    (n ∈ (names.foldl subscribeName acc).1 ↔ n ∈ acc.1 ∨ n ∈ names) ∧
      (n ∈ (names.foldl subscribeName acc).2 ↔ n ∈ acc.2 ∨ n ∈ names ∧ n ∉ acc.1) := by
  induction names generalizing acc with
  | nil => simp
  | cons name names ih =>
    obtain ⟨ih1, ih2⟩ := ih (subscribeName acc name)
    obtain ⟨h1, h2⟩ := mem_subscribeName acc name n
    rw [List.foldl_cons, ih1, ih2, h1, h2, List.mem_cons]
    refine ⟨or_assoc, ?_⟩
    by_cases hn : n = name
    · simp [hn]
    · simp [hn]

/-- `Subscribe` leaves the values alone. -/
theorem values_subscribe (p : UWSGatePoller R) (o : String) (names : List String) :
    (p.subscribe o names).1.lastValues = p.lastValues ∧
      (p.subscribe o names).1.currentValues = p.currentValues := by
  unfold subscribe
  split_ifs
  · exact ⟨rfl, rfl⟩
  · exact ⟨rfl, rfl⟩

theorem subscribed_subscribe (o : String) (names : List String) (o' n : String) :
    (p.subscribe o names).1.Subscribed o' n ↔ p.Subscribed o' n ∨ o' = o ∧ n ∈ names := by
  unfold subscribe
  split_ifs with hnil
  · simp [hnil]
  · show n ∈ sensorsOf _ o' ↔ _
    rw [sensorsOf_insert]
    by_cases ho : o' = o
    · subst ho
      rw [if_pos rfl, (foldl_subscribeName names _ n).1]
      simp [Subscribed]
    · rw [if_neg ho]
      simp [Subscribed, ho]

/-- The names for the client are the new ones. -/
theorem mem_subscribe_snd (o : String) (names : List String) (n : String) :
    n ∈ (p.subscribe o names).2 ↔ n ∈ names ∧ ¬ p.Subscribed o n := by
  unfold subscribe
  split_ifs with hnil
  · simp [hnil]
  · rw [(foldl_subscribeName names _ n).2]
    simp [Subscribed]

/-- **`Subscribe` adds the names that it hands to the client.** -/
theorem allSensors_subscribe (p : UWSGatePoller R) (o : String) (names : List String) :
    (p.subscribe o names).1.allSensors =
      (SetCommand.ask (p.subscribe o names).2).apply p.allSensors := by
  ext n
  by_cases hn : n ∈ (p.subscribe o names).2
  · rw [SetCommand.mem_apply_of_mem hn, mem_allSensors]
    refine iff_of_true ⟨o, ?_⟩ rfl
    exact (subscribed_subscribe o names o n).mpr
      (Or.inr ⟨rfl, ((mem_subscribe_snd o names n).mp hn).1⟩)
  · rw [SetCommand.mem_apply_of_notMem hn, mem_allSensors, mem_allSensors]
    constructor
    · rintro ⟨o', h⟩
      rcases (subscribed_subscribe o names o' n).mp h with hold | ⟨rfl, hmem⟩
      · exact ⟨o', hold⟩
      · -- it was subscribed already
        by_contra hnone
        exact hn ((mem_subscribe_snd o' names n).mpr ⟨hmem, fun hs => hnone ⟨o', hs⟩⟩)
    · rintro ⟨o', h⟩
      exact ⟨o', (subscribed_subscribe o names o' n).mpr (Or.inl h)⟩

/-! ### `Unsubscribe` -/

/-- No other object is subscribed to the sensor. -/
def OnlyFor (p : UWSGatePoller R) (o n : String) : Prop :=
  p.Subscribed o n ∧ ∀ o', p.Subscribed o' n → o' = o

theorem subscribed_remove (o name o' n : String) :
    (p.remove o name).Subscribed o' n ↔ p.Subscribed o' n ∧ ¬ (o' = o ∧ n = name) := by
  unfold Subscribed remove
  rw [sensorsOf_insert]
  by_cases ho : o' = o
  · subst ho
    rw [if_pos rfl, Finset.mem_erase]
    tauto
  · rw [if_neg ho]
    tauto

/-- One name of the loop: whether the object was the only one decides about the client and the
values. -/
theorem unsubscribeName_eq (o : String) (p : UWSGatePoller R) (out : List String) (name : String) :
    (∀ o' n, (unsubscribeName o (p, out) name).1.Subscribed o' n ↔
        p.Subscribed o' n ∧ ¬ (o' = o ∧ n = name)) ∧
      (p.OnlyFor o name → unsubscribeName o (p, out) name =
        ((p.remove o name).forget name, out ++ [name])) ∧
      (¬ p.OnlyFor o name → (unsubscribeName o (p, out) name).2 = out ∧
        (unsubscribeName o (p, out) name).1.lastValues = p.lastValues ∧
        (unsubscribeName o (p, out) name).1.currentValues = p.currentValues) := by
  have hsome : (p.remove o name).SomeObject name ↔ ∃ o', p.Subscribed o' name ∧ o' ≠ o := by
    rw [someObject_iff]
    refine exists_congr fun o' => (subscribed_remove o name o' name).trans ?_
    simp
  unfold unsubscribeName
  by_cases hmem : name ∈ p.sensorsOf o
  · rw [if_pos hmem]
    by_cases hothers : (p.remove o name).SomeObject name
    · rw [if_pos hothers]
      obtain ⟨o', ho', hne⟩ := hsome.mp hothers
      exact ⟨subscribed_remove o name, fun h => absurd (h.2 o' ho') hne, fun _ => ⟨rfl, rfl, rfl⟩⟩
    · rw [if_neg hothers]
      refine ⟨subscribed_remove o name, fun _ => rfl, fun h => absurd ⟨hmem, ?_⟩ h⟩
      intro o' ho'
      by_contra hne
      exact hothers (hsome.mpr ⟨o', ho', hne⟩)
  · rw [if_neg hmem]
    refine ⟨fun o' n => ?_, fun h => absurd h.1 hmem, fun _ => ⟨rfl, rfl, rfl⟩⟩
    refine (and_iff_left_of_imp ?_).symm
    rintro h ⟨rfl, rfl⟩
    exact hmem h

theorem OnlyFor.congr_removed {q : UWSGatePoller R} {o name : String}
    (h : ∀ o' n, q.Subscribed o' n ↔ p.Subscribed o' n ∧ ¬ (o' = o ∧ n = name)) (n : String) :
    q.OnlyFor o n ↔ n ≠ name ∧ p.OnlyFor o n := by
  by_cases hn : n = name
  · subst hn
    refine iff_of_false (fun hq => ((h o n).mp hq.1).2 ⟨rfl, rfl⟩) fun hp => hp.1 rfl
  · have hsame : ∀ o', q.Subscribed o' n ↔ p.Subscribed o' n := by
      intro o'
      rw [h o' n]
      exact and_iff_left fun hc => hn hc.2
    unfold OnlyFor
    simp only [hsame, ne_eq, hn, not_false_eq_true, true_and]

theorem foldl_unsubscribeName (o : String) (names : List String)
    (acc : UWSGatePoller R × List String) :
    (∀ o' n, (names.foldl (unsubscribeName o) acc).1.Subscribed o' n ↔
        acc.1.Subscribed o' n ∧ ¬ (o' = o ∧ n ∈ names)) ∧
      ∀ n, n ∈ (names.foldl (unsubscribeName o) acc).2 ↔
        n ∈ acc.2 ∨ n ∈ names ∧ acc.1.OnlyFor o n := by
  induction names generalizing acc with
  | nil => simp
  | cons name names ih =>
    obtain ⟨p, out⟩ := acc
    obtain ⟨hsub, hyes, hno⟩ := unsubscribeName_eq o p out name
    obtain ⟨ih1, ih2⟩ := ih (unsubscribeName o (p, out) name)
    constructor
    · intro o' n
      rw [List.foldl_cons, ih1, hsub, List.mem_cons, and_assoc, ← not_or, ← and_or_left]
    · intro n
      rw [List.foldl_cons, ih2, OnlyFor.congr_removed hsub, List.mem_cons]
      by_cases honly : p.OnlyFor o name
      · rw [hyes honly, List.mem_append, List.mem_singleton]
        by_cases hn : n = name
        · simp [hn, honly]
        · simp [hn]
      · rw [(hno honly).1]
        by_cases hn : n = name
        · simp [hn, honly]
        · simp [hn]

/-- The values of the names for the client are forgotten, and no others. -/
theorem foldl_unsubscribeName_values (o : String) (names : List String)
    (acc : UWSGatePoller R × List String)
    (hacc : ∀ n ∈ acc.2, acc.1.lastValues.lookup n = none ∧ acc.1.currentValues.lookup n = none)
    (n : String) :
    (names.foldl (unsubscribeName o) acc).1.lastValues.lookup n =
        (if n ∈ (names.foldl (unsubscribeName o) acc).2 then none
          else acc.1.lastValues.lookup n) ∧
      (names.foldl (unsubscribeName o) acc).1.currentValues.lookup n =
        if n ∈ (names.foldl (unsubscribeName o) acc).2 then none
        else acc.1.currentValues.lookup n := by
  induction names generalizing acc with
  | nil =>
    by_cases hn : n ∈ acc.2
    · simp [hn, hacc n hn]
    · simp [hn]
  | cons name names ih =>
    obtain ⟨p, out⟩ := acc
    obtain ⟨-, hyes, hno⟩ := unsubscribeName_eq o p out name
    rw [List.foldl_cons]
    by_cases honly : p.OnlyFor o name
    · have hforget : ∀ m, Finmap.lookup m (((p.remove o name).forget name).lastValues) =
          (if m = name then none else p.lastValues.lookup m) ∧
          Finmap.lookup m (((p.remove o name).forget name).currentValues) =
          if m = name then none else p.currentValues.lookup m :=
        fun m => ⟨GoMap.lookup_erase .., GoMap.lookup_erase ..⟩
      rw [hyes honly]
      have hname : name ∈ (names.foldl (unsubscribeName o)
          ((p.remove o name).forget name, out ++ [name])).2 :=
        ((foldl_unsubscribeName o names _).2 name).mpr (Or.inl (by simp))
      obtain ⟨h1, h2⟩ := ih ((p.remove o name).forget name, out ++ [name]) (by
        intro m hm
        rw [(hforget m).1, (hforget m).2]
        by_cases hmn : m = name
        · simp [hmn]
        · rw [if_neg hmn, if_neg hmn]
          refine hacc m ?_
          simpa [hmn] using hm)
      rw [h1, h2, (hforget n).1, (hforget n).2]
      by_cases hn : n = name
      · subst hn
        simp [hname]
      · simp [hn]
    · obtain ⟨hout, hlast, hcur⟩ := hno honly
      obtain ⟨h1, h2⟩ := ih (unsubscribeName o (p, out) name) (by
        intro m hm
        rw [hlast, hcur]
        exact hacc m (hout ▸ hm))
      rw [h1, h2, hlast, hcur]
      exact ⟨rfl, rfl⟩

theorem subscribed_dropEmpty (o o' n : String) :
    (p.dropEmpty o).Subscribed o' n ↔ p.Subscribed o' n := by
  unfold dropEmpty
  split_ifs with hempty
  · unfold Subscribed
    have herase : sensorsOf { p with subscriptions := p.subscriptions.erase o } o' =
        if o' = o then ∅ else p.sensorsOf o' := by
      unfold sensorsOf
      rw [GoMap.lookup_erase]
      by_cases ho : o' = o
      · rw [if_pos ho, if_pos ho, Option.getD_none]
      · rw [if_neg ho, if_neg ho]
    rw [herase]
    by_cases ho : o' = o
    · subst ho
      rw [if_pos rfl, hempty]
    · rw [if_neg ho]
  · exact Iff.rfl

theorem values_dropEmpty (o : String) : (p.dropEmpty o).lastValues = p.lastValues ∧
    (p.dropEmpty o).currentValues = p.currentValues := by
  unfold dropEmpty
  split_ifs
  · exact ⟨rfl, rfl⟩
  · exact ⟨rfl, rfl⟩

/-- `Unsubscribe` is its loop, also where it returns at once. -/
theorem unsubscribe_spec (p : UWSGatePoller R) (o : String) (names : List String) :
    (∀ o' n, (p.unsubscribe o names).1.Subscribed o' n ↔
        p.Subscribed o' n ∧ ¬ (o' = o ∧ n ∈ names)) ∧
      (∀ n, n ∈ (p.unsubscribe o names).2 ↔ n ∈ names ∧ p.OnlyFor o n) ∧
      ∀ n, (p.unsubscribe o names).1.lastValues.lookup n =
          (if n ∈ (p.unsubscribe o names).2 then none else p.lastValues.lookup n) ∧
        (p.unsubscribe o names).1.currentValues.lookup n =
          if n ∈ (p.unsubscribe o names).2 then none else p.currentValues.lookup n := by
  unfold unsubscribe
  by_cases hnil : names = []
  · simp [hnil]
  · rw [if_neg hnil]
    cases hl : p.subscriptions.lookup o with
    | none =>
      have hnot := not_subscribed_of_lookup hl
      refine ⟨fun o' n => ?_, fun n => ?_, fun n => by simp⟩
      · refine (and_iff_left_of_imp ?_).symm
        rintro h ⟨rfl, -⟩
        exact hnot n h
      · exact iff_of_false (List.not_mem_nil) fun h => hnot n h.2.1
    | some items =>
      obtain ⟨h1, h2⟩ := foldl_unsubscribeName o names (p, [])
      refine ⟨fun o' n => (subscribed_dropEmpty o o' n).trans (h1 o' n), fun n => ?_, fun n => ?_⟩
      · exact (h2 n).trans (by simp)
      · obtain ⟨hlast, hcur⟩ := values_dropEmpty (p := (names.foldl (unsubscribeName o) (p, [])).1) o
        show Finmap.lookup n (dropEmpty _ o).lastValues = _ ∧
          Finmap.lookup n (dropEmpty _ o).currentValues = _
        rw [hlast, hcur]
        exact foldl_unsubscribeName_values o names (p, []) (by simp) n

theorem subscribed_unsubscribe (o : String) (names : List String) (o' n : String) :
    (p.unsubscribe o names).1.Subscribed o' n ↔ p.Subscribed o' n ∧ ¬ (o' = o ∧ n ∈ names) :=
  (unsubscribe_spec p o names).1 o' n

/-- The names for the client are those that only this object was subscribed to. -/
theorem mem_unsubscribe_snd (o : String) (names : List String) (n : String) :
    n ∈ (p.unsubscribe o names).2 ↔ n ∈ names ∧ p.OnlyFor o n :=
  (unsubscribe_spec p o names).2.1 n

/-- The values of these names are forgotten, and no others. -/
theorem values_unsubscribe (p : UWSGatePoller R) (o : String) (names : List String) (n : String) :
    (p.unsubscribe o names).1.lastValues.lookup n =
        (if n ∈ (p.unsubscribe o names).2 then none else p.lastValues.lookup n) ∧
      (p.unsubscribe o names).1.currentValues.lookup n =
        if n ∈ (p.unsubscribe o names).2 then none else p.currentValues.lookup n :=
  (unsubscribe_spec p o names).2.2 n

/-- A sensor that is still subscribed keeps its values. -/
theorem notMem_unsubscribe_snd {o o' n : String} {names : List String}
    (h : (p.unsubscribe o names).1.Subscribed o' n) : n ∉ (p.unsubscribe o names).2 := by
  intro hn
  obtain ⟨hmem, -, honly⟩ := (mem_unsubscribe_snd o names n).mp hn
  obtain ⟨hold, hnot⟩ := (subscribed_unsubscribe o names o' n).mp h
  exact hnot ⟨honly o' hold, hmem⟩

/-- **`Unsubscribe` removes the names that it hands to the client.** -/
theorem allSensors_unsubscribe (p : UWSGatePoller R) (o : String) (names : List String) :
    (p.unsubscribe o names).1.allSensors =
      (SetCommand.del (p.unsubscribe o names).2).apply p.allSensors := by
  ext n
  by_cases hn : n ∈ (p.unsubscribe o names).2
  · rw [SetCommand.mem_apply_of_mem hn, mem_allSensors]
    exact iff_of_false (fun ⟨_, h⟩ => notMem_unsubscribe_snd h hn) Bool.false_ne_true
  · rw [SetCommand.mem_apply_of_notMem hn, mem_allSensors, mem_allSensors]
    constructor
    · rintro ⟨o', h⟩
      exact ⟨o', ((subscribed_unsubscribe o names o' n).mp h).1⟩
    · rintro ⟨o', h⟩
      by_cases hmem : n ∈ names
      · -- another object keeps it
        have : ∃ o₁, p.Subscribed o₁ n ∧ o₁ ≠ o := by
          by_contra hnone
          push Not at hnone
          exact hn ((mem_unsubscribe_snd o names n).mpr ⟨hmem, hnone o' h ▸ h, hnone⟩)
        obtain ⟨o₁, h₁, hne⟩ := this
        exact ⟨o₁, (subscribed_unsubscribe o names o₁ n).mpr ⟨h₁, fun hc => hne hc.1⟩⟩
      · exact ⟨o', (subscribed_unsubscribe o names o' n).mpr ⟨h, fun hc => hmem hc.2⟩⟩

end UWSGatePoller

end UnisetPanel
