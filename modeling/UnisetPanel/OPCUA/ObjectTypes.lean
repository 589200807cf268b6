/-
  Do the types of the OPC UA objects follow the subscriptions?

  `SubscribeWithType` subscribes under the lock of the base poller and stores
  the type under the lock of the types.  `Unsubscribe` and `UnsubscribeAll`
  delete the type in a section of their own as well, and what `Unsubscribe` has
  seen of the subscriptions may be out of date by then: an object that was
  subscribed to again in between keeps its subscriptions and loses its type
  (`not_typesFollow_resubscribedRun`).  It is asked as an `OPCUAExchange` from
  then on.

  An object is `Typed` if it has a type, or a `SubscribeWithType` that has
  subscribed is yet to store one.  All subscribed objects are so throughout
  exactly the runs in which no type is deleted that is still used
  (`typed_iff_everyStep`), and in these runs the types follow
  (`typesFollow_of_deletesUnused`).
-/
import UnisetPanel.OPCUA.Poller

namespace UnisetPanel

variable {T : Type*} {F : ItemFetcher T}

/-- A poller and the calls in progress. -/
abbrev OPCUAState (F : ItemFetcher T) := Calls (OPCUAPoller F) OPCUACall

abbrev OPCUAAction := CallAction ProperMethod Unit

namespace OPCUACall

/-- The type that the call is yet to store, with its object. -/
def toStore : OPCUACall → Option (String × String)
  | storing o extensionType => some (o, extensionType)
  | _ => none

end OPCUACall

open OPCUACall

/-! ### What the types are for -/

/-- A `SubscribeWithType` of the object gave the type. -/
def Given (as : List OPCUAAction) (o extensionType : String) : Prop :=
  ∃ x : ProperMethod, .call x ∈ as ∧ ∃ ids, x.1 = .subscribeWithType o ids extensionType

/-- **The types follow the subscriptions**: once all calls have finished, an object that has
subscriptions has a type, one that was given for it. -/
def TypesFollow (as : List OPCUAAction) (s : OPCUAState F) : Prop :=
  (∀ k ∈ s.calls, k.Finished) → ∀ o, s.shared.HasSubscriptions o →
    ∃ extensionType, s.shared.objectTypes.lookup o = some extensionType ∧ Given as o extensionType

/-- Some call is yet to store a type of the object. -/
def ToBeTyped (s : OPCUAState F) (o : String) : Prop :=
  ∃ extensionType, (o, extensionType) ∈ s.calls.filterMap toStore

/-- An object with subscriptions has a type, or a call is yet to store one. -/
def Typed (s : OPCUAState F) : Prop :=
  ∀ o, s.shared.HasSubscriptions o → s.shared.objectTypes.lookup o ≠ none ∨ ToBeTyped s o

/-- A type is deleted only if its object has no subscriptions, or is to be typed anew. -/
def DeletesUnused (s : OPCUAState F) : OPCUAAction → Prop
  | .call _ => True
  | .move i _ => ∀ o, s.calls[i]? = some (.deleting o) →
    ¬ s.shared.HasSubscriptions o ∨ ToBeTyped s o

/-! ### What a section does -/

/-- A call that has not begun was called properly. -/
def Proper (s : OPCUAState F) : Prop := ∀ x, .called x ∈ s.calls → x.Proper

/-- What one section does to subscriptions and types. -/
inductive SectionEffect (p p' : OPCUAPoller F) (k k' : OPCUACall) : Prop where
  /-- the types stay, no object gets subscriptions -/
  | keep (hstore : k.toStore = none) (htypes : p'.objectTypes = p.objectTypes)
      (hsubs : ∀ o, p'.HasSubscriptions o → p.HasSubscriptions o) (hk' : k'.toStore = none)
  /-- `SubscribeWithType` has subscribed -/
  | subscribe (o : String) (ids : List Int64) (extensionType : String)
      (hk : k = called (.subscribeWithType o ids extensionType))
      (htypes : p'.objectTypes = p.objectTypes)
      (hsubs : ∀ o', p'.HasSubscriptions o' → o' = o ∨ p.HasSubscriptions o')
      (hk' : k' = storing o extensionType)
  | store (o extensionType : String) (hk : k = storing o extensionType)
      (hp : p' = { p with objectTypes := p.objectTypes.insert o extensionType })
      (hk' : k' = returned)
  | delete (o : String) (hk : k = deleting o)
      (hp : p' = { p with objectTypes := p.objectTypes.erase o }) (hk' : k' = returned)

/-- **The outcomes of a section.** -/
theorem next_effect {p p' : OPCUAPoller F} {k k' : OPCUACall}
    (hproper : ∀ x, k = called x → x.Proper) (h : k.next p = some (p', k')) :
    SectionEffect p p' k k' := by
  cases k with
  | called x =>
    cases x with
    | fetchItems o =>
      obtain ⟨rfl, rfl⟩ := Prod.mk.inj (Option.some.inj h)
      exact .keep rfl rfl (fun _ => id) rfl
    | subscribeWithType o ids extensionType =>
      obtain ⟨-, htype⟩ := hproper _ rfl
      obtain ⟨rfl, rfl⟩ := Prod.mk.inj (Option.some.inj h)
      refine .subscribe o ids extensionType rfl rfl ?_ (if_pos htype)
      rintro o' ⟨id, hid⟩
      rcases BasePoller.subscribed_subscribe.mp hid with ⟨ho, -⟩ | hid
      · exact Or.inl ho
      · exact Or.inr ⟨id, hid⟩
    | unsubscribe o ids =>
      obtain ⟨rfl, rfl⟩ := Prod.mk.inj (Option.some.inj h)
      refine .keep rfl rfl ?_ rfl
      rintro o' ⟨id, hid⟩
      exact ⟨id, (BasePoller.subscribed_unsubscribe.mp hid).1⟩
    | unsubscribeAll o =>
      obtain ⟨rfl, rfl⟩ := Prod.mk.inj (Option.some.inj h)
      refine .keep rfl rfl ?_ rfl
      rintro o' ⟨id, hid⟩
      exact ⟨id, (BasePoller.subscribed_unsubscribeAll.mp hid).1⟩
  | fetching o query => cases h
  | storing o extensionType =>
    obtain ⟨rfl, rfl⟩ := Prod.mk.inj (Option.some.inj h)
    exact .store o extensionType rfl rfl rfl
  | checking o =>
    obtain ⟨rfl, rfl⟩ := Prod.mk.inj (Option.some.inj h)
    refine .keep rfl rfl (fun _ => id) ?_
    split_ifs <;> rfl
  | deleting o =>
    obtain ⟨rfl, rfl⟩ := Prod.mk.inj (Option.some.inj h)
    exact .delete o rfl rfl rfl
  | returned => cases h

variable {batchSize : ℤ} {s t : OPCUAState F} {a : OPCUAAction}

theorem Proper.step (h : Proper s) (hstep : (opcuaMachine F batchSize).step s a = some t) :
    Proper t := by
  intro x hx
  cases a with
  | call y =>
    obtain rfl := Calls.step_call hstep
    rcases List.mem_append.mp hx with hx | hx
    · exact h x hx
    · obtain rfl := OPCUACall.called.inj (List.mem_singleton.mp hx)
      exact y.2
  | move i e =>
    obtain ⟨k, p, k', hk, hnext, rfl⟩ := Calls.step_move hstep
    rcases List.mem_or_eq_of_mem_set hx with hx | hx
    · exact h x hx
    · exact absurd hx.symm (next_ne_called hnext x)

/-- What is still to be stored when another call moves. -/
theorem ToBeTyped.set {o : String} {i : ℕ} {k k' : OPCUACall} {p : OPCUAPoller F}
    (h : ToBeTyped s o) (hk : s.calls[i]? = some k) (hstore : k.toStore = none) :
    ToBeTyped ⟨p, s.calls.set i k'⟩ o := by
  obtain ⟨extensionType, hmem⟩ := h
  refine ⟨extensionType, ?_⟩
  rcases Calls.mem_filterMap_set hk k' hmem with hself | hother
  · rw [hstore] at hself
    cases hself
  · exact hother

/-- An object whose type a section leaves alone is typed as before. -/
theorem Typed.set {o : String} {i : ℕ} {k k' : OPCUACall} {p : OPCUAPoller F} (h : Typed s)
    (hk : s.calls[i]? = some k) (hstore : k.toStore = none)
    (htype : p.objectTypes.lookup o = s.shared.objectTypes.lookup o)
    (ho : s.shared.HasSubscriptions o) :
    p.objectTypes.lookup o ≠ none ∨ ToBeTyped ⟨p, s.calls.set i k'⟩ o := by
  rw [htype]
  exact (h o ho).imp_right fun hmem => hmem.set hk hstore

/-- **A step that deletes no type in use keeps the objects typed.** -/
theorem Typed.step (h : Typed s) (hproper : Proper s) (ha : DeletesUnused s a)
    (hstep : (opcuaMachine F batchSize).step s a = some t) : Typed t := by
  cases a with
  | call x =>
    obtain rfl := Calls.step_call hstep
    intro o ho
    rcases h o ho with htype | ⟨extensionType, hmem⟩
    · exact Or.inl htype
    · right
      refine ⟨extensionType, ?_⟩
      rw [List.filterMap_append]
      exact List.mem_append_left _ hmem
  | move i e =>
    obtain ⟨k, p, k', hk, hnext, rfl⟩ := Calls.step_move hstep
    have hcalled : ∀ x, k = called x → x.Proper := fun x hx =>
      hproper x (hx ▸ List.mem_of_getElem? hk)
    intro o ho
    cases next_effect hcalled hnext with
    | keep hstore htypes hsubs _ => exact h.set hk hstore (by rw [htypes]) (hsubs o ho)
    | subscribe o₁ ids extensionType hk₁ htypes hsubs hk' =>
      have hstore : k.toStore = none := by rw [hk₁]; rfl
      rcases hsubs o ho with rfl | ho
      · right
        exact ⟨extensionType, Calls.mem_filterMap_set_self hk (by rw [hk']; rfl)⟩
      · exact h.set hk hstore (by rw [htypes]) ho
    | store o₁ extensionType hk₁ hp hk' =>
      subst hp
      by_cases ho₁ : o = o₁
      · left
        rw [ho₁, Finmap.lookup_insert]
        exact Option.some_ne_none _
      · rcases h o ho with htype | ⟨extensionType', hmem⟩
        · left
          rw [Finmap.lookup_insert_of_ne _ ho₁]
          exact htype
        · right
          refine ⟨extensionType', ?_⟩
          rcases Calls.mem_filterMap_set hk k' hmem with hself | hother
          · rw [hk₁] at hself
            exact absurd (Prod.mk.inj (Option.some.inj hself)).1.symm ho₁
          · exact hother
    | delete o₁ hk₁ hp hk' =>
      subst hp
      have hstore : k.toStore = none := by rw [hk₁]; rfl
      by_cases ho₁ : o = o₁
      · -- the object has subscriptions, so a call is to type it anew
        subst ho₁
        rcases ha o (hk₁ ▸ hk) with hnone | htype
        · exact absurd ho hnone
        · exact Or.inr (htype.set hk hstore)
      · exact h.set hk hstore (Finmap.lookup_erase_ne ho₁) ho

/-- **A type that is deleted in use** leaves its object without. -/
theorem not_typed_of_step (ha : ¬ DeletesUnused s a)
    (hstep : (opcuaMachine F batchSize).step s a = some t) : ¬ Typed t := by
  cases a with
  | call x => exact absurd trivial ha
  | move i e =>
    simp only [DeletesUnused, not_forall, not_or, not_not] at ha
    obtain ⟨o, hdel, hsubs, hnone⟩ := ha
    obtain ⟨k, p, k', hk, hnext, rfl⟩ := Calls.step_move hstep
    obtain rfl := Option.some.inj (hdel.symm.trans hk)
    obtain ⟨rfl, rfl⟩ := Prod.mk.inj (Option.some.inj hnext)
    intro h
    rcases h o hsubs with htype | ⟨extensionType, hmem⟩
    · exact htype (Finmap.lookup_erase o s.shared.objectTypes)
    · obtain ⟨k₁, hk₁, hstore⟩ := List.mem_filterMap.mp hmem
      rcases List.mem_or_eq_of_mem_set hk₁ with hk₁ | rfl
      · exact hnone ⟨extensionType, List.mem_filterMap.mpr ⟨k₁, hk₁, hstore⟩⟩
      · cases hstore

/-- **Exactly when the subscribed objects are typed**: no type is deleted that is in use. -/
theorem typed_iff_everyStep {as : List OPCUAAction}
    (hrun : (opcuaMachine F batchSize).run (opcuaMachine F batchSize).init as = some s) :
    (opcuaMachine F batchSize).Throughout Typed as ↔
      (opcuaMachine F batchSize).EveryStep DeletesUnused as := by
  refine Machine.throughout_iff_everyStep (I := fun s => Typed s ∧ Proper s) ?_ ?_
    (fun _ h => h.1) ?_ hrun
  · constructor
    · rintro o ⟨id, hid⟩
      have hid : id ∈ (Finmap.lookup o (∅ : GoMap String (Finset Int64))).getD ∅ := hid
      rw [Finmap.lookup_empty, Option.getD_none] at hid
      exact absurd hid (Finset.notMem_empty id)
    · intro x hx
      exact absurd hx (List.not_mem_nil)
  · intro s a t h ha hstep
    exact ⟨h.1.step h.2 ha hstep, h.2.step hstep⟩
  · intro s a t _ ha hstep
    exact not_typed_of_step ha hstep

/-! ### Where the types come from -/

/-- The calls of `SubscribeWithType` in progress and the stored types are of those that began. -/
structure FromCalls (as : List OPCUAAction) (s : OPCUAState F) : Prop where
  called : ∀ o ids extensionType,
    OPCUACall.called (.subscribeWithType o ids extensionType) ∈ s.calls → Given as o extensionType
  storing : ∀ o extensionType, OPCUACall.storing o extensionType ∈ s.calls →
    Given as o extensionType
  stored : ∀ o extensionType, s.shared.objectTypes.lookup o = some extensionType →
    Given as o extensionType

theorem Given.append {as : List OPCUAAction} {o extensionType : String}
    (h : Given as o extensionType) (bs : List OPCUAAction) : Given (as ++ bs) o extensionType := by
  obtain ⟨x, hx, hids⟩ := h
  exact ⟨x, List.mem_append_left bs hx, hids⟩

theorem FromCalls.call {as : List OPCUAAction} (h : FromCalls as s) (x : ProperMethod) :
    FromCalls (as ++ [.call x]) { s with calls := s.calls ++ [.called x.1] } := by
  refine ⟨?_, ?_, fun o extensionType hty => (h.stored o extensionType hty).append _⟩
  · intro o ids extensionType hmem
    rcases List.mem_append.mp hmem with hmem | hmem
    · exact (h.called o ids extensionType hmem).append _
    · have hx := OPCUACall.called.inj (List.mem_singleton.mp hmem)
      exact ⟨x, List.mem_append_right as (List.mem_singleton.mpr rfl), ids, hx.symm⟩
  · intro o extensionType hmem
    rcases List.mem_append.mp hmem with hmem | hmem
    · exact (h.storing o extensionType hmem).append _
    · cases List.mem_singleton.mp hmem

theorem FromCalls.move {as : List OPCUAAction} (h : FromCalls as s) (hproper : Proper s) {i : ℕ}
    {k k' : OPCUACall} {p : OPCUAPoller F} (hk : s.calls[i]? = some k)
    (hnext : k.next s.shared = some (p, k')) :
    FromCalls (as ++ [.move i ()]) ⟨p, s.calls.set i k'⟩ := by
  have hkmem := List.mem_of_getElem? hk
  have heffect := next_effect (fun x hx => hproper x (hx ▸ hkmem)) hnext
  refine ⟨?_, ?_, ?_⟩
  · intro o ids extensionType hmem
    rcases List.mem_or_eq_of_mem_set hmem with hmem | hmem
    · exact (h.called o ids extensionType hmem).append _
    · exact absurd hmem.symm (next_ne_called hnext _)
  · intro o extensionType hmem
    rcases List.mem_or_eq_of_mem_set hmem with hmem | hmem
    · exact (h.storing o extensionType hmem).append _
    · cases heffect with
      | keep _ _ _ hk' => rw [← hmem] at hk'; cases hk'
      | subscribe o₁ ids₁ extensionType₁ hk₁ _ _ hk' =>
        -- the type is the one that it was called with
        obtain ⟨rfl, rfl⟩ := OPCUACall.storing.inj (hmem.trans hk')
        exact (h.called o ids₁ extensionType (hk₁ ▸ hkmem)).append _
      | store _ _ _ _ hk' => cases hmem.trans hk'
      | delete _ _ _ hk' => cases hmem.trans hk'
  · intro o extensionType hty
    have hty : p.objectTypes.lookup o = some extensionType := hty
    cases heffect with
    | keep _ htypes _ _ =>
      rw [htypes] at hty
      exact (h.stored o extensionType hty).append _
    | subscribe _ _ _ _ htypes _ _ =>
      rw [htypes] at hty
      exact (h.stored o extensionType hty).append _
    | store o₁ extensionType₁ hk₁ hp _ =>
      subst hp
      have hstored := GoMap.forall_insert (P := fun o extensionType => Given as o extensionType)
        h.stored (h.storing o₁ extensionType₁ (hk₁ ▸ hkmem))
      exact (hstored o extensionType hty).append _
    | delete o₁ _ hp _ =>
      subst hp
      have hstored := GoMap.forall_erase (P := fun o extensionType => Given as o extensionType)
        h.stored o₁
      exact (hstored o extensionType hty).append _

/-- **A stored type was given.** -/
theorem fromCalls_of_run {as : List OPCUAAction}
    (hrun : (opcuaMachine F batchSize).run (opcuaMachine F batchSize).init as = some s) :
    FromCalls as s := by
  refine (Machine.history_induction (P := fun as s => FromCalls as s ∧ Proper s) ?_ ?_ hrun).1
  · refine ⟨⟨fun _ _ _ h => absurd h List.not_mem_nil, fun _ _ h => absurd h List.not_mem_nil, ?_⟩,
      fun _ h => absurd h List.not_mem_nil⟩
    intro o extensionType hlookup
    have hnone : (∅ : GoMap String String).lookup o = none := Finmap.lookup_empty o
    exact absurd (hlookup.symm.trans hnone) (Option.some_ne_none _)
  · rintro as s a t - ⟨h, hproper⟩ hstep
    refine ⟨?_, hproper.step hstep⟩
    cases a with
    | call x =>
      obtain rfl := Calls.step_call hstep
      exact h.call x
    | move i e =>
      obtain ⟨k, p, k', hk, hnext, rfl⟩ := Calls.step_move hstep
      exact h.move hproper hk hnext

/-! ### An object that is subscribed to again -/

/-- An object is subscribed to and unsubscribed from; before its type is deleted it is subscribed
to again, with its type. -/
def resubscribedRun : List OPCUAAction :=
  [.call subscribeServer, .move 0 (), .move 0 (),
    .call ⟨.unsubscribe "OPCUAServer1" [1], by decide⟩, .move 1 (), .move 1 (),
    .call subscribeServer, .move 2 (), .move 2 (), .move 1 ()]

/-- **The object is left without its type.** -/
theorem not_typesFollow_resubscribedRun :
    ∃ s : OPCUAState pairFetcher, (opcuaMachine pairFetcher 0).run
        (opcuaMachine pairFetcher 0).init resubscribedRun = some s ∧
      ¬ TypesFollow resubscribedRun s := by
  refine ⟨_, rfl, ?_⟩
  intro h
  have hfinished : ∀ k ∈ [OPCUACall.returned, .returned, .returned], k.Finished := by
    simp [OPCUACall.Finished]
  obtain ⟨extensionType, hlookup, -⟩ := h hfinished "OPCUAServer1" ⟨1, by decide⟩
  cases hlookup

/-- **The types follow where no type is deleted in use**: after every run whose steps delete no
type of an object that has subscriptions and is not about to be typed anew. -/
theorem typesFollow_of_deletesUnused (F : ItemFetcher T) (batchSize : ℤ) {as : List OPCUAAction}
    {s : OPCUAState F}
    (hrun : (opcuaMachine F batchSize).run (opcuaMachine F batchSize).init as = some s)
    (has : (opcuaMachine F batchSize).EveryStep DeletesUnused as) : TypesFollow as s := by
  intro hfinished o ho
  rcases ((typed_iff_everyStep hrun).mpr has).last hrun o ho with htype | ⟨extensionType, hmem⟩
  · obtain ⟨extensionType, hlookup⟩ := Option.ne_none_iff_exists'.mp htype
    exact ⟨extensionType, hlookup, (fromCalls_of_run hrun).stored o extensionType hlookup⟩
  · -- no call is left that would store a type
    obtain ⟨k, hk, hstore⟩ := List.mem_filterMap.mp hmem
    have hdone := hfinished k hk
    cases k with
    | storing o₁ extensionType₁ => exact absurd hdone not_false
    | _ => cases hstore

/-- An object is subscribed to and unsubscribed from, its type is deleted, and it is subscribed to
again. -/
def subscribedRun : List OPCUAAction :=
  [.call subscribeServer, .move 0 (), .move 0 (),
    .call ⟨.unsubscribe "OPCUAServer1" [1], by decide⟩, .move 1 (), .move 1 (), .move 1 (),
    .call subscribeServer, .move 2 (), .move 2 ()]

theorem typesFollow_subscribedRun :
    ∃ s : OPCUAState pairFetcher, (opcuaMachine pairFetcher 0).run
        (opcuaMachine pairFetcher 0).init subscribedRun = some s ∧
      s.shared.HasSubscriptions "OPCUAServer1" ∧ TypesFollow subscribedRun s := by
  refine ⟨_, rfl, ⟨1, by decide⟩, typesFollow_of_deletesUnused pairFetcher 0 rfl ?_⟩
  -- the one step that deletes comes when no subscription is left
  have hcall : ∀ (s : OPCUAState pairFetcher) (x : ProperMethod), DeletesUnused s (.call x) :=
    fun _ _ => trivial
  have hmove : ∀ (s : OPCUAState pairFetcher) (i : ℕ) (k : OPCUACall), s.calls[i]? = some k →
      (∀ o, k = .deleting o → ¬ s.shared.HasSubscriptions o) → DeletesUnused s (.move i ()) := by
    intro s i k hk hdel o ho
    exact Or.inl (hdel o (Option.some.inj (hk.symm.trans ho)))
  have hnil := Machine.everyStep_nil (M := opcuaMachine pairFetcher 0) (C := DeletesUnused)
  have hfirst := ((hnil.concat rfl (hcall _ subscribeServer)).concat rfl
    (hmove _ 0 _ rfl nofun)).concat rfl (hmove _ 0 _ rfl nofun)
  have hchecked := ((hfirst.concat rfl
    (hcall _ ⟨.unsubscribe "OPCUAServer1" [1], by decide⟩)).concat rfl
    (hmove _ 1 _ rfl nofun)).concat rfl (hmove _ 1 _ rfl nofun)
  have hdeleted := hchecked.concat rfl (hmove _ 1 (.deleting "OPCUAServer1") rfl (by
    intro o ho
    obtain rfl := OPCUACall.deleting.inj ho
    decide))
  exact ((hdeleted.concat rfl (hcall _ subscribeServer)).concat rfl
    (hmove _ 2 _ rfl nofun)).concat rfl (hmove _ 2 _ rfl nofun)

/-- **The fetcher asks in the right way**: for an object whose type is known, as the type says. -/
theorem fetch_of_typesFollow {as : List OPCUAAction} {s : OPCUAState F} {o : String}
    (h : TypesFollow as s) (hfinished : ∀ k ∈ s.calls, k.Finished)
    (ho : s.shared.HasSubscriptions o) :
    ∃ extensionType, Given as o extensionType ∧ OPCUACall.next s.shared (.called (.fetchItems o)) =
      some (s.shared, .fetching o (queryOf extensionType)) := by
  obtain ⟨extensionType, hlookup, hgiven⟩ := h hfinished o ho
  refine ⟨extensionType, hgiven, ?_⟩
  rw [OPCUACall.next, hlookup, Option.getD_some]

end UnisetPanel
