/-
  `JsMap` — maps of JavaScript with texts as keys.

  A `Map` is an association list without duplicate keys (`AList`), so it can be
  evaluated and `forEach` is a map over its entries (`lookup_mapWithKey`).  The
  order of the entries is not that of insertion; nothing here depends on it.
-/
import Mathlib.Data.List.AList
import Mathlib.Tactic.TypeStar

namespace UnisetPanel

/-- A `Map` of JavaScript with texts as keys. -/
abbrev JsMap (V : Type*) := AList fun _ : String => V

namespace JsMap

variable {V W : Type*}

theorem lookup_insert (m : JsMap V) (a b : String) (v : V) :
    AList.lookup b (AList.insert a v m) = if b = a then some v else m.lookup b := by
  by_cases h : b = a
  · rw [if_pos h, h, AList.lookup_insert]
  · rw [if_neg h, AList.lookup_insert_ne h]

theorem lookup_erase (m : JsMap V) (a b : String) :
    AList.lookup b (AList.erase a m) = if b = a then none else m.lookup b := by
  by_cases h : b = a
  · rw [if_pos h, h, AList.lookup_erase]
  · rw [if_neg h, AList.lookup_erase_ne h]

theorem insert_erase (m : JsMap V) (a : String) (v : V) :
    AList.insert a v (AList.erase a m) = AList.insert a v m := by
  have hgone : a ∉ (List.kerase a m.entries).keys := List.notMem_keys_kerase a m.nodupKeys
  refine AList.ext ?_
  show List.kinsert a v (List.kerase a m.entries) = List.kinsert a v m.entries
  rw [List.kinsert_def, List.kerase_of_notMem_keys hgone, List.kinsert_def]

theorem forall_insert {m : JsMap V} {P : String → V → Prop} {a : String} {v : V}
    (h : ∀ b w, m.lookup b = some w → P b w) (hv : P a v) :
    ∀ b w, AList.lookup b (AList.insert a v m) = some w → P b w := by
  intro b w hw
  rw [lookup_insert] at hw
  split_ifs at hw with hb
  · obtain rfl := Option.some.inj hw
    rwa [hb]
  · exact h b w hw

theorem mem_entries {m : JsMap V} {a : String} {v : V} :
    (⟨a, v⟩ : Sigma fun _ : String => V) ∈ m.entries ↔ m.lookup a = some v :=
  AList.mem_lookup_iff.symm

/-- What a loop over the map leaves that changes the values of all entries. -/
def mapWithKey (f : String → V → W) (m : JsMap V) : JsMap W where
  entries := m.entries.map fun e => ⟨e.1, f e.1 e.2⟩
  nodupKeys := by
    have hkeys : (m.entries.map fun e => (⟨e.1, f e.1 e.2⟩ : Sigma fun _ : String => W)).keys =
        m.entries.keys := by
      simp [List.keys]
    rw [List.NodupKeys, hkeys]
    exact m.nodupKeys

theorem lookup_mapWithKey (f : String → V → W) (m : JsMap V) (a : String) :
    (m.mapWithKey f).lookup a = (m.lookup a).map (f a) := by
  have hentries : ∀ entries : List (Sigma fun _ : String => V),
      List.dlookup a (entries.map fun e => (⟨e.1, f e.1 e.2⟩ : Sigma fun _ : String => W)) =
        (List.dlookup a entries).map (f a) := by
    intro entries
    induction entries with
    | nil => rfl
    | cons e entries ih =>
      obtain ⟨b, v⟩ := e
      by_cases hb : a = b
      · subst hb
        rw [List.map_cons, List.dlookup_cons_eq, List.dlookup_cons_eq, Option.map_some]
      · rw [List.map_cons, List.dlookup_cons_ne _ _ hb, List.dlookup_cons_ne _ _ hb, ih]
  exact hentries m.entries

theorem forall_mapWithKey {m : JsMap V} {f : String → V → W} {P : String → W → Prop}
    (h : ∀ a v, m.lookup a = some v → P a (f a v)) :
    ∀ a w, (m.mapWithKey f).lookup a = some w → P a w := by
  intro a w hw
  rw [lookup_mapWithKey] at hw
  obtain ⟨v, hv, rfl⟩ := Option.map_eq_some_iff.mp hw
  exact h a v hv

end JsMap

end UnisetPanel
