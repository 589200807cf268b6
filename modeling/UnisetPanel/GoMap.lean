/-
  `GoMap` — Go maps as finite maps, and maps of maps.

  A Go `map[K]V` is a `Finmap`: reading a missing key gives `none`, `delete` of
  a missing key does nothing, and two maps with the same entries are equal.
  Only the order in which `range` visits the entries is not part of the map.

  A loop that appends to the entries of a map groups a list by a key
  (`lookup_groupBy`).  A nested map is read and written at a pair of keys
  (`lookup₂`, `insert₂`); as in Go, writing below a missing outer key creates
  the inner map first.
-/
import Mathlib.Data.Finmap

namespace UnisetPanel

/-- A Go map. -/
abbrev GoMap (K V : Type*) := Finmap fun _ : K => V

namespace GoMap

variable {K L V : Type*} [DecidableEq K] [DecidableEq L]

theorem lookup_insert (m : GoMap K V) (a b : K) (v : V) :
    Finmap.lookup b (m.insert a v) = if b = a then some v else m.lookup b := by
  by_cases h : b = a
  · rw [if_pos h, h, Finmap.lookup_insert]
  · rw [if_neg h, Finmap.lookup_insert_of_ne m h]

theorem lookup_erase (m : GoMap K V) (a b : K) :
    Finmap.lookup b (m.erase a) = if b = a then none else m.lookup b := by
  by_cases h : b = a
  · rw [if_pos h, h, Finmap.lookup_erase]
  · rw [if_neg h, Finmap.lookup_erase_ne h]

/-- What holds of every entry still does after one is written of which it holds. -/
theorem forall_insert {m : GoMap K V} {P : K → V → Prop}
    (hm : ∀ a v, m.lookup a = some v → P a v) {a : K} {v : V} (hv : P a v) (b : K) (u : V)
    (hu : Finmap.lookup b (m.insert a v) = some u) : P b u := by
  rw [lookup_insert] at hu
  split_ifs at hu with hb
  · obtain rfl := Option.some.inj hu
    exact hb ▸ hv
  · exact hm b u hu

theorem forall_erase {m : GoMap K V} {P : K → V → Prop} (hm : ∀ a v, m.lookup a = some v → P a v)
    (a b : K) (u : V) (hu : Finmap.lookup b (m.erase a) = some u) : P b u := by
  rw [lookup_erase] at hu
  split_ifs at hu
  exact hm b u hu

/-- Deleting a list of keys. -/
def eraseAll (m : GoMap K V) (ks : List K) : GoMap K V := ks.foldl (fun m k => m.erase k) m

theorem lookup_eraseAll (m : GoMap K V) (ks : List K) (b : K) :
    Finmap.lookup b (m.eraseAll ks) = if b ∈ ks then none else m.lookup b := by
  induction ks generalizing m with
  | nil => rfl
  | cons k ks ih =>
    show Finmap.lookup b (eraseAll (m.erase k) ks) = _
    rw [ih, lookup_erase]
    by_cases hb : b ∈ ks
    · rw [if_pos hb, if_pos (List.mem_cons_of_mem k hb)]
    · by_cases hk : b = k
      · rw [if_neg hb, if_pos hk, if_pos (List.mem_cons.mpr (Or.inl hk))]
      · rw [if_neg hb, if_neg hk, if_neg (by simp [hb, hk])]

/-! ### A loop over all entries -/

/-- What a loop over the map leaves that writes or deletes the entry it visits. -/
def filterMap {W : Type*} (m : GoMap K V) (f : V → Option W) : GoMap K W where
  entries := m.entries.filterMap fun e => (f e.2).map fun w => ⟨e.1, w⟩
  nodupKeys := by
    obtain ⟨entries, h⟩ := m
    induction entries using Quot.inductionOn with
    | _ l =>
      refine List.Nodup.sublist ?_ (h : (l.map Sigma.fst).Nodup)
      show List.Sublist ((l.filterMap _).map Sigma.fst) (l.map Sigma.fst)
      clear h
      induction l with
      | nil => exact List.Sublist.slnil
      | cons e l ih =>
        rw [List.filterMap_cons]
        cases f e.2 with
        | none => exact ih.cons e.1
        | some w => exact ih.cons_cons e.1

theorem lookup_filterMap {W : Type*} (m : GoMap K V) (f : V → Option W) (a : K) :
    Finmap.lookup a (m.filterMap f) = (m.lookup a).bind f := by
  ext w
  rw [← Option.mem_def, Finmap.mem_lookup_iff, Option.bind_eq_some_iff]
  show _ ∈ m.entries.filterMap _ ↔ _
  rw [Multiset.mem_filterMap]
  constructor
  · rintro ⟨⟨b, v⟩, hmem, hv⟩
    obtain ⟨u, hu, heq⟩ := Option.map_eq_some_iff.mp hv
    cases heq
    exact ⟨v, Finmap.mem_lookup_iff.mpr hmem, hu⟩
  · rintro ⟨v, hv, hw⟩
    refine ⟨⟨a, v⟩, Finmap.mem_lookup_iff.mp hv, ?_⟩
    rw [hw]
    rfl

/-! ### A loop that groups -/

/-- An order in which `range` may visit the map. -/
def IsRange (m : GoMap K V) (range : List K) : Prop := range.Nodup ∧ range.toFinset = m.keys

instance (m : GoMap K V) (range : List K) : Decidable (m.IsRange range) :=
  inferInstanceAs (Decidable (_ ∧ _))

theorem IsRange.mem_iff {m : GoMap K V} {range : List K} (h : m.IsRange range) (a : K) :
    a ∈ range ↔ (m.lookup a).isSome = true := by
  rw [← List.mem_toFinset, h.2, Finmap.mem_keys, Finmap.lookup_isSome]

/-- Each element of a list is appended under its key. -/
def groupBy {U : Type*} (key : U → K) (val : U → V) (us : List U) : GoMap K (List V) :=
  us.foldl (fun m u => m.insert (key u) ((m.lookup (key u)).getD [] ++ [val u])) ∅

/-- **A group** is what the list has under the key, in its order. -/
theorem lookup_groupBy {U : Type*} (key : U → K) (val : U → V) (us : List U) (a : K) :
    (groupBy key val us).lookup a =
      if us.filter (fun u => key u = a) = [] then none
      else some ((us.filter fun u => key u = a).map val) := by
  induction us using List.reverseRecOn with
  | nil => exact Finmap.lookup_empty a
  | append_singleton us u ih =>
    have hfold : groupBy key val (us ++ [u]) = (groupBy key val us).insert (key u)
        (((groupBy key val us).lookup (key u)).getD [] ++ [val u]) := by
      unfold groupBy
      rw [List.foldl_append]
      rfl
    rw [hfold, lookup_insert, List.filter_append]
    by_cases hu : key u = a
    · have hlast : [u].filter (fun u => key u = a) = [u] := by simp [hu]
      have hne : us.filter (fun u => key u = a) ++ [u] ≠ [] := by simp
      rw [hlast, if_pos hu.symm, if_neg hne, hu, ih, List.map_append]
      split_ifs with hnil
      · rw [hnil]
        rfl
      · rfl
    · have hlast : [u].filter (fun u => key u = a) = [] := by simp [hu]
      rw [hlast, if_neg (Ne.symm hu), ih, List.append_nil]

/-! ### Maps of maps -/

/-- Read a nested map. -/
def lookup₂ (m : GoMap K (GoMap L V)) (a : K) (b : L) : Option V :=
  (m.lookup a).bind (Finmap.lookup b)

/-- Write a nested map, creating the inner one if needed. -/
def insert₂ (m : GoMap K (GoMap L V)) (a : K) (b : L) (v : V) : GoMap K (GoMap L V) :=
  m.insert a (((m.lookup a).getD ∅).insert b v)

theorem lookup₂_insert₂ (m : GoMap K (GoMap L V)) (a a' : K) (b b' : L) (v : V) :
    lookup₂ (m.insert₂ a b v) a' b' = if a' = a ∧ b' = b then some v else m.lookup₂ a' b' := by
  unfold lookup₂ insert₂
  rw [lookup_insert]
  by_cases ha : a' = a
  · subst ha
    rw [if_pos rfl, Option.bind_some, lookup_insert]
    by_cases hb : b' = b
    · simp [hb]
    · rw [if_neg hb, if_neg fun h => hb h.2]
      cases m.lookup a' with
      | none => exact Finmap.lookup_empty b'
      | some inner => rfl
  · rw [if_neg ha, if_neg fun h => ha h.1]

end GoMap

end UnisetPanel
