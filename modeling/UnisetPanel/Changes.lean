/-
  `changes` — change detection on a stream.

  A stream of items is observed through a key (a hash of the value).  `changes`
  keeps an item when its key differs from the key of the item before it, kept
  or not, and it keeps the items marked by `keep` in any case.  The key of the
  last item seen is all that has to be remembered (`lastKey`), which is how the
  stream is cut into pieces (`changes_append`).

  Without marked items this is removing consecutive duplicates
  (`changes_eq_destutter`).
-/
import Mathlib.Data.List.Destutter

namespace UnisetPanel

variable {β γ : Type*} [DecidableEq γ] (key : β → γ) (keep : β → Bool)

/-- The items of a stream that are kept, when the item before the first one had key `prev`. -/
def changes (prev : Option γ) : List β → List β
  | [] => []
  | x :: xs =>
    if keep x = true ∨ prev ≠ some (key x) then x :: changes (some (key x)) xs
    else changes (some (key x)) xs

omit [DecidableEq γ] in
/-- The key of the last item seen. -/
def lastKey (prev : Option γ) (xs : List β) : Option γ := (xs.getLast?.map key).or prev

omit [DecidableEq γ] in
@[simp] theorem lastKey_nil (prev : Option γ) : lastKey key prev [] = prev := rfl

omit [DecidableEq γ] in
theorem lastKey_cons (prev : Option γ) (x : β) (xs : List β) :
    lastKey key prev (x :: xs) = lastKey key (some (key x)) xs := by
  unfold lastKey
  rw [List.getLast?_cons]
  cases xs.getLast? <;> rfl

omit [DecidableEq γ] in
theorem lastKey_append (prev : Option γ) (xs ys : List β) :
    lastKey key prev (xs ++ ys) = lastKey key (lastKey key prev xs) ys := by
  unfold lastKey
  rw [List.getLast?_append]
  cases ys.getLast? <;> rfl

omit [DecidableEq γ] in
theorem lastKey_map {δ : Type*} (f : δ → β) (prev : Option γ) (xs : List δ) :
    lastKey key prev (xs.map f) = lastKey (fun x => key (f x)) prev xs := by
  unfold lastKey
  rw [List.getLast?_map, Option.map_map]
  rfl

omit [DecidableEq γ] in
/-- A stream that is not empty has a last key, whatever came before it. -/
theorem lastKey_of_ne_nil {xs : List β} (h : xs ≠ []) (p q : Option γ) :
    lastKey key p xs = lastKey key q xs ∧ lastKey key p xs ≠ none := by
  unfold lastKey
  rw [List.getLast?_eq_some_getLast h]
  exact ⟨rfl, by simp⟩

@[simp] theorem changes_nil (prev : Option γ) : changes key keep prev [] = [] := rfl

theorem changes_cons_pos {prev : Option γ} {x : β} (h : keep x = true ∨ prev ≠ some (key x))
    (xs : List β) :
    changes key keep prev (x :: xs) = x :: changes key keep (some (key x)) xs :=
  if_pos h

theorem changes_cons_neg {prev : Option γ} {x : β} (h : ¬ (keep x = true ∨ prev ≠ some (key x)))
    (xs : List β) : changes key keep prev (x :: xs) = changes key keep (some (key x)) xs :=
  if_neg h

/-- Only items of the stream are kept, in their order. -/
theorem changes_sublist (prev : Option γ) (xs : List β) :
    (changes key keep prev xs).Sublist xs := by
  induction xs generalizing prev with
  | nil => exact List.Sublist.slnil
  | cons x xs ih =>
    by_cases h : keep x = true ∨ prev ≠ some (key x)
    · rw [changes_cons_pos key keep h]
      exact (ih _).cons_cons x
    · rw [changes_cons_neg key keep h]
      exact (ih _).cons x

/-- Nothing is kept of a stream whose items all have the key of the item before it. -/
theorem changes_eq_nil_iff {prev : Option γ} {xs : List β} (hkeep : ∀ x ∈ xs, keep x = false) :
    changes key keep prev xs = [] ↔ ∀ x ∈ xs, prev = some (key x) := by
  induction xs generalizing prev with
  | nil => simp
  | cons x xs ih =>
    have hx : keep x = false := hkeep x List.mem_cons_self
    by_cases h : prev = some (key x)
    · rw [changes_cons_neg key keep (by simp [hx, h]), List.forall_mem_cons, ← h,
        ih fun y hy => hkeep y (List.mem_cons_of_mem x hy)]
      exact (and_iff_right rfl).symm
    · rw [changes_cons_pos key keep (Or.inr h), List.forall_mem_cons]
      exact iff_of_false (List.cons_ne_nil _ _) fun hall => h hall.1

/-- The first item that is kept has a key other than the one before. -/
theorem ne_of_changes_eq_cons {prev : Option γ} {x : β} {xs ys : List β}
    (hkeep : ∀ x ∈ xs, keep x = false) (h : changes key keep prev xs = x :: ys) :
    prev ≠ some (key x) := by
  induction xs generalizing prev with
  | nil => cases h
  | cons y xs ih =>
    have hy : keep y = false := hkeep y List.mem_cons_self
    by_cases hprev : prev = some (key y)
    · rw [changes_cons_neg key keep (by simp [hy, hprev]), ← hprev] at h
      exact ih (fun z hz => hkeep z (List.mem_cons_of_mem y hz)) h
    · rw [changes_cons_pos key keep (Or.inr hprev)] at h
      obtain ⟨rfl, -⟩ := List.cons.inj h
      exact hprev

/-- **A stream may be cut anywhere**, if the last key seen is carried over. -/
theorem changes_append (prev : Option γ) (xs ys : List β) :
    changes key keep prev (xs ++ ys) =
      changes key keep prev xs ++ changes key keep (lastKey key prev xs) ys := by
  induction xs generalizing prev with
  | nil => rfl
  | cons x xs ih =>
    rw [List.cons_append, lastKey_cons]
    by_cases h : keep x = true ∨ prev ≠ some (key x)
    · rw [changes_cons_pos key keep h, changes_cons_pos key keep h, ih, List.cons_append]
    · rw [changes_cons_neg key keep h, changes_cons_neg key keep h, ih]

/-- The last key of what is kept is the last key of the stream. -/
theorem lastKey_changes (prev : Option γ) (xs : List β) :
    lastKey key prev (changes key keep prev xs) = lastKey key prev xs := by
  induction xs generalizing prev with
  | nil => rfl
  | cons x xs ih =>
    rw [lastKey_cons]
    by_cases h : keep x = true ∨ prev ≠ some (key x)
    · rw [changes_cons_pos key keep h, lastKey_cons, ih]
    · have hprev : prev = some (key x) := not_not.mp fun hne => h (Or.inr hne)
      rw [changes_cons_neg key keep h, hprev, ih]

/-- The first item of a stream is always kept. -/
theorem head?_changes_none (xs : List β) : (changes key keep none xs).head? = xs.head? := by
  cases xs with
  | nil => rfl
  | cons x xs =>
    rw [changes_cons_pos key keep (Or.inr (by simp))]
    rfl

/-- **Without marked items the consecutive duplicates are removed.** -/
theorem changes_eq_destutter {xs : List β} (h : ∀ x ∈ xs, keep x = false) :
    changes key keep none xs = xs.destutter fun x y => key x ≠ key y := by
  -- after an item `a`, whatever was kept last has the key of `a`
  have hlast : ∀ (a b : β) (xs : List β), (∀ x ∈ xs, keep x = false) → key a = key b →
      a :: changes key keep (some (key b)) xs = xs.destutter' (fun x y => key x ≠ key y) a := by
    intro a b xs
    induction xs generalizing a b with
    | nil => intro _ _; rfl
    | cons x xs ih =>
      intro hkeep hab
      have hx : keep x = false := hkeep x List.mem_cons_self
      have hxs : ∀ y ∈ xs, keep y = false := fun y hy => hkeep y (List.mem_cons_of_mem x hy)
      by_cases hne : key a ≠ key x
      · have hkept : keep x = true ∨ some (key b) ≠ some (key x) :=
          Or.inr fun heq => hne (hab.trans (Option.some.inj heq))
        rw [List.destutter'_cons_pos (R := fun x y => key x ≠ key y) xs hne,
          changes_cons_pos key keep hkept, ih x x hxs rfl]
      · have heq : key a = key x := not_not.mp hne
        have hdropped : ¬ (keep x = true ∨ some (key b) ≠ some (key x)) := by
          rintro (hk | hk)
          · rw [hx] at hk
            cases hk
          · exact hk (congrArg some (hab.symm.trans heq))
        rw [List.destutter'_cons_neg (R := fun x y => key x ≠ key y) xs hne,
          changes_cons_neg key keep hdropped, ih a x hxs heq]
  cases xs with
  | nil => rfl
  | cons x xs =>
    have hxs : ∀ y ∈ xs, keep y = false := fun y hy => h y (List.mem_cons_of_mem x hy)
    rw [List.destutter_cons', ← hlast x x xs hxs rfl]
    exact changes_cons_pos key keep (Or.inr (by simp)) xs

end UnisetPanel
