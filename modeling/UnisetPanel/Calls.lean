/-
  `Calls` — shared state and any number of calls that are in progress.

  A method that holds a lock only part of the time is a sequence of atomic
  sections.  A call of it is what is still ahead of it (`κ`), and one section
  takes the shared state and the call to the next ones.  Calls begin at any
  moment and move in any order, so the runs of `Calls.machine` are all their
  interleavings.  A call is named by its position in the list.

  What becomes of the other calls when one begins or moves is said once here:
  each by itself (`getElem?_append_singleton`, `getElem?_set_of_getElem?`), a
  number of them (`countP_set`), what they weigh (`total_set`), what they still
  have ahead (`mem_filterMap_set`).
-/
import UnisetPanel.Machine
import Mathlib.Data.Nat.Notation

namespace UnisetPanel

/-- Shared state, and the calls that have begun. -/
structure Calls (σ κ : Type*) where
  shared : σ
  calls : List κ
  deriving DecidableEq

/-- A call begins, or one takes its next step; `ε` is what the environment chooses in it. -/
inductive CallAction (ι ε : Type*) where
  | call (x : ι)
  | move (i : ℕ) (e : ε)

namespace Calls

variable {σ κ ι ε : Type*}

/-! ### Positions -/

/-- Replacing a call leaves the others alone. -/
theorem getElem?_set_of_getElem? {ks : List κ} {i : ℕ} {k : κ} (h : ks[i]? = some k) (k' : κ)
    (j : ℕ) : (ks.set i k')[j]? = if j = i then some k' else ks[j]? := by
  have hi : i < ks.length := (List.getElem?_eq_some_iff.mp h).1
  rw [List.getElem?_set]
  by_cases hj : i = j
  · subst hj
    simp [hi]
  · have hji : j ≠ i := fun h => hj h.symm
    simp [hj, hji]

/-- A new call takes the next position. -/
theorem getElem?_append_singleton (ks : List κ) (k : κ) (j : ℕ) :
    (ks ++ [k])[j]? = if j = ks.length then some k else ks[j]? := by
  rcases Nat.lt_trichotomy j ks.length with h | rfl | h
  · rw [List.getElem?_append_left h, if_neg (Nat.ne_of_lt h)]
  · simp
  · have hlen : (ks ++ [k]).length ≤ j := by
      rw [List.length_append]
      exact h
    rw [if_neg (Nat.ne_of_gt h), List.getElem?_eq_none hlen, List.getElem?_eq_none (Nat.le_of_lt h)]

/-- What holds of the call that has moved and of the others holds of all. -/
theorem forall_mem_set {P : κ → Prop} {ks : List κ} {i : ℕ} {k k' : κ} (h : ks[i]? = some k)
    (hself : P k') (hother : ∀ j x, j ≠ i → ks[j]? = some x → P x) : ∀ x ∈ ks.set i k', P x := by
  intro x hx
  obtain ⟨j, hj⟩ := List.mem_iff_getElem?.mp hx
  rw [getElem?_set_of_getElem? h] at hj
  by_cases hji : j = i
  · rw [if_pos hji] at hj
    exact Option.some.inj hj ▸ hself
  · rw [if_neg hji] at hj
    exact hother j x hji hj

/-- A call that moves is counted as what it becomes. -/
theorem countP_set {ks : List κ} {i : ℕ} {k : κ} (h : ks[i]? = some k) (k' : κ) (p : κ → Bool) :
    (ks.set i k').countP p + (p k).toNat = ks.countP p + (p k').toNat := by
  obtain ⟨hi, rfl⟩ := List.getElem?_eq_some_iff.mp h
  have hpos : (p ks[i]).toNat ≤ ks.countP p := by
    cases hp : p ks[i] with
    | false => exact Nat.zero_le _
    | true => exact List.countP_pos_iff.mpr ⟨ks[i], List.getElem_mem hi, hp⟩
  have htoNat : ∀ b : Bool, (if b = true then 1 else 0) = b.toNat := by decide
  rw [List.countP_set hi, htoNat, htoNat]
  omega

/-- What the calls weigh together. -/
def total (w : κ → ℕ) : List κ → ℕ
  | [] => 0
  | k :: ks => w k + total w ks

theorem total_append (w : κ → ℕ) (ks ls : List κ) :
    total w (ks ++ ls) = total w ks + total w ls := by
  induction ks with
  | nil => exact (Nat.zero_add _).symm
  | cons k ks ih =>
    show w k + total w (ks ++ ls) = w k + total w ks + total w ls
    rw [ih, Nat.add_assoc]

/-- A call that moves weighs what it becomes. -/
theorem total_set {ks : List κ} {i : ℕ} {k : κ} (h : ks[i]? = some k) (k' : κ) (w : κ → ℕ) :
    total w (ks.set i k') + w k = total w ks + w k' := by
  induction ks generalizing i with
  | nil => cases h
  | cons x ks ih =>
    cases i with
    | zero =>
      obtain rfl := Option.some.inj h
      show w k' + total w ks + w x = w x + total w ks + w k'
      omega
    | succ i =>
      have hrest := ih h
      show w x + total w (ks.set i k') + w k = w x + total w ks + w k'
      omega

/-- Of a property that one call at most has, two calls that have it are the same. -/
theorem eq_of_countP_le_one {p : κ → Bool} {ks : List κ} (h : ks.countP p ≤ 1) {i j : ℕ} {k k' : κ}
    (hi : ks[i]? = some k) (hk : p k = true) (hj : ks[j]? = some k') (hk' : p k' = true) : i = j := by
  induction ks generalizing i j with
  | nil => cases hi
  | cons x ks ih =>
    have hpos : ∀ {n : ℕ} {y : κ}, ks[n]? = some y → p y = true → 0 < ks.countP p :=
      fun hn hy => List.countP_pos_iff.mpr ⟨_, List.mem_of_getElem? hn, hy⟩
    have hhead : p x = true → ks.countP p = 0 := by
      intro hx
      rw [List.countP_cons_of_pos hx] at h
      exact Nat.le_zero.mp (Nat.le_of_succ_le_succ h)
    cases i with
    | zero =>
      obtain rfl := Option.some.inj hi
      cases j with
      | zero => rfl
      | succ j => exact absurd (hhead hk) (Nat.pos_iff_ne_zero.mp (hpos hj hk'))
    | succ i =>
      cases j with
      | zero =>
        obtain rfl := Option.some.inj hj
        exact absurd (hhead hk') (Nat.pos_iff_ne_zero.mp (hpos hi hk))
      | succ j =>
        have hle := Nat.le_trans (List.sublist_cons_self x ks).countP_le h
        exact congrArg Nat.succ (ih hle hi hj)

/-- What the calls still have ahead, after one has moved. -/
theorem mem_filterMap_set {δ : Type*} {ks : List κ} {i : ℕ} {k : κ} (h : ks[i]? = some k) (k' : κ)
    {f : κ → Option δ} {d : δ} (hd : d ∈ ks.filterMap f) :
    f k = some d ∨ d ∈ (ks.set i k').filterMap f := by
  obtain ⟨k₁, hk₁, hf⟩ := List.mem_filterMap.mp hd
  obtain ⟨j, hj⟩ := List.mem_iff_getElem?.mp hk₁
  by_cases hij : j = i
  · subst hij
    rw [Option.some.inj (h.symm.trans hj)]
    exact Or.inl hf
  · right
    refine List.mem_filterMap.mpr ⟨k₁, List.mem_of_getElem? (i := j) ?_, hf⟩
    rw [getElem?_set_of_getElem? h, if_neg hij]
    exact hj

theorem mem_filterMap_set_self {δ : Type*} {ks : List κ} {i : ℕ} {k k' : κ} (h : ks[i]? = some k)
    {f : κ → Option δ} {d : δ} (hd : f k' = some d) : d ∈ (ks.set i k').filterMap f := by
  refine List.mem_filterMap.mpr ⟨k', List.mem_of_getElem? (i := i) ?_, hd⟩
  rw [getElem?_set_of_getElem? h, if_pos rfl]

/-! ### The machine -/

variable (init : σ) (start : ι → κ) (next : ε → σ → κ → Option (σ × κ))

/-- One step: a call begins as `start` says, or goes on as `next` says. -/
def step (s : Calls σ κ) : CallAction ι ε → Option (Calls σ κ)
  | .call x => some { s with calls := s.calls ++ [start x] }
  | .move i e => s.calls[i]?.bind fun k =>
    (next e s.shared k).map fun r => { shared := r.1, calls := s.calls.set i r.2 }

/-- The runs of all calls, from no call. -/
def machine : Machine (Calls σ κ) (CallAction ι ε) where
  init := ⟨init, []⟩
  step := step start next

variable {init start next} {s s' : Calls σ κ}

theorem step_call {x : ι} (h : (machine init start next).step s (.call x) = some s') :
    s' = { s with calls := s.calls ++ [start x] } :=
  (Option.some.inj h).symm

theorem step_move {i : ℕ} {e : ε} (h : (machine init start next).step s (.move i e) = some s') :
    ∃ k t k', s.calls[i]? = some k ∧ next e s.shared k = some (t, k') ∧
      s' = { shared := t, calls := s.calls.set i k' } := by
  obtain ⟨k, hk, h⟩ := Option.bind_eq_some_iff.mp h
  obtain ⟨⟨t, k'⟩, hnext, rfl⟩ := Option.map_eq_some_iff.mp h
  exact ⟨k, t, k', hk, hnext, rfl⟩

/-- The call that began last takes its next step. -/
theorem step_move_length (t : σ) (ks : List κ) (k : κ) (e : ε) :
    (machine init start next).step ⟨t, ks ++ [k]⟩ (.move ks.length e) =
      (next e t k).map fun r => ⟨r.1, ks ++ [r.2]⟩ := by
  have hget : (ks ++ [k])[ks.length]? = some k := by simp
  have hset : ∀ k', (ks ++ [k]).set ks.length k' = ks ++ [k'] := by simp
  show (ks ++ [k])[ks.length]?.bind _ = _
  rw [hget, Option.bind_some]
  simp only [hset]

end Calls

end UnisetPanel
