/-
  `SortedCut` — a list in the order of a key, cut in two.

  Which elements are before the cut depends on the order in which elements of
  one key stand, but which keys are there does not: it is told by how many
  elements have a smaller key, or one that is not greater.  So whether some
  element before the cut and some element behind it have keys in a relation can
  be told without sorting (`exists_across_cut_iff`).
-/
import Mathlib.Data.List.Basic
import Mathlib.Order.Lattice

namespace UnisetPanel

namespace SortedCut

variable {α κ : Type*} [LinearOrder κ] {f : α → κ} {front back : List α}

/-- How many elements have a smaller key. -/
def below (f : α → κ) (l : List α) (k : κ) : ℕ := l.countP fun x => f x < k

/-- How many elements have a key that is not greater. -/
def upTo (f : α → κ) (l : List α) (k : κ) : ℕ := l.countP fun x => f x ≤ k

theorem below_perm {l l' : List α} (h : l.Perm l') (k : κ) : below f l k = below f l' k :=
  h.countP_eq _

theorem upTo_perm {l l' : List α} (h : l.Perm l') (k : κ) : upTo f l k = upTo f l' k :=
  h.countP_eq _

/-- What is behind the cut has no smaller key than what is before it. -/
theorem le_of_pairwise (h : (front ++ back).Pairwise (f · ≤ f ·)) {x y : α} (hx : x ∈ front)
    (hy : y ∈ back) : f x ≤ f y :=
  (List.pairwise_append.mp h).2.2 x hx y hy

/-- Before the cut, fewer elements than these have a smaller key. -/
theorem below_lt_length (h : (front ++ back).Pairwise (f · ≤ f ·)) {x : α} (hx : x ∈ front) :
    below f (front ++ back) (f x) < front.length := by
  have hback : back.countP (fun y => f y < f x) = 0 := by
    rw [List.countP_eq_zero]
    intro y hy
    simpa using le_of_pairwise h hx hy
  have hne : front.countP (fun y => f y < f x) ≠ front.length := by
    intro heq
    have hlt := List.countP_eq_length.mp heq x hx
    exact absurd (of_decide_eq_true hlt) (lt_irrefl _)
  have hle : front.countP (fun y => f y < f x) ≤ front.length := List.countP_le_length
  rw [below, List.countP_append, hback]
  omega

/-- Behind the cut, more elements than those before it have a key that is not greater. -/
theorem length_lt_upTo (h : (front ++ back).Pairwise (f · ≤ f ·)) {y : α} (hy : y ∈ back) :
    front.length < upTo f (front ++ back) (f y) := by
  have hfront : front.countP (fun x => f x ≤ f y) = front.length := by
    rw [List.countP_eq_length]
    intro x hx
    exact decide_eq_true (le_of_pairwise h hx hy)
  have hback : 0 < back.countP (fun x => f x ≤ f y) :=
    List.countP_pos_iff.mpr ⟨y, hy, decide_eq_true le_rfl⟩
  rw [upTo, List.countP_append, hfront]
  omega

/-- A key with fewer smaller ones is before the cut. -/
theorem exists_mem_front (h : (front ++ back).Pairwise (f · ≤ f ·)) {x : α}
    (hx : x ∈ front ++ back) (hlt : below f (front ++ back) (f x) < front.length) :
    ∃ y ∈ front, f y = f x := by
  by_contra hnone
  rcases List.mem_append.mp hx with hx | hx
  · exact hnone ⟨x, hx, rfl⟩
  · -- then all that is before the cut has a smaller key
    have hfront : front.countP (fun y => f y < f x) = front.length := by
      rw [List.countP_eq_length]
      intro y hy
      exact decide_eq_true (lt_of_le_of_ne (le_of_pairwise h hy hx) fun heq => hnone ⟨y, hy, heq⟩)
    rw [below, List.countP_append, hfront] at hlt
    omega

/-- A key with more that are not greater is behind the cut. -/
theorem exists_mem_back (h : (front ++ back).Pairwise (f · ≤ f ·)) {y : α}
    (hy : y ∈ front ++ back) (hlt : front.length < upTo f (front ++ back) (f y)) :
    ∃ x ∈ back, f x = f y := by
  by_contra hnone
  rcases List.mem_append.mp hy with hy | hy
  · -- then all that is behind the cut has a greater key
    have hback : back.countP (fun x => f x ≤ f y) = 0 := by
      rw [List.countP_eq_zero]
      intro x hx hle
      exact hnone ⟨x, hx, le_antisymm (of_decide_eq_true hle) (le_of_pairwise h hy hx)⟩
    have hle : front.countP (fun x => f x ≤ f y) ≤ front.length := List.countP_le_length
    rw [upTo, List.countP_append, hback] at hlt
    omega
  · exact hnone ⟨y, hy, rfl⟩

/-- **A pair across the cut**, told by counting. -/
theorem exists_across_cut_iff (h : (front ++ back).Pairwise (f · ≤ f ·)) (r : κ → κ → Prop) :
    (∃ x ∈ front, ∃ y ∈ back, r (f x) (f y)) ↔
      ∃ x ∈ front ++ back, ∃ y ∈ front ++ back, r (f x) (f y) ∧
        below f (front ++ back) (f x) < front.length ∧
        front.length < upTo f (front ++ back) (f y) := by
  constructor
  · rintro ⟨x, hx, y, hy, hr⟩
    exact ⟨x, List.mem_append_left _ hx, y, List.mem_append_right _ hy, hr, below_lt_length h hx,
      length_lt_upTo h hy⟩
  · rintro ⟨x, hx, y, hy, hr, hbelow, hupTo⟩
    obtain ⟨x', hx', hfx⟩ := exists_mem_front h hx hbelow
    obtain ⟨y', hy', hfy⟩ := exists_mem_back h hy hupTo
    exact ⟨x', hx', y', hy', by rw [hfx, hfy]; exact hr⟩

/-- The elements with a greater key are the last ones. -/
theorem filter_suffix {l : List α} (h : l.Pairwise (f · ≤ f ·)) (k : κ) :
    l.filter (fun x => k < f x) <:+ l := by
  induction l with
  | nil => exact List.suffix_refl []
  | cons x l ih =>
    obtain ⟨hx, hl⟩ := List.pairwise_cons.mp h
    by_cases hk : k < f x
    · -- then all that follow have one, too
      have hall : ∀ y ∈ x :: l, decide (k < f y) = true := by
        intro y hy
        apply decide_eq_true
        rcases List.mem_cons.mp hy with rfl | hy
        · exact hk
        · exact hk.trans_le (hx y hy)
      exact ⟨[], List.filter_eq_self.mpr hall⟩
    · rw [List.filter_cons_of_neg (by simpa using hk)]
      exact (ih hl).trans (List.suffix_cons x l)

end SortedCut

end UnisetPanel
