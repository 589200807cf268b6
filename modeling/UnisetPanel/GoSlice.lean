/-
  `GoSlice` — a Go slice that starts at the first element of its array.

  A slice has an array and a length; the elements of the array beyond the
  length are its spare capacity.  `append` writes into the spare capacity as
  long as there is some, and moves to a new array when there is none; `s[:0]`
  keeps the array and with it what it holds.  Each operation is described by
  what it does to the elements (`elems`) and to the capacity.
-/
import Mathlib.Data.List.Basic
import Mathlib.Data.Nat.Notation
import Mathlib.Tactic.TypeStar

namespace UnisetPanel

/-- A slice `array[0:len]`. -/
structure GoSlice (α : Type*) where
  array : List α
  len : ℕ
  len_le : len ≤ array.length

namespace GoSlice

variable {α : Type*}

/-- `make([]T, 0, cap)`; `zero` is the zero value of `T`. -/
def make (zero : α) (cap : ℕ) : GoSlice α := ⟨List.replicate cap zero, 0, Nat.zero_le _⟩

variable (s : GoSlice α)

/-- The elements of the slice. -/
def elems : List α := s.array.take s.len

/-- `cap(s)`. -/
def cap : ℕ := s.array.length

/-- `append(s, x)`.  (How much a new array has to spare is not said; here it has nothing.) -/
def append (x : α) : GoSlice α :=
  if h : s.len < s.array.length then
    ⟨s.array.set s.len x, s.len + 1, by rw [List.length_set]; exact h⟩
  else ⟨s.elems ++ [x], s.len + 1, by simp [elems, s.len_le]⟩

/-- `s[:0]`. -/
def clear : GoSlice α := ⟨s.array, 0, Nat.zero_le _⟩

@[simp] theorem elems_make (zero : α) (cap : ℕ) : (make zero cap).elems = [] := rfl

@[simp] theorem cap_make (zero : α) (cap : ℕ) : (make zero cap).cap = cap :=
  List.length_replicate

@[simp] theorem elems_clear : s.clear.elems = [] := rfl

@[simp] theorem cap_clear : s.clear.cap = s.cap := rfl

@[simp] theorem length_elems : s.elems.length = s.len := by
  rw [elems, List.length_take, Nat.min_eq_left s.len_le]

/-- **`append` appends**, whether or not it moves to a new array. -/
@[simp] theorem elems_append (x : α) : (s.append x).elems = s.elems ++ [x] := by
  unfold append
  split_ifs with h
  · -- the element is written behind the others, which stay
    show (s.array.set s.len x).take (s.len + 1) = s.array.take s.len ++ [x]
    have hlast : (s.array.set s.len x)[s.len]? = some x := by
      rw [List.getElem?_set, if_pos rfl, if_pos h]
    rw [List.take_add_one, hlast, List.take_set_of_le (Nat.le_refl s.len)]
    rfl
  · show (s.elems ++ [x]).take (s.len + 1) = s.elems ++ [x]
    exact List.take_of_length_le (by simp)

/-- **An element that fits is written in place.** -/
theorem cap_append_of_lt (x : α) (h : s.len < s.cap) : (s.append x).cap = s.cap := by
  have h : s.len < s.array.length := h
  rw [append, dif_pos h]
  exact List.length_set

end GoSlice

end UnisetPanel
