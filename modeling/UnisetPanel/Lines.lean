/-
  `Lines` — a stream cut into lines.

  A line ends with the mark `d`, which belongs to it.  `complete d xs` are the
  lines of `xs` that have come to their end, and `rest d xs` is the line that
  has not.  Nothing is lost by the cut (`flatten_complete_append_rest`), and a
  stream may be cut in two anywhere if the line that has not ended is carried
  over (`complete_append`, `rest_append`).
-/
import Mathlib.Data.List.Basic
import Mathlib.Data.Nat.Notation

namespace UnisetPanel.Lines

variable {α : Type*} [DecidableEq α] (d : α)

/-- The lines that have ended, and what stands after them. -/
def split : List α → List (List α) × List α
  | [] => ([], [])
  | x :: xs =>
    if x = d then ([x] :: (split xs).1, (split xs).2)
    else
      match (split xs).1 with
      | [] => ([], x :: (split xs).2)
      | line :: lines => ((x :: line) :: lines, (split xs).2)

/-- The lines that have ended. -/
def complete (xs : List α) : List (List α) := (split d xs).1

/-- The line that has not ended. -/
def rest (xs : List α) : List α := (split d xs).2

variable {d}

@[simp] theorem complete_nil : complete d [] = [] := rfl

@[simp] theorem rest_nil : rest d [] = [] := rfl

@[simp] theorem complete_cons_self (xs : List α) : complete d (d :: xs) = [d] :: complete d xs := by
  unfold complete
  rw [split, if_pos rfl]

@[simp] theorem rest_cons_self (xs : List α) : rest d (d :: xs) = rest d xs := by
  unfold rest
  rw [split, if_pos rfl]

/-- A letter other than the mark belongs to the first line that ends, if one does. -/
theorem split_cons_of_ne {x : α} (h : x ≠ d) (xs : List α) :
    (complete d xs = [] ∧ complete d (x :: xs) = [] ∧ rest d (x :: xs) = x :: rest d xs) ∨
      ∃ line lines, complete d xs = line :: lines ∧
        complete d (x :: xs) = (x :: line) :: lines ∧ rest d (x :: xs) = rest d xs := by
  unfold complete rest
  rw [split, if_neg h]
  cases (split d xs).1 with
  | nil => exact Or.inl ⟨rfl, rfl, rfl⟩
  | cons line lines => exact Or.inr ⟨line, lines, rfl, rfl, rfl⟩

/-- **Nothing is lost.** -/
theorem flatten_complete_append_rest (xs : List α) :
    (complete d xs).flatten ++ rest d xs = xs := by
  induction xs with
  | nil => rfl
  | cons x xs ih =>
    by_cases hx : x = d
    · subst hx
      rw [complete_cons_self, rest_cons_self, List.flatten_cons, List.append_assoc, ih]
      rfl
    · rcases split_cons_of_ne hx xs with
        ⟨hnil, hcomplete, hrest⟩ | ⟨line, lines, hcons, hcomplete, hrest⟩
      · rw [hnil] at ih
        rw [hcomplete, hrest]
        exact congrArg (x :: ·) ih
      · rw [hcons] at ih
        rw [hcomplete, hrest]
        exact congrArg (x :: ·) ih

/-- The line that has not ended has no mark in it. -/
theorem notMem_rest (xs : List α) : d ∉ rest d xs := by
  induction xs with
  | nil => exact List.not_mem_nil
  | cons x xs ih =>
    by_cases hx : x = d
    · rw [hx, rest_cons_self]
      exact ih
    · rcases split_cons_of_ne hx xs with ⟨-, -, hrest⟩ | ⟨line, lines, -, -, hrest⟩
      · rw [hrest, List.mem_cons, not_or]
        exact ⟨fun h => hx h.symm, ih⟩
      · rw [hrest]
        exact ih

/-- Without a mark no line ends. -/
theorem split_of_notMem {xs : List α} (h : d ∉ xs) : complete d xs = [] ∧ rest d xs = xs := by
  induction xs with
  | nil => exact ⟨rfl, rfl⟩
  | cons x xs ih =>
    obtain ⟨hx, hxs⟩ := not_or.mp (fun hmem => h (List.mem_cons.mpr hmem))
    obtain ⟨hcomplete, hrest⟩ := ih hxs
    rcases split_cons_of_ne (fun heq => hx heq.symm) xs with
      ⟨-, hnil, hcons⟩ | ⟨line, lines, hline, -⟩
    · exact ⟨hnil, by rw [hcons, hrest]⟩
    · rw [hcomplete] at hline
      cases hline

/-- **A stream may be cut in two anywhere**, if the line that has not ended is carried over. -/
theorem split_append (xs ys : List α) :
    complete d (xs ++ ys) = complete d xs ++ complete d (rest d xs ++ ys) ∧
      rest d (xs ++ ys) = rest d (rest d xs ++ ys) := by
  induction xs with
  | nil => exact ⟨rfl, rfl⟩
  | cons x xs ih =>
    obtain ⟨hcomplete, hrest⟩ := ih
    rw [List.cons_append]
    by_cases hx : x = d
    · subst hx
      rw [complete_cons_self, complete_cons_self, rest_cons_self, rest_cons_self, hcomplete, hrest]
      exact ⟨rfl, rfl⟩
    · rcases split_cons_of_ne hx xs with ⟨hnil, hc, hr⟩ | ⟨line, lines, hcons, hc, hr⟩
      · -- no line has ended in `x :: xs`, so it is carried over as a whole
        have hxs : rest d xs = xs := by
          have hall := flatten_complete_append_rest (d := d) xs
          rw [hnil] at hall
          exact hall
        rw [hc, hr, hxs]
        exact ⟨rfl, rfl⟩
      · rcases split_cons_of_ne hx (xs ++ ys) with ⟨hnil, -⟩ | ⟨line', lines', hcons', hc', hr'⟩
        · rw [hcomplete, hcons] at hnil
          cases hnil
        · rw [hcomplete, hcons] at hcons'
          obtain ⟨rfl, rfl⟩ := List.cons.inj hcons'
          rw [hc', hr', hc, hr, hrest]
          exact ⟨rfl, rfl⟩

theorem complete_append (xs ys : List α) :
    complete d (xs ++ ys) = complete d xs ++ complete d (rest d xs ++ ys) :=
  (split_append xs ys).1

theorem rest_append (xs ys : List α) : rest d (xs ++ ys) = rest d (rest d xs ++ ys) :=
  (split_append xs ys).2

/-- The first line of a stream that has one. -/
theorem split_line {line : List α} (h : d ∉ line) (xs : List α) :
    complete d (line ++ d :: xs) = (line ++ [d]) :: complete d xs ∧
      rest d (line ++ d :: xs) = rest d xs := by
  induction line with
  | nil => exact ⟨complete_cons_self xs, rest_cons_self xs⟩
  | cons x line ih =>
    obtain ⟨hx, hline⟩ := not_or.mp (fun hmem => h (List.mem_cons.mpr hmem))
    obtain ⟨hcomplete, hrest⟩ := ih hline
    rcases split_cons_of_ne (fun heq => hx heq.symm) (line ++ d :: xs) with
      ⟨hnil, -⟩ | ⟨first, lines, hcons, hc, hr⟩
    · rw [hcomplete] at hnil
      cases hnil
    · rw [hcomplete] at hcons
      obtain ⟨rfl, rfl⟩ := List.cons.inj hcons
      rw [List.cons_append, hc, hr, hrest]
      exact ⟨rfl, rfl⟩

end UnisetPanel.Lines
