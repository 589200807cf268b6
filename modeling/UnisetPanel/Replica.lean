/-
  `Replica` — a set kept at a second place through commands.

  One set, the master, is changed by commands; a copy of it, the replica, is
  changed by the same commands, later.  A command that has been applied to the
  master and not yet to the replica is in flight, and while several are, they
  may reach the replica in another order.

  The replica is `Behind` if it can be wrong only about elements on which some
  command in flight still agrees with the master.  Applying a new command to
  the master keeps it so (`Behind.issue`).  A command that arrives keeps it so
  if it agrees with the master on each of its elements, or another command in
  flight does (`Behind.arrive`): an overtaken command may arrive only before
  the one that has overtaken it.  With nothing in flight the two sets are equal
  (`Behind.eq`).
-/
import Mathlib.Data.Finset.Dedup
import Mathlib.Data.Finset.SDiff
import Mathlib.Data.Set.Insert

namespace UnisetPanel

/-- A command that adds elements to a set, or removes them. -/
inductive SetCommand (α : Type*) where
  | ask (xs : List α)
  | del (xs : List α)
  deriving DecidableEq, Repr

namespace SetCommand

variable {α : Type*}

/-- The elements a command is about. -/
def elems : SetCommand α → List α
  | ask xs => xs
  | del xs => xs

/-- The command adds its elements. -/
def adds : SetCommand α → Bool
  | ask _ => true
  | del _ => false

variable [DecidableEq α]

/-- The set afterwards. -/
def apply (c : SetCommand α) (s : Finset α) : Finset α :=
  match c with
  | ask xs => s ∪ xs.toFinset
  | del xs => s \ xs.toFinset

/-- The command has the element in it, and wants it where the master has it. -/
def Agrees (c : SetCommand α) (master : Finset α) (x : α) : Prop :=
  x ∈ c.elems ∧ (c.adds = true ↔ x ∈ master)

instance (c : SetCommand α) (master : Finset α) (x : α) : Decidable (c.Agrees master x) :=
  inferInstanceAs (Decidable (_ ∧ _))

theorem mem_apply_of_mem {c : SetCommand α} {s : Finset α} {x : α} (h : x ∈ c.elems) :
    x ∈ c.apply s ↔ c.adds = true := by
  cases c with
  | ask xs =>
    have hx : x ∈ xs := h
    simp [apply, adds, hx]
  | del xs =>
    have hx : x ∈ xs := h
    simp [apply, adds, hx]

theorem mem_apply_of_notMem {c : SetCommand α} {s : Finset α} {x : α} (h : x ∉ c.elems) :
    x ∈ c.apply s ↔ x ∈ s := by
  cases c with
  | ask xs =>
    have hx : x ∉ xs := h
    simp [apply, hx]
  | del xs =>
    have hx : x ∉ xs := h
    simp [apply, hx]

/-- A command agrees with the set it has just been applied to. -/
theorem agrees_apply {c : SetCommand α} {s : Finset α} {x : α} (h : x ∈ c.elems) :
    c.Agrees (c.apply s) x :=
  ⟨h, (mem_apply_of_mem h).symm⟩

end SetCommand

section

variable {α : Type*} {master replica : Finset α} {flight flight' : Set (SetCommand α)}

/-- The replica is right, or a command in flight will put it right. -/
def Behind (master replica : Finset α) (flight : Set (SetCommand α)) : Prop :=
  ∀ x, (x ∈ replica ↔ x ∈ master) ∨ ∃ c ∈ flight, c.Agrees master x

theorem Behind.refl (s : Finset α) (flight : Set (SetCommand α)) : Behind s s flight :=
  fun _ => Or.inl Iff.rfl

theorem Behind.mono (h : Behind master replica flight) (hsub : flight ⊆ flight') :
    Behind master replica flight' :=
  fun x => (h x).imp id fun ⟨c, hc, hx⟩ => ⟨c, hsub hc, hx⟩

/-- **Nothing is in flight.** -/
theorem Behind.eq (h : Behind master replica ∅) : replica = master := by
  ext x
  rcases h x with hr | ⟨c, hc, -⟩
  · exact hr
  · exact absurd hc (Set.notMem_empty c)

variable [DecidableEq α]

/-- **A new command** is applied to the master. -/
theorem Behind.issue (h : Behind master replica flight) (c : SetCommand α)
    (hsub : insert c flight ⊆ flight') : Behind (c.apply master) replica flight' := by
  intro x
  by_cases hx : x ∈ c.elems
  · exact Or.inr ⟨c, hsub (Set.mem_insert c flight), SetCommand.agrees_apply hx⟩
  · -- the master is as before at `x`
    have hmaster := SetCommand.mem_apply_of_notMem (s := master) hx
    rcases h x with hr | ⟨d, hd, hdx, hagree⟩
    · exact Or.inl (hr.trans hmaster.symm)
    · exact Or.inr ⟨d, hsub (Set.mem_insert_of_mem c hd), hdx, hagree.trans hmaster.symm⟩

/-- **A command arrives.** -/
theorem Behind.arrive (h : Behind master replica flight) (c : SetCommand α)
    (hsub : flight ⊆ insert c flight')
    (hstale : ∀ x ∈ c.elems, c.Agrees master x ∨ ∃ d ∈ flight', d.Agrees master x) :
    Behind master (c.apply replica) flight' := by
  intro x
  by_cases hx : x ∈ c.elems
  · rcases hstale x hx with hagree | hd
    · exact Or.inl ((SetCommand.mem_apply_of_mem hx).trans hagree.2)
    · exact Or.inr hd
  · have hreplica := SetCommand.mem_apply_of_notMem (s := replica) hx
    rcases h x with hr | ⟨d, hd, hdx, hagree⟩
    · exact Or.inl (hreplica.trans hr)
    · -- it is another command that has `x`
      rcases Set.mem_insert_iff.mp (hsub hd) with rfl | hd
      · exact absurd hdx hx
      · exact Or.inr ⟨d, hd, hdx, hagree⟩

end

end UnisetPanel
