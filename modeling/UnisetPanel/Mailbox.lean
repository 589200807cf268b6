/-
  `Mailbox` — a bounded queue whose sender never waits.

  What is sent when the queue is full is lost.  Beside the queue a mailbox keeps
  what was received from it, what was offered to it, and whether an offer has
  found it full.  What was received is a subsequence of what was offered, and
  with the queue all of it as long as no offer has found the queue full
  (`Mailbox.Inv`).
-/
import Mathlib.Data.List.Basic
import Mathlib.Data.Nat.Notation

namespace UnisetPanel

/-- A bounded queue with its past. -/
structure Mailbox (α : Type*) where
  queue : List α
  received : List α
  offered : List α
  /-- an offer has found the queue full -/
  wasFull : Bool
  deriving DecidableEq

namespace Mailbox

variable {α : Type*} {m : Mailbox α} {capacity : ℕ}

/-- An empty mailbox. -/
def new : Mailbox α := ⟨[], [], [], false⟩

/-- Send without waiting. -/
def send (capacity : ℕ) (x : α) (m : Mailbox α) : Mailbox α :=
  if m.queue.length < capacity then
    { m with queue := m.queue ++ [x], offered := m.offered ++ [x] }
  else { m with offered := m.offered ++ [x], wasFull := true }

/-- Receive, if there is something. -/
def receive (m : Mailbox α) : Option (Mailbox α) :=
  match m.queue with
  | [] => none
  | x :: queue => some { m with queue := queue, received := m.received ++ [x] }

/-- What the queue has let through, in its order: all of it if nothing was lost. -/
structure Inv (capacity : ℕ) (m : Mailbox α) : Prop where
  length_le : m.queue.length ≤ capacity
  sublist : (m.received ++ m.queue).Sublist m.offered
  all : m.wasFull = false → m.received ++ m.queue = m.offered

theorem inv_new (capacity : ℕ) : (new : Mailbox α).Inv capacity :=
  ⟨Nat.zero_le _, List.Sublist.refl _, fun _ => rfl⟩

theorem offered_send (x : α) (m : Mailbox α) :
    (m.send capacity x).offered = m.offered ++ [x] := by
  unfold send
  split_ifs <;> rfl

theorem Inv.send (h : m.Inv capacity) (x : α) : (m.send capacity x).Inv capacity := by
  unfold Mailbox.send
  split_ifs with hroom
  · constructor
    · simpa using Nat.succ_le_of_lt hroom
    · show (m.received ++ (m.queue ++ [x])).Sublist (m.offered ++ [x])
      rw [← List.append_assoc]
      exact h.sublist.append_right [x]
    · intro hfull
      show m.received ++ (m.queue ++ [x]) = m.offered ++ [x]
      rw [← List.append_assoc, h.all hfull]
  · constructor
    · exact h.length_le
    · exact h.sublist.trans (List.sublist_append_left m.offered [x])
    · intro hfull
      cases hfull

theorem receive_eq_some {m' : Mailbox α} (h : m.receive = some m') :
    ∃ x queue, m.queue = x :: queue ∧
      m' = { m with queue := queue, received := m.received ++ [x] } := by
  unfold receive at h
  cases hqueue : m.queue with
  | nil =>
    rw [hqueue] at h
    cases h
  | cons x queue =>
    rw [hqueue] at h
    exact ⟨x, queue, rfl, (Option.some.inj h).symm⟩

theorem Inv.receive (h : m.Inv capacity) {m' : Mailbox α} (hm : m.receive = some m') :
    m'.Inv capacity := by
  obtain ⟨x, queue, hqueue, rfl⟩ := receive_eq_some hm
  have hsame : m.received ++ [x] ++ queue = m.received ++ m.queue := by
    rw [hqueue, List.append_assoc, List.singleton_append]
  constructor
  · have := h.length_le
    rw [hqueue] at this
    exact Nat.le_of_succ_le this
  · show (m.received ++ [x] ++ queue).Sublist m.offered
    rw [hsame]
    exact h.sublist
  · intro hfull
    show m.received ++ [x] ++ queue = m.offered
    rw [hsame]
    exact h.all hfull

end Mailbox

end UnisetPanel
