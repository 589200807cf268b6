/-
  `Timers` — one-shot timers whose function runs in a goroutine of its own, as
  created by Go's `time.AfterFunc`.

  A timer goes through two separate moments.  When its deadline has passed the
  runtime *fires* it: from then on `Stop` no longer prevents its function from
  running.  Some time later the function *runs*.  Between the two the timer is
  `fired`, and whatever the program does in that window happens before the
  function.

  A heap of timers is the list of all timers created so far and a timer is
  named by its position, so a later timer has a larger name.  `status` and
  `payload` are the two views of the heap; every operation is described by
  what it does to them.
-/
import Mathlib.Data.List.Basic
import Mathlib.Data.Nat.Notation
import Mathlib.Tactic.TypeStar

namespace UnisetPanel

/-- A point in time, in nanoseconds since Go's zero `time.Time{}`. -/
abbrev Time := ℕ

/-- A `time.Duration` in nanoseconds. -/
abbrev Duration := ℕ

/-- `time.Second`. -/
def second : Duration := 1000000000

/-- Where a timer is in its life. -/
inductive TimerStatus where
  /-- waiting for its deadline; `Stop` succeeds -/
  | armed
  /-- stopped before it fired: its function never runs -/
  | stopped
  /-- its goroutine is started but its function has not run yet; `Stop` is too late -/
  | fired
  /-- its function has run -/
  | done
  deriving DecidableEq, Repr

/-- A timer: what its function captured, its deadline and its status. -/
structure Timer (φ : Type*) where
  /-- The variables captured by the function. -/
  payload : φ
  /-- The moment from which the timer may fire. -/
  deadline : Time
  /-- Where the timer is in its life. -/
  status : TimerStatus
  deriving DecidableEq, Repr

/-- The name of a timer (Go's `*time.Timer`). -/
abbrev TimerID := ℕ

/-- All timers created so far, oldest first. -/
abbrev Timers (φ : Type*) := List (Timer φ)

namespace Timers

variable {φ : Type*} (ts : Timers φ)

/-- The status of timer `k`, if it exists. -/
def status (k : TimerID) : Option TimerStatus := (ts[k]?).map (·.status)

/-- What the function of timer `k` captured, if the timer exists. -/
def payload (k : TimerID) : Option φ := (ts[k]?).map (·.payload)

/-- `time.AfterFunc`: the new timer is named `ts.length`. -/
def afterFunc (deadline : Time) (f : φ) : Timers φ := ts ++ [⟨f, deadline, .armed⟩]

/-- `Timer.Stop`: a timer that has fired already is left alone. -/
def stop (k : TimerID) : Timers φ :=
  ts.modify k fun t => if t.status = .armed then { t with status := .stopped } else t

/-- The runtime fires timer `k`. -/
def fire (now : Time) (k : TimerID) : Option (Timers φ) :=
  match ts[k]? with
  | some t =>
    if t.status = .armed ∧ t.deadline ≤ now then some (ts.set k { t with status := .fired })
    else none
  | none => none

/-- The function of the fired timer `k` runs: what it captured, and the heap afterwards. -/
def begin (k : TimerID) : Option (φ × Timers φ) :=
  match ts[k]? with
  | some t => if t.status = .fired then some (t.payload, ts.set k { t with status := .done }) else none
  | none => none

/-- What the functions that are waiting to run captured: their timers have fired already. -/
def waiting : List φ := (ts.filter fun t => t.status = .fired).map (·.payload)

/-- A timer that was stopped in time or has run: its function never runs (again). -/
def Settled (k : TimerID) : Prop := ts.status k = some .stopped ∨ ts.status k = some .done

theorem mem_waiting {f : φ} :
    f ∈ ts.waiting ↔ ∃ k, ts.status k = some .fired ∧ ts.payload k = some f := by
  rw [waiting, List.mem_map]
  simp only [List.mem_filter, decide_eq_true_eq, status, payload, Option.map_eq_some_iff]
  constructor
  · rintro ⟨t, ⟨ht, hst⟩, rfl⟩
    obtain ⟨k, hk⟩ := List.mem_iff_getElem?.mp ht
    exact ⟨k, ⟨t, hk, hst⟩, t, hk, rfl⟩
  · rintro ⟨k, ⟨t, hk, hst⟩, t', hk', rfl⟩
    obtain rfl : t = t' := Option.some.inj (hk.symm.trans hk')
    exact ⟨t, ⟨List.mem_iff_getElem?.mpr ⟨k, hk⟩, hst⟩, rfl⟩

/-! ### Creating a timer -/

theorem status_eq_none {k : TimerID} : ts.status k = none ↔ ts.length ≤ k := by
  simp [status]

theorem lt_length_of_status {k : TimerID} {st : TimerStatus} (h : ts.status k = some st) :
    k < ts.length := by
  by_contra hk
  rw [ts.status_eq_none.mpr (Nat.not_lt.mp hk)] at h
  cases h

theorem getElem?_afterFunc (d : Time) (f : φ) (k : TimerID) :
    (ts.afterFunc d f)[k]? = if k = ts.length then some ⟨f, d, .armed⟩ else ts[k]? := by
  unfold afterFunc
  rcases Nat.lt_trichotomy k ts.length with h | rfl | h
  · rw [List.getElem?_append_left h, if_neg (Nat.ne_of_lt h)]
  · simp
  · -- beyond the new timer there is none
    have hlen : (ts ++ [(⟨f, d, .armed⟩ : Timer φ)]).length ≤ k := by
      rw [List.length_append, List.length_singleton]
      omega
    rw [if_neg (Nat.ne_of_gt h), List.getElem?_eq_none hlen,
      List.getElem?_eq_none (Nat.le_of_lt h)]

theorem status_afterFunc (d : Time) (f : φ) (k : TimerID) :
    (ts.afterFunc d f).status k = if k = ts.length then some .armed else ts.status k := by
  unfold status
  rw [getElem?_afterFunc]
  split_ifs <;> rfl

theorem payload_afterFunc (d : Time) (f : φ) (k : TimerID) :
    (ts.afterFunc d f).payload k = if k = ts.length then some f else ts.payload k := by
  unfold payload
  rw [getElem?_afterFunc]
  split_ifs <;> rfl

/-! ### Stopping a timer -/

@[simp] theorem length_stop (k : TimerID) : (ts.stop k).length = ts.length := by
  simp [stop]

theorem status_stop (k j : TimerID) :
    (ts.stop k).status j =
      if j = k ∧ ts.status k = some .armed then some .stopped else ts.status j := by
  unfold status stop
  rw [List.getElem?_modify]
  by_cases hj : j = k
  · subst hj
    cases hk : ts[j]? with
    | none => simp
    | some t =>
      by_cases ha : t.status = .armed <;> simp [ha]
  · have hkj : k ≠ j := fun h => hj h.symm
    simp [hj, hkj]

@[simp] theorem payload_stop (k j : TimerID) : (ts.stop k).payload j = ts.payload j := by
  unfold payload stop
  rw [List.getElem?_modify]
  by_cases hj : k = j
  · subst hj
    cases hk : ts[k]? with
    | none => simp
    | some t => by_cases ha : t.status = .armed <;> simp [ha]
  · simp [hj]

/-! ### Firing a timer and running its function -/

variable {ts}

/-- Replacing only the status of a timer leaves what it captured alone. -/
theorem payload_set_status {k : TimerID} {t : Timer φ} (h : ts[k]? = some t) (st : TimerStatus)
    (j : TimerID) : payload (ts.set k { t with status := st }) j = ts.payload j := by
  unfold payload
  rw [List.getElem?_set]
  obtain ⟨hk, hget⟩ := List.getElem?_eq_some_iff.mp h
  by_cases hj : k = j
  · subst hj; simp [hk, hget]
  · simp [hj]

theorem status_set_status {k : TimerID} {t : Timer φ} (h : ts[k]? = some t) (st : TimerStatus)
    (j : TimerID) :
    status (ts.set k { t with status := st }) j = if j = k then some st else ts.status j := by
  unfold status
  rw [List.getElem?_set]
  have hk : k < ts.length := (List.getElem?_eq_some_iff.mp h).1
  by_cases hj : j = k
  · subst hj; simp [hk]
  · have hkj : k ≠ j := fun h => hj h.symm
    simp [hj, hkj]

/-- **What firing does**: an armed timer becomes `fired`, the others are untouched. -/
theorem fire_eq_some {ts' : Timers φ} {now : Time} {k : TimerID} (h : ts.fire now k = some ts') :
    ts.status k = some .armed ∧ ts'.length = ts.length ∧ (∀ j, ts'.payload j = ts.payload j) ∧
      ∀ j, ts'.status j = if j = k then some .fired else ts.status j := by
  unfold fire at h
  cases hk : ts[k]? with
  | none => simp [hk] at h
  | some t =>
    simp only [hk] at h
    split_ifs at h with ha
    obtain rfl := Option.some.inj h
    exact ⟨by simp [status, hk, ha.1], List.length_set, payload_set_status hk .fired,
      status_set_status hk .fired⟩

/-- **What running does**: a fired timer becomes `done`, the others are untouched. -/
theorem begin_eq_some {ts' : Timers φ} {k : TimerID} {f : φ} (h : ts.begin k = some (f, ts')) :
    ts.status k = some .fired ∧ ts.payload k = some f ∧ ts'.length = ts.length ∧
      (∀ j, ts'.payload j = ts.payload j) ∧
      ∀ j, ts'.status j = if j = k then some .done else ts.status j := by
  unfold begin at h
  cases hk : ts[k]? with
  | none => simp [hk] at h
  | some t =>
    simp only [hk] at h
    split_ifs at h with ha
    obtain ⟨rfl, rfl⟩ := Prod.mk.inj (Option.some.inj h)
    exact ⟨by simp [status, hk, ha], by simp [payload, hk], List.length_set,
      payload_set_status hk .done, status_set_status hk .done⟩

end Timers

end UnisetPanel
