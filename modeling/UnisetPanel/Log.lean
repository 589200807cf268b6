/-
  `Log` — statements about the past of an event.

  What a system did is a list of events, the oldest first.  `Each P` says of
  every event of such a log that it meets `P`, given the events before it, and
  `since a c` that an event `a` has occurred after the last event `c`.  Both
  are followed along a log that grows at its end (`each_concat`,
  `since_concat`); what `since` says about the whole log is `since_iff`.
-/
import Mathlib.Data.List.Induction

namespace UnisetPanel.Log

variable {ε : Type*}

/-- Every event meets `P`, given the events before it. -/
def Each (P : List ε → ε → Prop) (log : List ε) : Prop :=
  ∀ pre e post, log = pre ++ e :: post → P pre e

/-- `a` has occurred, and `c` neither with it nor after it. -/
def since (a c : ε → Bool) (log : List ε) : Bool :=
  (log.reverse.takeWhile fun e => !c e).any a

variable {P : List ε → ε → Prop} {a c d : ε → Bool}

theorem each_nil : Each P [] := by
  intro pre e post h
  cases pre <;> cases h

theorem Each.of_prefix {log pre : List ε} (h : Each P log) (hpre : pre <+: log) : Each P pre := by
  obtain ⟨rest, rfl⟩ := hpre
  intro first e post hlog
  apply h first e (post ++ rest)
  rw [hlog, List.append_assoc, List.cons_append]

theorem each_concat {log : List ε} {e : ε} : Each P (log ++ [e]) ↔ Each P log ∧ P log e := by
  constructor
  · intro h
    exact ⟨h.of_prefix ⟨[e], rfl⟩, h log e [] rfl⟩
  · rintro ⟨hall, hlast⟩ pre x post hlog
    rcases List.eq_nil_or_concat post with rfl | ⟨post, y, rfl⟩
    · obtain ⟨rfl, hx⟩ := List.append_inj' hlog rfl
      obtain rfl := (List.cons.inj hx).1
      exact hlast
    · rw [List.concat_eq_append, ← List.cons_append, ← List.append_assoc] at hlog
      exact hall pre x post (List.append_inj' hlog rfl).1

theorem since_concat (log : List ε) (e : ε) :
    since a c (log ++ [e]) = (!c e && (a e || since a c log)) := by
  unfold since
  rw [List.reverse_append, List.reverse_singleton, List.singleton_append, List.takeWhile_cons]
  cases c e <;> simp

/-- **What `since` says**: the log ends in an `a` and events after it, none of them a `c`. -/
theorem since_iff {log : List ε} : since a c log = true ↔
    ∃ pre e post, log = pre ++ e :: post ∧ a e = true ∧ ∀ x ∈ e :: post, c x = false := by
  induction log using List.reverseRecOn with
  | nil =>
    constructor
    · intro h
      cases h
    · rintro ⟨pre, e, post, h, -⟩
      cases pre <;> cases h
  | append_singleton log e ih =>
    rw [since_concat, Bool.and_eq_true, Bool.not_eq_true', Bool.or_eq_true, ih]
    constructor
    · rintro ⟨hc, ha | ⟨pre, x, post, rfl, hx, hpost⟩⟩
      · exact ⟨log, e, [], rfl, ha, by simpa using hc⟩
      · refine ⟨pre, x, post ++ [e], by simp, hx, ?_⟩
        intro y hy
        rcases List.mem_append.mp (List.cons_append ▸ hy : y ∈ (x :: post) ++ [e]) with hy | hy
        · exact hpost y hy
        · rw [List.mem_singleton.mp hy]
          exact hc
    · rintro ⟨pre, x, post, hlog, hx, hpost⟩
      rcases List.eq_nil_or_concat post with rfl | ⟨post, y, rfl⟩
      · obtain ⟨rfl, he⟩ := List.append_inj' hlog rfl
        obtain rfl := (List.cons.inj he).1
        exact ⟨hpost _ List.mem_cons_self, Or.inl hx⟩
      · rw [List.concat_eq_append, ← List.cons_append, ← List.append_assoc] at hlog
        obtain ⟨rfl, he⟩ := List.append_inj' hlog rfl
        obtain rfl := (List.cons.inj he).1
        refine ⟨hpost _ (by simp), Or.inr ⟨pre, x, post, rfl, hx, ?_⟩⟩
        intro z hz
        apply hpost
        rw [List.concat_eq_append, ← List.cons_append]
        exact List.mem_append_left _ hz

/-- An event has occurred since the last of many if it has since the last of all. -/
theorem since_mono (h : ∀ e, d e = true → c e = true) {log : List ε} (hs : since a c log = true) :
    since a d log = true := by
  obtain ⟨pre, e, post, hlog, ha, hpost⟩ := since_iff.mp hs
  refine since_iff.mpr ⟨pre, e, post, hlog, ha, ?_⟩
  intro x hx
  have hc : c x = false := hpost x hx
  cases hd : d x with
  | false => rfl
  | true =>
    rw [h x hd] at hc
    exact hc

end UnisetPanel.Log
