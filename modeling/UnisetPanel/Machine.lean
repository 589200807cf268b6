/-
  `Machine` — deterministic machines with guarded steps, and their finite runs.

  A machine has an initial state and a partial step function: `step s a` is
  `none` when the action `a` is not enabled in `s`.  Whatever the environment
  chooses (which thread moves, what a request returns, how much time passes)
  is part of the action, so a run is simply the list of its actions and every
  interleaving is one such list.

  The rules here are the ones each development over a machine uses again and
  again: a run splits at any point (`run_append`), an invariant is proved one
  step at a time (`Reachable.induction`, `run_induction`), a predicate about
  the past is proved together with the state (`history_induction`), and a
  property that is lost somewhere along a run is lost by one definite step
  (`exists_exit`), and one that the steps meeting a condition keep, and all
  others break, holds throughout exactly the runs of such steps
  (`throughout_iff_everyStep`), or holds at the end of them where it does not come
  back (`last_iff_everyStep`).  What each step uses up bounds the length of a run
  (`length_le_of_run`).  `guard` restricts a machine to the steps that meet
  a condition, and `outputs` collects what an observer records along a run.
-/
import Mathlib.Data.List.Induction
import Mathlib.Data.Nat.Notation
import Mathlib.Tactic.TypeStar

namespace UnisetPanel

/-- A **machine**: an initial state and a partial, deterministic step. -/
structure Machine (σ α : Type*) where
  /-- The state in which every run starts. -/
  init : σ
  /-- One step; `none` when the action is not enabled. -/
  step : σ → α → Option σ

namespace Machine

variable {σ α β : Type*} (M : Machine σ α)

/-! ### Runs -/

/-- Execute the actions in order, from `s`. -/
def run (s : σ) : List α → Option σ
  | [] => some s
  | a :: as => (M.step s a).bind fun t => run t as

theorem run_cons (s : σ) (a : α) (as : List α) :
    M.run s (a :: as) = (M.step s a).bind fun t => M.run t as := rfl

theorem run_cons_eq_some {s u : σ} {a : α} {as : List α} :
    M.run s (a :: as) = some u ↔ ∃ t, M.step s a = some t ∧ M.run t as = some u := by
  rw [run_cons, Option.bind_eq_some_iff]

theorem run_singleton (s : σ) (a : α) : M.run s [a] = M.step s a := by
  rw [run_cons]
  cases M.step s a <;> rfl

/-- **A run splits at any point.** -/
theorem run_append (s : σ) (as bs : List α) :
    M.run s (as ++ bs) = (M.run s as).bind fun t => M.run t bs := by
  induction as generalizing s with
  | nil => rfl
  | cons a as ih =>
    rw [List.cons_append, run_cons, run_cons]
    cases M.step s a with
    | none => rfl
    | some t => exact ih t

theorem run_append_eq_some {s u : σ} {as bs : List α} :
    M.run s (as ++ bs) = some u ↔ ∃ t, M.run s as = some t ∧ M.run t bs = some u := by
  rw [run_append, Option.bind_eq_some_iff]

theorem run_concat_eq_some {s u : σ} {as : List α} {a : α} :
    M.run s (as ++ [a]) = some u ↔ ∃ t, M.run s as = some t ∧ M.step t a = some u := by
  simp only [run_append_eq_some, run_singleton]

/-- A state that some run reaches from the initial one. -/
def Reachable (s : σ) : Prop := ∃ as, M.run M.init as = some s

theorem reachable_init : M.Reachable M.init := ⟨[], rfl⟩

variable {M}

theorem Reachable.step {s t : σ} {a : α} (hs : M.Reachable s) (h : M.step s a = some t) :
    M.Reachable t := by
  obtain ⟨as, has⟩ := hs
  exact ⟨as ++ [a], M.run_concat_eq_some.mpr ⟨s, has, h⟩⟩

theorem Reachable.run {s t : σ} {as : List α} (hs : M.Reachable s) (h : M.run s as = some t) :
    M.Reachable t := by
  obtain ⟨bs, hbs⟩ := hs
  exact ⟨bs ++ as, M.run_append_eq_some.mpr ⟨s, hbs, h⟩⟩

theorem reachable_of_run {s : σ} {as : List α} (h : M.run M.init as = some s) : M.Reachable s :=
  ⟨as, h⟩

/-! ### Induction rules -/

/-- **A property every step preserves holds at the end of every run that starts with it.** -/
theorem run_induction {P : σ → Prop}
    (hstep : ∀ s a t, P s → M.step s a = some t → P t) {s t : σ} {as : List α}
    (h : M.run s as = some t) (hs : P s) : P t := by
  induction as generalizing s with
  | nil => exact Option.some.inj h ▸ hs
  | cons a as ih =>
    obtain ⟨u, hu, hut⟩ := M.run_cons_eq_some.mp h
    exact ih hut (hstep s a u hs hu)

/-- **Invariants.** What holds initially and survives every step from a reachable state holds
of every reachable state. -/
theorem Reachable.induction {P : σ → Prop} (hinit : P M.init)
    (hstep : ∀ s a t, M.Reachable s → P s → M.step s a = some t → P t) {s : σ}
    (hs : M.Reachable s) : P s := by
  obtain ⟨as, has⟩ := hs
  refine (run_induction (P := fun s => M.Reachable s ∧ P s) ?_ has
    ⟨M.reachable_init, hinit⟩).2
  rintro s a t ⟨hr, hp⟩ h
  exact ⟨hr.step h, hstep s a t hr hp h⟩

/-- **Invariants over the past.** The same rule for a predicate on the actions so far together
with the state they lead to. -/
theorem history_induction {P : List α → σ → Prop} (hinit : P [] M.init)
    (hstep : ∀ as s a t, M.run M.init as = some s → P as s → M.step s a = some t →
      P (as ++ [a]) t) {as : List α} {s : σ} (h : M.run M.init as = some s) : P as s := by
  induction as using List.reverseRecOn generalizing s with
  | nil => exact Option.some.inj h ▸ hinit
  | append_singleton as a ih =>
    obtain ⟨t, ht, hts⟩ := M.run_concat_eq_some.mp h
    exact hstep as t a s ht (ih ht) hts

/-- **What is lost along a run is lost by one of its steps.** -/
theorem exists_exit {P : σ → Prop} {s t : σ} {as : List α} (h : M.run s as = some t) (hs : P s)
    (ht : ¬ P t) : ∃ pre a post u v, as = pre ++ a :: post ∧ M.run s pre = some u ∧ P u ∧
      M.step u a = some v ∧ ¬ P v := by
  classical
  induction as generalizing s with
  | nil => exact absurd (Option.some.inj h ▸ hs) ht
  | cons a as ih =>
    obtain ⟨u, hu, hut⟩ := M.run_cons_eq_some.mp h
    by_cases hp : P u
    · obtain ⟨pre, b, post, v, w, rfl, hpre, hv, hvw, hw⟩ := ih hut hp
      exact ⟨a :: pre, b, post, v, w, rfl, M.run_cons_eq_some.mpr ⟨u, hu, hpre⟩, hv, hvw, hw⟩
    · exact ⟨[], a, as, s, u, rfl, rfl, hs, hu, hp⟩

/-- **How long a run can be.** A step takes one off the work `w` ahead, but for the steps `p` holds
of, which may raise it by `c` beside. -/
theorem length_le_of_run {w : σ → ℕ} {p : α → Bool} {c : ℕ} {C : α → Prop}
    (hstep : ∀ s a t, C a → M.step s a = some t → w t + 1 ≤ w s + if p a = true then c else 0)
    {as : List α} {s t : σ} (has : ∀ a ∈ as, C a) (h : M.run s as = some t) :
    as.length + w t ≤ w s + c * as.countP p := by
  induction as generalizing s with
  | nil =>
    obtain rfl := Option.some.inj h
    simp
  | cons a as ih =>
    obtain ⟨u, hu, hut⟩ := M.run_cons_eq_some.mp h
    have hrest := ih (fun b hb => has b (List.mem_cons_of_mem a hb)) hut
    have hfirst := hstep s a u (has a List.mem_cons_self) hu
    rw [List.length_cons, List.countP_cons, Nat.mul_add]
    by_cases ha : p a = true
    · rw [if_pos ha] at hfirst ⊢
      omega
    · rw [if_neg ha] at hfirst ⊢
      omega

/-! ### Restricting the steps -/

variable (M)

/-- The machine that takes only the steps meeting `C`: its runs are the runs of `M` whose
steps all do. -/
def guard (C : σ → α → Prop) [∀ s a, Decidable (C s a)] : Machine σ α where
  init := M.init
  step s a := if C s a then M.step s a else none

variable {M} {C : σ → α → Prop} [∀ s a, Decidable (C s a)]

theorem guard_step_eq_some {s t : σ} {a : α} :
    (M.guard C).step s a = some t ↔ C s a ∧ M.step s a = some t := by
  simp [guard]

theorem run_of_guard {s t : σ} {as : List α} (h : (M.guard C).run s as = some t) :
    M.run s as = some t := by
  induction as generalizing s with
  | nil => exact h
  | cons a as ih =>
    obtain ⟨u, hu, hut⟩ := (M.guard C).run_cons_eq_some.mp h
    exact M.run_cons_eq_some.mpr ⟨u, (guard_step_eq_some.mp hu).2, ih hut⟩

/-- **A run that is not one of the restricted machine** takes a step that does not meet `C`. -/
theorem exists_not_guarded {s t : σ} {as : List α} (h : M.run s as = some t)
    (hn : (M.guard C).run s as ≠ some t) : ∃ pre a post u v, as = pre ++ a :: post ∧
      M.run s pre = some u ∧ ¬ C u a ∧ M.step u a = some v ∧ M.run v post = some t := by
  induction as generalizing s with
  | nil => exact absurd h hn
  | cons a as ih =>
    obtain ⟨u, hu, hut⟩ := M.run_cons_eq_some.mp h
    by_cases hc : C s a
    · have hrest : (M.guard C).run u as ≠ some t := fun hg =>
        hn ((M.guard C).run_cons_eq_some.mpr ⟨u, guard_step_eq_some.mpr ⟨hc, hu⟩, hg⟩)
      obtain ⟨pre, b, post, v, w, rfl, hpre, hb, hvw, hpost⟩ := ih hut hrest
      exact ⟨a :: pre, b, post, v, w, rfl, M.run_cons_eq_some.mpr ⟨u, hu, hpre⟩, hb, hvw, hpost⟩
    · exact ⟨[], a, as, s, u, rfl, rfl, hc, hu, hut⟩

/-! ### Every point of a run -/

variable (M)

/-- `P` holds at every point of the run, its first and its last included. -/
def Throughout (P : σ → Prop) (as : List α) : Prop :=
  ∀ pre post t, as = pre ++ post → M.run M.init pre = some t → P t

/-- Every step of the run meets `C`. -/
def EveryStep (C : σ → α → Prop) (as : List α) : Prop :=
  ∀ pre a post t, as = pre ++ a :: post → M.run M.init pre = some t → C t a

variable {M} {P I : σ → Prop} {C : σ → α → Prop}

theorem Throughout.left {as bs : List α} (h : M.Throughout P (as ++ bs)) : M.Throughout P as := by
  intro pre post t has
  exact h pre (post ++ bs) t (by rw [has, List.append_assoc])

theorem Throughout.last {s : σ} {as : List α} (h : M.Throughout P as)
    (hrun : M.run M.init as = some s) : P s :=
  h as [] s (List.append_nil as).symm hrun

theorem EveryStep.left {as bs : List α} (h : M.EveryStep C (as ++ bs)) : M.EveryStep C as := by
  intro pre a post t has
  exact h pre a (post ++ bs) t (by rw [has, List.append_assoc, List.cons_append])

theorem everyStep_nil : M.EveryStep C [] := by
  intro pre a post t has
  exact absurd has (by simp)

theorem EveryStep.concat {as : List α} {s : σ} {a : α} (h : M.EveryStep C as)
    (hrun : M.run M.init as = some s) (ha : C s a) : M.EveryStep C (as ++ [a]) := by
  intro pre b post t has ht
  rcases List.eq_nil_or_concat post with rfl | ⟨post, c, rfl⟩
  · obtain ⟨rfl, hab⟩ := List.append_inj' has rfl
    obtain rfl := (List.cons.inj hab).1
    obtain rfl := Option.some.inj (hrun.symm.trans ht)
    exact ha
  · rw [List.concat_eq_append, ← List.cons_append, ← List.append_assoc] at has
    exact h pre b post t (List.append_inj' has rfl).1 ht

/-- The steps of a run of the restricted machine meet the condition. -/
theorem everyStep_of_run_guard [∀ s a, Decidable (C s a)] {s : σ} {as : List α}
    (h : (M.guard C).run M.init as = some s) : M.EveryStep C as := by
  rintro pre a post t rfl ht
  obtain ⟨u, hu, hrest⟩ := (M.guard C).run_append_eq_some.mp h
  obtain ⟨v, hv, -⟩ := (M.guard C).run_cons_eq_some.mp hrest
  have htu : t = u := Option.some.inj (ht.symm.trans (run_of_guard hu))
  rw [htu]
  exact (guard_step_eq_some.mp hv).1

/-- Every action of a run is enabled where it is taken. -/
theorem exists_step_of_run {s t : σ} {pre post : List α} {a : α}
    (hrun : M.run M.init (pre ++ a :: post) = some s) (hpre : M.run M.init pre = some t) :
    ∃ u, M.step t a = some u := by
  obtain ⟨v, hv, hrest⟩ := M.run_append_eq_some.mp hrun
  obtain ⟨u, hu, -⟩ := M.run_cons_eq_some.mp hrest
  obtain rfl := Option.some.inj (hpre.symm.trans hv)
  exact ⟨u, hu⟩

/-- Conditions that agree on every step that can be taken agree on runs. -/
theorem everyStep_congr {D : σ → α → Prop}
    (h : ∀ s a t, M.Reachable s → M.step s a = some t → (C s a ↔ D s a)) {as : List α} {s : σ}
    (hrun : M.run M.init as = some s) : M.EveryStep C as ↔ M.EveryStep D as := by
  refine forall₄_congr fun pre a post t => forall₂_congr fun has ht => ?_
  obtain ⟨u, hu⟩ := exists_step_of_run (has ▸ hrun) ht
  exact h t a u (reachable_of_run ht) hu

/-- An invariant of the steps that meet `C`. -/
theorem EveryStep.induction (hinit : I M.init)
    (hstep : ∀ s a t, I s → C s a → M.step s a = some t → I t) {as : List α} {s : σ}
    (h : M.EveryStep C as) (hrun : M.run M.init as = some s) : I s := by
  induction as using List.reverseRecOn generalizing s with
  | nil => exact Option.some.inj hrun ▸ hinit
  | append_singleton as a ih =>
    obtain ⟨t, ht, hts⟩ := M.run_concat_eq_some.mp hrun
    exact hstep t a s (ih h.left ht) (h as a [] t rfl ht) hts

/-- **Exactly when a property holds throughout.** The steps that meet `C` keep an invariant that has
the property, and any other step breaks the property. -/
theorem throughout_iff_everyStep (hinit : I M.init)
    (hstep : ∀ s a t, I s → C s a → M.step s a = some t → I t) (hP : ∀ s, I s → P s)
    (hbreak : ∀ s a t, I s → ¬ C s a → M.step s a = some t → ¬ P t) {as : List α} {s : σ}
    (hrun : M.run M.init as = some s) : M.Throughout P as ↔ M.EveryStep C as := by
  constructor
  · intro h
    induction as using List.reverseRecOn generalizing s with
    | nil => exact everyStep_nil
    | append_singleton as a ih =>
      obtain ⟨t, ht, hts⟩ := M.run_concat_eq_some.mp hrun
      have hall : M.EveryStep C as := ih ht h.left
      refine hall.concat ht ?_
      by_contra hc
      exact hbreak t a s (hall.induction hinit hstep ht) hc hts (h.last hrun)
  · intro h pre post t has ht
    exact hP t ((has ▸ h).left.induction hinit hstep ht)

/-- **Exactly when a property that does not come back holds at the end.** The steps that meet `C`
keep it, and any other step breaks it for good. -/
theorem last_iff_everyStep (hinit : I M.init) (hP : P M.init)
    (hinv : ∀ s a t, I s → M.step s a = some t → I t)
    (hkeep : ∀ s a t, I s → P s → C s a → M.step s a = some t → P t)
    (hbreak : ∀ s a t, I s → ¬ C s a → M.step s a = some t → ¬ P t)
    (hlost : ∀ s a t, I s → ¬ P s → M.step s a = some t → ¬ P t) {as : List α} {s : σ}
    (hrun : M.run M.init as = some s) : P s ↔ M.EveryStep C as := by
  have hthrough : M.Throughout P as ↔ P s := by
    constructor
    · intro h
      exact h.last hrun
    · intro hs pre post t has ht
      by_contra hnot
      have hI : I t := run_induction hinv ht hinit
      obtain ⟨u, hu, htu⟩ := M.run_append_eq_some.mp (has ▸ hrun)
      obtain rfl := Option.some.inj (ht.symm.trans hu)
      have hlast : I s ∧ ¬ P s := run_induction (P := fun s => I s ∧ ¬ P s)
        (fun s a t h hst => ⟨hinv s a t h.1 hst, hlost s a t h.1 h.2 hst⟩) htu ⟨hI, hnot⟩
      exact hlast.2 hs
  rw [← hthrough]
  refine throughout_iff_everyStep (I := fun s => I s ∧ P s) ⟨hinit, hP⟩ ?_ (fun s h => h.2) ?_ hrun
  · intro s a t h hc hst
    exact ⟨hinv s a t h.1 hst, hkeep s a t h.1 h.2 hc hst⟩
  · intro s a t h hc hst
    exact hbreak s a t h.1 hc hst

/-! ### What an observer records -/

variable (M)

/-- What `out` records along a run from `s`, in order. `out t a` is what the step `a` taken
in `t` contributes. -/
def outputs (out : σ → α → List β) (s : σ) : List α → List β
  | [] => []
  | a :: as => out s a ++ ((M.step s a).elim [] fun t => outputs out t as)

variable {M} {out : σ → α → List β}

@[simp] theorem outputs_nil (s : σ) : M.outputs out s [] = [] := rfl

theorem outputs_cons {s t : σ} {a : α} (as : List α) (h : M.step s a = some t) :
    M.outputs out s (a :: as) = out s a ++ M.outputs out t as := by
  simp [outputs, h]

theorem outputs_append {s t : σ} {as : List α} (bs : List α) (h : M.run s as = some t) :
    M.outputs out s (as ++ bs) = M.outputs out s as ++ M.outputs out t bs := by
  induction as generalizing s with
  | nil => rw [Option.some.inj h]; rfl
  | cons a as ih =>
    obtain ⟨u, hu, hut⟩ := M.run_cons_eq_some.mp h
    rw [List.cons_append, outputs_cons _ hu, outputs_cons _ hu, ih hut, List.append_assoc]

theorem outputs_concat {s t u : σ} {as : List α} {a : α} (h : M.run s as = some t)
    (ha : M.step t a = some u) :
    M.outputs out s (as ++ [a]) = M.outputs out s as ++ out t a := by
  rw [outputs_append _ h, outputs_cons _ ha, outputs_nil, List.append_nil]

/-- An observer that picks from what another records. -/
theorem outputs_filterMap {γ : Type*} (f : β → Option γ) (s : σ) (as : List α) :
    M.outputs (fun s a => (out s a).filterMap f) s as = (M.outputs out s as).filterMap f := by
  induction as generalizing s with
  | nil => rfl
  | cons a as ih =>
    unfold outputs
    rw [List.filterMap_append]
    cases M.step s a with
    | none => rfl
    | some t => exact congrArg _ (ih t)

/-- A restricted machine records along its runs what the machine itself does. -/
theorem outputs_guard {C : σ → α → Prop} [∀ s a, Decidable (C s a)] {s t : σ} {as : List α}
    (h : (M.guard C).run s as = some t) : (M.guard C).outputs out s as = M.outputs out s as := by
  induction as generalizing s with
  | nil => rfl
  | cons a as ih =>
    obtain ⟨u, hu, hut⟩ := (M.guard C).run_cons_eq_some.mp h
    rw [outputs_cons _ hu, outputs_cons _ (guard_step_eq_some.mp hu).2, ih hut]

end Machine

end UnisetPanel
