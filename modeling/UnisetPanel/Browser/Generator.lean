/-
  The value generators of the sensor table (`startGenerator` in
  `20-ionc-renderer.js`): what the dialog admits, and what the linear and the square
  generator emit.

  The linear generator climbs from one bound in steps, as many as fit between the
  bounds, and then goes down from the other bound.  So the two halves are of one
  line only if the step divides the range: else the first value on the way back is
  nearer than a step, and the last one farther (`not_isTriangle_stepThree`).  The
  values are within the bounds all the same, and where only one step fits there
  is no way back that could differ (`isTriangle_iff`).

  Numbers are integers; a division is one by a positive number, so that `/` is
  `Math.floor` of the quotient.
-/
import Mathlib.Algebra.Order.Group.Int
import Mathlib.Algebra.Order.Ring.Abs
import Mathlib.Tactic.Linarith
import Mathlib.Tactic.Ring

namespace UnisetPanel

/-- The types of generators. -/
inductive GeneratorType where
  | sin
  | cos
  | linear
  | random
  | square
  deriving DecidableEq, Repr

/-- The fields of the dialog, as `parseInt` reads them; none for `NaN`. -/
structure GeneratorForm where
  type : GeneratorType
  min : Option ℤ
  max : Option ℤ
  /-- `ionc-gen-period`: the period, or the pause of the types that have steps -/
  period : Option ℤ
  step : Option ℤ
  pulseWidth : Option ℤ
  /-- `ionc-gen-pause`, of the type `square` -/
  pause : Option ℤ
  deriving DecidableEq, Repr

/-- The bounds of a generator. -/
structure GeneratorRange where
  min : ℤ
  max : ℤ
  lt : min < max

/-- A generator of the type `linear`. -/
structure LinearGenerator extends GeneratorRange where
  pause : ℤ
  step : ℤ
  pause_ge : 10 ≤ pause
  step_ne : step ≠ 0
  step_le : |step| ≤ max - min

/-- A generator of the type `square`. -/
structure SquareGenerator extends GeneratorRange where
  pulseWidth : ℤ
  pause : ℤ
  pulseWidth_pos : 0 < pulseWidth
  pause_pos : 0 < pause

/-- A generator that the dialog admits. -/
inductive Generator where
  /-- `sin` and `cos`: `step` points of `pause` each -/
  | wave (range : GeneratorRange) (pause step : ℤ)
  | linear (g : LinearGenerator)
  | random (range : GeneratorRange) (period : ℤ)
  | square (g : SquareGenerator)

namespace GeneratorForm

/-- The validation in `startGenerator`, with its messages. -/
def validate (f : GeneratorForm) : Except String Generator :=
  match f.min, f.max with
  | some min, some max =>
    if hlt : min < max then
      let range : GeneratorRange := ⟨min, max, hlt⟩
      match f.type with
      | .linear =>
        match f.period, f.step with
        | some pause, some step =>
          if hpause : pause < 10 then .error "Пауза должна быть не менее 10мс"
          else if hstep : step = 0 then .error "Шаг не может быть равен 0"
          else if hle : |step| > max - min then
            .error "Шаг должен быть меньше или равен разности Max - Min"
          else .ok (.linear ⟨range, pause, step, not_lt.mp hpause, hstep, not_lt.mp hle⟩)
        | _, _ => .error "Пауза и Шаг должны быть числами"
      | .sin | .cos =>
        match f.period, f.step with
        | some pause, some step =>
          if pause < 10 then .error "Шаг обновления должен быть не менее 10мс"
          else if step < 4 then .error "Количество точек должно быть не менее 4"
          else .ok (.wave range pause step)
        | _, _ => .error "Шаг обновления и Количество точек должны быть числами"
      | .square =>
        match f.pulseWidth, f.pause with
        | some pulseWidth, some pause =>
          if hwidth : pulseWidth ≤ 0 then .error "Ширина импульса должна быть больше 0"
          else if hpause : pause ≤ 0 then .error "Пауза должна быть больше 0"
          else .ok (.square ⟨range, pulseWidth, pause, not_le.mp hwidth, not_le.mp hpause⟩)
        | _, _ => .error "Ширина импульса и Пауза должны быть числами"
      | .random =>
        match f.period with
        | some period =>
          if period < 100 then .error "Период должен быть не менее 100мс"
          else .ok (.random range period)
        | none => .error "Период должен быть числом"
    else .error "Min должен быть меньше Max"
  | _, _ => .error "Min и Max должны быть числами"

end GeneratorForm

namespace LinearGenerator

variable (g : LinearGenerator)

/-- `range`. -/
def range : ℤ := g.max - g.min

/-- `absStep`. -/
def absStep : ℤ := |g.step|

/-- `numStepsFirst`. -/
def numStepsFirst : ℤ := g.range / g.absStep + 1

/-- `numStepsSecond`. -/
def numStepsSecond : ℤ := g.range / g.absStep - 1

/-- `totalSteps`. -/
def totalSteps : ℤ := g.numStepsFirst + g.numStepsSecond

/-- `fullCycle`. -/
def fullCycle : ℤ := g.totalSteps * g.pause

/-- `stepNumber`. -/
def stepNumber (elapsed : ℤ) : ℤ := elapsed.tmod g.fullCycle / g.pause

/-- The value of a step, before it is clamped. -/
def valueAt (stepNumber : ℤ) : ℤ :=
  if 0 < g.step then
    if stepNumber < g.numStepsFirst then g.min + stepNumber * g.absStep
    else
      let downStepNumber := stepNumber - g.numStepsFirst
      g.max - (downStepNumber + 1) * g.absStep
  else
    if stepNumber < g.numStepsFirst then g.max - stepNumber * g.absStep
    else
      let upStepNumber := stepNumber - g.numStepsFirst
      g.min + (upStepNumber + 1) * g.absStep

end LinearGenerator

/-- The clamping at the end of `generateValue`. -/
def GeneratorRange.clamp (r : GeneratorRange) (value : ℤ) : ℤ := Max.max r.min (Min.min r.max value)

/-- `generateValue` of a linear generator. -/
def LinearGenerator.generateValue (g : LinearGenerator) (elapsed : ℤ) : ℤ :=
  g.clamp (g.valueAt (g.stepNumber elapsed))

/-- `generateValue` of a square generator. -/
def SquareGenerator.generateValue (g : SquareGenerator) (elapsed : ℤ) : ℤ :=
  let totalPeriod := g.pulseWidth + g.pause
  let positionInCycle := elapsed.tmod totalPeriod
  g.clamp (if positionInCycle < g.pulseWidth then g.max else g.min)

theorem GeneratorRange.clamp_mem (r : GeneratorRange) (value : ℤ) :
    r.min ≤ r.clamp value ∧ r.clamp value ≤ r.max := by
  have := r.lt
  unfold clamp
  omega

theorem GeneratorRange.clamp_of_mem (r : GeneratorRange) {value : ℤ} (hmin : r.min ≤ value)
    (hmax : value ≤ r.max) : r.clamp value = value := by
  unfold clamp
  omega

/-- A square generator emits its bounds. -/
theorem SquareGenerator.generateValue_eq (g : SquareGenerator) (elapsed : ℤ) :
    g.generateValue elapsed = g.max ∨ g.generateValue elapsed = g.min := by
  have := g.lt
  unfold generateValue
  dsimp only
  split_ifs
  · exact Or.inl (g.clamp_of_mem (by omega) le_rfl)
  · exact Or.inr (g.clamp_of_mem le_rfl (by omega))

namespace LinearGenerator

variable (g : LinearGenerator)

/-- **A closed triangle wave**: all values are within the bounds, and those of consecutive steps, the
last one and the first among them, differ by the step. -/
structure IsTriangle : Prop where
  mem : ∀ elapsed : ℤ, g.min ≤ g.generateValue elapsed ∧ g.generateValue elapsed ≤ g.max
  step : ∀ elapsed elapsed' : ℕ,
    g.stepNumber elapsed' = (g.stepNumber elapsed + 1) % g.totalSteps →
    |g.generateValue elapsed' - g.generateValue elapsed| = |g.step|

/-- **The dialog admits every linear generator**; that it admits no other is in the type. -/
theorem validate_eq_linear (pulseWidth pause : Option ℤ) :
    GeneratorForm.validate
      ⟨.linear, some g.min, some g.max, some g.pause, some g.step, pulseWidth, pause⟩ =
      .ok (.linear g) := by
  have hpause : ¬ g.pause < 10 := not_lt.mpr g.pause_ge
  have hle : ¬ |g.step| > g.max - g.min := not_lt.mpr g.step_le
  unfold GeneratorForm.validate
  simp only [dif_pos g.lt, dif_neg hpause, dif_neg g.step_ne, dif_neg hle]

variable {g}

/-! ### The steps between the bounds -/

theorem absStep_pos : 0 < g.absStep := abs_pos.mpr g.step_ne

/-- At least one step fits, and what is left is less than one. -/
theorem range_eq : ∃ q r : ℤ, g.range / g.absStep = q ∧ 1 ≤ q ∧ 0 ≤ r ∧ r < g.absStep ∧
    g.range = q * g.absStep + r := by
  have hpos := g.absStep_pos
  have hle : g.absStep ≤ g.range := g.step_le
  refine ⟨_, g.range % g.absStep, rfl, ?_, Int.emod_nonneg _ hpos.ne', Int.emod_lt_of_pos _ hpos, ?_⟩
  · exact Int.le_ediv_of_mul_le hpos (by omega)
  · rw [Int.mul_comm]
    exact (Int.mul_ediv_add_emod _ _).symm

theorem totalSteps_eq : g.totalSteps = 2 * (g.range / g.absStep) := by
  unfold totalSteps numStepsFirst numStepsSecond
  omega

/-- How far the value of a step is from the bound that the wave starts at. -/
def offset (g : LinearGenerator) (stepNumber : ℤ) : ℤ :=
  if stepNumber < g.numStepsFirst then stepNumber * g.absStep
  else g.range - (stepNumber - g.numStepsFirst + 1) * g.absStep

/-- The two signs of the step are mirror images. -/
theorem valueAt_eq (k : ℤ) :
    g.valueAt k = if 0 < g.step then g.min + g.offset k else g.max - g.offset k := by
  unfold valueAt offset range
  split_ifs <;> ring

/-- The way up, and the way down. -/
theorem offset_cases (k q : ℤ) (hq : g.range / g.absStep = q) :
    (k ≤ q → g.offset k = k * g.absStep) ∧
      (q < k → g.offset k = g.range - (k - q) * g.absStep) := by
  unfold offset numStepsFirst
  rw [hq]
  constructor
  · intro hk
    rw [if_pos (by omega)]
  · intro hk
    rw [if_neg (by omega)]
    ring

theorem offset_mem {k : ℤ} (h0 : 0 ≤ k) (hk : k < g.totalSteps) :
    0 ≤ g.offset k ∧ g.offset k ≤ g.range := by
  obtain ⟨q, r, hq, hq1, hr0, hr, hrange⟩ := g.range_eq
  have hpos := g.absStep_pos
  obtain ⟨hup, hdown⟩ := offset_cases (g := g) k q hq
  rw [totalSteps_eq, hq] at hk
  by_cases hle : k ≤ q
  · have hmul : k * g.absStep ≤ q * g.absStep := mul_le_mul_of_nonneg_right hle hpos.le
    have hnonneg : 0 ≤ k * g.absStep := mul_nonneg h0 hpos.le
    rw [hup hle]
    omega
  · have hmul : (k - q) * g.absStep ≤ q * g.absStep :=
      mul_le_mul_of_nonneg_right (by omega) hpos.le
    have hnonneg : 0 ≤ (k - q) * g.absStep := mul_nonneg (by omega) hpos.le
    rw [hdown (by omega)]
    omega

/-! ### From one step to the next -/

/-- How far the values of two consecutive steps are apart. -/
theorem abs_offset_sub {q r : ℤ} (hq : g.range / g.absStep = q) (hq1 : 1 ≤ q) (hr0 : 0 ≤ r)
    (hr : r < g.absStep) (hrange : g.range = q * g.absStep + r) {k : ℤ} (h0 : 0 ≤ k)
    (hk : k < 2 * q) :
    |g.offset ((k + 1) % g.totalSteps) - g.offset k| =
      if q = 1 then g.absStep
      else if k = q then g.absStep - r
      else if k + 1 = 2 * q then g.absStep + r
      else g.absStep := by
  have hpos := g.absStep_pos
  rw [totalSteps_eq, hq]
  obtain ⟨hup, hdown⟩ := offset_cases (g := g) k q hq
  by_cases hlast : k + 1 = 2 * q
  · -- back to the first step
    obtain ⟨hzero, -⟩ := offset_cases (g := g) 0 q hq
    rw [hlast, Int.emod_self, hzero (by omega), Int.zero_mul]
    by_cases hone : q = 1
    · rw [if_pos hone, hup (by omega), show k = 1 by omega, Int.one_mul, zero_sub, abs_neg,
        abs_of_pos hpos]
    · rw [if_neg hone, if_neg (by omega), if_pos rfl, hdown (by omega), hrange,
        show k - q = q - 1 by omega]
      have hsub : 0 - (q * g.absStep + r - (q - 1) * g.absStep) = -(g.absStep + r) := by ring
      rw [hsub, abs_neg, abs_of_nonneg (by omega)]
  · obtain ⟨hup', hdown'⟩ := offset_cases (g := g) (k + 1) q hq
    rw [Int.emod_eq_of_lt (by omega) (by omega), if_neg hlast]
    by_cases hone : q = 1
    · rw [if_pos hone, hup' (by omega), hup (by omega)]
      have hsub : (k + 1) * g.absStep - k * g.absStep = g.absStep := by ring
      rw [hsub, abs_of_pos hpos]
    · rw [if_neg hone]
      rcases lt_trichotomy k q with hlt | rfl | hgt
      · rw [if_neg (by omega), hup' (by omega), hup (by omega)]
        have hsub : (k + 1) * g.absStep - k * g.absStep = g.absStep := by ring
        rw [hsub, abs_of_pos hpos]
      · -- at the top
        rw [if_pos rfl, hdown' (by omega), hup le_rfl, hrange]
        have hsub : k * g.absStep + r - (k + 1 - k) * g.absStep - k * g.absStep =
            -(g.absStep - r) := by ring
        rw [hsub, abs_neg, abs_of_pos (by omega)]
      · rw [if_neg (by omega), hdown' (by omega), hdown hgt]
        have hsub : g.range - (k + 1 - q) * g.absStep - (g.range - (k - q) * g.absStep) =
            -g.absStep := by ring
        rw [hsub, abs_neg, abs_of_pos hpos]

/-! ### The step numbers -/

theorem fullCycle_pos : 0 < g.fullCycle := by
  obtain ⟨q, r, hq, hq1, -⟩ := g.range_eq
  have hpause := g.pause_ge
  unfold fullCycle
  rw [totalSteps_eq, hq]
  exact mul_pos (by omega) (by omega)

theorem stepNumber_mem (elapsed : ℕ) :
    0 ≤ g.stepNumber elapsed ∧ g.stepNumber elapsed < g.totalSteps := by
  have hpause := g.pause_ge
  have hmod := Int.emod_lt_of_pos (elapsed : ℤ) g.fullCycle_pos
  unfold stepNumber
  rw [Int.tmod_eq_emod_of_nonneg (by omega)]
  constructor
  · exact Int.ediv_nonneg (Int.emod_nonneg _ g.fullCycle_pos.ne') (by omega)
  · rw [Int.ediv_lt_iff_lt_mul (by omega)]
    exact hmod

/-- Every step has its time. -/
theorem exists_stepNumber_eq {k : ℤ} (h0 : 0 ≤ k) (hk : k < g.totalSteps) :
    ∃ elapsed : ℕ, g.stepNumber elapsed = k := by
  have hpause := g.pause_ge
  have hnonneg : 0 ≤ k * g.pause := mul_nonneg h0 (by omega)
  have hlt : k * g.pause < g.fullCycle := mul_lt_mul_of_pos_right hk (by omega)
  refine ⟨(k * g.pause).toNat, ?_⟩
  unfold stepNumber
  rw [Int.toNat_of_nonneg hnonneg, Int.tmod_eq_emod_of_nonneg hnonneg,
    Int.emod_eq_of_lt hnonneg hlt, Int.mul_ediv_cancel _ (by omega)]

/-- The clamping changes nothing. -/
theorem generateValue_eq (elapsed : ℕ) :
    g.generateValue elapsed = if 0 < g.step then g.min + g.offset (g.stepNumber elapsed)
      else g.max - g.offset (g.stepNumber elapsed) := by
  obtain ⟨h0, hk⟩ := g.stepNumber_mem elapsed
  have hmem := offset_mem h0 hk
  unfold range at hmem
  unfold generateValue
  rw [valueAt_eq]
  apply GeneratorRange.clamp_of_mem
  · split_ifs <;> omega
  · split_ifs <;> omega

/-- The sign of the step makes no difference to the distances. -/
theorem abs_generateValue_sub (elapsed elapsed' : ℕ) :
    |g.generateValue elapsed' - g.generateValue elapsed| =
      |g.offset (g.stepNumber elapsed') - g.offset (g.stepNumber elapsed)| := by
  rw [generateValue_eq, generateValue_eq]
  split_ifs
  · rw [add_sub_add_left_eq_sub]
  · rw [sub_sub_sub_cancel_left, abs_sub_comm]

end LinearGenerator

/-! ### A step that does not divide the range -/

/-- From 0 to 10 in steps of 3: 0, 3, 6, 9, 7, 4 and 0 again. -/
def stepThree : LinearGenerator where
  min := 0
  max := 10
  lt := by decide
  pause := 1000
  step := 3
  pause_ge := by decide
  step_ne := by decide
  step_le := by decide

/-- **It is no triangle**: 9 and 7 are two apart. -/
theorem not_isTriangle_stepThree : ¬ stepThree.IsTriangle := by
  intro h
  exact absurd (h.step 3000 4000 (by decide)) (by decide)

/-- **Exactly when a linear generator is a closed triangle wave**: its step divides the range, or is
the only one that fits. -/
theorem LinearGenerator.isTriangle_iff (g : LinearGenerator) :
    g.IsTriangle ↔ |g.step| ∣ g.max - g.min ∨ g.max - g.min < 2 * |g.step| := by
  obtain ⟨q, r, hq, hq1, hr0, hr, hrange⟩ := g.range_eq
  have hpos := g.absStep_pos
  show g.IsTriangle ↔ g.absStep ∣ g.range ∨ g.range < 2 * g.absStep
  constructor
  · intro h
    by_contra hnot
    obtain ⟨hdvd, hlt⟩ := not_or.mp hnot
    have hone : q ≠ 1 := by
      rintro rfl
      omega
    have hr1 : r ≠ 0 := by
      rintro rfl
      exact hdvd ⟨q, by rw [hrange]; ring⟩
    -- the step at the top
    have htotal : g.totalSteps = 2 * q := by rw [totalSteps_eq, hq]
    obtain ⟨elapsed, he⟩ := g.exists_stepNumber_eq (k := q) (by omega) (by omega)
    obtain ⟨elapsed', he'⟩ := g.exists_stepNumber_eq (k := (q + 1) % g.totalSteps)
      (Int.emod_nonneg _ (by omega)) (Int.emod_lt_of_pos _ (by omega))
    have hstep := h.step elapsed elapsed' (by rw [he, he'])
    rw [abs_generateValue_sub, he, he', abs_offset_sub hq hq1 hr0 hr hrange (by omega) (by omega),
      if_neg hone, if_pos rfl] at hstep
    unfold absStep at hstep hr1
    omega
  · intro h
    have hfits : q = 1 ∨ r = 0 := by
      rcases h with hdvd | hlt
      · right
        have hmod := Int.emod_eq_zero_of_dvd hdvd
        rw [hrange, Int.add_comm, Int.add_mul_emod_self_right, Int.emod_eq_of_lt hr0 hr] at hmod
        exact hmod
      · left
        by_contra hone
        have hmul : 2 * g.absStep ≤ q * g.absStep := mul_le_mul_of_nonneg_right (by omega) hpos.le
        omega
    refine ⟨fun elapsed => g.clamp_mem _, ?_⟩
    intro elapsed elapsed' hnext
    obtain ⟨h0, hk⟩ := g.stepNumber_mem elapsed
    rw [totalSteps_eq, hq] at hk
    rw [abs_generateValue_sub, hnext, abs_offset_sub hq hq1 hr0 hr hrange h0 hk]
    show _ = g.absStep
    rcases hfits with hone | hzero
    · rw [if_pos hone]
    · rw [hzero]
      split_ifs <;> omega

end UnisetPanel
