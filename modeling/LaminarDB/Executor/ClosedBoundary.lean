import LaminarDB.Library.Saturating

/-!
# The boundary below which all windows are closed

`compute_closed_boundary` rounds the watermark down to a start of the windows: every time
below it lies in closed windows only. What the source does not write as saturating
overflows where it leaves the range of the integers.
-/

namespace LaminarDB.Executor

open Library I64

inductive WindowType where
  | tumbling
  | session
  | sliding
  | cumulate
deriving DecidableEq

/-- `WindowOperatorConfig`, with its durations in milliseconds. A session has no size. -/
structure WindowOperatorConfig where
  windowType : WindowType
  size : I64
  slide : Option I64
  gap : Option I64
  offsetMs : I64
  sessionSize : windowType = .session → size = .clamp 0

/-- The time of the watermark without the offset is rounded, and the offset added again. -/
def shifted (round : I64 → Option I64) (watermarkMs offset : I64) : Option I64 := do
  let adjusted ← checked (watermarkMs.toInt - offset.toInt)
  let rounded ← round adjusted
  checked (rounded.toInt + offset.toInt)

def floorTo (size adjusted : I64) : Option I64 := do
  let quotient ← adjusted.floorDiv size
  checked (quotient.toInt * size.toInt)

def slideTo (size slide adjusted : I64) : Option I64 := do
  let quotient ← (adjusted.saturatingSub size).floorDiv slide
  some ((quotient.saturatingAdd (.clamp 1)).saturatingMul slide.toInt)

def computeClosedBoundary (watermarkMs : I64) (config : WindowOperatorConfig) : Option I64 :=
  match config.windowType with
  | .tumbling | .cumulate =>
    if config.size.toInt ≤ 0 then some watermarkMs
    else shifted (floorTo config.size) watermarkMs config.offsetMs
  | .session => some (watermarkMs.saturatingSub (config.gap.getD (.clamp 0)))
  | .sliding =>
    let slide := config.slide.getD config.size
    if slide.toInt ≤ 0 ∨ config.size.toInt ≤ 0 then some watermarkMs
    else shifted (slideTo config.size slide) watermarkMs config.offsetMs

/-- The first multiple of the step whose window is not closed. -/
def firstOpen (size step adjusted : Int) : Int := (adjusted - size) / step * step + step

section Rounding

variable {size slide adjusted rounded : I64} (positive : 0 < size.toInt)

include positive

theorem floorTo_eq_some_iff :
    floorTo size adjusted = some rounded ↔
      (adjusted.toInt < 0 → -2 ^ 63 ≤ adjusted.toInt - size.toInt) ∧
        rounded = .clamp (firstOpen size.toInt size.toInt adjusted.toInt) := by
  have isOpen : firstOpen size.toInt size.toInt adjusted.toInt =
      adjusted.toInt / size.toInt * size.toInt := by
    rw [firstOpen, Int.sub_ediv_of_dvd _ (Int.dvd_refl _), Int.ediv_self positive.ne', Int.sub_mul,
      Int.one_mul, Int.sub_add_cancel]
  have below := Int.ediv_mul_le adjusted.toInt positive.ne'
  have above := Int.lt_ediv_add_one_mul_self adjusted.toInt positive
  have nonneg := fun least : 0 ≤ adjusted.toInt =>
    Int.mul_nonneg (Int.ediv_nonneg least positive.le) positive.le
  have upper := adjusted.upper
  rw [Int.add_mul, Int.one_mul] at above
  simp only [floorTo, bind, Option.bind_eq_some_iff, checked_eq_some_iff,
    floorDiv_eq_some_iff positive, isOpen]
  constructor
  · rintro ⟨quotient, ⟨lowers, isQuotient⟩, isRounded⟩
    rw [← isQuotient, ← isRounded]
    exact ⟨lowers, clamp_toInt.symm⟩
  · rintro ⟨lowers, rfl⟩
    refine ⟨_, ⟨lowers, toInt_divEuclid positive⟩, ?_⟩
    rw [toInt_divEuclid positive]
    simp only [clamp]
    omega

theorem slideTo_eq_some_iff (moves : 0 < slide.toInt) :
    slideTo size slide adjusted = some rounded ↔
      (adjusted.toInt - size.toInt < 0 →
        -2 ^ 63 ≤ adjusted.toInt - size.toInt - slide.toInt) ∧
        rounded = .clamp (firstOpen size.toInt slide.toInt adjusted.toInt) := by
  have upper := adjusted.upper
  have isBase : -2 ^ 63 ≤ adjusted.toInt - size.toInt →
      (adjusted.saturatingSub size).toInt = adjusted.toInt - size.toInt := by
    intro least
    simp only [saturatingSub, clamp]
    omega
  have next : ∀ quotient : I64, quotient.toInt = (adjusted.toInt - size.toInt) / slide.toInt →
      (quotient.saturatingAdd (.clamp 1)).saturatingMul slide.toInt =
        .clamp (firstOpen size.toInt slide.toInt adjusted.toInt) := by
    intro quotient isQuotient
    have smaller := fun least =>
      Int.ediv_le_self slide.toInt (a := adjusted.toInt - size.toInt) least
    have negative := fun least =>
      Int.ediv_neg_of_neg_of_pos (a := adjusted.toInt - size.toInt) least moves
    have added : (quotient.saturatingAdd (.clamp 1)).toInt = quotient.toInt + 1 := by
      have lower := quotient.lower
      simp only [saturatingAdd, clamp]
      omega
    rw [saturatingMul, added, isQuotient, Int.add_mul, Int.one_mul, firstOpen]
  simp only [slideTo, bind, Option.bind_eq_some_iff, floorDiv_eq_some_iff moves, Option.some.injEq]
  constructor
  · rintro ⟨quotient, ⟨lowers, isQuotient⟩, rfl⟩
    have base := isBase (by
      simp only [saturatingSub, clamp] at lowers
      omega)
    rw [base] at lowers isQuotient
    exact ⟨lowers, next quotient isQuotient⟩
  · rintro ⟨lowers, rfl⟩
    have base := isBase (by omega)
    refine ⟨_, ⟨base ▸ lowers, toInt_divEuclid moves⟩, next _ ?_⟩
    rw [toInt_divEuclid moves, base]

end Rounding

namespace WindowOperatorConfig

variable (config : WindowOperatorConfig)

/-- The distance between the starts of the windows. -/
def step : Int :=
  match config.windowType with
  | .sliding => (config.slide.getD config.size).toInt
  | _ => config.size.toInt

/-- The windows. The cumulating ones that share a start grow by the slide up to the size. -/
def IsWindow (start stop : Int) : Prop :=
  config.step ∣ start - config.offsetMs.toInt ∧
    match config.windowType with
    | .cumulate => ∃ count > 0,
      stop = start + min (count * (config.slide.getD config.size).toInt) config.size.toInt
    | _ => stop = start + config.size.toInt

variable (watermarkMs : I64)

/-- The starts of windows below which every time lies only in windows that the watermark
has closed. -/
def cuts : Set Int :=
  {boundary | config.step ∣ boundary - config.offsetMs.toInt ∧
    ∀ ts : I64, ts.toInt < boundary → ∀ start stop, config.IsWindow start stop →
      start ≤ ts.toInt → ts.toInt < stop → stop ≤ watermarkMs.toInt}

/-- The boundary is computed, and is the largest of the cuts. -/
def ExactCut : Prop :=
  ∃ boundary, computeClosedBoundary watermarkMs config = some boundary ∧
    IsGreatest (config.cuts watermarkMs) boundary.toInt

structure Valid : Prop where
  size : 0 < config.size.toInt
  slide : 0 < (config.slide.getD config.size).toInt

def base (adjusted : Int) : Int :=
  match config.windowType with
  | .sliding => adjusted - config.size.toInt
  | _ => adjusted

def start : Int :=
  firstOpen config.size.toInt config.step (watermarkMs.toInt - config.offsetMs.toInt)

/-- The watermark is so far from the ends of the range that nothing leaves it on the way:
the subtraction of the offset, the rounding, its result, and the boundary. -/
structure Fits : Prop where
  lower : -2 ^ 63 ≤ watermarkMs.toInt - config.offsetMs.toInt
  upper : watermarkMs.toInt - config.offsetMs.toInt ≤ 2 ^ 63 - 1
  lowers : config.base (watermarkMs.toInt - config.offsetMs.toInt) < 0 →
    -2 ^ 63 ≤ config.base (watermarkMs.toInt - config.offsetMs.toInt) - config.step
  rounded : config.start watermarkMs ≤ 2 ^ 63 - 1
  least : -2 ^ 63 ≤ config.start watermarkMs + config.offsetMs.toInt
  greatest : config.start watermarkMs + config.offsetMs.toInt ≤ 2 ^ 63 - 1

variable {config} {watermarkMs boundary : I64}

section Valid

variable (valid : config.Valid)

include valid

theorem Valid.step : 0 < config.step := by
  unfold WindowOperatorConfig.step
  split
  · exact valid.slide
  · exact valid.size

theorem lt_start (watermarkMs : I64) :
    watermarkMs.toInt - config.offsetMs.toInt - config.size.toInt < config.start watermarkMs := by
  have above := Int.lt_ediv_add_one_mul_self
    (watermarkMs.toInt - config.offsetMs.toInt - config.size.toInt) valid.step
  rwa [Int.add_mul, Int.one_mul] at above

theorem start_mem_cuts :
    config.start watermarkMs + config.offsetMs.toInt ∈ config.cuts watermarkMs := by
  have isStart : config.start watermarkMs =
      ((watermarkMs.toInt - config.offsetMs.toInt - config.size.toInt) / config.step + 1) *
        config.step := by
    rw [Int.add_mul, Int.one_mul, start, firstOpen]
  refine ⟨⟨_, (Int.add_sub_cancel _ _).trans (isStart.trans (Int.mul_comm _ _))⟩, ?_⟩
  rintro ts below start stop ⟨⟨count, aligned⟩, ends⟩ starts -
  have short : stop ≤ start + config.size.toInt := by
    split at ends
    · obtain ⟨_, -, rfl⟩ := ends
      exact Int.add_le_add_left (min_le_right _ _) _
    · exact ends.le
  have before : count * config.step < config.start watermarkMs := by
    rw [Int.mul_comm]
    omega
  rw [isStart, Int.mul_lt_mul_right valid.step, Int.lt_add_one_iff,
    Int.le_ediv_iff_mul_le valid.step, Int.mul_comm] at before
  omega

theorem isWindow_of_aligned {start : Int} (aligned : config.step ∣ start - config.offsetMs.toInt) :
    config.IsWindow start (start + config.size.toInt) := by
  refine ⟨aligned, ?_⟩
  split
  · refine ⟨config.size.toInt, valid.size, ?_⟩
    rw [min_eq_right (le_mul_of_one_le_right valid.size.le valid.slide)]
  · rfl

theorem isGreatest_start (fits : config.Fits watermarkMs) :
    IsGreatest (config.cuts watermarkMs) (config.start watermarkMs + config.offsetMs.toInt) := by
  refine ⟨start_mem_cuts valid, fun boundary cut => ?_⟩
  by_contra beyond
  have ends := cut.2 ⟨_, fits.least, fits.greatest⟩ (not_le.mp beyond) _ _
    (isWindow_of_aligned valid (start_mem_cuts valid).1) le_rfl
    (Int.lt_add_of_pos_right _ valid.size)
  have above := lt_start valid watermarkMs
  omega

theorem computeClosedBoundary_eq_some_iff :
    computeClosedBoundary watermarkMs config = some boundary ↔
      ∃ adjusted : I64, adjusted.toInt = watermarkMs.toInt - config.offsetMs.toInt ∧
        (config.base adjusted.toInt < 0 → -2 ^ 63 ≤ config.base adjusted.toInt - config.step) ∧
        boundary.toInt = (clamp (config.start watermarkMs)).toInt + config.offsetMs.toInt := by
  have size := not_le.mpr valid.size
  have slide := not_le.mpr valid.slide
  unfold computeClosedBoundary start base step
  cases isType : config.windowType with
  | session => exact absurd valid.size (by rw [config.sessionSize isType]; decide)
  | sliding | tumbling | cumulate =>
    simp only [size, slide, or_self, if_false, shifted, bind, Option.bind_eq_some_iff,
      checked_eq_some_iff, slideTo_eq_some_iff valid.size valid.slide,
      floorTo_eq_some_iff valid.size]
    refine exists_congr fun adjusted => and_congr_right fun isAdjusted => ?_
    rw [← isAdjusted]
    exact ⟨fun ⟨_, ⟨lowers, isRounded⟩, same⟩ => ⟨lowers, isRounded ▸ same⟩,
      fun ⟨lowers, same⟩ => ⟨_, ⟨lowers, rfl⟩, same⟩⟩

theorem le_start {adjusted : I64}
    (isAdjusted : adjusted.toInt = watermarkMs.toInt - config.offsetMs.toInt)
    (lowers : config.base adjusted.toInt < 0 →
      -2 ^ 63 ≤ config.base adjusted.toInt - config.step) : -2 ^ 63 ≤ config.start watermarkMs := by
  have above := lt_start valid watermarkMs
  have size := config.size.upper
  have moves := valid.slide
  unfold base step at lowers
  split at lowers
  · omega
  · omega

end Valid

/-- The boundary is the exact cut if and only if nothing leaves the range on the way; as
far as it is computed, it never goes back. -/
theorem exactCut_iff (config : WindowOperatorConfig) (valid : config.Valid) (watermarkMs : I64) :
    (config.ExactCut watermarkMs ↔ config.Fits watermarkMs) ∧
      ∀ later, watermarkMs ≤ later → ∀ boundary next,
        computeClosedBoundary watermarkMs config = some boundary →
        computeClosedBoundary later config = some next → boundary ≤ next := by
  refine ⟨⟨?_, fun fits => ?_⟩, fun later ordered boundary next isBoundary isNext => ?_⟩
  · rintro ⟨boundary, computed, greatest⟩
    obtain ⟨adjusted, isAdjusted, lowers, same⟩ :=
      (computeClosedBoundary_eq_some_iff valid).mp computed
    have above := greatest.2 (start_mem_cuts valid)
    have least := le_start valid isAdjusted lowers
    have lower := boundary.lower
    have upper := boundary.upper
    simp only [clamp] at same
    exact ⟨isAdjusted ▸ adjusted.lower, isAdjusted ▸ adjusted.upper, isAdjusted ▸ lowers,
      by omega, by omega, by omega⟩
  · refine ⟨⟨_, fits.least, fits.greatest⟩, ?_, isGreatest_start valid fits⟩
    refine (computeClosedBoundary_eq_some_iff valid).mpr
      ⟨⟨_, fits.lower, fits.upper⟩, rfl, fits.lowers, ?_⟩
    have least := le_start valid
      (show (⟨_, fits.lower, fits.upper⟩ : I64).toInt = _ from rfl) fits.lowers
    have start := fits.rounded
    simp only [clamp]
    omega
  · obtain ⟨-, -, -, isBoundary⟩ := (computeClosedBoundary_eq_some_iff valid).mp isBoundary
    obtain ⟨-, -, -, isNext⟩ := (computeClosedBoundary_eq_some_iff valid).mp isNext
    have times := le_iff.mp ordered
    have mono : config.start watermarkMs ≤ config.start later := Int.add_le_add_right
      (Int.mul_le_mul_of_nonneg_right (Int.ediv_le_ediv valid.step (by omega)) valid.step.le) _
    have clamped := le_iff.mp (clamp_mono mono)
    rw [le_iff]
    omega

def seconds : WindowOperatorConfig := ⟨.tumbling, .clamp 1000, none, none, .clamp 0, nofun⟩

theorem exactCut_iff_minute : seconds.ExactCut (.clamp 60000) :=
  (exactCut_iff seconds ⟨by decide, by decide⟩ _).1.mpr
    ⟨by decide, by decide, by decide, by decide, by decide, by decide⟩

/-- Before the first watermark the rounding overflows. -/
theorem not_exactCut_initial : ¬seconds.ExactCut .minValue :=
  fun ⟨_, computed, _⟩ => nomatch computed

end WindowOperatorConfig

end LaminarDB.Executor
