import LaminarDB.State.Scalar
import LaminarDB.Time.EventTime

/-!
# Window assigners

The windows of an event time: `TumblingWindowAssigner` and `SlidingWindowAssigner` of the
core, and `assign_windows` of the end-of-window-close state. A window is named by its
start. Arithmetic that the source does not write as saturating wraps around. The times of
a batch are read by `extract_i64_timestamps`, which rounds towards zero.
-/

namespace LaminarDB.State

open Library Time I64

def nullTimestamp : I64 := .minValue

structure TumblingWindowAssigner where
  sizeMs : I64
  offsetMs : I64
deriving DecidableEq

def TumblingWindowAssigner.assign (assigner : TumblingWindowAssigner) (timestamp : I64) : I64 :=
  let size := assigner.sizeMs.toInt
  let adjusted := wrap (timestamp.toInt - assigner.offsetMs.toInt)
  let windowStart :=
    if 0 ≤ adjusted.toInt then wrap (adjusted.toInt.tdiv size * size)
    else
      let lowered := wrap ((wrap (adjusted.toInt - size)).toInt + 1)
      wrap (lowered.toInt.tdiv size * size)
  wrap (windowStart.toInt + assigner.offsetMs.toInt)

structure SlidingWindowAssigner where
  sizeMs : I64
  slideMs : I64
  offsetMs : I64
deriving DecidableEq

namespace SlidingWindowAssigner

def lastWindowStart (assigner : SlidingWindowAssigner) (timestamp : I64) : I64 :=
  let slide := assigner.slideMs.toInt
  let adjusted := wrap (timestamp.toInt - assigner.offsetMs.toInt)
  let base :=
    if 0 ≤ adjusted.toInt then wrap (adjusted.toInt.tdiv slide * slide)
    else
      let lowered := (adjusted.saturatingSub assigner.slideMs).saturatingAdd (.clamp 1)
      wrap (lowered.toInt.tdiv slide * slide)
  wrap (base.toInt + assigner.offsetMs.toInt)

/-- The walk back over the windows that contain the time; it ends at the latest where
the start cannot be lowered further. -/
def walkBack (assigner : SlidingWindowAssigner) (timestamp windowStart : I64) : List I64 :=
  if timestamp < wrap (windowStart.toInt + assigner.sizeMs.toInt) then
    let previous := windowStart.saturatingSub assigner.slideMs
    if previous < windowStart then windowStart :: walkBack assigner timestamp previous
    else [windowStart]
  else []
termination_by (windowStart.toInt + 2 ^ 63).toNat
decreasing_by
  rename_i lowered
  have bound := (windowStart.saturatingSub assigner.slideMs).lower
  have less := lt_iff.mp lowered
  simp only [previous] at *
  omega

/-- `assign_windows`, the earliest window first. -/
def assignWindows (assigner : SlidingWindowAssigner) (timestamp : I64) : List I64 :=
  (assigner.walkBack timestamp (assigner.lastWindowStart timestamp)).reverse

end SlidingWindowAssigner

/-- `EowcWindowType`, without the session windows that are never routed to it. -/
inductive EowcWindowType where
  | tumbling (sizeMs : I64)
  | hopping (sizeMs slideMs : I64)
deriving DecidableEq

namespace EowcWindowType

def sizeMs : EowcWindowType → I64
  | .tumbling sizeMs => sizeMs
  | .hopping sizeMs _ => sizeMs

/-- The loop over the starts of the hopping windows, latest first. No run of it takes
more turns than there are starts. -/
def hopBack (timestamp size slide : Int) : Nat → I64 → List I64
  | 0, _ => []
  | turns + 1, start =>
    if timestamp < (wrap (start.toInt + size)).toInt then
      start :: hopBack timestamp size slide turns (wrap (start.toInt - slide))
    else []

def assignWindows (timestamp : I64) : EowcWindowType → List I64
  | .tumbling sizeMs =>
    if sizeMs.toInt ≤ 0 then [.clamp 0]
    else [wrap (timestamp.toInt / sizeMs.toInt * sizeMs.toInt)]
  | .hopping sizeMs slideMs =>
    if slideMs.toInt ≤ 0 ∨ sizeMs.toInt ≤ 0 then [.clamp 0]
    else
      hopBack timestamp.toInt sizeMs.toInt slideMs.toInt (2 ^ 64)
        (wrap (timestamp.toInt / slideMs.toInt * slideMs.toInt))

end EowcWindowType

/-- The unit in which `extract_i64_timestamps` reads a column. -/
def stampUnit : Time.DataType → Except DbError TimeUnit
  | .int64 => .ok .millisecond
  | .timestamp unit => .ok unit
  | .other name => .error (.pipeline ("unsupported timestamp type for EOWC: " ++ name))

def extractI64Timestamps (column : Time.DataType) (cells : List (Option I64)) :
    Except DbError (List I64) :=
  (stampUnit column).map fun unit =>
    cells.map fun cell => (cell.map unit.toMillis).getD nullTimestamp

/-- The stamp is the last millisecond at or before the instant, or the bound next to it, and not
the mark of a null. -/
structure IsFloor (unit : TimeUnit) (value stamp : I64) : Prop where
  floor : stamp = .clamp (value.toInt * unit.nanos / 1000000)
  valid : stamp ≠ nullTimestamp

theorem isFloor_toMillis_iff {unit : TimeUnit} {value : I64} :
    IsFloor unit value (unit.toMillis value) ↔
      (value.toInt < 0 → 1000000 ∣ value.toInt * unit.nanos) ∧
        -2 ^ 63 < value.toInt * unit.nanos / 1000000 := by
  have upper := value.upper
  have floors : (unit.toMillis value = .clamp (value.toInt * unit.nanos / 1000000) ∧
      unit.toMillis value ≠ nullTimestamp) ↔
      (value.toInt < 0 → 1000000 ∣ value.toInt * unit.nanos) ∧
        -2 ^ 63 < value.toInt * unit.nanos / 1000000 := by
    cases unit with
    | second | millisecond =>
      simp only [I64.ext_iff, TimeUnit.toMillis, TimeUnit.nanos, I64.saturatingMul, I64.clamp,
        nullTimestamp, toInt_minValue, ne_eq]
      omega
    | microsecond | nanosecond =>
      simp only [I64.ext_iff, TimeUnit.toMillis, TimeUnit.nanos, I64.div, I64.clamp,
        Int.tdiv_eq_ediv, nullTimestamp, toInt_minValue, ne_eq, Int.sign_eq_one_of_pos,
        Int.reduceLT]
      omega
  rw [← floors]
  exact ⟨fun isFloor => ⟨isFloor.floor, isFloor.valid⟩, fun both => ⟨both.1, both.2⟩⟩

theorem toInt_wrap {value : Int} (lower : -2 ^ 63 ≤ value) (upper : value < 2 ^ 63) :
    (wrap value).toInt = value :=
  Int.bmod_eq_of_le (by omega) (by omega)

namespace EowcWindowType

def slideMs : EowcWindowType → I64
  | .tumbling sizeMs => sizeMs
  | .hopping _ slideMs => slideMs

/-- The windows leave no gaps, and near the time no arithmetic on them overflows. -/
structure Fits (kind : EowcWindowType) (timestamp : Int) : Prop where
  slides : 0 < kind.slideMs.toInt
  noGaps : kind.slideMs ≤ kind.sizeMs
  lower : -2 ^ 63 ≤ timestamp - kind.sizeMs.toInt - kind.slideMs.toInt
  upper : timestamp + kind.sizeMs.toInt < 2 ^ 63

/-- The stamp is put into some window, and the instant lies in each of them. -/
structure Places (kind : EowcWindowType) (unit : TimeUnit) (value stamp : I64) : Prop where
  placed : kind.assignWindows stamp ≠ []
  inside : ∀ start ∈ kind.assignWindows stamp,
    start.toInt * 1000000 ≤ value.toInt * unit.nanos ∧
      value.toInt * unit.nanos < (start.toInt + kind.sizeMs.toInt) * 1000000

theorem inside_of_hopBack {timestamp size slide : Int} (slides : 0 < slide) (noGaps : slide ≤ size)
    (lower : -2 ^ 63 ≤ timestamp - size - slide) (upper : timestamp + size < 2 ^ 63) {turns : Nat}
    {last start : I64} (isStart : start ∈ hopBack timestamp size slide turns last)
    (before : last.toInt ≤ timestamp) (near : timestamp - size - slide < last.toInt) :
    start.toInt ≤ timestamp ∧ timestamp < start.toInt + size := by
  induction turns generalizing last with
  | zero => cases isStart
  | succ turns ih =>
    rw [hopBack, toInt_wrap (by omega) (by omega)] at isStart
    split at isStart
    · rename_i inside
      rcases List.mem_cons.mp isStart with rfl | earlier
      · exact ⟨before, inside⟩
      · refine ih earlier ?_ ?_
        all_goals
          rw [toInt_wrap (by omega) (by omega)]
          omega
    · cases isStart

theorem places_of_fits {kind : EowcWindowType} {unit : TimeUnit} {value stamp : I64}
    (isFloor : stamp.toInt = value.toInt * unit.nanos / 1000000) (fits : kind.Fits stamp.toInt) :
    kind.Places unit value stamp := by
  obtain ⟨slides, noGaps, lower, upper⟩ := fits
  rw [le_iff] at noGaps
  have below := Int.ediv_mul_le stamp.toInt slides.ne'
  have above := Int.lt_ediv_add_one_mul_self stamp.toInt slides
  rw [Int.add_mul, Int.one_mul] at above
  have last : (wrap (stamp.toInt / kind.slideMs.toInt * kind.slideMs.toInt)).toInt =
      stamp.toInt / kind.slideMs.toInt * kind.slideMs.toInt :=
    toInt_wrap (by omega) (by omega)
  suffices inside : kind.assignWindows stamp ≠ [] ∧ ∀ start ∈ kind.assignWindows stamp,
      start.toInt ≤ stamp.toInt ∧ stamp.toInt < start.toInt + kind.sizeMs.toInt by
    refine ⟨inside.1, fun start isStart => ?_⟩
    have within := inside.2 start isStart
    omega
  cases kind with
  | tumbling sizeMs =>
    rw [slideMs] at *
    rw [assignWindows, if_neg (not_le.mpr slides)]
    refine ⟨List.cons_ne_nil _ _, List.forall_mem_singleton.mpr ?_⟩
    rw [last, EowcWindowType.sizeMs]
    omega
  | hopping sizeMs slideMs =>
    rw [EowcWindowType.slideMs, EowcWindowType.sizeMs] at *
    rw [assignWindows, if_neg (by omega)]
    constructor
    · rw [show 2 ^ 64 = 2 ^ 64 - 1 + 1 from rfl, hopBack, if_pos]
      · exact List.cons_ne_nil _ _
      · rw [last, toInt_wrap (by omega) (by omega)]
        omega
    · exact fun start isStart =>
        inside_of_hopBack slides noGaps lower upper isStart (by omega) (by omega)

end EowcWindowType

/-- What is extracted for the row has the property. -/
def Extracts (column : Time.DataType) (cells : List (Option I64)) (row : Nat)
    (property : I64 → Prop) : Prop :=
  ∃ stamps stamp, extractI64Timestamps column cells = .ok stamps ∧ stamps[row]? = some stamp ∧
    property stamp

open List

namespace SlidingWindowAssigner

/-- `from_millis`, which panics for other sizes. Its `windows_per_event`, which no assignment reads
and whose sum overflows for large sizes, is left out. -/
def fromMillis (sizeMs slideMs : I64) : Option SlidingWindowAssigner :=
  if 0 < sizeMs.toInt ∧ 0 < slideMs.toInt ∧ slideMs ≤ sizeMs then
    some ⟨sizeMs, slideMs, .clamp 0⟩
  else none

def withOffsetMs (assigner : SlidingWindowAssigner) (offsetMs : I64) : SlidingWindowAssigner :=
  { assigner with offsetMs }

theorem sorted_walkBack {assigner : SlidingWindowAssigner} {instant start : I64} :
    (assigner.walkBack instant start).Pairwise (· > ·) := by
  rw [← isChain_iff_pairwise]
  induction start using walkBack.induct assigner instant with
  | case1 start inside previous lower ih =>
    rw [walkBack, if_pos inside, if_pos lower]
    refine ih.cons fun next isNext => ?_
    rw [walkBack] at isNext
    split at isNext
    · dsimp only at isNext
      split at isNext <;> cases isNext <;> exact lower
    · cases isNext
  | case2 start inside previous notLower =>
    rw [walkBack, if_pos inside, if_neg notLower]
    exact .singleton _
  | case3 start outside =>
    rw [walkBack, if_neg outside]
    exact .nil

end SlidingWindowAssigner

/-- A window of `size` contains the time; the starts of the windows are `step` apart. -/
def IsStart (step size offset timestamp start : Int) : Prop :=
  step ∣ offset - start ∧ start ≤ timestamp ∧ timestamp < start + size

/-- The tumbling assigner returns the only window of the time, and the sliding assigner all of
them, the earliest first. -/
def AssignsExactly (size slide offset timestamp : I64) : Prop :=
  (∀ start, IsStart size.toInt size.toInt offset.toInt timestamp.toInt start ↔
    start = (TumblingWindowAssigner.assign ⟨size, offset⟩ timestamp).toInt) ∧
  ∃ assigner, SlidingWindowAssigner.fromMillis size slide = some assigner ∧
    ((assigner.withOffsetMs offset).assignWindows timestamp).Pairwise (· < ·) ∧
    ∀ start, IsStart slide.toInt size.toInt offset.toInt timestamp.toInt start ↔
      ∃ window ∈ (assigner.withOffsetMs offset).assignWindows timestamp, window.toInt = start

/-- The times at which nothing overflows. -/
abbrev Bounded (size offset timestamp : I64) : Prop :=
  timestamp.toInt.natAbs + size.toInt + offset.toInt.natAbs < 2 ^ 63

def lastStart (step offset timestamp : Int) : Int := (timestamp - offset) / step * step + offset

section LastStart

variable {step offset timestamp : Int} (positive : 0 < step)

include positive

theorem lastStart_bounds :
    lastStart step offset timestamp ≤ timestamp ∧
      timestamp < lastStart step offset timestamp + step := by
  have below := Int.ediv_mul_le (timestamp - offset) positive.ne'
  have above := Int.lt_ediv_add_one_mul_self (timestamp - offset) positive
  rw [Int.add_mul, Int.one_mul] at above
  unfold lastStart
  omega

theorem isStart_iff {size start : Int} :
    IsStart step size offset timestamp start ↔
      step ∣ lastStart step offset timestamp - start ∧
        start ≤ lastStart step offset timestamp ∧ timestamp < start + size := by
  have bounds := @lastStart_bounds step offset timestamp positive
  have aligned : lastStart step offset timestamp - start =
      offset - start + (timestamp - offset) / step * step := by
    rw [lastStart]
    omega
  rw [IsStart, aligned, Int.dvd_add_mul_self]
  refine and_congr_right fun divides => and_congr_left fun _ => ⟨fun before => ?_, ?_⟩
  · by_contra later
    rw [← Int.dvd_add_mul_self (c := (timestamp - offset) / step), ← aligned] at divides
    have apart := Int.le_of_dvd (by omega) (Int.dvd_neg.mpr divides)
    omega
  · exact fun before => before.trans bounds.1

end LastStart

section Assigners

variable {size slide offset timestamp start : I64}

section Floored

variable {adjusted lowered : I64} (positive : 0 < slide.toInt)
  (isLowered : ¬0 ≤ adjusted.toInt → lowered.toInt = adjusted.toInt - slide.toInt + 1)

include positive isLowered

theorem floored_eq :
    (if 0 ≤ adjusted.toInt then wrap (adjusted.toInt.tdiv slide.toInt * slide.toInt)
      else wrap (lowered.toInt.tdiv slide.toInt * slide.toInt)) =
        wrap (adjusted.toInt / slide.toInt * slide.toInt) := by
  split
  · rename_i nonneg
    rw [Int.tdiv_eq_ediv_of_nonneg nonneg]
  · rename_i negative
    rw [isLowered negative, tdiv_sub_add_one (not_le.mp negative) positive]

theorem toInt_floored (isAdjusted : adjusted.toInt = timestamp.toInt - offset.toInt)
    (fits : -2 ^ 63 ≤ lastStart slide.toInt offset.toInt timestamp.toInt) :
    (wrap ((if 0 ≤ adjusted.toInt then wrap (adjusted.toInt.tdiv slide.toInt * slide.toInt)
      else wrap (lowered.toInt.tdiv slide.toInt * slide.toInt)).toInt + offset.toInt)).toInt =
      lastStart slide.toInt offset.toInt timestamp.toInt := by
  have bounds := @lastStart_bounds slide.toInt offset.toInt timestamp.toInt positive
  have isLast : adjusted.toInt / slide.toInt * slide.toInt =
      lastStart slide.toInt offset.toInt timestamp.toInt - offset.toInt := by
    rw [isAdjusted, lastStart, Int.add_sub_cancel]
  have lower : -2 ^ 63 ≤ adjusted.toInt / slide.toInt * slide.toInt := by
    have least := lowered.lower
    have nonneg := fun isNonneg : 0 ≤ adjusted.toInt =>
      Int.mul_nonneg (Int.ediv_nonneg isNonneg positive.le) positive.le
    omega
  have upper := adjusted.upper
  have latest := timestamp.upper
  rw [floored_eq positive isLowered, toInt_wrap lower (by omega), isLast, Int.sub_add_cancel,
    toInt_wrap fits (by omega)]

end Floored

theorem toInt_assign (sized : 0 < size.toInt) (bounded : Bounded size offset timestamp) :
    (TumblingWindowAssigner.assign ⟨size, offset⟩ timestamp).toInt =
      lastStart size.toInt offset.toInt timestamp.toInt := by
  have isAdjusted := @toInt_wrap (timestamp.toInt - offset.toInt) (by omega) (by omega)
  have bounds := @lastStart_bounds size.toInt offset.toInt timestamp.toInt sized
  have fits : -2 ^ 63 ≤ lastStart size.toInt offset.toInt timestamp.toInt := by omega
  refine toInt_floored sized (fun negative => ?_) isAdjusted fits
  have isLowered := @toInt_wrap (timestamp.toInt - offset.toInt - size.toInt) (by omega) (by omega)
  simp only [isAdjusted, isLowered] at negative ⊢
  exact toInt_wrap (by omega) (by omega)

namespace SlidingWindowAssigner

theorem toInt_lastWindowStart (positive : 0 < slide.toInt)
    (lower : -2 ^ 63 ≤ timestamp.toInt - offset.toInt)
    (upper : timestamp.toInt - offset.toInt < 2 ^ 63)
    (slid : timestamp.toInt - offset.toInt < 0 →
      -2 ^ 63 ≤ timestamp.toInt - offset.toInt - slide.toInt)
    (fits : -2 ^ 63 ≤ lastStart slide.toInt offset.toInt timestamp.toInt) :
    (lastWindowStart ⟨size, slide, offset⟩ timestamp).toInt =
      lastStart slide.toInt offset.toInt timestamp.toInt := by
  have isAdjusted := toInt_wrap lower upper
  refine toInt_floored positive (fun negative => ?_) isAdjusted fits
  simp only [saturatingAdd, saturatingSub, clamp, isAdjusted] at negative ⊢
  omega

section

variable (sized : 0 < size.toInt) (fits : start.toInt + size.toInt < 2 ^ 63)

include sized fits

theorem lt_end_iff :
    timestamp < wrap (start.toInt + size.toInt) ↔ timestamp.toInt < start.toInt + size.toInt := by
  have lower := start.lower
  rw [lt_iff, toInt_wrap (by omega) fits]

theorem mem_walkBack (positive : 0 < slide.toInt)
    (early : -2 ^ 63 ≤ timestamp.toInt - size.toInt) {other : Int} :
    slide.toInt ∣ start.toInt - other ∧ other ≤ start.toInt ∧ timestamp.toInt < other + size.toInt ↔
      ∃ window ∈ walkBack ⟨size, slide, offset⟩ timestamp start, window.toInt = other := by
  induction start using walkBack.induct ⟨size, slide, offset⟩ timestamp with
  | case1 start inside previous lower ih =>
    -- a start that the subtraction would saturate at is too early to contain the time
    have isPrevious : previous.toInt = max (-2 ^ 63) (start.toInt - slide.toInt) := by
      have upper := start.upper
      simp only [previous, saturatingSub, clamp]
      omega
    rw [walkBack, if_pos inside, if_pos lower, exists_mem_cons_iff]
    refine .trans ⟨?_, ?_⟩ (or_congr_right (ih (by have := lt_iff.mp lower; omega)))
    · rintro ⟨divides, atMost, within⟩
      rcases atMost.eq_or_lt with same | less
      · exact .inl same.symm
      · have apart := Int.le_of_dvd (by omega) divides
        refine .inr ⟨?_, by omega, within⟩
        rw [show previous.toInt - other = start.toInt - other - slide.toInt by omega]
        exact dvd_sub_self_right.mpr divides
    · rintro (rfl | ⟨divides, atMost, within⟩)
      · exact ⟨by simp, le_rfl, (lt_end_iff sized fits).mp inside⟩
      · refine ⟨dvd_sub_self_right.mp ?_, by omega, within⟩
        rwa [show start.toInt - other - slide.toInt = previous.toInt - other by omega]
  | case2 start inside previous notLower =>
    have within := (lt_end_iff sized fits).mp inside
    rw [lt_iff] at notLower
    simp only [previous, saturatingSub, clamp] at notLower
    omega
  | case3 start outside =>
    rw [walkBack, if_neg outside]
    constructor
    · rintro ⟨_, atMost, within⟩
      exact absurd ((lt_end_iff sized fits).mpr (by omega)) outside
    · rintro ⟨_, missing, _⟩
      cases missing

end

end SlidingWindowAssigner

open SlidingWindowAssigner

theorem assignsExactly_of_le (size slide offset timestamp : I64) (sized : 0 < size.toInt)
    (positive : 0 < slide.toInt) (least : slide ≤ size) (bounded : Bounded size offset timestamp) :
    AssignsExactly size slide offset timestamp := by
  refine ⟨fun start => ?_, _, if_pos ⟨sized, positive, least⟩, ?_, fun start => ?_⟩
  · have bounds := @lastStart_bounds size.toInt offset.toInt timestamp.toInt sized
    rw [isStart_iff sized, toInt_assign sized bounded]
    constructor
    · rintro ⟨divides, atMost, inside⟩
      by_contra differs
      have apart := Int.le_of_dvd (by omega) divides
      omega
    · rintro rfl
      exact ⟨by simp, le_rfl, bounds.2⟩
  · exact pairwise_reverse.mpr sorted_walkBack
  · have notLonger := le_iff.mp least
    have bounds := @lastStart_bounds slide.toInt offset.toInt timestamp.toInt positive
    have isLast := @toInt_lastWindowStart size slide offset timestamp positive (by omega) (by omega)
      (by omega) (by omega)
    simp only [assignWindows, mem_reverse]
    rw [isStart_iff positive, ← isLast]
    exact mem_walkBack sized (by omega) positive (by omega)

theorem assignsExactly_of_le_hour :
    AssignsExactly (.clamp 3600000) (.clamp 900000) (.clamp 0) (.clamp (-1)) :=
  assignsExactly_of_le _ _ _ _ (by decide) (by decide) (by decide) (by decide)

/-- There is no assigner whose windows are further apart than they are long. -/
theorem not_assignsExactly_gaps :
    Bounded (.clamp 1000) (.clamp 0) (.clamp 0) ∧
      ¬AssignsExactly (.clamp 1000) (.clamp 2000) (.clamp 0) (.clamp 0) :=
  ⟨by decide, fun ⟨_, _, built, _⟩ => nomatch built⟩

end Assigners

end LaminarDB.State
