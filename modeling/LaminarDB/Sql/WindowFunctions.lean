import LaminarDB.State.WindowAssigner

/-!
# Window functions

The functions `tumble` and `hop`: `compute_tumble_with_offset` and `compute_hop_with_offset`, over
a column or a single value. They agree with the window assigners of the core.

Arithmetic that the source does not write as saturating wraps around. The calls read their
intervals and check that they are positive before; this is left out.
-/

namespace LaminarDB.Sql

open Library I64 List State Time
open SlidingWindowAssigner TumblingWindowAssigner

/-- `ColumnarValue`, of the types that hold times. -/
inductive ColumnarValue where
  | array (type : Time.DataType) (cells : List (Option I64))
  | scalar (type : Time.DataType) (cell : Option I64)
deriving DecidableEq

def debugType : Time.DataType → String
  | .int64 => "Int64"
  | .timestamp .second => "Timestamp(Second, None)"
  | .timestamp .millisecond => "Timestamp(Millisecond, None)"
  | .timestamp .microsecond => "Timestamp(Microsecond, None)"
  | .timestamp .nanosecond => "Timestamp(Nanosecond, None)"
  | .other name => name

/-- `scalar_to_timestamp_ms`. The message of the source also shows the value. -/
def scalarToTimestampMs (cell : Option I64) : Time.DataType → Except String (Option I64)
  | .timestamp .millisecond | .int64 => .ok cell
  | .timestamp .microsecond => .ok (cell.map (·.div 1000))
  | .timestamp .nanosecond => .ok (cell.map (·.div 1000000))
  | .timestamp .second => .ok (cell.map fun value => wrap (value.toInt * 1000))
  | .other name => .error ("Expected timestamp argument for window function, got: " ++ name)

/-- The bodies of `compute_tumble` and `compute_hop`, for the start of the window of a time. -/
def computeStart (function : String) (start : I64 → I64) :
    ColumnarValue → Except String ColumnarValue
  | .array type cells =>
    match type with
    | .timestamp .millisecond | .int64 =>
      .ok (.array (.timestamp .millisecond) (cells.map (Option.map start)))
    | other => .error ("Unsupported timestamp type for " ++ function ++ "(): " ++ debugType other ++
        ". Use TimestampMillisecond or Int64.")
  | .scalar type cell =>
    (scalarToTimestampMs cell type).map fun cell =>
      .scalar (.timestamp .millisecond) (cell.map start)

/-- The time is moved by the offset, and the start back. -/
def withOffset (start : I64 → I64) (offsetMs timestamp : I64) : I64 :=
  wrap ((start (wrap (timestamp.toInt - offsetMs.toInt))).toInt + offsetMs.toInt)

def computeStartWithOffset (function : String) (start : I64 → I64) (offsetMs : I64)
    (value : ColumnarValue) : Except String ColumnarValue :=
  if offsetMs.toInt = 0 then computeStart function start value
  else computeStart function (withOffset start offsetMs) value

def tumbleStart (intervalMs timestamp : I64) : I64 :=
  wrap (timestamp.toInt - timestamp.toInt % intervalMs.toInt)

def computeTumbleWithOffset (value : ColumnarValue) (intervalMs offsetMs : I64) :
    Except String ColumnarValue :=
  computeStartWithOffset "tumble" (tumbleStart intervalMs) offsetMs value

def hopEarliestStart (slideMs sizeMs timestamp : I64) : I64 :=
  let adjusted := wrap ((wrap (timestamp.toInt - sizeMs.toInt)).toInt + slideMs.toInt)
  wrap (adjusted.toInt - adjusted.toInt % slideMs.toInt)

def computeHopWithOffset (value : ColumnarValue) (slideMs sizeMs offsetMs : I64) :
    Except String ColumnarValue :=
  computeStartWithOffset "hop" (hopEarliestStart slideMs sizeMs) offsetMs value

abbrev Fits (value : Int) : Prop := -2 ^ 63 ≤ value ∧ value < 2 ^ 63

structure TumbleInRange (size offset timestamp : Int) : Prop where
  adjusted : Fits (timestamp - offset)
  lowered : timestamp - offset < 0 → Fits (timestamp - offset - size)

/-- The earliest start of a window that ends behind the time. -/
def firstStart (size slide offset timestamp : Int) : Int :=
  lastStart slide offset (timestamp - size + slide)

/-- The values between for `hop`, for the last start, and for the walk back from it, which looks
at one start before the first window. -/
structure HopInRange (size slide offset timestamp : Int) : Prop where
  adjusted : Fits (timestamp - offset)
  shortened : Fits (timestamp - offset - size)
  raised : Fits (timestamp - offset - size + slide)
  aligned : Fits (firstStart size slide offset timestamp - offset)
  first : Fits (firstStart size slide offset timestamp)
  lowered : timestamp - offset < 0 → Fits (timestamp - offset - slide)
  last : Fits (lastStart slide offset timestamp)
  ended : Fits (lastStart slide offset timestamp + size)
  previous : timestamp < lastStart slide offset timestamp + size →
    Fits (firstStart size slide offset timestamp - slide)

variable {size slide offset timestamp : I64}

theorem Fits.wrapped {value : Int} (fits : Fits value) : (wrap value).toInt = value :=
  toInt_wrap fits.1 fits.2

theorem wrap_toInt (value : I64) : wrap value.toInt = value :=
  I64.ext (toInt_wrap value.lower (Int.lt_of_le_sub_one value.upper))

theorem withOffset_zero {start : I64 → I64} (isZero : offset.toInt = 0) :
    withOffset start offset = start := by
  funext timestamp
  rw [withOffset, isZero, Int.sub_zero, Int.add_zero, wrap_toInt, wrap_toInt]

theorem computeStartWithOffset_eq {function : String} {start : I64 → I64} {value : ColumnarValue} :
    computeStartWithOffset function start offset value =
      computeStart function (withOffset start offset) value := by
  unfold computeStartWithOffset
  split
  · rename_i isZero
    rw [withOffset_zero isZero]
  · rfl

theorem sub_emod {value step : Int} : value - value % step = value / step * step :=
  Int.sub_eq_iff_eq_add.mpr (Int.ediv_mul_add_emod value step).symm

theorem tumble_eq_assign (sized : 0 < size.toInt)
    (inRange : TumbleInRange size.toInt offset.toInt timestamp.toInt) :
    withOffset (tumbleStart size) offset timestamp =
      assign ⟨size, offset⟩ timestamp := by
  have isAdjusted := inRange.adjusted.wrapped
  simp only [assign, withOffset, tumbleStart, sub_emod]
  rw [floored_eq sized]
  intro negative
  rw [isAdjusted] at negative ⊢
  have lowered := inRange.lowered (Int.not_le.mp negative)
  rw [lowered.wrapped, toInt_wrap (by omega) (by omega)]

theorem toInt_hop (inRange : HopInRange size.toInt slide.toInt offset.toInt timestamp.toInt) :
    (withOffset (hopEarliestStart slide size) offset timestamp).toInt =
      firstStart size.toInt slide.toInt offset.toInt timestamp.toInt := by
  have isFirst : (timestamp.toInt - offset.toInt - size.toInt + slide.toInt) / slide.toInt *
      slide.toInt = firstStart size.toInt slide.toInt offset.toInt timestamp.toInt -
        offset.toInt := by
    rw [firstStart, lastStart, Int.add_sub_cancel]
    congr 2
    omega
  simp only [withOffset, hopEarliestStart, sub_emod]
  rw [inRange.adjusted.wrapped, inRange.shortened.wrapped, inRange.raised.wrapped,
    isFirst, inRange.aligned.wrapped, Int.sub_add_cancel, inRange.first.wrapped]

theorem firstStart_spec {size slide offset timestamp : Int} (positive : 0 < slide) :
    slide ∣ lastStart slide offset timestamp - firstStart size slide offset timestamp ∧
      timestamp < firstStart size slide offset timestamp + size ∧
      firstStart size slide offset timestamp - slide ≤ timestamp - size ∧
      ∀ start, slide ∣ lastStart slide offset timestamp - start → timestamp < start + size →
        firstStart size slide offset timestamp ≤ start := by
  have bounds := @lastStart_bounds slide offset (timestamp - size + slide) positive
  have aligned : slide ∣
      lastStart slide offset timestamp - firstStart size slide offset timestamp := by
    rw [firstStart, lastStart, lastStart, Int.add_sub_add_right, ← Int.sub_mul]
    exact Int.dvd_mul_left _ _
  rw [← firstStart] at bounds
  refine ⟨aligned, by omega, by omega, fun start divides inside => ?_⟩
  by_contra later
  have apart := Int.le_of_dvd (by omega) (Int.dvd_sub divides aligned)
  omega

theorem min_assignWindows (sized : 0 < size.toInt) (positive : 0 < slide.toInt)
    (inRange : HopInRange size.toInt slide.toInt offset.toInt timestamp.toInt)
    (notEmpty : assignWindows ⟨size, slide, offset⟩ timestamp ≠ []) :
    (assignWindows ⟨size, slide, offset⟩ timestamp).min? =
      some (withOffset (hopEarliestStart slide size) offset timestamp) := by
  obtain ⟨aligned, inside, early, least⟩ := @firstStart_spec size.toInt slide.toInt offset.toInt
    timestamp.toInt positive
  have isLast := @toInt_lastWindowStart size slide offset timestamp positive
    inRange.adjusted.1 inRange.adjusted.2 (fun negative => (inRange.lowered negative).1)
    inRange.last.1
  have ended := inRange.ended
  simp only [assignWindows, ne_eq, reverse_eq_nil_iff] at notEmpty ⊢
  rw [← isLast] at aligned least ended
  have within : timestamp.toInt < (lastWindowStart ⟨size, slide, offset⟩
      timestamp).toInt + size.toInt := by
    rw [← lt_end_iff sized ended.2]
    by_contra outside
    rw [walkBack, if_neg outside] at notEmpty
    exact notEmpty rfl
  have previous := inRange.previous (isLast ▸ within)
  have members := fun other => @mem_walkBack size slide offset timestamp _
    sized ended.2 positive (previous.1.trans early) other
  rw [min?_eq_some_iff]
  constructor
  · obtain ⟨window, among, isWindow⟩ := (members _).mp
      ⟨aligned, least _ (Int.sub_self _ ▸ Int.dvd_zero _) within, inside⟩
    rw [← toInt_hop inRange] at isWindow
    exact mem_reverse.mpr (I64.ext isWindow ▸ among)
  · intro window among
    obtain ⟨divides, _, contains⟩ := (members _).mpr ⟨window, mem_reverse.mp among, rfl⟩
    rw [le_iff, toInt_hop inRange]
    exact least _ divides contains

/-- A function gives the same start for a value and in a column, and a null stays one. -/
def Computes (function : ColumnarValue → Except String ColumnarValue) (start : I64 → I64) : Prop :=
  ∀ type ∈ [Time.DataType.int64, .timestamp .millisecond], ∀ cell cells,
    function (.scalar type cell) = .ok (.scalar (.timestamp .millisecond) (cell.map start)) ∧
      function (.array type cells) =
        .ok (.array (.timestamp .millisecond) (cells.map (Option.map start)))

theorem computes (function : String) (start : I64 → I64) :
    Computes (computeStartWithOffset function start offset) (withOffset start offset) := by
  intro type isMillis cell cells
  simp only [computeStartWithOffset_eq]
  rcases mem_pair.mp isMillis with rfl | rfl <;> exact ⟨rfl, rfl⟩

/-- The start that `tumble` computes is that of the assigned window, and the start that `hop`
computes the first of the assigned windows. -/
theorem window_functions_agree (size slide offset : I64) (sized : 0 < size.toInt)
    (positive : 0 < slide.toInt) :
    ∃ tumble hop : I64 → I64,
      Computes (computeTumbleWithOffset · size offset) tumble ∧
      Computes (computeHopWithOffset · slide size offset) hop ∧
      ∀ timestamp,
        (TumbleInRange size.toInt offset.toInt timestamp.toInt →
          tumble timestamp = assign ⟨size, offset⟩ timestamp) ∧
        (HopInRange size.toInt slide.toInt offset.toInt timestamp.toInt →
          assignWindows ⟨size, slide, offset⟩ timestamp ≠ [] →
            (assignWindows ⟨size, slide, offset⟩ timestamp).min? = some (hop timestamp)) :=
  ⟨_, _, computes _ _, computes _ _,
    fun _ => ⟨tumble_eq_assign sized, min_assignWindows sized positive⟩⟩

theorem window_functions_agree_minute :
    ∃ tumble hop : I64 → I64,
      Computes (computeTumbleWithOffset · (.clamp 60000) (.clamp 0)) tumble ∧
      Computes (computeHopWithOffset · (.clamp 7000) (.clamp 60000) (.clamp 0)) hop ∧
      tumble (.clamp (-1)) = assign ⟨.clamp 60000, .clamp 0⟩ (.clamp (-1)) ∧
      (assignWindows ⟨.clamp 60000, .clamp 7000, .clamp 0⟩ (.clamp (-1))).min? =
        some (hop (.clamp (-1))) := by
  obtain ⟨tumble, hop, tumbles, hops, agree⟩ := window_functions_agree (.clamp 60000)
    (.clamp 7000) (.clamp 0) (by decide) (by decide)
  refine ⟨tumble, hop, tumbles, hops, (agree _).1 ?_, (agree _).2 ?_ (by decide +kernel)⟩
  · constructor <;> decide
  · constructor <;> decide

end LaminarDB.Sql
