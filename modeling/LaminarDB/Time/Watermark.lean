import LaminarDB.Time.EventTime

/-!
# Watermark generators and the tracker

`BoundedOutOfOrdernessGenerator` and `WatermarkTracker`. A generator that has only
seen events stands at the watermark of the latest of them.
-/

namespace LaminarDB.Time

open Library I64

structure BoundedOutOfOrdernessGenerator where
  maxOutOfOrderness : I64
  currentMaxTimestamp : I64
  currentWatermark : I64
deriving DecidableEq

namespace BoundedOutOfOrdernessGenerator

def new (maxOutOfOrderness : I64) : BoundedOutOfOrdernessGenerator where
  maxOutOfOrderness
  currentMaxTimestamp := .minValue
  currentWatermark := .minValue

variable (generator : BoundedOutOfOrdernessGenerator)

/-- `on_event`; the watermark is returned when it advances. -/
def onEvent (timestamp : I64) : BoundedOutOfOrdernessGenerator × Option I64 :=
  if generator.currentMaxTimestamp < timestamp then
    let seen := { generator with currentMaxTimestamp := timestamp }
    let newWatermark := timestamp.saturatingSub generator.maxOutOfOrderness
    if generator.currentWatermark < newWatermark then
      ({ seen with currentWatermark := newWatermark }, some newWatermark)
    else (seen, none)
  else (generator, none)

/-- `advance_watermark`, for a watermark that the source provides. -/
def advanceWatermark (timestamp : I64) : BoundedOutOfOrdernessGenerator × Option I64 :=
  if generator.currentWatermark < timestamp then
    let minMax := timestamp.saturatingAdd generator.maxOutOfOrderness
    ({ generator with
        currentWatermark := timestamp
        currentMaxTimestamp := max generator.currentMaxTimestamp minMax },
      some timestamp)
  else (generator, none)

end BoundedOutOfOrdernessGenerator

/-- The watermark that events up to `latest` establish. -/
def watermarkOf (bound latest : I64) : I64 :=
  if latest = .minValue then .minValue else latest.saturatingSub bound

variable (bound : I64)

@[simp]
theorem watermarkOf_minValue : watermarkOf bound .minValue = .minValue :=
  if_pos rfl

theorem watermarkOf_mono {left right : I64} (ordered : left ≤ right) :
    watermarkOf bound left ≤ watermarkOf bound right := by
  unfold watermarkOf
  by_cases least : left = .minValue
  · rw [if_pos least]
    exact minValue_le
  · have notLeast : right ≠ .minValue := by
      intro isLeast
      exact least (le_antisymm (isLeast ▸ ordered) minValue_le)
    rw [if_neg least, if_neg notLeast]
    exact saturatingSub_mono ordered

namespace BoundedOutOfOrdernessGenerator

/-- A generator that has seen events up to `latest` and no provided watermark. -/
structure Seen (generator : BoundedOutOfOrdernessGenerator) (bound latest : I64) : Prop where
  maxOutOfOrderness : generator.maxOutOfOrderness = bound
  currentMaxTimestamp : generator.currentMaxTimestamp = latest
  currentWatermark : generator.currentWatermark = watermarkOf bound latest

theorem seen_new : (new bound).Seen bound .minValue :=
  ⟨rfl, rfl, (watermarkOf_minValue bound).symm⟩

variable {generator : BoundedOutOfOrdernessGenerator} {bound timestamp : I64}

section

variable {latest : I64} (seen : generator.Seen bound latest)

include seen

theorem Seen.eq : generator = ⟨bound, latest, watermarkOf bound latest⟩ := by
  obtain ⟨rfl, rfl, atWatermark⟩ := seen
  rw [← atWatermark]

theorem Seen.onEvent_fst (timestamp : I64) :
    (generator.onEvent timestamp).1.Seen bound (max latest timestamp) := by
  rw [seen.eq]
  unfold onEvent
  by_cases later : latest < timestamp
  · have notLeast : timestamp ≠ .minValue := ne_of_gt (lt_of_le_of_lt minValue_le later)
    have established : watermarkOf bound timestamp = timestamp.saturatingSub bound :=
      if_neg notLeast
    have ordered := watermarkOf_mono bound later.le
    rw [if_pos later, max_eq_right later.le]
    by_cases advances : watermarkOf bound latest < timestamp.saturatingSub bound
    · rw [if_pos advances]
      exact ⟨rfl, rfl, established.symm⟩
    · rw [if_neg advances]
      rw [established] at ordered
      exact ⟨rfl, rfl, by rw [established]; exact le_antisymm ordered (not_lt.mp advances)⟩
  · rw [if_neg later, max_eq_left (not_lt.mp later)]
    exact ⟨rfl, rfl, rfl⟩

end

variable (generator) in
theorem onEvent_cases :
    let after := generator.onEvent timestamp
    (∃ watermark, after.2 = some watermark ∧ generator.currentWatermark < watermark ∧
      after.1.currentWatermark = watermark) ∨
    (after.2 = none ∧ after.1.currentWatermark = generator.currentWatermark) := by
  simp only [onEvent]
  by_cases later : generator.currentMaxTimestamp < timestamp
  · rw [if_pos later]
    by_cases advances : generator.currentWatermark <
        timestamp.saturatingSub generator.maxOutOfOrderness
    · rw [if_pos advances]
      exact .inl ⟨_, rfl, advances, rfl⟩
    · rw [if_neg advances]
      exact .inr ⟨rfl, rfl⟩
  · rw [if_neg later]
    exact .inr ⟨rfl, rfl⟩

variable (generator) in
/-- Every event time that the generator counts as seen is within its watermark. -/
structure Settled (bound : I64) : Prop where
  maxOutOfOrderness : generator.maxOutOfOrderness = bound
  covered : ∀ timestamp ≤ generator.currentMaxTimestamp,
    watermarkOf bound timestamp ≤ generator.currentWatermark

theorem settled_new : (new bound).Settled bound := by
  refine ⟨rfl, fun timestamp seen => ?_⟩
  rw [le_antisymm seen minValue_le]
  exact (watermarkOf_minValue bound).le

theorem Settled.onEvent (settled : generator.Settled bound) (timestamp : I64) :
    (generator.onEvent timestamp).1.Settled bound ∧
      (generator.onEvent timestamp).1.currentWatermark =
        max generator.currentWatermark (watermarkOf bound timestamp) := by
  simp only [BoundedOutOfOrdernessGenerator.onEvent]
  by_cases later : generator.currentMaxTimestamp < timestamp
  · have notLeast : timestamp ≠ .minValue := ne_of_gt (lt_of_le_of_lt minValue_le later)
    have established : watermarkOf bound timestamp = timestamp.saturatingSub bound :=
      if_neg notLeast
    rw [if_pos later, settled.maxOutOfOrderness, ← established]
    by_cases advances : generator.currentWatermark < watermarkOf bound timestamp
    · rw [if_pos advances, max_eq_right advances.le]
      exact ⟨⟨rfl, fun other seen => watermarkOf_mono bound seen⟩, rfl⟩
    · have within := not_lt.mp advances
      rw [if_neg advances, max_eq_left within]
      exact ⟨⟨rfl, fun other seen => (watermarkOf_mono bound seen).trans within⟩, rfl⟩
  · rw [if_neg later, max_eq_left (settled.covered timestamp (not_lt.mp later))]
    exact ⟨settled, rfl⟩

theorem watermarkOf_saturatingAdd_le :
    watermarkOf bound (timestamp.saturatingAdd bound) ≤ timestamp := by
  have lower := timestamp.lower
  unfold watermarkOf
  split
  · exact minValue_le
  · rename_i notLeast
    have inside : -2 ^ 63 ≤ timestamp.toInt + bound.toInt := by
      by_contra below
      refine notLeast (ext ?_)
      simp only [saturatingAdd, clamp, toInt_minValue]
      omega
    simp only [le_iff, saturatingSub, saturatingAdd, clamp]
    omega

theorem Settled.advanceWatermark (settled : generator.Settled bound) (timestamp : I64) :
    (generator.advanceWatermark timestamp).1.Settled bound ∧
      (generator.advanceWatermark timestamp).1.currentWatermark =
        max generator.currentWatermark timestamp := by
  simp only [BoundedOutOfOrdernessGenerator.advanceWatermark]
  by_cases ahead : generator.currentWatermark < timestamp
  · rw [if_pos ahead, max_eq_right ahead.le]
    refine ⟨⟨settled.maxOutOfOrderness, fun other seen => ?_⟩, rfl⟩
    rcases le_max_iff.mp seen with before | lifted
    · exact (settled.covered other before).trans ahead.le
    · rw [settled.maxOutOfOrderness] at lifted
      exact (watermarkOf_mono bound lifted).trans watermarkOf_saturatingAdd_le
  · rw [if_neg ahead, max_eq_left (not_lt.mp ahead)]
    exact ⟨settled, rfl⟩

end BoundedOutOfOrdernessGenerator

/-- `WatermarkTracker`, without the clock that finds sources idle. -/
structure WatermarkTracker where
  sourceWatermarks : List I64
  combinedWatermark : I64
  idleSources : List Bool
deriving DecidableEq

namespace WatermarkTracker

def new (numSources : Nat) : WatermarkTracker where
  sourceWatermarks := List.replicate numSources .minValue
  combinedWatermark := .minValue
  idleSources := List.replicate numSources false

variable (tracker : WatermarkTracker)

def activeWatermarks : List I64 :=
  ((tracker.sourceWatermarks.zip tracker.idleSources).filter fun source => !source.2).map Prod.fst

def updateCombined : WatermarkTracker × Option I64 :=
  let minWatermark :=
    if tracker.activeWatermarks.isEmpty then
      tracker.sourceWatermarks.foldl max .minValue
    else tracker.activeWatermarks.foldl min .maxValue
  if tracker.combinedWatermark < minWatermark ∧ minWatermark ≠ .maxValue then
    ({ tracker with combinedWatermark := minWatermark }, some minWatermark)
  else (tracker, none)

def updateSource (sourceId : Nat) (watermark : I64) : WatermarkTracker × Option I64 :=
  match tracker.sourceWatermarks[sourceId]? with
  | none => (tracker, none)
  | some current =>
    let active := { tracker with idleSources := tracker.idleSources.set sourceId false }
    if current < watermark then
      updateCombined
        { active with sourceWatermarks := tracker.sourceWatermarks.set sourceId watermark }
    else (active, none)

end WatermarkTracker

end LaminarDB.Time
