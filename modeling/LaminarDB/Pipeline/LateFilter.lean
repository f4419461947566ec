import LaminarDB.Library.BatchedFilter
import LaminarDB.Pipeline.Coordinator
import LaminarDB.Time.Watermark

/-!
# Late rows

The callbacks `extract_watermark` and `filter_late_rows` that the coordinator makes for
every batch. The watermark of a source is moved by the whole batch before the batch is
filtered.

A source with a watermark column is named by its source id; a message for any other
source passes unchanged.
-/

namespace LaminarDB.Pipeline

open Library Time List BatchedFilter

variable {Data : Type} {column : WatermarkColumn} {rows batch right left : List (Row Data)}

/-- The watermark column of a source: its name, its type in the schema of the source,
the format in which it is read and the bound of its generator. -/
structure WatermarkColumn where
  name : String
  dataType : Option DataType
  format : TimestampFormat
  maxOutOfOrderness : I64
deriving DecidableEq

open WatermarkColumn EventTimeExtractor

namespace WatermarkColumn

def ofSchema (name : String) (dataType : Option DataType) (maxOutOfOrderness : I64) :
    WatermarkColumn where
  name
  dataType
  format := inferTimestampFormat dataType
  maxOutOfOrderness

variable (column : WatermarkColumn)

def unit? : Option TimeUnit :=
  column.dataType.bind column.format.unit?

def extractor : EventTimeExtractor where
  field := column.name
  format := column.format
  mode := .max

end WatermarkColumn

/-- `SourceWatermarkState`, with the watermark that the source's own handle keeps. -/
structure SourceWatermarkState where
  column : WatermarkColumn
  generator : BoundedOutOfOrdernessGenerator
  sourceWatermark : I64
deriving DecidableEq

namespace SourceWatermarkState

def start (column : WatermarkColumn) : SourceWatermarkState where
  column
  generator := .new column.maxOutOfOrderness
  sourceWatermark := .minValue

variable (source : SourceWatermarkState)

/-- What `extract_watermark` does to the state of the source, and the watermarks that
it reports to the tracker. -/
def extractWatermark (rows : List (Row Data)) : SourceWatermarkState × List I64 :=
  let (advanced, external) := source.generator.advanceWatermark source.sourceWatermark
  match source.column.extractor.extract source.column.dataType (rows.map Row.cell) with
  | .error _ => ({ source with generator := advanced }, external.toList)
  | .ok maxTs =>
    let (generator, watermark) := advanced.onEvent maxTs
    ({ source with
        generator
        sourceWatermark := (watermark.map (max source.sourceWatermark)).getD
          source.sourceWatermark },
      external.toList ++ watermark.toList)

def filterLateRows (rows : List (Row Data)) : Option (List (Row Data)) :=
  if .minValue < source.generator.currentWatermark then
    filterBatchByTimestamp source.column.dataType rows source.generator.currentWatermark
      source.column.format .greaterEq
  else some rows

end SourceWatermarkState

/-- The part of the callback that keeps event time; the position of a state in the list
is the source's id in the tracker. -/
structure CallbackState where
  watermarkStates : List SourceWatermarkState
  tracker : WatermarkTracker
  pipelineWatermark : I64
deriving DecidableEq

namespace CallbackState

def start (columns : List WatermarkColumn) : CallbackState where
  watermarkStates := columns.map .start
  tracker := .new columns.length
  pipelineWatermark := .minValue

def report (sourceId : Nat) (state : CallbackState) (watermark : I64) : CallbackState :=
  let (tracker, combined) := state.tracker.updateSource sourceId watermark
  { state with tracker, pipelineWatermark := combined.getD state.pipelineWatermark }

variable (state : CallbackState)

def extractWatermark (sourceId : Nat) (rows : List (Row Data)) : CallbackState :=
  match state.watermarkStates[sourceId]? with
  | none => state
  | some source =>
    let (next, reported) := source.extractWatermark rows
    reported.foldl (report sourceId)
      { state with watermarkStates := state.watermarkStates.set sourceId next }

def filterLateRows (sourceId : Nat) (rows : List (Row Data)) : Option (List (Row Data)) :=
  match state.watermarkStates[sourceId]? with
  | none => some rows
  | some source => source.filterLateRows rows

def run (messages : List (Nat × List (Row Data))) : CallbackState :=
  messages.foldl (fun state message => state.extractWatermark message.1 message.2) state

def kept (sourceId : Nat) (state : CallbackState) :
    List (Nat × List (Row Data)) → List (Row Data)
  | [] => []
  | message :: rest =>
    let next := state.extractWatermark message.1 message.2
    (if message.1 = sourceId then (next.filterLateRows sourceId message.2).getD [] else []) ++
      kept sourceId next rest

/-- The watermark of a source; a source without one is at the least value. -/
def watermark (sourceId : Nat) : I64 :=
  (state.watermarkStates[sourceId]?.map fun source =>
    source.generator.currentWatermark).getD .minValue

end CallbackState

def lateFilter (Data : Type) : PipelineCallback CallbackState (List (Row Data)) where
  extractWatermark := CallbackState.extractWatermark
  filterLateRows := CallbackState.filterLateRows

namespace WatermarkColumn

variable (column : WatermarkColumn)

def lateAt (watermark : I64) (row : Row Data) : Bool :=
  match column.unit? with
  | none => false
  | some unit =>
    decide (.minValue < watermark) &&
      !ThresholdOp.greaterEq.holds (unit.threshold watermark) row.cell

def establishes (row : Row Data) : I64 :=
  match column.unit?, row.cell with
  | some unit, some value => watermarkOf column.maxOutOfOrderness (unit.toMillis value)
  | _, _ => .minValue

/-- The filter drops `row` at the watermark that `other` establishes alone. -/
def late (other row : Row Data) : Bool :=
  column.lateAt (column.establishes other) row

def latest (rows : List (Row Data)) : I64 :=
  match column.unit? with
  | none => .minValue
  | some unit =>
    (stamps unit.toMillis (rows.map Row.cell)).foldl max .minValue

def watermark (rows : List (Row Data)) : I64 :=
  watermarkOf column.maxOutOfOrderness (column.latest rows)

variable {column : WatermarkColumn}

theorem not_lateAt_minValue (row : Row Data) : column.lateAt .minValue row = false := by
  unfold lateAt
  cases column.unit? with
  | none => rfl
  | some unit => simp

variable {row : Row Data} {watermark : I64}

theorem lateAt_eq_true_iff {unit : TimeUnit} (isUnit : column.unit? = some unit) :
    column.lateAt watermark row = true ↔
      .minValue < watermark ∧ ∀ value, row.cell = some value →
        value < unit.threshold watermark := by
  unfold lateAt
  rw [isUnit]
  cases row.cell with
  | none | some => simp [ThresholdOp.holds]

theorem unit?_of_lateAt
    (isLate : column.lateAt watermark row = true) : ∃ unit, column.unit? = some unit := by
  unfold lateAt at isLate
  cases isUnit : column.unit? with
  | none => simp [isUnit] at isLate
  | some unit => exact ⟨unit, rfl⟩

theorem lateAt_mono {left right : I64} (ordered : left ≤ right)
    (isLate : column.lateAt left row = true) : column.lateAt right row = true := by
  obtain ⟨unit, isUnit⟩ := unit?_of_lateAt isLate
  rw [lateAt_eq_true_iff isUnit] at isLate ⊢
  refine ⟨lt_of_lt_of_le isLate.1 ordered, fun value cell => ?_⟩
  exact lt_of_lt_of_le (isLate.2 value cell) (unit.threshold_mono ordered)

@[simp]
theorem latest_nil : column.latest ([] : List (Row Data)) = .minValue := by
  unfold latest
  cases column.unit? <;> rfl

theorem latest_append :
    column.latest (left ++ right) = max (column.latest left) (column.latest right) := by
  unfold latest
  cases column.unit? with
  | none => exact (max_self _).symm
  | some unit =>
    simp only [stamps, map_append, reduceOption_append,
      foldl_append, ← foldl_assoc, max_eq_left I64.minValue_le]

theorem watermark_singleton : column.watermark [row] = column.establishes row := by
  unfold watermark latest establishes
  cases column.unit? with
  | none => exact watermarkOf_minValue _
  | some unit =>
    cases cell : row.cell with
    | none => simp [stamps, cell]
    | some value =>
      simp [stamps, cell, max_eq_right I64.minValue_le]

theorem watermark_append :
    column.watermark (left ++ right) = max (column.watermark left) (column.watermark right) := by
  unfold watermark
  rw [latest_append]
  rcases le_total (column.latest left) (column.latest right) with ordered | ordered
  · rw [max_eq_right ordered, max_eq_right (watermarkOf_mono _ ordered)]
  · rw [max_eq_left ordered, max_eq_left (watermarkOf_mono _ ordered)]

theorem at_watermark_iff (holds : I64 → Prop) (atLeast : ¬holds .minValue)
    (mono : ∀ {left right}, left ≤ right → holds left → holds right) (rows : List (Row Data)) :
    holds (column.watermark rows) ↔ ∃ row ∈ rows, holds (column.establishes row) := by
  induction rows with
  | nil => simp [watermark, atLeast]
  | cons row rows ih =>
    rw [← singleton_append, watermark_append, watermark_singleton]
    simp only [singleton_append, mem_cons, exists_eq_or_imp, ← ih]
    rcases le_total (column.establishes row) (column.watermark rows) with ordered | ordered
    · rw [max_eq_right ordered]
      exact ⟨Or.inr, fun either => either.elim (mono ordered) id⟩
    · rw [max_eq_left ordered]
      exact ⟨Or.inl, fun either => either.elim id (mono ordered)⟩

theorem lateAt_watermark :
    column.lateAt (column.watermark rows) row = !onTime column.late rows row := by
  have exact_iff := column.at_watermark_iff (fun watermark => column.lateAt watermark row = true)
    (by simp [not_lateAt_minValue]) (fun ordered => lateAt_mono ordered) rows
  cases verdict : onTime column.late rows row with
  | false => exact exact_iff.mpr (not_onTime_iff.mp verdict)
  | true =>
    refine Bool.eq_false_iff.mpr fun isLate => ?_
    obtain ⟨other, mem, makes⟩ := exact_iff.mp isLate
    have spared := onTime_iff.mp verdict other mem
    exact Bool.false_ne_true (spared.symm.trans makes)

end WatermarkColumn

namespace SourceWatermarkState

/-- The source has seen exactly these rows and no watermark but its own. -/
structure Seen (source : SourceWatermarkState) (column : WatermarkColumn)
    (rows : List (Row Data)) : Prop where
  isColumn : source.column = column
  generator : source.generator.Seen column.maxOutOfOrderness (column.latest rows)
  sourceWatermark : source.sourceWatermark = source.generator.currentWatermark

theorem seen_start (column : WatermarkColumn) :
    (start column).Seen column ([] : List (Row Data)) := by
  refine ⟨rfl, ?_, rfl⟩
  rw [latest_nil]
  exact BoundedOutOfOrdernessGenerator.seen_new _

variable {source : SourceWatermarkState}

theorem Seen.currentWatermark (seen : source.Seen column rows) :
    source.generator.currentWatermark = column.watermark rows :=
  seen.generator.currentWatermark

theorem extract_eq (column : WatermarkColumn) (rows : List (Row Data)) :
    column.extractor.extract column.dataType (rows.map Row.cell) = .ok (column.latest rows) ∨
    ((∃ error, column.extractor.extract column.dataType (rows.map Row.cell) = .error error) ∧
      column.latest rows = .minValue) := by
  unfold EventTimeExtractor.extract latest unit?
  by_cases noRows : rows = []
  · subst noRows
    refine .inr ⟨⟨_, rfl⟩, ?_⟩
    cases column.dataType.bind column.format.unit? <;> rfl
  · rw [if_neg (by simpa using noRows)]
    cases column.dataType with
    | none => exact .inr ⟨⟨_, rfl⟩, rfl⟩
    | some dataType =>
      have isFormat : column.extractor.format = column.format := rfl
      simp only [isFormat, Option.bind_some]
      cases column.format.unit? dataType with
      | none => exact .inr ⟨⟨_, rfl⟩, rfl⟩
      | some unit =>
        simp only [extractor, extractCells_max]
        cases stamped : stamps unit.toMillis (rows.map Row.cell) with
        | nil => exact .inr ⟨⟨_, rfl⟩, rfl⟩
        | cons stamp stamps => exact .inl rfl

theorem Seen.extractWatermark (seen : source.Seen column rows) (batch : List (Row Data)) :
    (source.extractWatermark batch).1.Seen column (rows ++ batch) := by
  have unmoved : source.generator.advanceWatermark source.sourceWatermark =
      (source.generator, none) := if_neg (not_lt.mpr seen.sourceWatermark.le)
  unfold SourceWatermarkState.extractWatermark
  rw [unmoved, seen.isColumn]
  rcases extract_eq column batch with found | ⟨⟨error, failed⟩, noEvent⟩
  · rw [found]
    have moved := seen.generator.onEvent_fst (column.latest batch)
    rw [← latest_append] at moved
    refine ⟨rfl, moved, ?_⟩
    show (Option.map _ (source.generator.onEvent (column.latest batch)).2).getD _ =
      (source.generator.onEvent (column.latest batch)).1.currentWatermark
    rcases source.generator.onEvent_cases with
      ⟨watermark, returned, advanced, reached⟩ | ⟨returned, stayed⟩
    · rw [returned, reached, Option.map_some, Option.getD_some, seen.sourceWatermark,
        max_eq_right advanced.le]
    · rw [returned, stayed, Option.map_none, Option.getD_none, seen.sourceWatermark]
  · rw [failed]
    refine ⟨rfl, ?_, seen.sourceWatermark⟩
    rw [latest_append, noEvent, max_eq_left I64.minValue_le]
    exact seen.generator

theorem filterLateRows_eq :
    (source.filterLateRows rows).getD [] =
      rows.filter fun row => !source.column.lateAt source.generator.currentWatermark row := by
  unfold filterLateRows filterBatchByTimestamp lateAt unit?
  cases source.column.dataType.bind source.column.format.unit? with
  | none => simp
  | some unit =>
    by_cases established : I64.minValue < source.generator.currentWatermark
    · rw [if_pos established]
      simp only [established, decide_true, Bool.true_and, Bool.not_not]
      split
      · rename_i noneKept
        exact (isEmpty_iff.mp noneKept).symm
      · rfl
    · simp [established]

theorem Seen.filterLateRows (seen : source.Seen column (rows ++ batch)) :
    (source.filterLateRows batch).getD [] = keepBatch column.late rows batch := by
  rw [filterLateRows_eq, seen.isColumn, seen.currentWatermark]
  simp only [lateAt_watermark, Bool.not_not]
  rfl

end SourceWatermarkState

variable (sourceId : Nat) {state : CallbackState}

def ownBatches (messages : List (Nat × List (Row Data))) : List (List (Row Data)) :=
  (messages.filter fun message => message.1 = sourceId).map Prod.snd

@[simp]
theorem ownBatches_nil : ownBatches sourceId ([] : List (Nat × List (Row Data))) = [] := rfl

section

variable (batch : List (Row Data)) (messages : List (Nat × List (Row Data)))

theorem ownBatches_cons_own :
    ownBatches sourceId ((sourceId, batch) :: messages) =
      batch :: ownBatches sourceId messages := by
  simp [ownBatches]

theorem ownBatches_cons_other {sourceId other : Nat} (differs : other ≠ sourceId) :
    ownBatches sourceId ((other, batch) :: messages) = ownBatches sourceId messages := by
  simp [ownBatches, differs]

end

theorem ownBatches_append (left right : List (Nat × List (Row Data))) :
    ownBatches sourceId (left ++ right) =
      ownBatches sourceId left ++ ownBatches sourceId right := by
  simp [ownBatches]

theorem ownBatches_map (batches : List (List (Row Data))) :
    ownBatches sourceId (batches.map (Prod.mk sourceId)) = batches := by
  induction batches with
  | nil => rfl
  | cons batch batches ih =>
    rw [map_cons, ownBatches_cons_own, ih]

namespace CallbackState

@[simp]
theorem watermarkStates_report {sourceId : Nat} {watermark : I64} :
    (state.report sourceId watermark).watermarkStates = state.watermarkStates := rfl

@[simp]
theorem watermarkStates_foldl_report {sourceId : Nat} {reported : List I64} :
    (reported.foldl (report sourceId) state).watermarkStates = state.watermarkStates := by
  induction reported generalizing state with
  | nil => rfl
  | cons watermark reported ih =>
    rw [foldl_cons, ih, watermarkStates_report]

theorem watermarkStates_extractWatermark {sourceId : Nat} :
    (state.extractWatermark sourceId rows).watermarkStates =
      state.watermarkStates.modify sourceId fun source => (source.extractWatermark rows).1 := by
  unfold extractWatermark
  rw [modify_eq_set_getElem?]
  cases state.watermarkStates[sourceId]? with
  | none => rfl
  | some source => exact watermarkStates_foldl_report

def Seen (state : CallbackState) (sourceId : Nat) (column : WatermarkColumn)
    (rows : List (Row Data)) : Prop :=
  ∃ source, state.watermarkStates[sourceId]? = some source ∧ source.Seen column rows

theorem seen_start {columns : List WatermarkColumn} {sourceId : Nat}
    (found : columns[sourceId]? = some column) :
    (start columns).Seen sourceId column ([] : List (Row Data)) := by
  refine ⟨.start column, ?_, SourceWatermarkState.seen_start column⟩
  simp [start, found]

variable {sourceId : Nat}

section

variable (seen : state.Seen sourceId column rows)

include seen

theorem Seen.own (batch : List (Row Data)) :
    (state.extractWatermark sourceId batch).Seen sourceId column (rows ++ batch) := by
  obtain ⟨source, found, seenSource⟩ := seen
  refine ⟨(source.extractWatermark batch).1, ?_, seenSource.extractWatermark batch⟩
  rw [watermarkStates_extractWatermark, getElem?_modify_eq, found]
  rfl

theorem Seen.other {other : Nat} (differs : other ≠ sourceId) (batch : List (Row Data)) :
    (state.extractWatermark other batch).Seen sourceId column rows := by
  obtain ⟨source, found, seenSource⟩ := seen
  refine ⟨source, ?_, seenSource⟩
  rw [watermarkStates_extractWatermark, getElem?_modify_ne _ _ differs, found]

theorem Seen.run (messages : List (Nat × List (Row Data))) :
    (state.run messages).Seen sourceId column (rows ++ (ownBatches sourceId messages).flatten) := by
  induction messages generalizing state rows with
  | nil => simpa [run] using seen
  | cons message messages ih =>
    obtain ⟨source, batch⟩ := message
    by_cases own : source = sourceId
    · subst own
      rw [ownBatches_cons_own, flatten_cons, ← append_assoc]
      exact ih (seen.own batch)
    · rw [ownBatches_cons_other _ _ own]
      exact ih (seen.other own batch)

theorem Seen.watermark : state.watermark sourceId = column.watermark rows := by
  obtain ⟨source, found, seenSource⟩ := seen
  unfold CallbackState.watermark
  rw [found]
  exact seenSource.currentWatermark

end

theorem Seen.filterLateRows (seen : state.Seen sourceId column (rows ++ batch)) :
    (state.filterLateRows sourceId batch).getD [] = keepBatch column.late rows batch := by
  obtain ⟨source, found, seenSource⟩ := seen
  unfold CallbackState.filterLateRows
  rw [found]
  exact seenSource.filterLateRows

theorem Seen.kept (seen : state.Seen sourceId column rows)
    (messages : List (Nat × List (Row Data))) :
    state.kept sourceId messages = keepFrom column.late rows (ownBatches sourceId messages) := by
  induction messages generalizing state rows with
  | nil => rfl
  | cons message messages ih =>
    obtain ⟨source, batch⟩ := message
    by_cases own : source = sourceId
    · subst own
      rw [ownBatches_cons_own, kept, keepFrom, if_pos rfl,
        (seen.own batch).filterLateRows, ih (seen.own batch)]
    · rw [ownBatches_cons_other _ _ own, kept, if_neg own, nil_append, ih (seen.other own batch)]

end CallbackState

end LaminarDB.Pipeline
