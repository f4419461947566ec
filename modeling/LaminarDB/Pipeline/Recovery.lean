import LaminarDB.Pipeline.Batching
import LaminarDB.State.Window

/-!
# Event time across a recovery

A checkpoint writes the watermarks of the sources to its manifest. Start-up builds new generators
and a new tracker and reads none of them, so that event time begins anew.
-/

namespace LaminarDB.Pipeline

open Library Time LaminarDB.State List WatermarkColumn SourceWatermarkState
open BoundedOutOfOrdernessGenerator

variable {Data : Type} {column : WatermarkColumn} {rows : List (Row Data)}
  {row : Row Data} {sourceId : Nat}

/-- What moves the watermark of a source: a batch that arrives, or a call of
`Source::watermark`. -/
inductive SourceEvent (Data : Type) where
  | batch (rows : List (Row Data))
  | provided (watermark : I64)

def SourceWatermarkState.provide (source : SourceWatermarkState) (watermark : I64) :
    SourceWatermarkState :=
  { source with sourceWatermark := max source.sourceWatermark watermark }

/-- The watermarks of a manifest; those of the sources stand in the order of their ids. -/
structure ManifestWatermarks where
  watermark : Option I64
  sourceWatermarks : List (Option I64)
deriving DecidableEq

namespace CallbackState

variable (state : CallbackState)

def apply (event : Nat × SourceEvent Data) : CallbackState :=
  match event.2 with
  | .batch rows => state.extractWatermark event.1 rows
  | .provided watermark =>
    { state with
      watermarkStates := state.watermarkStates.modify event.1 (·.provide watermark) }

def applyAll (events : List (Nat × SourceEvent Data)) : CallbackState :=
  events.foldl apply state

def keepsOf (sourceId : Nat) (rows : List (Row Data)) : List (Row Data) :=
  ((state.extractWatermark sourceId rows).filterLateRows sourceId rows).getD []

/-- The watermarks that a checkpoint writes. The callback passes none for the pipeline. -/
def manifestWatermarks : ManifestWatermarks where
  watermark := none
  sourceWatermarks := state.watermarkStates.map fun source =>
    if .minValue < source.generator.currentWatermark then
      some source.generator.currentWatermark
    else none

def recover (columns : List WatermarkColumn) (_manifest : ManifestWatermarks) : CallbackState :=
  start columns

def sourceWatermark (sourceId : Nat) : I64 :=
  (state.watermarkStates[sourceId]?.map SourceWatermarkState.sourceWatermark).getD .minValue

end CallbackState

inductive WindowOperator where
  | core (assigner : CoreWindowAssigner)
  | eowc (windowType : EowcWindowType)
deriving DecidableEq

namespace WindowOperator

/-- The starts of the windows that the time falls in; alone it opens a session that
starts with it. -/
def starts (timestamp : I64) : WindowOperator → List I64
  | .core (.tumbling assigner) => [assigner.assign timestamp]
  | .core (.hopping assigner) => assigner.assignWindows timestamp
  | .core (.session _) => [timestamp]
  | .eowc windowType => windowType.assignWindows timestamp

def sizeMs : WindowOperator → I64
  | .core (.tumbling assigner) => assigner.sizeMs
  | .core (.hopping assigner) => assigner.sizeMs
  | .core (.session gapMs) => gapMs
  | .eowc windowType => windowType.sizeMs

def closing : WindowOperator → Bool
  | .core _ => true
  | .eowc windowType => 0 < windowType.sizeMs.toInt

end WindowOperator

/-- A windowed query over one source: what its pre-aggregation makes of a row, if anything, and its
operator. -/
structure WindowReader (Acc Input Pre Data : Type) where
  preAgg : Row Data → Option Pre
  query : WindowQuery Acc Input Pre
  operator : WindowOperator

namespace WindowReader

variable {Acc Input Pre : Type} (reader : WindowReader Acc Input Pre Data)

def time? (row : Row Data) : Option I64 :=
  match reader.preAgg row, reader.query.time with
  | some pre, .ok time => if time pre = nullTimestamp then none else some (time pre)
  | _, _ => none

def starts (row : Row Data) : List I64 :=
  match reader.time? row with
  | none => []
  | some time => reader.operator.starts time

def closes (watermark start : I64) : Bool :=
  reader.operator.closing &&
    decide (Windows.closesAt reader.query reader.operator.sizeMs start ≤ watermark)

end WindowReader

namespace SourceEvent

variable (column : WatermarkColumn)

def establishes : SourceEvent Data → I64
  | .batch rows => column.watermark rows
  | .provided watermark => watermark

/-- The filter drops the row at the watermark of the event, or of a row of it. -/
def makesLate (row : Row Data) : SourceEvent Data → Bool
  | .batch rows => rows.any fun other => column.late other row
  | .provided watermark => column.lateAt watermark row

theorem lateAt_establishes (event : SourceEvent Data) :
    column.lateAt (event.establishes column) row = event.makesLate column row := by
  cases event with
  | batch rows =>
    simp only [establishes, makesLate, lateAt_watermark]
    simp [BatchedFilter.onTime, not_all_eq_any_not]
  | provided watermark => rfl

end SourceEvent

namespace WatermarkColumn

def peak (column : WatermarkColumn) (events : List (SourceEvent Data)) : I64 :=
  (events.map (SourceEvent.establishes column)).foldl max .minValue

theorem peak_append (left right : List (SourceEvent Data)) :
    column.peak (left ++ right) = max (column.peak left) (column.peak right) := by
  unfold peak
  simp only [map_append, foldl_append, ← foldl_assoc, max_eq_left I64.minValue_le]

theorem peak_singleton {event : SourceEvent Data} :
    column.peak [event] = event.establishes column :=
  max_eq_right I64.minValue_le

theorem lateAt_max (left right : I64) :
    column.lateAt (max left right) row = true ↔
      column.lateAt left row = true ∨ column.lateAt right row = true := by
  rcases le_total left right with ordered | ordered
  · rw [max_eq_right ordered]
    exact ⟨.inr, fun either => either.elim (lateAt_mono ordered) id⟩
  · rw [max_eq_left ordered]
    exact ⟨.inl, fun either => either.elim id (lateAt_mono ordered)⟩

theorem lateAt_peak (events : List (SourceEvent Data)) :
    column.lateAt (column.peak events) row = true ↔
      ∃ event ∈ events, event.makesLate column row = true := by
  induction events with
  | nil => simp [peak, not_lateAt_minValue]
  | cons event events ih =>
    rw [← singleton_append, peak_append, peak_singleton, lateAt_max, ih, event.lateAt_establishes]
    simp

end WatermarkColumn

namespace SourceWatermarkState

/-- The highest watermark that the source has been given is that of its handle; the
generator may be behind until the next batch. -/
structure Tracks (source : SourceWatermarkState) (column : WatermarkColumn) (peak : I64) :
    Prop where
  isColumn : source.column = column
  settled : source.generator.Settled column.maxOutOfOrderness
  behind : source.generator.currentWatermark ≤ peak
  sourceWatermark : source.sourceWatermark = peak

theorem tracks_start (column : WatermarkColumn) : (start column).Tracks column .minValue :=
  ⟨rfl, settled_new, le_rfl, rfl⟩

variable {source : SourceWatermarkState} {peak : I64}

theorem Tracks.provide (tracks : source.Tracks column peak) (watermark : I64) :
    (source.provide watermark).Tracks column (max peak watermark) :=
  { tracks with
    behind := tracks.behind.trans (le_max_left _ _)
    sourceWatermark := by rw [SourceWatermarkState.provide, tracks.sourceWatermark] }

theorem Tracks.batch (tracks : source.Tracks column peak) (rows : List (Row Data)) :
    (source.extractWatermark rows).1.Tracks column (max peak (column.watermark rows)) ∧
      (source.extractWatermark rows).1.generator.currentWatermark =
        max peak (column.watermark rows) := by
  obtain ⟨settled, reached⟩ := tracks.settled.advanceWatermark source.sourceWatermark
  rw [tracks.sourceWatermark, max_eq_right tracks.behind] at reached
  rw [tracks.sourceWatermark] at settled
  simp only [extractWatermark, tracks.sourceWatermark]
  generalize source.generator.advanceWatermark peak = advancement at settled reached ⊢
  obtain ⟨advanced, external⟩ := advancement
  rw [tracks.isColumn]
  rcases extract_eq column rows with found | ⟨⟨error, failed⟩, noEvent⟩
  · obtain ⟨moved, lifted⟩ := settled.onEvent (column.latest rows)
    rw [reached] at lifted
    simp only [found]
    rcases advanced.onEvent_cases with
      ⟨watermark, returned, -, isCurrent⟩ | ⟨returned, stayed⟩
    · have isPeak := isCurrent.symm.trans lifted
      refine ⟨⟨rfl, moved, lifted.le, ?_⟩, lifted⟩
      simp only [returned, Option.map_some, Option.getD_some, isPeak]
      exact max_eq_right (le_max_left _ _)
    · have unlifted : peak = max peak (column.watermark rows) :=
        reached.symm.trans (stayed.symm.trans lifted)
      refine ⟨⟨rfl, moved, lifted.le, ?_⟩, lifted⟩
      simpa only [returned, Option.map_none, Option.getD_none] using unlifted
  · have none_new : max peak (column.watermark rows) = peak := by
      rw [watermark, noEvent, watermarkOf_minValue, max_eq_left I64.minValue_le]
    simp only [failed, none_new]
    exact ⟨⟨rfl, settled, reached.le, rfl⟩, reached⟩

end SourceWatermarkState

def ownEvents (sourceId : Nat) (events : List (Nat × SourceEvent Data)) : List (SourceEvent Data) :=
  (events.filter fun event => event.1 = sourceId).map Prod.snd

namespace CallbackState

/-- The source has this column, and `peak` is the highest watermark it has been given. -/
def Tracks (state : CallbackState) (sourceId : Nat) (column : WatermarkColumn) (peak : I64) :
    Prop :=
  ∃ source, state.watermarkStates[sourceId]? = some source ∧ source.Tracks column peak

theorem tracks_start {columns : List WatermarkColumn} (found : columns[sourceId]? = some column) :
    (start columns).Tracks sourceId column .minValue := by
  refine ⟨.start column, ?_, SourceWatermarkState.tracks_start column⟩
  simp [start, found]

variable {state : CallbackState} {peak : I64}

section

variable (tracks : state.Tracks sourceId column peak)

include tracks

theorem Tracks.own (event : SourceEvent Data) :
    (state.apply (sourceId, event)).Tracks sourceId column
      (max peak (event.establishes column)) := by
  obtain ⟨source, found, tracksSource⟩ := tracks
  cases event with
  | batch rows =>
    refine ⟨(source.extractWatermark rows).1, ?_, (tracksSource.batch rows).1⟩
    rw [apply, watermarkStates_extractWatermark, getElem?_modify_eq, found]
    rfl
  | provided watermark =>
    refine ⟨source.provide watermark, ?_, tracksSource.provide watermark⟩
    rw [apply, getElem?_modify_eq, found]
    rfl

theorem Tracks.other {other : Nat} (differs : other ≠ sourceId) (event : SourceEvent Data) :
    (state.apply (other, event)).Tracks sourceId column peak := by
  obtain ⟨source, found, tracksSource⟩ := tracks
  refine ⟨source, ?_, tracksSource⟩
  cases event with
  | batch rows =>
    rw [apply, watermarkStates_extractWatermark, getElem?_modify_ne _ _ differs, found]
  | provided watermark => rw [apply, getElem?_modify_ne _ _ differs, found]

theorem Tracks.applyAll (events : List (Nat × SourceEvent Data)) :
    (state.applyAll events).Tracks sourceId column
      (max peak (column.peak (ownEvents sourceId events))) := by
  induction events generalizing state peak with
  | nil =>
    have unmoved : column.peak (ownEvents sourceId ([] : List (Nat × SourceEvent Data))) =
        .minValue := rfl
    rw [unmoved, max_eq_left I64.minValue_le]
    exact tracks
  | cons event events ih =>
    obtain ⟨source, event⟩ := event
    by_cases own : source = sourceId
    · subst own
      have split : ownEvents source ((source, event) :: events) =
          [event] ++ ownEvents source events := by
        simp [ownEvents]
      rw [split, peak_append, peak_singleton, ← max_assoc]
      exact ih (tracks.own event)
    · have skipped : ownEvents sourceId ((source, event) :: events) =
          ownEvents sourceId events := by
        simp [ownEvents, own]
      rw [skipped]
      exact ih (tracks.other own event)

theorem Tracks.mem_keepsOf (mem : row ∈ rows) :
    row ∈ state.keepsOf sourceId rows ↔
      ¬column.lateAt (max peak (column.watermark rows)) row = true := by
  obtain ⟨source, found, tracksSource⟩ := tracks
  obtain ⟨moved, reached⟩ := tracksSource.batch rows
  have isNext : (state.extractWatermark sourceId rows).watermarkStates[sourceId]? =
      some (source.extractWatermark rows).1 := by
    rw [watermarkStates_extractWatermark, getElem?_modify_eq, found]
    rfl
  unfold keepsOf filterLateRows
  rw [isNext]
  simp only [filterLateRows_eq, moved.isColumn, reached]
  simp [mem]

end

theorem mem_of_mem_keepsOf (kept : row ∈ state.keepsOf sourceId rows) : row ∈ rows := by
  unfold keepsOf filterLateRows at kept
  split at kept
  · exact kept
  · rw [filterLateRows_eq] at kept
    exact mem_of_mem_filter kept

theorem Tracks.sourceWatermark_eq (tracks : state.Tracks sourceId column peak) :
    state.sourceWatermark sourceId = peak := by
  obtain ⟨source, found, tracksSource⟩ := tracks
  unfold sourceWatermark
  rw [found]
  exact tracksSource.sourceWatermark

end CallbackState

section Recovery

variable {Acc Input Pre : Type} (columns : List WatermarkColumn) (sourceId : Fin columns.length)
  (reader : WindowReader Acc Input Pre Data) (before after : List (Nat × SourceEvent Data))

def checkpointed : CallbackState := (CallbackState.start columns).applyAll before

def restarted : CallbackState := .recover columns (checkpointed columns before).manifestWatermarks

/-- A row below the watermark that its source has in the manifest is dropped after the
restart exactly if it were dropped without the crash, and no row that is kept falls in a
window that was closed before. -/
structure Resumes : Prop where
  dropped : ∀ (front back : List (Nat × SourceEvent Data)) (rows : List (Row Data)),
    after = front ++ (sourceId.val, .batch rows) :: back → ∀ row ∈ rows, ∀ watermark,
    (checkpointed columns before).manifestWatermarks.sourceWatermarks[sourceId.val]? =
      some (some watermark) →
    (columns.get sourceId).Below watermark row →
      (row ∈ ((restarted columns before).applyAll front).keepsOf sourceId rows ↔
        row ∈ ((checkpointed columns before).applyAll front).keepsOf sourceId rows)
  windows : ∀ (front back : List (Nat × SourceEvent Data)) (rows : List (Row Data)),
    after = front ++ (sourceId.val, .batch rows) :: back →
    ∀ row ∈ ((restarted columns before).applyAll front).keepsOf sourceId rows,
    ∀ start ∈ reader.starts row,
      reader.closes (checkpointed columns before).pipelineWatermark start = false

def WasLate (row : Row Data) : Prop :=
  ∃ watermark,
    (checkpointed columns before).manifestWatermarks.sourceWatermarks[sourceId.val]? =
      some (some watermark) ∧
    (columns.get sourceId).Below watermark row ∧
    (columns.get sourceId).lateAt ((checkpointed columns before).sourceWatermark sourceId) row =
      true

def WasClosed (row : Row Data) : Prop :=
  ∃ start ∈ reader.starts row,
    reader.closes (checkpointed columns before).pipelineWatermark start = true

/-- Every row after the restart that was late at the checkpoint, or whose window was
closed then, is made late by an event of its source since the restart, at the latest by
its own batch. -/
def Overtaken : Prop :=
  ∀ (front back : List (Nat × SourceEvent Data)) (rows : List (Row Data)),
    after = front ++ (sourceId.val, .batch rows) :: back → ∀ row ∈ rows,
    WasLate columns sourceId before row ∨ WasClosed columns reader before row →
      ∃ event ∈ ownEvents sourceId front ++ [.batch rows],
        event.makesLate (columns.get sourceId) row = true

variable {columns sourceId reader before after}

theorem tracks_started (sourceId : Fin columns.length) (events : List (Nat × SourceEvent Data)) :
    ((CallbackState.start columns).applyAll events).Tracks sourceId (columns.get sourceId)
      ((columns.get sourceId).peak (ownEvents sourceId events)) := by
  have found : columns[sourceId.val]? = some (columns.get sourceId) := by simp
  have tracks := (CallbackState.tracks_start found).applyAll events
  rwa [max_eq_right I64.minValue_le] at tracks

section

variable (front : List (Nat × SourceEvent Data))

theorem mem_keepsOf_restarted (mem : row ∈ rows) :
    row ∈ ((restarted columns before).applyAll front).keepsOf sourceId rows ↔
      ¬∃ event ∈ ownEvents sourceId front ++ [.batch rows],
        event.makesLate (columns.get sourceId) row = true := by
  rw [← lateAt_peak, peak_append, peak_singleton]
  exact (tracks_started sourceId front).mem_keepsOf mem

theorem mem_keepsOf_checkpointed (mem : row ∈ rows) :
    row ∈ ((checkpointed columns before).applyAll front).keepsOf sourceId rows ↔
      ¬(columns.get sourceId).lateAt ((checkpointed columns before).sourceWatermark sourceId)
        row = true ∧ row ∈ ((restarted columns before).applyAll front).keepsOf sourceId rows := by
  have tracks := tracks_started sourceId before
  rw [mem_keepsOf_restarted front mem, ← lateAt_peak, peak_append, peak_singleton, checkpointed,
    tracks.sourceWatermark_eq, (tracks.applyAll front).mem_keepsOf mem, max_assoc, lateAt_max,
    not_or]
  rfl

end

theorem Resumes.of_overtaken (overtaken : Overtaken columns sourceId reader before after) :
    Resumes columns sourceId reader before after where
  dropped := by
    intro front back rows isAfter row mem watermark written below
    rw [mem_keepsOf_checkpointed front mem]
    refine ⟨fun kept => ⟨fun wasLate => ?_, kept⟩, And.right⟩
    exact (mem_keepsOf_restarted front mem).mp kept
      (overtaken front back rows isAfter row mem (.inl ⟨watermark, written, below, wasLate⟩))
  windows := by
    intro front back rows isAfter row kept start opened
    have mem : row ∈ rows := CallbackState.mem_of_mem_keepsOf kept
    refine Bool.eq_false_iff.mpr fun wasClosed => ?_
    exact (mem_keepsOf_restarted front mem).mp kept
      (overtaken front back rows isAfter row mem (.inr ⟨start, opened, wasClosed⟩))

theorem Overtaken.of_resumes (resumes : Resumes columns sourceId reader before after) :
    Overtaken columns sourceId reader before after := by
  intro front back rows isAfter row mem late_or_closed
  by_contra spared
  have kept : row ∈ ((restarted columns before).applyAll front).keepsOf sourceId rows :=
    (mem_keepsOf_restarted front mem).mpr spared
  rcases late_or_closed with ⟨watermark, written, below, wasLate⟩ | ⟨start, opened, wasClosed⟩
  · have keptBoth :=
      (resumes.dropped front back rows isAfter row mem watermark written below).mp kept
    exact ((mem_keepsOf_checkpointed front mem).mp keptBoth).1 wasLate
  · have notClosed := resumes.windows front back rows isAfter row kept start opened
    exact Bool.false_ne_true (notClosed.symm.trans wasClosed)

end Recovery

/-- The query of a reader that counts rows in windows of ten milliseconds. -/
def tenMillisReader : WindowReader Unit Unit (Row Unit) Unit where
  preAgg := some
  query :=
    { key := fun _ => []
      time := .ok fun row => row.cell.getD nullTimestamp
      groupTypes := []
      aggSpecs := []
      outputTypes := []
      maxGroupsPerWindow := 1
      allowedLatenessMs := .clamp 0
      postProjection := .ok }
  operator := .core (.tumbling ⟨.clamp 10, .clamp 0⟩)

/-- The row also falls in a window that was closed before. -/
example : WasClosed [ascendingColumn] tenMillisReader [(0, .batch [stampedRow 100])]
    (stampedRow 50) := by
  refine ⟨.clamp 50, ?_, ?_⟩ <;> decide

end LaminarDB.Pipeline
