import LaminarDB.Library.Maps
import LaminarDB.Library.Saturating
import LaminarDB.State.Scalar

/-!
# The interval join

`execute_interval_join_cycle` with the state of its two sides: the batches that are
buffered, and an index of their rows by hash of the key and by time. A row that is
evicted leaves the index; its batch stays until the side is compacted.

The hash is any function of the key. The schema of a stream does not change, so that
the columns of a side are part of the configuration.
-/

namespace LaminarDB.Executor.IntervalJoin

open Library State

inductive JoinKey where
  | utf8 (value : String)
  | int64 (value : Int64)
deriving DecidableEq

inductive FloatValue where
  | nan
  | infinite (negative : Bool)
  | finite (value : ℚ)
deriving DecidableEq

/-- `v as i64`. -/
def FloatValue.toI64 : FloatValue → I64
  | .nan => .clamp 0
  | .infinite negative => if negative then .minValue else .maxValue
  | .finite value => .clamp (value.num.tdiv value.den)

inductive TimeCell where
  | int64 (valid : Bool) (value : I64)
  | float64 (valid : Bool) (value : FloatValue)
deriving DecidableEq

/-- The value that `extract_column_as_timestamps` reads of the cell. -/
def TimeCell.timestamp : TimeCell → I64
  | .int64 _ value => value
  | .float64 _ value => value.toI64

def TimeCell.instant : TimeCell → Option ℚ
  | .int64 true value => some value.toInt
  | .float64 true (.finite value) => some value
  | _ => none

structure JoinRow (Row : Type) where
  key : Option JoinKey
  time : TimeCell
  content : Row

abbrev JoinBatch (Row : Type) := List (JoinRow Row)

variable {Row Other : Type}

def JoinRow.timestamp (row : JoinRow Row) : I64 := row.time.timestamp

/-- `keys_equal`: a null is equal to nothing. -/
def keysEqual (row : JoinRow Row) (other : JoinRow Other) : Bool :=
  match row.key, other.key with
  | some key, some otherKey => key = otherKey
  | _, _ => false

inductive ColumnType where
  | utf8
  | int64
  | timestampMillisecond
  | float64
  | other (name : String)
deriving DecidableEq

structure JoinColumn where
  name : String
  dataType : Option ColumnType

def ColumnType.display : ColumnType → String
  | .utf8 => "Utf8"
  | .int64 => "Int64"
  | .timestampMillisecond => "Timestamp(ms)"
  | .float64 => "Float64"
  | .other name => name

/-- What `extract_key_column` fails with. -/
def keyColumnError (column : JoinColumn) : Option DbError :=
  match column.dataType with
  | none => some (.pipeline ("Column '" ++ column.name ++ "' not found"))
  | some .utf8 => none
  | some .int64 => none
  | some other => some (.pipeline ("Unsupported key column type: " ++ other.display))

/-- What `extract_column_as_timestamps` fails with. -/
def timeColumnError (column : JoinColumn) : Option DbError :=
  match column.dataType with
  | none => some (.pipeline ("Timestamp column '" ++ column.name ++ "' not found"))
  | some .int64 => none
  | some .timestampMillisecond => none
  | some .float64 => none
  | some other => some (.pipeline ("Unsupported timestamp column type for '" ++ column.name ++
      "': " ++ other.display))

structure SideColumns where
  key : JoinColumn
  time : JoinColumn

def SideColumns.error (columns : SideColumns) : Option DbError :=
  (keyColumnError columns.key).or (timeColumnError columns.time)

abbrev Position := Nat × Nat

/-- `SideIndex`: positions by hash of the key and by time. -/
abbrev SideIndex := KeyedMap UInt64 (SortedMap I64 (List Position))

namespace SideIndex

def push (index : SideIndex) (hash : UInt64) (timestamp : I64) (position : Position) : SideIndex :=
  let times := (index.find? hash).getD .empty
  index.insert hash (times.insert timestamp ((times.find? timestamp).getD [] ++ [position]))

def pushRows (hash : JoinKey → UInt64) (batchIdx : Nat) :
    SideIndex → Nat → JoinBatch Row → SideIndex
  | index, _, [] => index
  | index, rowIdx, row :: rows =>
    match row.key with
    | none => pushRows hash batchIdx index (rowIdx + 1) rows
    | some key => pushRows hash batchIdx
        (index.push (hash key) row.timestamp (batchIdx, rowIdx)) (rowIdx + 1) rows

def keepFrom (cutoff : I64) (times : SortedMap I64 (List Position)) :
    SortedMap I64 (List Position) where
  entries := times.entries.filter fun entry => cutoff ≤ entry.1
  sorted := times.sorted.sublist (List.filter_sublist.map _)

variable (index : SideIndex)

def evict (cutoff : I64) : SideIndex where
  entries := (index.mapValues (keepFrom cutoff)).entries.filter fun entry =>
    !entry.2.entries.isEmpty
  unique := (index.mapValues (keepFrom cutoff)).unique.sublist (List.filter_sublist.map _)

def positions : List Position :=
  index.entries.flatMap fun times => times.2.entries.flatMap Prod.snd

/-- `probe_index`. -/
def probe (hash : UInt64) (timestamp boundMs : I64) : List Position :=
  match index.find? hash with
  | none => []
  | some times =>
    (times.entries.filter fun entry => timestamp.saturatingSub boundMs ≤ entry.1 &&
      entry.1 ≤ timestamp.saturatingAdd boundMs).flatMap Prod.snd

end SideIndex

def compactionThreshold : Nat := 32

structure SideState (Row : Type) where
  batches : List (JoinBatch Row)
  index : SideIndex
  rowCount : Nat

namespace SideState

variable (hash : JoinKey → UInt64) (columns : SideColumns)

def new : SideState Row where
  batches := []
  index := .empty
  rowCount := 0

def rowAt (batches : List (JoinBatch Row)) (position : Position) : Option (JoinRow Row) :=
  batches[position.1]?.bind (·[position.2]?)

variable (side : SideState Row)

def addBatch (batch : JoinBatch Row) : SideState Row × Option DbError :=
  if batch.isEmpty then (side, none)
  else
    match columns.error with
    | some error => (side, some error)
    | none =>
      ({ batches := side.batches ++ [batch]
         index := side.index.pushRows hash side.batches.length 0 batch
         rowCount := side.rowCount + (batch.filter fun row => row.key.isSome).length }, none)

def sortPositions (positions : List Position) : List Position :=
  positions.mergeSort fun left right =>
    left.1 < right.1 || (left.1 == right.1 && left.2 ≤ right.2)

def compact : SideState Row × Option DbError :=
  if side.index.positions.isEmpty then ({ side with batches := [] }, none)
  else
    let compacted := (sortPositions side.index.positions).filterMap (rowAt side.batches)
    match columns.error with
    | some error =>
      ({ batches := [compacted], index := .empty, rowCount := side.rowCount }, some error)
    | none =>
      ({ batches := [compacted]
         index := SideIndex.pushRows hash 0 .empty 0 compacted
         rowCount := compacted.length }, none)

def evictBefore (cutoff : I64) : SideState Row × Option DbError :=
  let index := side.index.evict cutoff
  let evicted := side.index.positions.length - index.positions.length
  let side := { side with index, rowCount := side.rowCount - evicted }
  if compactionThreshold < side.batches.length then compact hash columns side else (side, none)

end SideState

/-- `StreamJoinConfig`, with the time bound in milliseconds. -/
structure StreamJoinConfig where
  left : SideColumns
  right : SideColumns
  timeBound : Nat

def StreamJoinConfig.boundMs (config : StreamJoinConfig) : I64 := .clamp config.timeBound

/-- `IntervalJoinState`; the output schema follows from the schemas of the sides. -/
structure JoinState (Row Other : Type) where
  left : SideState Row
  right : SideState Other
  evictedWatermark : I64

def JoinState.new : JoinState Row Other where
  left := .new
  right := .new
  evictedWatermark := .minValue

structure JoinInput (Row Other : Type) where
  left : List (JoinBatch Row)
  right : List (JoinBatch Other)
  watermark : I64

section Cycle

variable (hash : JoinKey → UInt64) (config : StreamJoinConfig)

def newBatch (batches : List (JoinBatch Row)) : Option (JoinBatch Row) :=
  if batches.isEmpty then none else some batches.flatten

def addNew (columns : SideColumns) (side : SideState Row) (batch : Option (JoinBatch Row)) :
    SideState Row × Option DbError :=
  batch.elim (side, none) (side.addBatch hash columns)

/-- The new rows of a side with the admitted rows of the other side that they match. -/
def probeRows (probed : SideState Other) (admits : Position → Bool) (batchIdx : Nat)
    (boundMs : I64) (rows : JoinBatch Row) : List (Position × Position) :=
  rows.zipIdx.flatMap fun row =>
    match row.1.key with
    | none => []
    | some key =>
      ((probed.index.probe (hash key) row.1.timestamp boundMs).filter fun candidate =>
        admits candidate &&
          (SideState.rowAt probed.batches candidate).any (keysEqual row.1)).map
          fun candidate => ((batchIdx, row.2), candidate)

def pairsAt (left : List (JoinBatch Row)) (right : List (JoinBatch Other))
    (pairs : List (Position × Position)) : List (JoinRow Row × JoinRow Other) :=
  pairs.filterMap fun pair =>
    (SideState.rowAt left pair.1).bind fun row =>
      (SideState.rowAt right pair.2).map fun other => (row, other)

variable (state : JoinState Row Other)

def evictExpired (watermark : I64) : JoinState Row Other × Option DbError :=
  let cutoff := watermark.saturatingSub config.boundMs
  if state.evictedWatermark < cutoff then
    match state.left.evictBefore hash config.left cutoff with
    | (left, some error) => ({ state with left }, some error)
    | (left, none) =>
      match state.right.evictBefore hash config.right cutoff with
      | (right, some error) => ({ state with left, right }, some error)
      | (right, none) => ({ left, right, evictedWatermark := cutoff }, none)
  else (state, none)

/-- `execute_interval_join_cycle`. -/
def executeCycle (input : JoinInput Row Other) :
    JoinState Row Other × Except DbError (List (JoinRow Row × JoinRow Other)) :=
  let newLeft := newBatch input.left
  let newRight := newBatch input.right
  match addNew hash config.right state.right newRight with
  | (right, some error) => ({ state with right }, .error error)
  | (right, none) =>
    match newLeft.bind fun _ => config.left.error with
    | some error => ({ state with right }, .error error)
    | none =>
      match newRight.bind fun _ => config.right.error with
      | some error => ({ state with right }, .error error)
      | none =>
        let leftOld := state.left.batches.length
        let rightOld := state.right.batches.length
        let ofLeft := probeRows hash right (fun _ => true) leftOld config.boundMs (newLeft.getD [])
        let ofRight := probeRows hash state.left (fun candidate => candidate.1 < leftOld)
          rightOld config.boundMs (newRight.getD [])
        match addNew hash config.left state.left newLeft with
        | (left, some error) => ({ state with left, right }, .error error)
        | (left, none) =>
          let result := pairsAt left.batches right.batches (ofLeft ++ ofRight.map Prod.swap)
          match evictExpired hash config { state with left, right } input.watermark with
          | (state, some error) => (state, .error error)
          | (state, none) => (state, .ok result)

end Cycle

/-- `JoinStateCheckpoint`: the batches are serialized, which they survive. -/
structure JoinStateCheckpoint (Row Other : Type) where
  leftBufferRows : Nat
  rightBufferRows : Nat
  leftBatches : List (JoinBatch Row)
  rightBatches : List (JoinBatch Other)
  lastEvictedWatermark : I64

section Checkpoint

variable (hash : JoinKey → UInt64) (config : StreamJoinConfig)

def compactSide (columns : SideColumns) (side : SideState Row) : SideState Row × Option DbError :=
  if side.batches.isEmpty then (side, none) else side.compact hash columns

/-- `snapshot_checkpoint`: the state is left compacted. -/
def snapshotCheckpoint (state : JoinState Row Other) :
    JoinState Row Other × Except DbError (JoinStateCheckpoint Row Other) :=
  match compactSide hash config.left state.left with
  | (left, some error) => ({ state with left }, .error error)
  | (left, none) =>
    match compactSide hash config.right state.right with
    | (right, some error) => ({ state with left, right }, .error error)
    | (right, none) =>
      ({ state with left, right }, .ok
        { leftBufferRows := left.rowCount
          rightBufferRows := right.rowCount
          leftBatches := left.batches.filter fun batch => !batch.isEmpty
          rightBatches := right.batches.filter fun batch => !batch.isEmpty
          lastEvictedWatermark := state.evictedWatermark })

def addBatches (columns : SideColumns) :
    SideState Row → List (JoinBatch Row) → SideState Row × Option DbError
  | side, [] => (side, none)
  | side, batch :: batches =>
    match side.addBatch hash columns batch with
    | (side, some error) => (side, some error)
    | (side, none) => addBatches columns side batches

def fromCheckpoint (checkpoint : JoinStateCheckpoint Row Other) :
    Except DbError (JoinState Row Other) :=
  match addBatches hash config.left .new checkpoint.leftBatches with
  | (_, some error) => .error error
  | (left, none) =>
    match addBatches hash config.right .new checkpoint.rightBatches with
    | (_, some error) => .error error
    | (right, none) =>
      .ok { left, right, evictedWatermark := checkpoint.lastEvictedWatermark }

end Checkpoint

end LaminarDB.Executor.IntervalJoin
