import LaminarDB.Library.Saturating

/-!
# Event times

The timestamp column of a batch, the event time that `EventTimeExtractor::extract`
reads from it, and `filter_batch_by_timestamp`.

A column is a list of cells, and a null cell is `none`. Both functions first
find out in which unit the cells count; every mismatch of format and column type
is an error of the extractor and lets the filter pass every row.
-/

namespace LaminarDB.Time

open Library

inductive TimeUnit where
  | second
  | millisecond
  | microsecond
  | nanosecond
deriving DecidableEq

inductive DataType where
  | int64
  | timestamp (unit : TimeUnit)
  | other (name : String)
deriving DecidableEq

/-- `TimestampFormat`, without the text format that no source is given. -/
inductive TimestampFormat where
  | unixMillis
  | unixSeconds
  | unixMicros
  | unixNanos
  | arrowNative
deriving DecidableEq

/-- `infer_timestamp_format`: only a timestamp column counts in its own unit. -/
def inferTimestampFormat : Option DataType → TimestampFormat
  | some (.timestamp _) => .arrowNative
  | _ => .unixMillis

def TimestampFormat.unit? : TimestampFormat → DataType → Option TimeUnit
  | .unixMillis, .int64 => some .millisecond
  | .unixSeconds, .int64 => some .second
  | .unixMicros, .int64 => some .microsecond
  | .unixNanos, .int64 => some .nanosecond
  | .arrowNative, .timestamp unit => some unit
  | _, _ => none

def TimestampFormat.expected : TimestampFormat → String
  | .arrowNative => "Timestamp"
  | _ => "Int64"

def TimeUnit.toMillis : TimeUnit → I64 → I64
  | .second, value => value.saturatingMul 1000
  | .millisecond, value => value
  | .microsecond, value => value.div 1000
  | .nanosecond, value => value.div 1000000

/-- The value that the cells are compared with for a threshold in milliseconds. -/
def TimeUnit.threshold : TimeUnit → I64 → I64
  | .second, thresholdMs => thresholdMs.divEuclid 1000
  | .millisecond, thresholdMs => thresholdMs
  | .microsecond, thresholdMs => thresholdMs.saturatingMul 1000
  | .nanosecond, thresholdMs => thresholdMs.saturatingMul 1000000

def TimeUnit.nanos : TimeUnit → Int
  | .second => 1000000000
  | .millisecond => 1000000
  | .microsecond => 1000
  | .nanosecond => 1

theorem TimeUnit.threshold_mono (unit : TimeUnit) {left right : I64} (ordered : left ≤ right) :
    unit.threshold left ≤ unit.threshold right := by
  cases unit with
  | second => exact I64.divEuclid_mono ordered (by decide)
  | millisecond => exact ordered
  | microsecond | nanosecond => exact I64.saturatingMul_mono ordered (by decide)

theorem TimeUnit.before_of_lt_threshold {unit : TimeUnit} {value thresholdMs : I64}
    (below : value < unit.threshold thresholdMs) :
    value.toInt * unit.nanos < thresholdMs.toInt * 1000000 := by
  have lower := value.lower
  rw [I64.lt_iff] at below
  cases unit with
  | second =>
    simp only [threshold, I64.divEuclid, I64.clamp] at below
    simp only [nanos]
    omega
  | millisecond =>
    simp only [threshold] at below
    simp only [nanos]
    omega
  | microsecond | nanosecond =>
    simp only [threshold, I64.saturatingMul, I64.clamp] at below
    simp only [nanos]
    omega

inductive ExtractionMode where
  | first
  | last
  | max
  | min
deriving DecidableEq

inductive EventTimeError where
  | emptyBatch
  | columnNotFound (name : String)
  | incompatibleType (format : TimestampFormat) (expected : String) (found : DataType)
  | nullTimestamp (row : Nat)
deriving DecidableEq

/-- `EventTimeExtractor`; the cached index of the column is left out. -/
structure EventTimeExtractor where
  field : String
  format : TimestampFormat
  mode : ExtractionMode
deriving DecidableEq

namespace EventTimeExtractor

def scan (better : I64 → I64 → Bool) (convert : I64 → I64) :
    I64 × Bool → List (Option I64) → I64 × Bool
  | found, [] => found
  | found, none :: cells => scan better convert found cells
  | (best, _), some value :: cells =>
    let value := convert value
    scan better convert (if better value best then value else best, true) cells

def extractBest (better : I64 → I64 → Bool) (start : I64) (convert : I64 → I64)
    (cells : List (Option I64)) : Except EventTimeError I64 :=
  match scan better convert (start, false) cells with
  | (best, true) => .ok best
  | (_, false) => .error (.nullTimestamp 0)

/-- `extract_i64` and its copies for the four timestamp arrays. -/
def extractCells (mode : ExtractionMode) (convert : I64 → I64) (cells : List (Option I64)) :
    Except EventTimeError I64 :=
  match mode with
  | .first =>
    match cells.head?.join with
    | some value => .ok (convert value)
    | none => .error (.nullTimestamp 0)
  | .last =>
    match cells.getLast?.join with
    | some value => .ok (convert value)
    | none => .error (.nullTimestamp (cells.length - 1))
  | .max => extractBest (fun value best => best < value) .minValue convert cells
  | .min => extractBest (fun value best => value < best) .maxValue convert cells

/-- `extract`; `column` is the type of the extractor's column in the schema of
the batch, if the schema has it. -/
def extract (extractor : EventTimeExtractor) (column : Option DataType)
    (cells : List (Option I64)) : Except EventTimeError I64 :=
  if cells.isEmpty then .error .emptyBatch
  else
    match column with
    | none => .error (.columnNotFound extractor.field)
    | some dataType =>
      match extractor.format.unit? dataType with
      | none =>
        .error (.incompatibleType extractor.format extractor.format.expected dataType)
      | some unit => extractCells extractor.mode unit.toMillis cells

variable (convert : I64 → I64) (cells : List (Option I64))

def stamps : List I64 :=
  cells.reduceOption.map convert

theorem scan_max (best : I64) (found : Bool) :
    scan (fun value best => best < value) convert (best, found) cells =
      ((stamps convert cells).foldl max best, found || !(stamps convert cells).isEmpty) := by
  induction cells generalizing best found with
  | nil => simp [scan, stamps]
  | cons cell cells ih =>
    cases cell with
    | none => exact ih best found
    | some value =>
      have larger : (if best < convert value then convert value else best) =
          max best (convert value) := by
        rw [max_def_lt]
      simp only [scan, decide_eq_true_eq, larger, ih]
      simp [stamps]

theorem extractCells_max :
    extractCells .max convert cells =
      if (stamps convert cells).isEmpty then .error (.nullTimestamp 0)
      else .ok ((stamps convert cells).foldl max .minValue) := by
  simp only [extractCells, extractBest, scan_max, Bool.false_or]
  cases (stamps convert cells).isEmpty <;> rfl

end EventTimeExtractor

/-- A row of a batch: its cell in the timestamp column and everything else. -/
structure Row (Data : Type) where
  cell : Option I64
  data : Data
deriving DecidableEq

inductive ThresholdOp where
  | greaterEq
  | less
deriving DecidableEq

def ThresholdOp.holds (op : ThresholdOp) (threshold : I64) : Option I64 → Bool
  | none => false
  | some value =>
    match op with
    | .greaterEq => threshold ≤ value
    | .less => value < threshold

def filterBatchByTimestamp {Data : Type} (column : Option DataType) (rows : List (Row Data))
    (thresholdMs : I64) (format : TimestampFormat) (op : ThresholdOp) : Option (List (Row Data)) :=
  match column.bind format.unit? with
  | none => some rows
  | some unit =>
    let filtered := rows.filter fun row => op.holds (unit.threshold thresholdMs) row.cell
    if filtered.isEmpty then none else some filtered

end LaminarDB.Time
