import LaminarDB.Library.Directory

/-!
# The file sink

`FileSink` writes the rows of an epoch to temporary files, one or more segments for row formats and
a single file for Parquet, and renames them when the epoch is committed.

A call returns the sink, its file operations in their order and its result. An encoder is a function
from the rows of a batch to blobs with their sizes, and loses no row. The directory belongs to one
sink, so a file is named by its epoch, its segment and whether it ends in `.tmp`. File operations do
not fail here.
-/

namespace LaminarDB.Connectors.Files

open Library

inductive FileFormat where
  | csv
  | json
  | text
  | parquet
deriving DecidableEq

def FileFormat.isBulkFormat : FileFormat → Bool
  | .parquet => true
  | _ => false

inductive SinkMode where
  | append
  | rolling
deriving DecidableEq

structure Encoded (Row : Type) where
  rows : List Row
  size : Nat
deriving DecidableEq

/-- What `FormatEncoder::encode_batch` does for a format, where the sink's schema is that of the
batches. The Parquet encoder returns one file for a batch with rows. -/
structure Encoder (Row : Type) (format : FileFormat) where
  encodeBatch : List Row → Except String (List (Encoded Row))
  lossless : ∀ {rows blobs}, encodeBatch rows = .ok blobs → blobs.flatMap Encoded.rows = rows
  single : format.isBulkFormat = true →
    ∀ {rows blobs}, encodeBatch rows = .ok blobs → rows ≠ [] → ∃ blob, blobs = [blob]

/-- `FileSinkConfig` and the encoder that is built from it. -/
structure FileSinkConfig (Row : Type) where
  format : FileFormat
  mode : SinkMode
  maxFileSize : Option Nat
  maxEpochBatches : Nat
  encoder : Encoder Row format

def FileSinkConfig.isBulk {Row : Type} (config : FileSinkConfig Row) : Bool :=
  config.format.isBulkFormat

/-- A file of the sink. A temporary one has the suffix `.tmp`. -/
structure FileName where
  epoch : Nat
  segment : Nat
  temporary : Bool
deriving DecidableEq

def FileName.final (name : FileName) : FileName :=
  { name with temporary := false }

def FileName.isFinal (epoch : Nat) (name : FileName) : Bool :=
  !name.temporary && name.epoch == epoch

/-- A `BufWriter`, with the rows that have not been passed to the file. -/
structure Writer (Row : Type) where
  path : FileName
  buffer : List Row
deriving DecidableEq

structure FileSink (Row : Type) where
  currentEpoch : Nat
  /-- Batches of the epoch that are buffered for a bulk write. -/
  epochBatches : List (List Row)
  currentSegment : Nat
  segmentBytes : Nat
  writer : Option (Writer Row)
  activeTmpFiles : List FileName
deriving DecidableEq

abbrev Operation (Row : Type) := FileOperation FileName Row

structure Effect (Row Result : Type) where
  sink : FileSink Row
  operations : List (Operation Row)
  result : Except String Result

namespace FileSink

variable {Row : Type}

def new : FileSink Row where
  currentEpoch := 0
  epochBatches := []
  currentSegment := 0
  segmentBytes := 0
  writer := none
  activeTmpFiles := []

variable (sink : FileSink Row)

def buffered : List Row :=
  match sink.writer with
  | none => []
  | some writer => writer.buffer

def segmentPath : FileName :=
  ⟨sink.currentEpoch, sink.currentSegment, true⟩

/-- `open_segment`, with rows that are written at once. -/
def openSegment (rows : List Row) : FileSink Row :=
  { sink with
    writer := some ⟨sink.segmentPath, rows⟩
    activeTmpFiles := sink.activeTmpFiles ++ [sink.segmentPath]
    segmentBytes := 0 }

/-- `ensure_writer`: the writer of the current segment and whether it was opened. -/
def ensureWriter : FileSink Row × List (Operation Row) :=
  match sink.writer with
  | none => (sink.openSegment [], [.create sink.segmentPath])
  | some _ => (sink, [])

/-- `write_all` of rows; then the first `spilled` rows of the buffer are in the file. -/
def writeAll (rows : List Row) (spilled : Nat) : FileSink Row × List (Operation Row) :=
  match sink.writer with
  | none => (sink, [])
  | some writer =>
    let buffer := writer.buffer ++ rows
    ({ sink with writer := some { writer with buffer := buffer.drop spilled } },
      [.append writer.path (buffer.take spilled)])

/-- `close_writer`: the buffer is flushed. -/
def closeWriter : FileSink Row × List (Operation Row) :=
  match sink.writer with
  | none => (sink, [])
  | some writer => ({ sink with writer := none }, [.append writer.path writer.buffer])

variable (config : FileSinkConfig Row)

/-- The rotation at the end of `write_batch`. -/
def rotate (sink : FileSink Row) : FileSink Row × List (Operation Row) :=
  match config.maxFileSize with
  | none => (sink, [])
  | some maxSize =>
    if maxSize ≤ sink.segmentBytes then
      ({ sink.closeWriter.1 with currentSegment := sink.currentSegment + 1 }, sink.closeWriter.2)
    else (sink, [])

def recordBytes (records : List (Encoded Row)) : Nat :=
  (records.map fun record => record.size + 1).sum

def countBytes (bytes : Nat) : FileSink Row :=
  { sink with segmentBytes := sink.segmentBytes + bytes }

def writeRecords (sink : FileSink Row)
    (records : List (Encoded Row)) (spilled : Nat) : FileSink Row × List (Operation Row) :=
  let ready := sink.ensureWriter
  let written := ready.1.writeAll (records.flatMap Encoded.rows) spilled
  let rotated := (written.1.countBytes (recordBytes records)).rotate config
  (rotated.1, ready.2 ++ written.2 ++ rotated.2)

/-- `write_batch`: the numbers of rows and bytes written. -/
def writeBatch (sink : FileSink Row) (batch : List Row) (spilled : Nat) : Effect Row (Nat × Nat) :=
  if batch = [] then ⟨sink, [], .ok (0, 0)⟩
  else if config.isBulk = true then
    if config.maxEpochBatches ≤ sink.epochBatches.length then
      ⟨sink, [], .error ("file sink: epoch batch buffer full (" ++
        toString config.maxEpochBatches ++
        " batches) — increase max_epoch_batches or flush more frequently")⟩
    else
      ⟨{ sink with epochBatches := sink.epochBatches ++ [batch] }, [], .ok (batch.length, 0)⟩
  else
    match config.encoder.encodeBatch batch with
    | .error error => ⟨sink, [], .error ("encode error: " ++ error)⟩
    | .ok records =>
      ⟨(sink.writeRecords config records spilled).1, (sink.writeRecords config records spilled).2,
        .ok (batch.length, recordBytes records)⟩

def beginEpoch (epoch : Nat) : Effect Row Unit where
  sink :=
    { currentEpoch := epoch
      epochBatches := []
      currentSegment := 0
      segmentBytes := 0
      writer := none
      activeTmpFiles := [] }
  operations := sink.closeWriter.2
  result := .ok ()

section

variable (sink : FileSink Row)

/-- The bulk write of `pre_commit`: the buffered batches become one file. -/
def writeBulk : Except String (FileSink Row × List (Operation Row)) :=
  if config.isBulk = true ∧ sink.epochBatches ≠ [] then
    match config.encoder.encodeBatch sink.epochBatches.flatten with
    | .error error => .error ("Parquet encode error: " ++ error)
    | .ok blobs =>
      match blobs.head? with
      | none => .ok ({ sink with epochBatches := [] }, [])
      | some blob =>
        .ok ({ sink.openSegment blob.rows with epochBatches := [] }, [.create sink.segmentPath])
  else .ok (sink, [])

def preCommit : Effect Row Unit :=
  match sink.writeBulk config with
  | .error error => ⟨sink, [], .error error⟩
  | .ok written =>
    ⟨written.1.closeWriter.1,
      written.2 ++ written.1.closeWriter.2 ++ written.1.activeTmpFiles.map .sync, .ok ()⟩

/-- `commit_epoch`: in append mode nothing is done. -/
def commitEpoch : Effect Row Unit :=
  match config.mode with
  | .append => ⟨sink, [], .ok ()⟩
  | .rolling =>
    ⟨{ sink with activeTmpFiles := [] },
      sink.activeTmpFiles.map fun name => .rename name name.final, .ok ()⟩

end

def rollbackEpoch : Effect Row Unit where
  sink := { sink with writer := none, activeTmpFiles := [], epochBatches := [] }
  operations := sink.closeWriter.2 ++ sink.activeTmpFiles.map .remove
  result := .ok ()

def close : Effect Row Unit where
  sink := { sink with writer := none, activeTmpFiles := [] }
  operations := sink.closeWriter.2 ++ sink.activeTmpFiles.map .remove
  result := .ok ()

end FileSink

/-- `cleanup_tmp_files`, which `open` runs before the sink is used. -/
def cleanupTmpFiles {Row : Type} (directory : Directory FileName Row) : List (Operation Row) :=
  (directory.files.filter fun file => file.1.temporary).map fun file => .remove file.1

end LaminarDB.Connectors.Files
