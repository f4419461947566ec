import LaminarDB.Connectors.SinkRuns

/-!
# The Delta Lake sink

`DeltaLakeSink` in exactly-once mode. It buffers the batches of an epoch, stages them in
`pre_commit` and writes them in `commit_epoch` as one transaction that carries the epoch.

Of the table only the transactions of the sink's writer id are kept, with the rows they write.
A write either applies completely and succeeds or fails without effect.
-/

namespace LaminarDB.Connectors.DeltaLake

open Connectors.Sinks

structure SinkTable (Row : Type) where
  transactions : List (Nat × List Row)
deriving DecidableEq

variable {Row : Type}

namespace SinkTable

variable (table : SinkTable Row)

def rows : List Row :=
  table.transactions.flatMap Prod.snd

/-- `get_last_committed_epoch`. -/
def lastCommittedEpoch : Nat :=
  match table.transactions.getLast? with
  | none => 0
  | some transaction => transaction.1

def write (epoch : Nat) (rows : List Row) : SinkTable Row :=
  ⟨table.transactions ++ [(epoch, rows)]⟩

end SinkTable

inductive ConnectorState where
  | initializing
  | running
  | failed
deriving DecidableEq

structure DeltaLakeSinkConfig where
  /-- The table is created through Unity Catalog, with the schema of the first batch. -/
  deferred : Bool
  maxCommitRetries : Nat
deriving DecidableEq

inductive WriteOutcome where
  | written
  | conflict
  | failed
  /-- The batches could not be put together, and the table handle is kept. -/
  | notCombined
deriving DecidableEq

/-- An attempt to write: whether the table could be reopened, if that was needed. -/
structure Attempt where
  reopened : Bool
  outcome : WriteOutcome
deriving DecidableEq

structure DeltaAnswers where
  initialised : Bool
  /-- The transaction metadata could be read. -/
  readable : Bool
  attempts : List Attempt
  /-- The buffered batches have one schema. -/
  combined : Bool
deriving DecidableEq

structure DeltaLakeSink (Row : Type) where
  state : ConnectorState
  schemaKnown : Bool
  hasTable : Bool
  needsDeferredInit : Bool
  currentEpoch : Nat
  lastCommittedEpoch : Nat
  epochSkipped : Bool
  buffer : List (List Row)
  stagedBatches : List (List Row)
deriving DecidableEq

namespace DeltaLakeSink

/-- `DeltaLakeSink::new`, with the state that `open` sets. -/
def new : DeltaLakeSink Row where
  state := .initializing
  schemaKnown := false
  hasTable := false
  needsDeferredInit := false
  currentEpoch := 0
  lastCommittedEpoch := 0
  epochSkipped := false
  buffer := []
  stagedBatches := []

variable (sink : DeltaLakeSink Row)

def initDeltaTable (table : SinkTable Row) (answers : DeltaAnswers) : Option (DeltaLakeSink Row) :=
  if answers.initialised then
    some { sink with
      hasTable := true
      lastCommittedEpoch := if answers.readable then table.lastCommittedEpoch else 0 }
  else none

variable (config : DeltaLakeSinkConfig)

/-- `open`. -/
def openSink (table : SinkTable Row) (answers : DeltaAnswers) : Option (DeltaLakeSink Row) :=
  if config.deferred then some { new with needsDeferredInit := true }
  else
    (new.initDeltaTable table answers).map fun sink =>
      { sink with state := .running, schemaKnown := true }

def attemptWrites (table : SinkTable Row) :
    Nat → List Attempt → DeltaLakeSink Row → Effect (SinkTable Row) (DeltaLakeSink Row)
  | 0, _, sink => ⟨table, sink, false⟩
  | _ + 1, [], sink => ⟨table, { sink with hasTable := false }, false⟩
  | attemptsLeft + 1, attempt :: attempts, sink =>
    if !sink.hasTable && !attempt.reopened then ⟨table, sink, false⟩
    else
      match attempt.outcome with
      | .written =>
        ⟨table.write sink.currentEpoch sink.stagedBatches.flatten,
          { sink with hasTable := true, stagedBatches := [] }, true⟩
      | .conflict => attemptWrites table attemptsLeft attempts { sink with hasTable := false }
      | .failed => ⟨table, { sink with hasTable := false }, false⟩
      | .notCombined => ⟨table, { sink with hasTable := true }, false⟩

variable (table : SinkTable Row)

def flushStagedToDelta (sink : DeltaLakeSink Row) (answers : DeltaAnswers) :
    Effect (SinkTable Row) (DeltaLakeSink Row) :=
  if sink.stagedBatches.isEmpty then ⟨table, sink, true⟩
  else attemptWrites table (config.maxCommitRetries + 1) answers.attempts sink

/-- The deferred initialisation in `write_batch` and `begin_epoch`. -/
def completeInit (answers : DeltaAnswers) : DeltaLakeSink Row × Bool :=
  if sink.needsDeferredInit then
    match sink.initDeltaTable table answers with
    | some sink => ({ sink with needsDeferredInit := false, state := .running }, true)
    | none => ({ sink with state := .failed }, false)
  else (sink, true)

def push (batch : List Row) : DeltaLakeSink Row :=
  { sink with buffer := sink.buffer ++ [batch] }

def writeBatch (sink : DeltaLakeSink Row) (batch : List Row)
    (answers : DeltaAnswers) : DeltaLakeSink Row × Bool :=
  if sink.state = .failed then (sink, false)
  else if batch.isEmpty || sink.epochSkipped then (sink, true)
  else
    match { sink with schemaKnown := true }.completeInit table answers with
    | (sink, true) => (sink.push batch, true)
    | (sink, false) => (sink, false)

/-- The end of `begin_epoch`. -/
def enterEpoch (epoch : Nat) : DeltaLakeSink Row :=
  if epoch ≤ sink.lastCommittedEpoch then { sink with epochSkipped := true }
  else { sink with epochSkipped := false, currentEpoch := epoch, buffer := [] }

/-- `begin_epoch`. A sink that still has no schema is initialised by its first batch. -/
def beginEpoch (sink : DeltaLakeSink Row) (epoch : Nat)
    (answers : DeltaAnswers) : DeltaLakeSink Row × Bool :=
  let ready := if sink.schemaKnown then sink.completeInit table answers else (sink, true)
  match ready with
  | (sink, true) => (sink.enterEpoch epoch, true)
  | (sink, false) => (sink, false)

def preCommit (epoch : Nat) : DeltaLakeSink Row :=
  if epoch ≤ sink.lastCommittedEpoch || sink.buffer.isEmpty then sink
  else { sink with stagedBatches := sink.buffer, buffer := [] }

def commitEpoch (sink : DeltaLakeSink Row)
    (epoch : Nat) (answers : DeltaAnswers) : Effect (SinkTable Row) (DeltaLakeSink Row) :=
  if epoch ≤ sink.lastCommittedEpoch then ⟨table, sink, true⟩
  else
    let flushed := flushStagedToDelta config table sink answers
    if flushed.ok then { flushed with sink := { flushed.sink with lastCommittedEpoch := epoch } }
    else flushed

def rollbackEpoch : DeltaLakeSink Row :=
  { sink with buffer := [], stagedBatches := [], epochSkipped := false }

/-- `flush`: the buffered batches are put together in memory. -/
def flush (answers : DeltaAnswers) : DeltaLakeSink Row × Bool :=
  if sink.buffer.length ≤ 1 then (sink, true)
  else if answers.combined then ({ sink with buffer := [sink.buffer.flatten] }, true)
  else (sink, false)

variable (sink : DeltaLakeSink Row)

/-- `close`, which commits what is still buffered. -/
def close (answers : DeltaAnswers) : Effect (SinkTable Row) (DeltaLakeSink Row) :=
  if sink.buffer.isEmpty then ⟨table, sink, true⟩
  else commitEpoch config table (sink.preCommit sink.currentEpoch) sink.currentEpoch answers

def call :
    SinkCall Row → DeltaAnswers → Effect (SinkTable Row) (DeltaLakeSink Row)
  | .writeBatch batch, answers =>
    let written := sink.writeBatch table batch answers
    ⟨table, written.1, written.2⟩
  | .flush, answers =>
    let flushed := sink.flush answers
    ⟨table, flushed.1, flushed.2⟩
  | .beginEpoch epoch, answers =>
    let begun := sink.beginEpoch table epoch answers
    ⟨table, begun.1, begun.2⟩
  | .preCommit epoch, _ => ⟨table, sink.preCommit epoch, true⟩
  | .commitEpoch epoch, answers => sink.commitEpoch config table epoch answers
  | .rollbackEpoch _, _ => ⟨table, sink.rollbackEpoch, true⟩
  | .close, answers => sink.close config table answers

end DeltaLakeSink

abbrev deltaConnector (Row : Type) (config : DeltaLakeSinkConfig) : Connector Row where
  Target := SinkTable Row
  Sink := DeltaLakeSink Row
  Answers := DeltaAnswers
  empty := ⟨[]⟩
  openSink := DeltaLakeSink.openSink config
  call := DeltaLakeSink.call config

end LaminarDB.Connectors.DeltaLake
