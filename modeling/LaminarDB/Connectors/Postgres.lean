import LaminarDB.Library.Maps

/-!
# The Postgres change source

`PostgresCdcSource`: a reader task sends the payloads of the replication stream over a
channel; `poll_batch` takes some of them, collects the events of a transaction until it is
committed, and drains the buffer of committed events into a batch. The position of a
checkpoint is the polled LSN: that of the last payload when a batch emptied the buffer.

A batch is the list of its events. The text of a tuple is a function of the tuple and its
relation.
-/

namespace LaminarDB.Connectors.Postgres

open Library

abbrev Lsn := Nat

structure RelationInfo where
  relationId : Nat
  schemaName : String
  name : String
  columns : List String
deriving DecidableEq

def RelationInfo.fullName (relation : RelationInfo) : String :=
  if relation.schemaName.isEmpty || relation.schemaName = "public" then relation.name
  else relation.schemaName ++ "." ++ relation.name

/-- A decoded message of the plugin, without the begin and commit messages. -/
inductive WalMessage (Tuple : Type) where
  | relation (info : RelationInfo)
  | insert (relationId : Nat) (newTuple : Tuple)
  | update (relationId : Nat) (oldTuple : Option Tuple) (newTuple : Tuple)
  | delete (relationId : Nat) (oldTuple : Tuple)
  | truncate (relationIds : List Nat)
  | origin
  | type

inductive WalData (Tuple : Type) where
  | beginOrCommit
  | invalid (error : String)
  | message (message : WalMessage Tuple)

inductive WalPayload (Tuple : Type) where
  | begin (finalLsn : Lsn) (commitTsUs : Int)
  | commit (endLsn : Lsn)
  | xLogData (walEnd : Lsn) (data : WalData Tuple)
  | keepAlive (walEnd : Lsn)
  | error (message : String)

inductive CdcOperation where
  | insert
  | update
  | delete
deriving DecidableEq

structure ChangeEvent where
  table : String
  op : CdcOperation
  lsn : Lsn
  tsMs : Int
  before : Option String
  after : Option String
deriving DecidableEq

def pgEpochOffsetUs : Int := 946684800000000

def pgTimestampToUnixMs (pgUs : Int) : Int := (pgUs + pgEpochOffsetUs).tdiv 1000

structure PostgresCdcConfig where
  tableInclude : List String
  tableExclude : List String
  maxBufferedEvents : Nat

def PostgresCdcConfig.shouldIncludeTable (config : PostgresCdcConfig) (table : String) : Bool :=
  if config.tableExclude.contains table then false
  else if config.tableInclude.isEmpty then true
  else config.tableInclude.contains table

structure TransactionState where
  finalLsn : Lsn
  commitTsMs : Int
  events : List ChangeEvent

inductive ConnectorState where
  | running
  | failed
deriving DecidableEq

inductive ConnectorError where
  | invalidState (actual : ConnectorState)
  | readError (message : String)
deriving DecidableEq

/-- The source; `dropped` is the metric of dropped events, `confirmedLsn` what the reader
task is told. -/
structure PostgresCdcSource (Tuple : Type) where
  config : PostgresCdcConfig
  state : ConnectorState
  relationCache : KeyedMap Nat RelationInfo
  eventBuffer : List ChangeEvent
  currentTxn : Option TransactionState
  confirmedFlushLsn : Lsn
  writeLsn : Lsn
  polledLsn : Lsn
  walRx : List (WalPayload Tuple)
  readerClosed : Bool
  confirmedLsn : Lsn
  dropped : Nat

structure SourceCheckpoint where
  lsn : Lsn
  writeLsn : Lsn

namespace PostgresCdcSource

variable {Tuple : Type} (tupleToJson : Tuple → RelationInfo → String)

/-- `open`: streaming starts at the configured LSN or at that of the slot. -/
def openAt (config : PostgresCdcConfig) (lsn : Lsn) : PostgresCdcSource Tuple where
  config := config
  state := .running
  relationCache := .empty
  eventBuffer := []
  currentTxn := none
  confirmedFlushLsn := lsn
  writeLsn := lsn
  polledLsn := lsn
  walRx := []
  readerClosed := false
  confirmedLsn := lsn
  dropped := 0

variable (source : PostgresCdcSource Tuple)

def currentTxnContext : Lsn × Int :=
  match source.currentTxn with
  | some txn => (txn.finalLsn, txn.commitTsMs)
  | none => (source.writeLsn, 0)

def pushEvent (event : ChangeEvent) : PostgresCdcSource Tuple :=
  let total := source.eventBuffer.length + (source.currentTxn.elim 0 fun txn => txn.events.length)
  if source.config.maxBufferedEvents ≤ total then { source with dropped := source.dropped + 1 }
  else
    match source.currentTxn with
    | some txn =>
      { source with currentTxn := some { txn with events := txn.events ++ [event] } }
    | none => { source with eventBuffer := source.eventBuffer ++ [event] }

def unknownRelation (relationId : Nat) : ConnectorError :=
  .readError
    ("unknown relation ID " ++ toString relationId ++ " (no Relation message received yet)")

/-- `process_insert`, `process_update` and `process_delete`. -/
def processRow (relationId : Nat) (op : CdcOperation)
    (before after : Option Tuple) : Except ConnectorError (PostgresCdcSource Tuple) :=
  match source.relationCache.find? relationId with
  | none => .error (unknownRelation relationId)
  | some relation =>
    if source.config.shouldIncludeTable relation.fullName then
      .ok (source.pushEvent
        { table := relation.fullName
          op
          lsn := source.currentTxnContext.1
          tsMs := source.currentTxnContext.2
          before := before.map (tupleToJson · relation)
          after := after.map (tupleToJson · relation) })
    else .ok source

def truncateError (relationIds : List Nat) : ConnectorError :=
  let names := relationIds.map fun id =>
    (source.relationCache.find? id).elim ("oid:" ++ toString id) RelationInfo.fullName
  .readError ("TRUNCATE received on table(s): " ++ ", ".intercalate names ++
    ". Cannot produce retraction events — restart the pipeline with a fresh snapshot.")

def processWalMessage :
    WalMessage Tuple → Except ConnectorError (PostgresCdcSource Tuple)
  | .relation info =>
    .ok { source with relationCache := source.relationCache.insert info.relationId info }
  | .insert relationId newTuple =>
    processRow tupleToJson source relationId .insert none (some newTuple)
  | .update relationId oldTuple newTuple =>
    processRow tupleToJson source relationId .update oldTuple (some newTuple)
  | .delete relationId oldTuple =>
    processRow tupleToJson source relationId .delete (some oldTuple) none
  | .truncate relationIds => .error (source.truncateError relationIds)
  | .origin => .ok source
  | .type => .ok source

def processWalPayload :
    WalPayload Tuple → Except ConnectorError (PostgresCdcSource Tuple)
  | .begin finalLsn commitTsUs =>
    .ok { source with currentTxn := some ⟨finalLsn, pgTimestampToUnixMs commitTsUs, []⟩ }
  | .commit endLsn =>
    match source.currentTxn with
    | some txn => .ok { source with
        currentTxn := none
        eventBuffer := source.eventBuffer ++ txn.events
        writeLsn := endLsn }
    | none => .ok source
  | .xLogData walEnd .beginOrCommit => .ok { source with writeLsn := walEnd }
  | .xLogData _ (.invalid error) => .error (.readError ("pgoutput decode: " ++ error))
  | .xLogData walEnd (.message message) =>
    (processWalMessage tupleToJson source message).map fun source =>
      { source with writeLsn := walEnd }
  | .keepAlive walEnd => .ok { source with writeLsn := walEnd }
  | .error message => .error (.readError message)

/-- The payloads of a poll. After an error the other payloads are gone. -/
def processPayloads : PostgresCdcSource Tuple → List (WalPayload Tuple) →
    PostgresCdcSource Tuple × Option ConnectorError
  | source, [] => (source, none)
  | source, payload :: payloads =>
    match processWalPayload tupleToJson source payload with
    | .error error => (source, some error)
    | .ok source => processPayloads source payloads

def dropExcess : PostgresCdcSource Tuple :=
  let excess := source.eventBuffer.length - source.config.maxBufferedEvents
  { source with
    eventBuffer := source.eventBuffer.drop excess
    dropped := source.dropped + excess }

/-- The end of `poll_batch`: events are drained, and the position moves if none is left. -/
def drainEvents (maxRecords : Nat) : PostgresCdcSource Tuple × Option (List ChangeEvent) :=
  if source.eventBuffer.isEmpty then (source, none)
  else
    let rest := source.eventBuffer.drop maxRecords
    ({ source with
        eventBuffer := rest
        polledLsn := if rest.isEmpty then source.writeLsn else source.polledLsn },
      some (source.eventBuffer.take maxRecords))

def readerLost : ConnectorError :=
  .readError "WAL reader task terminated unexpectedly — replication stream lost"

def pollBatch (maxRecords : Nat) :
    PostgresCdcSource Tuple × Except ConnectorError (Option (List ChangeEvent)) :=
  if source.state = .running then
    let room := maxRecords - source.eventBuffer.length
    let closed := source.readerClosed && source.walRx.length < room
    match processPayloads tupleToJson { source with walRx := source.walRx.drop room }
        (source.walRx.take room) with
    | (source, some error) => (source, .error error)
    | (source, none) =>
      if closed && source.eventBuffer.isEmpty then
        ({ source with state := .failed }, .error readerLost)
      else
        let drained := source.dropExcess.drainEvents maxRecords
        (drained.1, .ok drained.2)
  else (source, .error (.invalidState source.state))

/-- `checkpoint`: the reader task is told the polled LSN. -/
def checkpoint : PostgresCdcSource Tuple × SourceCheckpoint :=
  ({ source with confirmedLsn := source.polledLsn },
    { lsn := source.polledLsn, writeLsn := source.writeLsn })

def restore (checkpoint : SourceCheckpoint) : PostgresCdcSource Tuple :=
  { source with
    confirmedFlushLsn := checkpoint.lsn
    polledLsn := checkpoint.lsn
    writeLsn := checkpoint.writeLsn }

end PostgresCdcSource

end LaminarDB.Connectors.Postgres
