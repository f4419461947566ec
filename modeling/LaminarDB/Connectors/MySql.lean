import LaminarDB.Library.Maps

/-!
# The MySQL change source

`MySqlCdcSource`: a reader task decodes the binlog into messages and sends them over a
channel; `poll_batch` drains the channel into a buffer of change events and flushes the
buffer as one batch. A checkpoint is the GTID set, or the binlog file and position, of
the messages that were drained.

A column value is its text, or `none` for a null. GTIDs and positions are kept as they
are in a checkpoint, without their texts.
-/

namespace LaminarDB.Connectors.MySql

open Library

structure Gtid where
  sourceId : Nat
  transactionId : Nat
deriving DecidableEq

structure GtidRange where
  start : Nat
  stop : Nat
deriving DecidableEq

def GtidRange.single (id : Nat) : GtidRange := ⟨id, id⟩

def GtidRange.contains (range : GtidRange) (id : Nat) : Bool :=
  range.start ≤ id && id ≤ range.stop

/-- `GtidSet`: the executed transactions of each server. -/
abbrev GtidSet := KeyedMap Nat (List GtidRange)

namespace GtidSet

def add (set : GtidSet) (gtid : Gtid) : GtidSet :=
  set.insert gtid.sourceId ((set.find? gtid.sourceId).getD [] ++ [.single gtid.transactionId])

def contains (set : GtidSet) (gtid : Gtid) : Bool :=
  (set.find? gtid.sourceId).any fun ranges =>
    ranges.any fun range => range.contains gtid.transactionId

end GtidSet

structure BinlogPosition where
  filename : String
  position : Nat
deriving DecidableEq

structure TableInfo where
  tableId : Nat
  database : String
  table : String
  columns : List String

abbrev RowData := List (Option String)

structure UpdateRowData where
  before : RowData
  after : RowData

/-- `InsertMessage`, `UpdateMessage` and `DeleteMessage`. -/
structure RowsMessage (Row : Type) where
  tableId : Nat
  database : String
  table : String
  rows : List Row
  binlogPosition : Nat
  timestampMs : Int

inductive BinlogMessage where
  | begin (gtid : Option Gtid)
  | commit (binlogPosition : Nat)
  | tableMap (info : TableInfo)
  | insert (message : RowsMessage RowData)
  | update (message : RowsMessage UpdateRowData)
  | delete (message : RowsMessage RowData)
  | query
  | rotate (nextBinlog : String) (position : Nat)
  | heartbeat

inductive CdcOperation where
  | insert
  | updateBefore
  | updateAfter
  | delete
deriving DecidableEq

def CdcOperation.asStr : CdcOperation → String
  | .insert => "I"
  | .updateBefore => "U-"
  | .updateAfter => "U+"
  | .delete => "D"

structure ChangeEvent where
  table : String
  operation : CdcOperation
  timestampMs : Int
  binlogFile : String
  binlogPosition : Nat
  gtid : Option Gtid
  row : RowData

def RowsMessage.event {Row : Type} (message : RowsMessage Row) (operation : CdcOperation)
    (binlogFile : String) (gtid : Option Gtid) (row : RowData) : ChangeEvent where
  table := message.database ++ "." ++ message.table
  operation := operation
  timestampMs := message.timestampMs
  binlogFile := binlogFile
  binlogPosition := message.binlogPosition
  gtid := gtid
  row := row

def insertToEvents (message : RowsMessage RowData) (binlogFile : String) (gtid : Option Gtid) :
    List ChangeEvent :=
  message.rows.map (message.event .insert binlogFile gtid)

def updateToEvents (message : RowsMessage UpdateRowData) (binlogFile : String)
    (gtid : Option Gtid) : List ChangeEvent :=
  message.rows.flatMap fun row =>
    [message.event .updateBefore binlogFile gtid row.before,
      message.event .updateAfter binlogFile gtid row.after]

def deleteToEvents (message : RowsMessage RowData) (binlogFile : String) (gtid : Option Gtid) :
    List ChangeEvent :=
  message.rows.map (message.event .delete binlogFile gtid)

/-- A row of a batch: the columns of the envelope, then those of the table. -/
structure ChangeRow where
  table : String
  op : String
  tsMs : Int
  binlogFile : String
  binlogPos : Nat
  gtid : Option Gtid
  values : List (String × Option String)
deriving DecidableEq

/-- The row of an event under the columns of a table: values go by position. -/
def ChangeEvent.render (columns : List String) (event : ChangeEvent) : ChangeRow where
  table := event.table
  op := event.operation.asStr
  tsMs := event.timestampMs
  binlogFile := event.binlogFile
  binlogPos := event.binlogPosition
  gtid := event.gtid
  values := columns.zipIdx.map fun column => (column.1, event.row[column.2]?.join)

/-- `events_to_record_batch`: one table gives the columns of all events. -/
def eventsToRecordBatch (events : List ChangeEvent) (info : TableInfo) : List ChangeRow :=
  events.map (ChangeEvent.render info.columns)

structure MySqlCdcConfig where
  useGtid : Bool
  gtidSet : Option GtidSet
  binlogFilename : Option String
  binlogPosition : Option Nat
  databaseFilter : Option String
  tableInclude : List String
  tableExclude : List String

/-- A table is listed by its name, its full name or the end of its full name. -/
def listsTable (listed : List String) (database table : String) : Bool :=
  listed.any fun name =>
    name = table || name = database ++ "." ++ table || name.endsWith ("." ++ table)

def MySqlCdcConfig.shouldIncludeTable (config : MySqlCdcConfig) (database table : String) : Bool :=
  if listsTable config.tableExclude database table then false
  else if config.databaseFilter.any fun filter => filter ≠ database then false
  else if config.tableInclude.isEmpty then true
  else listsTable config.tableInclude database table

structure MySqlCdcSource where
  config : MySqlCdcConfig
  connected : Bool
  tableCache : KeyedMap Nat TableInfo
  position : Option BinlogPosition
  gtidSet : Option GtidSet
  currentBinlogFile : String
  currentGtid : Option Gtid
  eventBuffer : List ChangeEvent
  msgRx : List BinlogMessage

inductive ConnectorError where
  | configurationError (message : String)
deriving DecidableEq

structure SourceCheckpoint where
  gtid : Option GtidSet
  binlog : Option BinlogPosition

/-- What `start_binlog_stream` asks the server for. -/
inductive StreamRequest where
  | gtids (executed : GtidSet)
  | file (filename : String) (position : Nat)
  | current

namespace MySqlCdcSource

variable (config : MySqlCdcConfig)

def new : MySqlCdcSource where
  config := config
  connected := false
  tableCache := .empty
  position := none
  gtidSet := none
  currentBinlogFile := ""
  currentGtid := none
  eventBuffer := []
  msgRx := []

def startBinlogStream (gtidSet : Option GtidSet)
    (position : Option BinlogPosition) : StreamRequest :=
  if config.useGtid then .gtids (gtidSet.getD .empty)
  else
    match position, config.binlogFilename with
    | some position, _ => .file position.filename position.position
    | none, some filename => .file filename (config.binlogPosition.getD 4)
    | none, none => .current

variable (source : MySqlCdcSource)

/-- `open`: the position comes from the configuration. -/
def openSource : MySqlCdcSource × StreamRequest :=
  let position :=
    match source.config.binlogFilename, source.config.binlogPosition with
    | some filename, some position => some ⟨filename, position⟩
    | _, _ => source.position
  ({ source with
      connected := true
      gtidSet := source.config.gtidSet
      position
      currentBinlogFile := source.config.binlogFilename.getD source.currentBinlogFile
      msgRx := [] },
    startBinlogStream source.config source.config.gtidSet position)

def restorePosition (checkpoint : SourceCheckpoint) : MySqlCdcSource :=
  match checkpoint.gtid, checkpoint.binlog with
  | some gtidSet, _ => { source with gtidSet := some gtidSet }
  | none, some position => { source with position := some position }
  | none, none => source

def createCheckpoint : SourceCheckpoint :=
  if source.config.useGtid then { gtid := source.gtidSet, binlog := none }
  else { gtid := none, binlog := source.position }

/-- A rows message: its events are buffered, unless the table is filtered out. -/
def handleRows {Row : Type} (source : MySqlCdcSource) (lastTableInfo : Option TableInfo)
    (message : RowsMessage Row)
    (toEvents : RowsMessage Row → String → Option Gtid → List ChangeEvent) :
    MySqlCdcSource × Option TableInfo :=
  if source.config.shouldIncludeTable message.database message.table then
    let events := toEvents message source.currentBinlogFile source.currentGtid
    ({ source with eventBuffer := source.eventBuffer ++ events },
      source.tableCache.find? message.tableId)
  else (source, lastTableInfo)

def handle (lastTableInfo : Option TableInfo) :
    BinlogMessage → MySqlCdcSource × Option TableInfo
  | .tableMap info =>
    ({ source with tableCache := source.tableCache.insert info.tableId info }, lastTableInfo)
  | .insert message => source.handleRows lastTableInfo message insertToEvents
  | .update message => source.handleRows lastTableInfo message updateToEvents
  | .delete message => source.handleRows lastTableInfo message deleteToEvents
  | .begin (some gtid) =>
    ({ source with
        currentGtid := some gtid
        gtidSet := source.gtidSet.map fun set => set.add gtid }, lastTableInfo)
  | .begin none => ({ source with currentGtid := none }, lastTableInfo)
  | .commit position =>
    ({ source with position := source.position.map fun before => { before with position } },
      lastTableInfo)
  | .rotate nextBinlog position =>
    ({ source with
        currentBinlogFile := nextBinlog
        position := some ⟨nextBinlog, position⟩ }, lastTableInfo)
  | .query => (source, lastTableInfo)
  | .heartbeat => (source, lastTableInfo)

/-- The loop of `poll_batch`: messages are drained while the buffer has room. -/
def drain (maxRecords : Nat) : MySqlCdcSource → Option TableInfo → List BinlogMessage →
    MySqlCdcSource × Option TableInfo
  | source, lastTableInfo, [] => ({ source with msgRx := [] }, lastTableInfo)
  | source, lastTableInfo, message :: messages =>
    if source.eventBuffer.length < maxRecords then
      let handled := source.handle lastTableInfo message
      drain maxRecords handled.1 handled.2 messages
    else ({ source with msgRx := message :: messages }, lastTableInfo)

def flushEvents (info : TableInfo) : MySqlCdcSource × Option (List ChangeRow) :=
  if source.eventBuffer.isEmpty then (source, none)
  else ({ source with eventBuffer := [] }, some (eventsToRecordBatch source.eventBuffer info))

/-- `poll_batch`: the buffer is flushed under the table of the last message. -/
def pollBatch (maxRecords : Nat) :
    MySqlCdcSource × Except ConnectorError (Option (List ChangeRow)) :=
  if source.connected then
    match drain maxRecords source none source.msgRx with
    | (source, some info) => ((source.flushEvents info).1, .ok (source.flushEvents info).2)
    | (source, none) => (source, .ok none)
  else (source, .error (.configurationError "Source not connected"))

def restart (config : MySqlCdcConfig) (checkpoint : SourceCheckpoint) :
    MySqlCdcSource × StreamRequest :=
  let opened := (new config).openSource
  (opened.1.restorePosition checkpoint, opened.2)

end MySqlCdcSource

end LaminarDB.Connectors.MySql
