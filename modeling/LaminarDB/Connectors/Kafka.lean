import LaminarDB.Library.LogProgress

/-!
# The Kafka source

`OffsetTracker`, `RebalanceState` and `poll_batch`, `checkpoint` and `restore` of `KafkaSource`.

The deserializer and the schema registry are parameters. `poll_batch` is one step: it reads the
assignment after the drain, so a rebalance during the call has the effect of one before or after it.
The tracker is a map of topic-partitions; the texts of a checkpoint's entries are not modelled.
-/

namespace LaminarDB.Connectors.Kafka

open Library

structure TopicPartition where
  topic : String
  partition : Int
deriving DecidableEq

/-- `OffsetTracker`: the last consumed offset of each topic-partition. -/
abbrev OffsetTracker := TopicPartition → Option Int

namespace OffsetTracker

def new : OffsetTracker := fun _ => none

variable (tracker : OffsetTracker)

/-- `update` and `update_arc`: the offset only moves forward. -/
def update (partition : TopicPartition) (offset : Int) :
    OffsetTracker := fun other =>
  if other = partition then advance (tracker partition) offset else tracker other

variable (assigned : List TopicPartition)

def retainAssigned :
    OffsetTracker := fun partition =>
  if partition ∈ assigned then tracker partition else none

def toCheckpointFiltered : OffsetTracker :=
  tracker.retainAssigned assigned

end OffsetTracker

structure RebalanceState where
  assigned : List TopicPartition
deriving DecidableEq

def RebalanceState.onAssign (_ : RebalanceState) (partitions : List TopicPartition) :
    RebalanceState :=
  ⟨partitions⟩

def RebalanceState.onRevoke (state : RebalanceState) (partitions : List TopicPartition) :
    RebalanceState :=
  ⟨state.assigned.filter fun partition => partition ∉ partitions⟩

structure KafkaPayload (Data : Type) where
  data : Data
  partition : TopicPartition
  offset : Int
  timestampMs : Option Int
  headersJson : Option String
deriving DecidableEq

open KafkaPayload

/-- `confluentId` is the schema id of a payload in the Confluent wire format, for the Avro
deserializer. -/
structure Deserializer (Data Row : Type) where
  deserializeBatch : List Data → Except String (List Row)
  confluentId : Data → Option Nat

structure KafkaSourceConfig (Data Row : Type) where
  maxPollRecords : Nat
  includeMetadata : Bool
  includeHeaders : Bool
  deserializer : Deserializer Data Row

structure MetadataColumns where
  partitions : List Int
  offsets : List Int
  timestamps : List (Option Int)
  headers : Option (List (Option String))
deriving DecidableEq

/-- A `SourceBatch`, with the topic-partition and offset of its last record. -/
structure SourceBatch (Row : Type) where
  rows : List Row
  metadata : Option MetadataColumns
  partition : Option (TopicPartition × Int)
deriving DecidableEq

inductive ConnectorError where
  | serde (message : String)
  | internal (message : String)
deriving DecidableEq

/-- `KafkaSource` and the state its rebalance callbacks share with it. -/
structure KafkaSource where
  offsets : OffsetTracker
  rebalanceState : RebalanceState
  revokeGeneration : Nat
  lastSeenRevokeGen : Nat

def KafkaSource.new : KafkaSource where
  offsets := .new
  rebalanceState := ⟨[]⟩
  revokeGeneration := 0
  lastSeenRevokeGen := 0

section Poll

variable {Data Row : Type} (deserializer : Deserializer Data Row)

def decodable (payload : KafkaPayload Data) : Bool :=
  (deserializer.deserializeBatch [payload.data]).isOk

/-- The deserialization with its fallback, and the skipped records. -/
def deserialize (drained : List (KafkaPayload Data)) :
    Except ConnectorError (List Row) × List (KafkaPayload Data) :=
  match deserializer.deserializeBatch (drained.map data) with
  | .ok rows => (.ok rows, [])
  | .error batchError =>
    let good := drained.filter (decodable deserializer)
    let skipped := drained.filter fun payload => !decodable deserializer payload
    if good = [] then (.error (.serde batchError), skipped)
    else
      match deserializer.deserializeBatch (good.map data) with
      | .ok rows => (.ok rows, skipped)
      | .error error => (.error (.serde error), skipped)

/-- The error of the first schema id that the registry does not resolve. -/
def unresolved (registry : Nat → Option String)
    (drained : List (KafkaPayload Data)) : Option String :=
  drained.findSome? fun payload => (deserializer.confluentId payload.data).bind registry

variable (config : KafkaSourceConfig Data Row)

section

variable (drained : List (KafkaPayload Data))

def metadataColumns : MetadataColumns where
  partitions := drained.map fun payload => payload.partition.partition
  offsets := drained.map offset
  timestamps := drained.map timestampMs
  headers := if config.includeHeaders then some (drained.map headersJson) else none

/-- Append the metadata columns; all columns must have the length of the rows. -/
def appendMetadata (rows : List Row) : Except ConnectorError (Option MetadataColumns) :=
  if config.includeMetadata = true then
    if rows.length = drained.length then .ok (some (metadataColumns config drained))
    else
      .error (.internal ("failed to append metadata columns: " ++
        "all columns in a record batch must have the same length"))
  else .ok none

def lastPartition : Option (TopicPartition × Int) :=
  drained.getLast?.bind fun payload =>
    if 0 ≤ payload.offset then some (payload.partition, payload.offset) else none

end

/-- The outcome of `poll_batch` for the drained records, and the skipped ones. -/
def buildBatch (registry : Nat → Option String) (drained : List (KafkaPayload Data)) :
    Except ConnectorError (Option (SourceBatch Row)) × List (KafkaPayload Data) :=
  if drained = [] then (.ok none, [])
  else
    match unresolved config.deserializer registry drained with
    | some error => (.error (.serde error), [])
    | none =>
      match deserialize config.deserializer drained with
      | (.error error, skipped) => (.error error, skipped)
      | (.ok rows, skipped) =>
        match appendMetadata config drained rows with
        | .error error => (.error error, skipped)
        | .ok metadata => (.ok (some ⟨rows, metadata, lastPartition drained⟩), skipped)

def drain (channel : List (KafkaPayload Data)) (maxRecords : Nat) : List (KafkaPayload Data) :=
  channel.take (min maxRecords config.maxPollRecords)

def KafkaSource.track (source : KafkaSource) (drained : List (KafkaPayload Data)) : KafkaSource :=
  { source with
    offsets := drained.foldl
      (fun tracker payload => tracker.update payload.partition payload.offset)
      source.offsets }

def KafkaSource.purge (source : KafkaSource) : KafkaSource :=
  if source.revokeGeneration ≠ source.lastSeenRevokeGen then
    { source with
      offsets := source.offsets.retainAssigned source.rebalanceState.assigned
      lastSeenRevokeGen := source.revokeGeneration }
  else source

/-- `poll_batch`, with the channel after it and the records it skipped. -/
structure Polled (Data Row : Type) where
  source : KafkaSource
  channel : List (KafkaPayload Data)
  drained : List (KafkaPayload Data)
  result : Except ConnectorError (Option (SourceBatch Row))
  skipped : List (KafkaPayload Data)

/-- `poll_batch` of an open source; `paused` is what backpressure decides. -/
def pollBatch (source : KafkaSource)
    (channel : List (KafkaPayload Data)) (registry : Nat → Option String) (paused : Bool)
    (maxRecords : Nat) : Polled Data Row :=
  if paused = true then ⟨source, channel, [], .ok none, []⟩
  else
    let drained := drain config channel maxRecords
    { source := (source.track drained).purge
      channel := channel.drop (min maxRecords config.maxPollRecords)
      drained := drained
      result := (buildBatch config registry drained).1
      skipped := (buildBatch config registry drained).2 }

end Poll

variable (source : KafkaSource)

/-- `checkpoint`: the offsets of the assigned partitions. -/
def KafkaSource.checkpoint : OffsetTracker :=
  source.offsets.toCheckpointFiltered source.rebalanceState.assigned

/-- `restore`: the offsets are those of the checkpoint, and the assignment stays; the consumer is
assigned to `resumePosition`. -/
def KafkaSource.restore (checkpoint : OffsetTracker) : KafkaSource :=
  { source with offsets := checkpoint }

/-- The position in `to_topic_partition_list`: the offset after the last one. -/
def resumePosition (tracker : OffsetTracker) (partition : TopicPartition) : Option Int :=
  (tracker partition).map (· + 1)

variable (partitions : List TopicPartition)

def KafkaSource.onAssign : KafkaSource :=
  { source with rebalanceState := source.rebalanceState.onAssign partitions }

def KafkaSource.onRevoke : KafkaSource :=
  { source with
    rebalanceState := source.rebalanceState.onRevoke partitions
    revokeGeneration := source.revokeGeneration + 1 }

end LaminarDB.Connectors.Kafka
