import LaminarDB.Connectors.Kafka
import LaminarDB.Library.Transition

/-!
# Runs of the Kafka source

The consumer owns partitions, each from a start position on. The reader task fetches the records of
owned partitions, the messages with a payload, into the channel. Rebalance callbacks change what is
owned, polls drain the channel.

A record is handled when a poll that succeeds drains it or when it is skipped because it cannot be
decoded.
-/

namespace LaminarDB.Connectors.Kafka

open Library

variable {Data Row : Type}

structure Message (Data : Type) where
  offset : Int
  payload : Option Data
  timestampMs : Option Int
  headersJson : Option String
deriving DecidableEq

structure PartitionLog (Data : Type) where
  messages : List (Message Data)
  ascending : messages.Pairwise fun earlier later => earlier.offset < later.offset

variable (log : PartitionLog Data)

def PartitionLog.records : List Int :=
  (log.messages.filter fun message => message.payload.isSome).map Message.offset

def PartitionLog.next (position : Int) : Option (Message Data) :=
  log.messages.find? fun message => position ≤ message.offset

abbrev Broker (Data : Type) := TopicPartition → PartitionLog Data

def Message.toPayload (message : Message Data) (partition : TopicPartition) :
    Option (KafkaPayload Data) :=
  message.payload.map fun data =>
    ⟨data, partition, message.offset, message.timestampMs, message.headersJson⟩

/-- A partition that the consumer owns: where it started, the position of the reader and
the offsets handled since. -/
structure Ownership where
  start : Int
  position : Int
  handled : List Int
deriving DecidableEq

def Ownership.new (position : Int) : Ownership :=
  ⟨position, position, []⟩

structure System (Data : Type) where
  source : KafkaSource
  channel : List (KafkaPayload Data)
  started : Bool
  owned : TopicPartition → Option Ownership
  handled : TopicPartition → List Int
  lastStart : TopicPartition → Option Int

inductive Action where
  | restore (checkpoint : OffsetTracker)
  /-- A rebalance assigns partitions with their positions. An incremental rebalance
  names only the added ones. -/
  | assign (positions : List (TopicPartition × Int)) (incremental : Bool)
  | revoke (partitions : List TopicPartition)
  | read (partition : TopicPartition)
  | poll (registry : Nat → Option String) (paused : Bool) (maxRecords : Nat)

def offsetsOf (partition : TopicPartition) (payloads : List (KafkaPayload Data)) : List Int :=
  (payloads.filter fun payload => payload.partition = partition).map KafkaPayload.offset

/-- The records a poll handles: all it drains if it succeeds, else those it skips. -/
def Polled.handled (polled : Polled Data Row) : List (KafkaPayload Data) :=
  match polled.result with
  | .ok _ => polled.drained
  | .error _ => polled.skipped

namespace System

def start : System Data where
  source := .new
  channel := []
  started := false
  owned := fun _ => none
  handled := fun _ => []
  lastStart := fun _ => none

variable (system : System Data)

def own (positions : TopicPartition → Option Int) : System Data :=
  { system with
    owned := fun partition => (positions partition).map Ownership.new
    lastStart := fun partition => (positions partition).or (system.lastStart partition) }

def add (positions : List (TopicPartition × Int)) : System Data :=
  { system with
    owned := fun partition =>
      ((positions.lookup partition).map Ownership.new).or (system.owned partition)
    lastStart := fun partition => (positions.lookup partition).or (system.lastStart partition) }

def fetch (partition : TopicPartition) (ownership : Ownership)
    (message : Message Data) : System Data :=
  { system with
    channel := system.channel ++ (message.toPayload partition).toList
    owned := fun other =>
      if other = partition then some { ownership with position := message.offset + 1 }
      else system.owned other }

def afterPoll (polled : Polled Data Row) (paused : Bool) : System Data :=
  { system with
    source := polled.source
    channel := polled.channel
    started := system.started || !paused
    owned := fun partition => (system.owned partition).map fun ownership =>
      { ownership with handled := ownership.handled ++ offsetsOf partition polled.handled }
    handled := fun partition => system.handled partition ++ offsetsOf partition polled.handled }

def step (broker : Broker Data) (config : KafkaSourceConfig Data Row) (system : System Data) :
    Action → Option (System Data)
  | .restore checkpoint =>
    if system.started then none
    else
      some ({ system with source := system.source.restore checkpoint }.own
        (resumePosition checkpoint))
  | .assign positions incremental =>
    let assigned := { system with source := system.source.onAssign (positions.map Prod.fst) }
    if incremental then some (assigned.add positions)
    else some (assigned.own fun partition => positions.lookup partition)
  | .revoke partitions =>
    some { system with
      source := system.source.onRevoke partitions
      owned := fun partition => if partition ∈ partitions then none else system.owned partition }
  | .read partition =>
    match system.owned partition with
    | none => none
    | some ownership =>
      if system.started then
        ((broker partition).next ownership.position).map fun message =>
          system.fetch partition ownership message
      else none
  | .poll registry paused maxRecords =>
    some (system.afterPoll
      (pollBatch config system.source system.channel registry paused maxRecords) paused)

end System

/-- A start at specific offsets or at a timestamp assigns positions in `open`. -/
def system (broker : Broker Data) (config : KafkaSourceConfig Data Row) :
    TransitionSystem (System Data) Action where
  initial state := ∃ positions, state = System.start.own positions
  step := System.step broker config

/-- A checkpoint covers exactly the handled records of the owned partitions. -/
structure Covers (broker : Broker Data) (state : System Data) : Prop where
  present : ∀ partition ownership, state.owned partition = some ownership →
    ownership.handled ≠ [] → (state.source.checkpoint partition).isSome = true
  complete : ∀ partition ownership offset, state.owned partition = some ownership →
    state.source.checkpoint partition = some offset →
    ∀ record ∈ (broker partition).records,
      ownership.start ≤ record → record ≤ offset → record ∈ state.handled partition
  largest : ∀ partition ownership offset, state.owned partition = some ownership →
    state.source.checkpoint partition = some offset →
    ∀ record ∈ ownership.handled, record ≤ offset

variable (config : KafkaSourceConfig Data Row)

def fits (drained : List (KafkaPayload Data)) (result : Except String (List Row)) : Bool :=
  match result with
  | .error _ => false
  | .ok rows => !config.includeMetadata || rows.length == drained.length

/-- Drained records are delivered: their schemas are resolved, and they are deserialized
together, or else the decodable ones are, or none is decodable. -/
def Delivers (registry : Nat → Option String) (drained : List (KafkaPayload Data)) : Prop :=
  let together := config.deserializer.deserializeBatch (drained.map KafkaPayload.data)
  let ofGood := config.deserializer.deserializeBatch
    ((drained.filter (decodable config.deserializer)).map KafkaPayload.data)
  unresolved config.deserializer registry drained = none ∧
    (fits config drained together = true ∨
      together.isOk = false ∧
        ((∀ payload ∈ drained, decodable config.deserializer payload = false) ∨
          fits config drained ofGood = true))

instance (config : KafkaSourceConfig Data Row) (registry : Nat → Option String)
    (drained : List (KafkaPayload Data)) : Decidable (Delivers config registry drained) :=
  inferInstanceAs (Decidable (_ ∧ (_ ∨ _ ∧ (_ ∨ _))))

/-- A partition is not assigned again at an earlier position while an offset or records
of its earlier ownership are left. -/
def NotEarlier (state : System Data) (partition : TopicPartition) (position : Int) : Prop :=
  (∀ earlier, state.lastStart partition = some earlier → earlier ≤ position) ∨
    (state.source.offsets partition = none ∧ offsetsOf partition state.channel = [])

def Tracks (state : System Data) : Action → Prop
  | .assign positions incremental =>
    (incremental = true →
      ∀ partition, (state.owned partition).isSome = true → partition ∈ positions.map Prod.fst) ∧
    ∀ partition position, positions.lookup partition = some position →
      NotEarlier state partition position
  | .poll registry false maxRecords =>
    let drained := drain config state.channel maxRecords
    (drained ≠ [] → Delivers config registry drained) ∧
    ∀ payload ∈ drained, (state.owned payload.partition).isSome = true →
      payload.partition ∈ state.source.rebalanceState.assigned
  | _ => True

end LaminarDB.Connectors.Kafka
