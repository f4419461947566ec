import LaminarDB.Checkpoint.SinkTask
import LaminarDB.Library.Transition

/-!
# The checkpoint coordinator

`begin_initial_epoch`, `write_to_sinks` and `checkpoint_inner` as a program
that runs beside the sink tasks, with crashes and `RecoveryManager::recover`.

Source offsets count the records a source has delivered, and a record stands
for its own output. A checkpoint is handed its offsets: the pipeline passes those
of the input already written to the sinks, `LaminarDB::checkpoint` an empty map.

Cycles and checkpoints take turns, as on the task of the pipeline. A call of
`LaminarDB::checkpoint` from another task beside `write_to_sinks` is not modelled.
-/

namespace LaminarDB.Checkpoint

open Library

structure Record where
  source : Nat
  index : Nat
deriving DecidableEq

structure Config where
  sinks : Nat
  sinkName : Nat → String
  exactlyOnce : Nat → Bool
  /-- The records whose output the routing and the filter of a sink pass. -/
  routes : Nat → Record → Bool
  channelCapacity : Nat
  commitTimeoutSecs : Nat

variable (config : Config)

/-- The sinks that take part in two-phase commit, in registration order. -/
def Config.exactlyOnceSinks : List Nat :=
  (List.range config.sinks).filter config.exactlyOnce

inductive SinkCommitStatus where
  | pending
  | committed
  | failed (message : String)
deriving DecidableEq

def SinkCommitStatus.isFailed : SinkCommitStatus → Bool
  | .failed _ => true
  | _ => false

/-- The parts of `CheckpointManifest` that decide what recovery does. -/
structure CheckpointManifest where
  checkpointId : Nat
  epoch : Nat
  sourceOffsets : Nat → Nat
  sinkCommitStatuses : List (Nat × SinkCommitStatus)

/-- `RecoveryManager` skips the rollback of a sink with status `Committed`. -/
def CheckpointManifest.alreadyCommitted (manifest : CheckpointManifest) (sink : Nat) : Bool :=
  manifest.sinkCommitStatuses.lookup sink == some .committed

/-- The loops that send each exactly-once sink a command and wait for its acknowledgment. -/
inductive Phase where
  /-- `begin_epoch_for_sinks`, with the sinks that have started. -/
  | beginning (startup : Bool) (started : List Nat)
  /-- `pre_commit_sinks_inner`. -/
  | preCommitting
  /-- `commit_sinks_inner`, with the statuses so far. -/
  | committing (manifest : CheckpointManifest) (statuses : List (Nat × SinkCommitStatus))

def Phase.command (epoch ticket : Nat) : Phase → SinkCommand Record
  | .beginning _ _ => .beginEpoch epoch ticket
  | .preCommitting => .preCommit epoch ticket
  | .committing _ _ => .commitEpoch epoch ticket

inductive Point where
  | stopped
  | idle
  /-- In `write_to_sinks`, with the batches not sent yet. -/
  | writing (pending : List (Nat × List Record))
  /-- In a loop over the sinks `todo`; `waiting` is the ticket of the command sent to the first. -/
  | round (phase : Phase) (todo : List Nat) (waiting : Option Nat)
  /-- Sending `rollback_epoch` to sinks. -/
  | undoing (startup : Bool) (epoch : Nat) (todo : List Nat)
  /-- Before `save_manifest`. -/
  | persisting (manifest : CheckpointManifest)
  /-- Before `update_manifest_only`. -/
  | updating (manifest : CheckpointManifest)

inductive StoreWrite where
  | save (manifest : CheckpointManifest)
  | update (manifest : CheckpointManifest)

structure State where
  sinks : Nat → SinkTask Record
  /-- The batches `write_to_sinks` has passed to each sink. -/
  handed : Nat → List (List Record)
  point : Point
  epoch : Nat
  nextCheckpointId : Nat
  nextTicket : Nat
  acks : Nat → Option CallResult
  consumed : Nat → Nat
  /-- The offsets that the last checkpoint was handed. -/
  offsets : Nat → Nat
  /-- Manifests in the store, the one `load_latest` returns first. -/
  stored : List CheckpointManifest
  background : List StoreWrite

namespace State

variable (state : State)

def setSink (sink : Nat) (task : SinkTask Record) : State :=
  { state with sinks := Function.update state.sinks sink task }

def enqueue (sink : Nat) (command : SinkCommand Record) : State :=
  state.setSink sink ((state.sinks sink).enqueue command)

def hasRoom (config : Config) (state : State) (sink : Nat) : Bool :=
  decide ((state.sinks sink).queue.length < config.channelCapacity)

def acknowledge (replies : List (Nat × CallResult)) : State :=
  { state with acks := fun ticket => (replies.lookup ticket).or (state.acks ticket) }

variable (manifest : CheckpointManifest)

/-- `CheckpointStore::save`: the manifest is stored and becomes the latest. -/
def save : State :=
  { state with
    stored := manifest ::
      state.stored.filter fun other => other.checkpointId != manifest.checkpointId }

/-- `CheckpointStore::update_manifest`: the stored manifest is replaced. -/
def update : State :=
  { state with
    stored := state.stored.map fun other =>
      if other.checkpointId = manifest.checkpointId then manifest else other }

end State

variable (state : State)

/-- The manifest that is persisted: every exactly-once sink is `Pending`. -/
def buildManifest : CheckpointManifest where
  checkpointId := state.nextCheckpointId
  epoch := state.epoch
  sourceOffsets := state.offsets
  sinkCommitStatuses := config.exactlyOnceSinks.map fun sink => (sink, .pending)

def commitStatus (sink : Nat) : CallResult → SinkCommitStatus
  | .ok _ => .committed
  | .error error =>
    .failed ("sink '" ++ config.sinkName sink ++ "' commit failed: " ++ error)

/-- The statuses after `commit_timeout`: every exactly-once sink has failed. -/
def timedOutStatuses : List (Nat × SinkCommitStatus) :=
  config.exactlyOnceSinks.map fun sink =>
    (sink, .failed ("sink '" ++ config.sinkName sink ++ "' commit timed out after " ++
      toString config.commitTimeoutSecs ++ "s"))

/-- The end of `checkpoint_inner`: after a failed commit the epoch stays, else
the next epoch is begun. -/
def finish (statuses : List (Nat × SinkCommitStatus)) : State :=
  if statuses.any fun entry => entry.2.isFailed then { state with point := .idle }
  else
    { state with
      point := .round (.beginning false []) config.exactlyOnceSinks none
      epoch := state.epoch + 1
      nextCheckpointId := state.nextCheckpointId + 1 }

def reply (sink : Nat) (result : CallResult) (todo : List Nat) : Phase → State
  | .beginning startup started =>
    if result.isOk then
      { state with point := .round (.beginning startup (started ++ [sink])) todo none }
    else { state with point := .undoing startup state.epoch started }
  | .preCommitting =>
    if result.isOk then { state with point := .round .preCommitting todo none }
    else { state with point := .idle }
  | .committing manifest statuses =>
    { state with
      point := .round
        (.committing manifest (statuses ++ [(sink, commitStatus config sink result)]))
        todo none }

def complete : Phase → State
  | .beginning _ _ => { state with point := .idle }
  | .preCommitting => { state with point := .persisting (buildManifest config state) }
  | .committing manifest statuses =>
    if statuses.isEmpty then finish config state statuses
    else
      { state with point := .updating { manifest with sinkCommitStatuses := statuses } }

def advance : Option State :=
  match state.point with
  | .writing [] => some { state with point := .idle }
  | .writing ((sink, batch) :: pending) =>
    let handed := Function.update state.handed sink (state.handed sink ++ [batch])
    if (state.sinks sink).running then
      if state.hasRoom config sink then
        some { state.enqueue sink (.writeBatch batch) with
          handed, point := .writing pending }
      else none
    else some { state with handed, point := .writing pending }
  | .round phase [] _ => some (complete config state phase)
  | .round phase (sink :: todo) (some ticket) =>
    (state.acks ticket).map fun result => reply config state sink result todo phase
  | .round phase (sink :: todo) none =>
    if (state.sinks sink).running then
      if state.hasRoom config sink then
        some { state.enqueue sink (phase.command state.epoch state.nextTicket) with
          nextTicket := state.nextTicket + 1
          point := .round phase (sink :: todo) (some state.nextTicket) }
      else none
    else
      some (reply config state sink (SinkTask.closedError (config.sinkName sink)) todo phase)
  | .undoing startup _ [] =>
    some { state with point := if startup then .stopped else .idle }
  | .undoing startup epoch (sink :: todo) =>
    if (state.sinks sink).running then
      if state.hasRoom config sink then
        some { state.enqueue sink (.rollbackEpoch epoch) with
          point := .undoing startup epoch todo }
      else none
    else some { state with point := .undoing startup epoch todo }
  | .stopped => none
  | .idle => none
  | .persisting _ => none
  | .updating _ => none

def cycleRecords (source count : Nat) : List Record :=
  (List.range count).map fun step => { source, index := state.consumed source + step }

/-- The batches that `write_to_sinks` sends; a sink whose filter fails on the
batch is passed over. -/
def routedBatches (records : List Record) (filterErrors : List Nat) : List (Nat × List Record) :=
  (List.range config.sinks).filterMap fun sink =>
    let batch := records.filter (config.routes sink)
    if sink ∈ filterErrors ∨ batch = [] then none else some (sink, batch)

inductive StoreOutcome where
  | written
  /-- The write failed and left nothing behind. -/
  | failed
  /-- The write timed out, or failed after it was made; it may still land. -/
  | unconfirmed
  /-- A conditional write found the manifest present and reports success. -/
  | alreadyExists
deriving DecidableEq

/-- The result of `save_manifest`. -/
def persist (manifest : CheckpointManifest) :
    StoreOutcome → Option State
  | .written =>
    some { state.save manifest with
      point := .round (.committing manifest []) config.exactlyOnceSinks none }
  | .alreadyExists =>
    if state.stored.any fun other => other.checkpointId = manifest.checkpointId then
      some { state with
        point := .round (.committing manifest []) config.exactlyOnceSinks none }
    else none
  | .failed =>
    some { state with point := .undoing false manifest.epoch config.exactlyOnceSinks }
  | .unconfirmed =>
    some { state with
      point := .undoing false manifest.epoch config.exactlyOnceSinks
      background := state.background ++ [.save manifest] }

/-- The result of `update_manifest_only`; an error is only logged. -/
def updateManifest (manifest : CheckpointManifest) :
    StoreOutcome → Option State
  | .written => some (finish config (state.update manifest) manifest.sinkCommitStatuses)
  | .failed => some (finish config state manifest.sinkCommitStatuses)
  | .unconfirmed =>
    some (finish config
      { state with background := state.background ++ [.update manifest] }
      manifest.sinkCommitStatuses)
  | .alreadyExists => none

/-- A crash loses the queues, the acknowledgments and the writes in progress. -/
def crash : State :=
  { state with
    sinks := fun sink => { SinkTask.spawn (state.sinks sink).ledger.restart with
      running := false }
    handed := fun _ => []
    point := .stopped
    acks := fun _ => none
    background := [] }

/-- Start-up: `CheckpointCoordinator::new`, `recover` and `begin_initial_epoch`, from the `manifest`
that was loaded. -/
def recover (manifest : Option CheckpointManifest) : State :=
  let base := manifest <|> state.stored.head?
  { state with
    sinks := fun sink =>
      let task := SinkTask.spawn (state.sinks sink).ledger
      match manifest with
      | none => task
      | some manifest =>
        if config.exactlyOnce sink && !manifest.alreadyCommitted sink then
          task.enqueue (.rollbackEpoch manifest.epoch)
        else task
    handed := fun _ => []
    point := .round (.beginning true []) config.exactlyOnceSinks none
    epoch := base.elim 1 fun latest => latest.epoch + 1
    nextCheckpointId := base.elim 1 fun latest => latest.checkpointId + 1
    consumed := manifest.elim (fun _ => 0) CheckpointManifest.sourceOffsets }

inductive Label where
  | recover (choice : Option Nat)
  | crash
  /-- A cycle over the next records of a source, and the sinks whose filter fails. -/
  | cycle (source count : Nat) (filterErrors : List Nat)
  /-- A checkpoint with these offsets, or with those of the input that was processed. -/
  | checkpoint (offsets : Option (Nat → Nat))
  | advance
  /-- The pre-commit or the commit timeout passes. -/
  | timeOut
  /-- The checkpoint exceeds `max_checkpoint_bytes`. -/
  | reject
  | persist (outcome : StoreOutcome)
  | update (outcome : StoreOutcome)
  /-- A write that was not waited for takes effect. -/
  | land (position : Nat)
  | handle (sink : Nat) (result : CallResult)
  | panic (sink : Nat)

def step : Label → Option State
  | .recover choice =>
    match state.point, choice with
    | .stopped, none => some (recover config state none)
    | .stopped, some position =>
      (state.stored[position]?).map fun manifest => recover config state (some manifest)
    | _, _ => none
  | .crash => some (crash state)
  | .cycle source count filterErrors =>
    match state.point with
    | .idle =>
      let records := cycleRecords state source count
      some { state with
        point := .writing (routedBatches config records filterErrors)
        consumed := Function.update state.consumed source (state.consumed source + count) }
    | _ => none
  | .checkpoint offsets =>
    match state.point with
    | .idle =>
      some { state with
        point := .round .preCommitting config.exactlyOnceSinks none
        offsets := offsets.getD state.consumed }
    | _ => none
  | .advance => advance config state
  | .timeOut =>
    match state.point with
    | .round .preCommitting (_ :: _) _ => some { state with point := .idle }
    | .round (.committing manifest _) (_ :: _) _ =>
      some { state with
        point := .updating { manifest with sinkCommitStatuses := timedOutStatuses config } }
    | _ => none
  | .reject =>
    match state.point with
    | .persisting _ => some { state with point := .idle }
    | _ => none
  | .persist outcome =>
    match state.point with
    | .persisting manifest => persist config state manifest outcome
    | _ => none
  | .update outcome =>
    match state.point with
    | .updating manifest => updateManifest config state manifest outcome
    | _ => none
  | .land position =>
    match state.background[position]? with
    | some (.save manifest) =>
      some { state.save manifest with
        background := state.background.eraseIdx position }
    | some (.update manifest) =>
      some { state.update manifest with
        background := state.background.eraseIdx position }
    | none => none
  | .handle sink result =>
    match (state.sinks sink).queue with
    | command :: queue =>
      let handled := ((state.sinks sink).setQueue queue).handle result command
      some ((state.setSink sink handled.1).acknowledge handled.2.toList)
    | [] => none
  | .panic sink =>
    if (state.sinks sink).running then
      let dropped := (state.sinks sink).queue.filterMap (SinkTask.droppedAck (config.sinkName sink))
      some ((state.setSink sink (state.sinks sink).abort).acknowledge dropped)
    else none

def Initial : Prop :=
  state.point = .stopped ∧ state.stored = [] ∧ state.background = [] ∧
    (∀ sink, state.sinks sink = { SinkTask.spawn .empty with running := false }) ∧
    (∀ sink, state.handed sink = []) ∧ (∀ ticket, state.acks ticket = none)

def system : TransitionSystem State Label where
  initial := Initial
  step := step config

end LaminarDB.Checkpoint
