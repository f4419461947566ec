import LaminarDB.Library.Transition
import LaminarDB.Pipeline.Coordinator

/-!
# Source tasks and the coordinator loop

One source task per connector runs beside the loop of `run`. They share a
watch channel and a barrier command word per source, and one bounded queue.

Every access to something shared is a step of its own, so a list of labels is
one interleaving. The offsets a connector reaches, the moment a drain ends,
the checkpoint timer and the barrier timeout are choices of the label.
-/

namespace LaminarDB.Pipeline

open Library

inductive TaskPoint (Offset Rows : Type) where
  /-- In `poll_batch`, or in the sleep after a poll without data. -/
  | polling
  /-- Before the position after this batch is published. -/
  | publishing (batch : Batch Offset Rows)
  /-- Before this batch is sent. -/
  | sending (batch : Batch Offset Rows)
  /-- Before the load of `BarrierPollHandle::poll`. -/
  | loadingBarrier
  /-- Before the compare-exchange of a word that was loaded. -/
  | claimingBarrier (packed : UInt64)
  /-- Before the position at this barrier is published. -/
  | publishingBarrier (barrier : CheckpointBarrier)
  /-- Before this barrier is sent. -/
  | sendingBarrier (barrier : CheckpointBarrier)
deriving DecidableEq

structure SourceTask (Offset Rows : Type) where
  point : TaskPoint Offset Rows
  /-- What `connector.checkpoint()` returns. -/
  position : Offset
  epoch : Nat
  polled : List (Batch Offset Rows)
  /-- The position published with each barrier, by the barrier's epoch. -/
  barrierOffsets : List Offset

/-- `capacity` of the channel for all source messages. -/
def channelCapacity : Nat := 8192

structure State (Offset Rows CallbackState : Type) where
  tasks : Nat → SourceTask Offset Rows
  /-- The value in each source's watch channel. -/
  watch : Nat → Offset
  /-- The command word of each source's barrier injector. -/
  cmd : Nat → UInt64
  queue : List (SourceMsg Offset Rows)
  coordinator : Coordinator Offset Rows CallbackState

inductive Label (Offset Rows : Type) where
  | poll (sourceIdx : Nat) (batch : Batch Offset Rows)
  /-- `poll_batch` returns nothing or an error, and the task has slept. -/
  | pollNothing (sourceIdx : Nat)
  /-- The task takes the one action its point allows. -/
  | advance (sourceIdx : Nat)
  | receive
  | idleTimeout
  | beginCycle
  | drain
  | endDrain
  | execute
  | handleBarrier
  | maybeCheckpoint (due : Bool)
  | trigger
  | checkTimeout (timedOut : Bool)
deriving DecidableEq

namespace State

variable {Offset Rows CallbackState : Type} (state : State Offset Rows CallbackState)
  (sourceIdx : Nat)

def setTask (task : SourceTask Offset Rows) : State Offset Rows CallbackState :=
  { state with tasks := Function.update state.tasks sourceIdx task }

/-- `cp_tx.send(connector.checkpoint())`. -/
def publish : State Offset Rows CallbackState :=
  { state with
    watch := Function.update state.watch sourceIdx (state.tasks sourceIdx).position }

/-- `task_tx.send(msg)`, which waits while the channel is full. -/
def send (msg : SourceMsg Offset Rows) : Option (State Offset Rows CallbackState) :=
  if state.queue.length < channelCapacity then
    some { state with queue := state.queue ++ [msg] }
  else none

def setCoordinator
    (coordinator : Coordinator Offset Rows CallbackState) : State Offset Rows CallbackState :=
  { state with coordinator }

/-- The next action of a source task that is not in `poll_batch`. -/
def advance : Option (State Offset Rows CallbackState) :=
  let task := state.tasks sourceIdx
  match task.point with
  | .polling => none
  | .publishing batch =>
    some ((state.publish sourceIdx).setTask sourceIdx { task with point := .sending batch })
  | .sending batch =>
    (state.setTask sourceIdx { task with point := .loadingBarrier }).send (.batch sourceIdx batch)
  | .loadingBarrier =>
    let packed := state.cmd sourceIdx
    some (state.setTask sourceIdx
      { task with point := if packed = 0 then .polling else .claimingBarrier packed })
  | .claimingBarrier packed =>
    if state.cmd sourceIdx = packed then
      some { state.setTask sourceIdx
          { task with
            point := .publishingBarrier (claimedBarrier packed task.epoch)
            epoch := task.epoch + 1 } with
        cmd := Function.update state.cmd sourceIdx 0 }
    else some (state.setTask sourceIdx { task with point := .polling })
  | .publishingBarrier barrier =>
    some ((state.publish sourceIdx).setTask sourceIdx
      { task with
        point := .sendingBarrier barrier
        barrierOffsets := task.barrierOffsets ++ [task.position] })
  | .sendingBarrier barrier =>
    (state.setTask sourceIdx { task with point := .polling }).send (.barrier sourceIdx barrier)

end State

section Step

variable {Offset Rows CallbackState : Type} [LinearOrder Offset]
variable (callbacks : PipelineCallback CallbackState Rows) (sources : Nat)
  (state : State Offset Rows CallbackState)

def coordinatorStep :
    Label Offset Rows → Option (State Offset Rows CallbackState)
  | .receive =>
    match state.coordinator.point, state.queue with
    | .waiting, msg :: queue =>
      some { state with
        queue
        coordinator := { state.coordinator with point := .received (some msg) } }
    | _, _ => none
  | .idleTimeout =>
    match state.coordinator.point with
    | .waiting =>
      some (state.setCoordinator { state.coordinator with point := .received none })
    | _ => none
  | .beginCycle =>
    match state.coordinator.point with
    | .received msg =>
      some (state.setCoordinator (state.coordinator.beginCycle callbacks sources msg))
    | _ => none
  | .drain =>
    match state.coordinator.point, state.queue with
    | .draining, msg :: queue =>
      some { state with
        queue
        coordinator := state.coordinator.processMsg callbacks sources msg }
    | _, _ => none
  | .endDrain =>
    match state.coordinator.point with
    | .draining =>
      some (state.setCoordinator { state.coordinator with point := .executing })
    | _ => none
  | .execute =>
    match state.coordinator.point with
    | .executing => some (state.setCoordinator state.coordinator.executeCycle)
    | _ => none
  | .handleBarrier =>
    match state.coordinator.point with
    | .handling ((sourceIdx, barrier) :: barriers) =>
      some (state.setCoordinator
        { (state.coordinator.handleBarrier state.watch sourceIdx barrier).1 with
          point := .handling barriers })
    | _ => none
  | .maybeCheckpoint due =>
    match state.coordinator.point with
    | .handling [] =>
      some (state.setCoordinator (state.coordinator.maybeCheckpoint sources due))
    | _ => none
  | .trigger =>
    match state.coordinator.point with
    | .triggering checkpointId (sourceIdx :: handles) =>
      some { state with
        cmd := Function.update state.cmd sourceIdx (triggerCmd checkpointId 0)
        coordinator := { state.coordinator with
          point := .triggering checkpointId handles } }
    | .triggering _ [] =>
      some (state.setCoordinator { state.coordinator with point := .maintaining })
    | _ => none
  | .checkTimeout timedOut =>
    match state.coordinator.point with
    | .maintaining =>
      some (state.setCoordinator (state.coordinator.checkTimeout timedOut))
    | _ => none
  | _ => none

/-- One step of the pipeline. A polled batch lies beyond the position its
connector had reached. -/
def step :
    Label Offset Rows → Option (State Offset Rows CallbackState)
  | .poll sourceIdx batch =>
    let task := state.tasks sourceIdx
    match task.point with
    | .polling =>
      if sourceIdx < sources ∧ task.position < batch.offset then
        some (state.setTask sourceIdx
          { task with
            point := .publishing batch
            position := batch.offset
            polled := task.polled ++ [batch] })
      else none
    | _ => none
  | .pollNothing sourceIdx =>
    let task := state.tasks sourceIdx
    match task.point with
    | .polling =>
      if sourceIdx < sources then
        some (state.setTask sourceIdx { task with point := .loadingBarrier })
      else none
    | _ => none
  | .advance sourceIdx =>
    if sourceIdx < sources then state.advance sourceIdx else none
  | label => coordinatorStep callbacks sources state label

/-- A pipeline at start-up: every connector is open and its position, fresh or
restored, is published. -/
def Initial : Prop :=
  (∀ sourceIdx, (state.tasks sourceIdx).point = .polling ∧
    (state.tasks sourceIdx).epoch = 0 ∧
    (state.tasks sourceIdx).polled = [] ∧
    (state.tasks sourceIdx).barrierOffsets = [] ∧
    state.watch sourceIdx = (state.tasks sourceIdx).position ∧
    state.cmd sourceIdx = 0) ∧
  state.queue = [] ∧
  state.coordinator.point = .waiting ∧
  state.coordinator.sourceBatchesBuf = [] ∧
  state.coordinator.postBarrierBuf = [] ∧
  state.coordinator.barrierSeen = ∅ ∧
  state.coordinator.barriersBuf = [] ∧
  state.coordinator.pendingBarrier = .new Offset ∧
  state.coordinator.nextCheckpointId = 1 ∧
  state.coordinator.executed = []

/-- The pipeline of `sources` source tasks and the coordinator loop. -/
def system : TransitionSystem (State Offset Rows CallbackState) (Label Offset Rows) where
  initial := Initial
  step := step callbacks sources

end Step

end LaminarDB.Pipeline
