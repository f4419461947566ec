import Mathlib

/-!
# The streaming coordinator

Barrier commands, source messages, and the coordinator's own state with
`process_msg`, `handle_barrier` and `maybe_checkpoint`.

A connector position is a value of an arbitrary type `Offset`. A source is
named by its index, since `source_names` is indexed by `source_idx`.
-/

namespace LaminarDB.Pipeline

/-- `CheckpointBarrier`; the epoch counts the barriers its source has claimed. -/
structure CheckpointBarrier where
  checkpointId : UInt64
  epoch : Nat
  flags : UInt64
deriving DecidableEq

/-- The command word of a `CheckpointBarrierInjector`; zero means no barrier. -/
def packBarrierCmd (checkpointId flags : UInt32) : UInt64 :=
  (checkpointId.toUInt64 <<< 32) ||| flags.toUInt64

def unpackBarrierCmd (packed : UInt64) : UInt32 × UInt32 :=
  ((packed >>> 32).toUInt32, packed.toUInt32)

/-- The word that `CheckpointBarrierInjector::trigger` stores. -/
def triggerCmd (checkpointId barrierFlags : UInt64) : UInt64 :=
  packBarrierCmd checkpointId.toUInt32 barrierFlags.toUInt32

/-- The barrier that `BarrierPollHandle::poll` builds from a word it has claimed, which is not
zero. -/
def claimedBarrier (packed : UInt64) (epoch : Nat) : CheckpointBarrier :=
  let (checkpointId, barrierFlags) := unpackBarrierCmd packed
  { checkpointId := checkpointId.toUInt64, epoch, flags := barrierFlags.toUInt64 }

structure Batch (Offset Rows : Type) where
  offset : Offset
  rows : Rows
deriving DecidableEq

inductive SourceMsg (Offset Rows : Type) where
  | batch (sourceIdx : Nat) (batch : Batch Offset Rows)
  | barrier (sourceIdx : Nat) (barrier : CheckpointBarrier)
deriving DecidableEq

def SourceMsg.sourceIdx {Offset Rows : Type} : SourceMsg Offset Rows → Nat
  | .batch sourceIdx _ => sourceIdx
  | .barrier sourceIdx _ => sourceIdx

/-- The callbacks of `process_msg` for a batch that it takes. -/
structure PipelineCallback (CallbackState Rows : Type) where
  extractWatermark : CallbackState → Nat → Rows → CallbackState
  filterLateRows : CallbackState → Nat → Rows → Option Rows

/-- A batch taken in a cycle with the rows that `filter_late_rows` left of it, if any. -/
structure CycleBatch (Offset Rows : Type) where
  sourceIdx : Nat
  batch : Batch Offset Rows
  kept : Option Rows
deriving DecidableEq

structure PendingBarrier (Offset : Type) where
  checkpointId : UInt64
  sourcesTotal : Nat
  sourcesAligned : Finset Nat
  sourceCheckpoints : Nat → Option Offset
  active : Bool

namespace PendingBarrier

def new (Offset : Type) : PendingBarrier Offset where
  checkpointId := 0
  sourcesTotal := 0
  sourcesAligned := ∅
  sourceCheckpoints := fun _ => none
  active := false

def reset {Offset : Type} (checkpointId : UInt64) (sourcesTotal : Nat) : PendingBarrier Offset where
  checkpointId
  sourcesTotal
  sourcesAligned := ∅
  sourceCheckpoints := fun _ => none
  active := true

end PendingBarrier

/-- Where the loop of `run` stands. -/
inductive LoopPoint (Offset Rows : Type) where
  /-- In the `select!` at the top of the loop. -/
  | waiting
  /-- After a message or the idle timeout, in the sleep of the batch window. -/
  | received (msg : Option (SourceMsg Offset Rows))
  /-- In the `try_recv` loop. -/
  | draining
  /-- Before `execute_cycle`. -/
  | executing
  /-- In the loop over `barriers_buf`, with the barriers still to handle. -/
  | handling (barriers : List (Nat × CheckpointBarrier))
  /-- In the loop of `maybe_checkpoint` over the source handles. -/
  | triggering (checkpointId : UInt64) (handles : List Nat)
  /-- Before the barrier timeout check. -/
  | maintaining
deriving DecidableEq

def LoopPoint.inCycle {Offset Rows : Type} : LoopPoint Offset Rows → Bool
  | .draining => true
  | .executing => true
  | _ => false

/-- `StreamingCoordinator`, with a record of what `execute_cycle` has received. -/
structure Coordinator (Offset Rows CallbackState : Type) where
  point : LoopPoint Offset Rows
  callback : CallbackState
  /-- `source_batches_buf`, filled by `process_msg` and cleared in every cycle. -/
  sourceBatchesBuf : List (CycleBatch Offset Rows)
  postBarrierBuf : List (SourceMsg Offset Rows)
  barrierSeen : Finset Nat
  barriersBuf : List (Nat × CheckpointBarrier)
  pendingBarrier : PendingBarrier Offset
  nextCheckpointId : UInt64
  /-- The batches of all cycles so far, with the rows that `execute_cycle` received. -/
  executed : List (CycleBatch Offset Rows)

namespace Coordinator

variable {Offset Rows CallbackState : Type} (callbacks : PipelineCallback CallbackState Rows)
  (sources : Nat) (coordinator : Coordinator Offset Rows CallbackState)

/-- `process_msg` for a pipeline of `sources` sources. -/
def processMsg :
    SourceMsg Offset Rows → Coordinator Offset Rows CallbackState
  | .batch sourceIdx batch =>
    if sourceIdx ∈ coordinator.barrierSeen then
      { coordinator with
        postBarrierBuf := coordinator.postBarrierBuf ++ [.batch sourceIdx batch] }
    else if sourceIdx < sources then
      let callback := callbacks.extractWatermark coordinator.callback sourceIdx batch.rows
      { coordinator with
        callback
        sourceBatchesBuf := coordinator.sourceBatchesBuf ++
          [{ sourceIdx, batch
             kept := callbacks.filterLateRows callback sourceIdx batch.rows }] }
    else coordinator
  | .barrier sourceIdx barrier =>
    { coordinator with
      barrierSeen := insert sourceIdx coordinator.barrierSeen
      barriersBuf := coordinator.barriersBuf ++ [(sourceIdx, barrier)] }

@[simp]
theorem processMsg_point (msg : SourceMsg Offset Rows) :
    (coordinator.processMsg callbacks sources msg).point = coordinator.point := by
  cases msg with
  | batch sourceIdx batch =>
    simp only [processMsg]
    split
    · rfl
    · split <;> rfl
  | barrier sourceIdx barrier => rfl

/-- The start of a cycle: the buffers are cleared, then the deferred messages
and the received one are processed. -/
def beginCycle (msg : Option (SourceMsg Offset Rows)) : Coordinator Offset Rows CallbackState :=
  (coordinator.postBarrierBuf ++ msg.toList).foldl (processMsg callbacks sources)
    { coordinator with
      point := .draining
      sourceBatchesBuf := []
      barrierSeen := ∅
      barriersBuf := []
      postBarrierBuf := [] }

variable (coordinator : Coordinator Offset Rows CallbackState)

/-- `execute_cycle` is given the batches of the cycle; then its barriers are handled. -/
def executeCycle : Coordinator Offset Rows CallbackState :=
  { coordinator with
    point := .handling coordinator.barriersBuf
    executed := coordinator.executed ++ coordinator.sourceBatchesBuf }

/-- `handle_barrier` ignores a barrier of another or no checkpoint. -/
def matchesPending (barrier : CheckpointBarrier) : Bool :=
  coordinator.pendingBarrier.active &&
    barrier.checkpointId == coordinator.pendingBarrier.checkpointId

variable (watched : Nat → Offset)

/-- Record a source's offset, as read from its watch channel, and its alignment. -/
def align (pending : PendingBarrier Offset) (sourceIdx : Nat) : PendingBarrier Offset :=
  { pending with
    sourceCheckpoints :=
      Function.update pending.sourceCheckpoints sourceIdx (some (watched sourceIdx))
    sourcesAligned := insert sourceIdx pending.sourcesAligned }

variable (coordinator : Coordinator Offset Rows CallbackState)

/-- `handle_barrier`, with the argument of `checkpoint_with_barrier` if that is called. Both results
of the call end the alignment. -/
def handleBarrier (sourceIdx : Nat) (barrier : CheckpointBarrier) :
    Coordinator Offset Rows CallbackState × Option (Nat → Option Offset) :=
  if coordinator.matchesPending barrier then
    let pending := align watched coordinator.pendingBarrier sourceIdx
    if pending.sourcesTotal ≤ pending.sourcesAligned.card then
      ({ coordinator with
          pendingBarrier := { pending with sourceCheckpoints := fun _ => none, active := false } },
        some pending.sourceCheckpoints)
    else ({ coordinator with pendingBarrier := pending }, none)
  else (coordinator, none)

@[simp]
theorem handleBarrier_point (sourceIdx : Nat) (barrier : CheckpointBarrier) :
    (coordinator.handleBarrier watched sourceIdx barrier).1.point = coordinator.point := by
  unfold handleBarrier
  split
  · dsimp only
    split <;> rfl
  · rfl

/-- `maybe_checkpoint` up to its loop over the source handles; `due`: the interval has passed or a
source asks for a checkpoint, and the background budget allows it. -/
def maybeCheckpoint (sources : Nat) (due : Bool)
    (coordinator : Coordinator Offset Rows CallbackState) : Coordinator Offset Rows CallbackState :=
  if due && !coordinator.pendingBarrier.active && decide (0 < sources) then
    { coordinator with
      point := .triggering coordinator.nextCheckpointId (List.range sources)
      nextCheckpointId := coordinator.nextCheckpointId + 1
      pendingBarrier := .reset coordinator.nextCheckpointId sources }
  else { coordinator with point := .maintaining }

def checkTimeout (timedOut : Bool)
    (coordinator : Coordinator Offset Rows CallbackState) : Coordinator Offset Rows CallbackState :=
  { coordinator with
    point := .waiting
    pendingBarrier :=
      { coordinator.pendingBarrier with
        active := coordinator.pendingBarrier.active && !timedOut } }

end Coordinator

end LaminarDB.Pipeline
