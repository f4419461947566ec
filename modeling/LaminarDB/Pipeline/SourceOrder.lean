import LaminarDB.Pipeline.Batching
import LaminarDB.Pipeline.Flow

/-!
# The order of a source's batches

One pass of the loop of `run`, with the messages that it drains. A batch behind a barrier of
its source is put off to the next pass, which takes it before anything it receives. So the
batches of a source reach `source_batches_buf` in the order in which they were sent, each
once; what is put there is what `filter_late_rows` leaves of them.
-/

namespace LaminarDB.Pipeline

open List SourceMsg

variable {Offset Rows CallbackState : Type}

variable (sourceIdx : Nat)

def SourceMsg.isBarrierOf : SourceMsg Offset Rows → Bool
  | .batch _ _ => false
  | .barrier idx _ => idx == sourceIdx

variable (msgs : List (SourceMsg Offset Rows))

def beforeBarrier : List (SourceMsg Offset Rows) :=
  msgs.takeWhile fun msg => !msg.isBarrierOf sourceIdx

def fromBarrier : List (SourceMsg Offset Rows) :=
  msgs.dropWhile fun msg => !msg.isBarrierOf sourceIdx

section

variable (taken : List (CycleBatch Offset Rows))

def resultsFrom : List (Option Rows) :=
  (taken.filter fun entry => entry.sourceIdx = sourceIdx).map CycleBatch.kept

/-- The entry of a source in `source_batches_buf`. -/
def bufferedFrom : List Rows :=
  (resultsFrom sourceIdx taken).filterMap id

end

variable (msg : SourceMsg Offset Rows) (msgs : List (SourceMsg Offset Rows))

theorem beforeBarrier_cons :
    beforeBarrier sourceIdx (msg :: msgs) =
      if msg.isBarrierOf sourceIdx then [] else msg :: beforeBarrier sourceIdx msgs := by
  cases isBarrier : msg.isBarrierOf sourceIdx <;> simp [beforeBarrier, isBarrier]

theorem fromBarrier_cons :
    fromBarrier sourceIdx (msg :: msgs) =
      if msg.isBarrierOf sourceIdx then msg :: msgs else fromBarrier sourceIdx msgs := by
  cases isBarrier : msg.isBarrierOf sourceIdx <;> simp [fromBarrier, isBarrier]

theorem batchesFrom_beforeBarrier_append :
    batchesFrom sourceIdx (beforeBarrier sourceIdx msgs) ++
      batchesFrom sourceIdx (fromBarrier sourceIdx msgs) = batchesFrom sourceIdx msgs := by
  rw [← batchesFrom_append, beforeBarrier, fromBarrier, takeWhile_append_dropWhile]

/-- What the loop meets in one pass: the messages it drains, the offsets in the watch
channels, whether a checkpoint is due and a barrier timed out, and what the calls of the pass
make of the callback. -/
structure CycleInput (Offset Rows CallbackState : Type) where
  messages : List (SourceMsg Offset Rows)
  watched : Nat → Offset
  due : Bool
  timedOut : Bool
  callback : CallbackState → CallbackState

namespace Coordinator

def drain (callbacks : PipelineCallback CallbackState Rows) (sources : Nat)
    (coordinator : Coordinator Offset Rows CallbackState)
    (messages : List (SourceMsg Offset Rows)) : Coordinator Offset Rows CallbackState :=
  messages.foldl (processMsg callbacks sources) (coordinator.beginCycle callbacks sources none)

def handleBarriers (watched : Nat → Offset) (coordinator : Coordinator Offset Rows CallbackState)
    (barriers : List (Nat × CheckpointBarrier)) : Coordinator Offset Rows CallbackState :=
  barriers.foldl (fun state entry => (state.handleBarrier watched entry.1 entry.2).1) coordinator

/-- One pass of the loop of `run`. -/
def cycle (callbacks : PipelineCallback CallbackState Rows) (sources : Nat)
    (coordinator : Coordinator Offset Rows CallbackState)
    (input : CycleInput Offset Rows CallbackState) : Coordinator Offset Rows CallbackState :=
  let drained := coordinator.drain callbacks sources input.messages
  let executed := { drained.executeCycle with callback := input.callback drained.callback }
  ((executed.handleBarriers input.watched drained.barriersBuf).maybeCheckpoint sources
    input.due).checkTimeout input.timedOut

/-- The contents of `source_batches_buf` in each pass. -/
def buffers (callbacks : PipelineCallback CallbackState Rows) (sources : Nat) :
    Coordinator Offset Rows CallbackState → List (CycleInput Offset Rows CallbackState) →
      List (List (CycleBatch Offset Rows))
  | _, [] => []
  | coordinator, input :: inputs =>
    (coordinator.drain callbacks sources input.messages).sourceBatchesBuf ::
      buffers callbacks sources (coordinator.cycle callbacks sources input) inputs

def runCycles (callbacks : PipelineCallback CallbackState Rows) (sources : Nat)
    (coordinator : Coordinator Offset Rows CallbackState)
    (inputs : List (CycleInput Offset Rows CallbackState)) :
    Coordinator Offset Rows CallbackState :=
  inputs.foldl (cycle callbacks sources) coordinator

variable {callbacks : PipelineCallback CallbackState Rows} {sources sourceIdx : Nat}
  (known : sourceIdx < sources) (coordinator : Coordinator Offset Rows CallbackState)

theorem postBarrierBuf_handleBarriers (watched : Nat → Offset)
    (barriers : List (Nat × CheckpointBarrier)) :
    (coordinator.handleBarriers watched barriers).postBarrierBuf = coordinator.postBarrierBuf := by
  induction barriers generalizing coordinator with
  | nil => rfl
  | cons entry barriers ih =>
    refine (ih _).trans ?_
    dsimp only [handleBarrier]
    split
    · split <;> rfl
    · rfl

theorem postBarrierBuf_cycle (input : CycleInput Offset Rows CallbackState) :
    (coordinator.cycle callbacks sources input).postBarrierBuf =
      (coordinator.drain callbacks sources input.messages).postBarrierBuf := by
  have keeps : ∀ (state : Coordinator Offset Rows CallbackState) (due timedOut : Bool),
      ((state.maybeCheckpoint sources due).checkTimeout timedOut).postBarrierBuf =
        state.postBarrierBuf := by
    intro state due timedOut
    unfold maybeCheckpoint
    split <;> rfl
  rw [cycle, keeps, postBarrierBuf_handleBarriers]
  rfl

include known in
theorem processMsg_source (msg : SourceMsg Offset Rows) :
    let after := coordinator.processMsg callbacks sources msg
    takenFrom sourceIdx after.sourceBatchesBuf =
        takenFrom sourceIdx coordinator.sourceBatchesBuf ++
          (if sourceIdx ∈ coordinator.barrierSeen then [] else batchesFrom sourceIdx [msg]) ∧
      batchesFrom sourceIdx after.postBarrierBuf =
        batchesFrom sourceIdx coordinator.postBarrierBuf ++
          (if sourceIdx ∈ coordinator.barrierSeen then batchesFrom sourceIdx [msg] else []) ∧
      (sourceIdx ∈ after.barrierSeen ↔
        sourceIdx ∈ coordinator.barrierSeen ∨ msg.isBarrierOf sourceIdx = true) := by
  cases msg with
  | barrier idx barrier =>
    refine ⟨by simp [processMsg], by simp [processMsg], ?_⟩
    rw [processMsg, Finset.mem_insert, isBarrierOf, beq_iff_eq, eq_comm, or_comm]
  | batch idx batch =>
    by_cases own : idx = sourceIdx
    · subst own
      by_cases seen : idx ∈ coordinator.barrierSeen
      · simp [processMsg, seen, isBarrierOf]
      · simp [processMsg, seen, known, isBarrierOf]
    · by_cases seen : idx ∈ coordinator.barrierSeen
      · simp [processMsg, seen, own, isBarrierOf]
      · by_cases inside : idx < sources <;> simp [processMsg, seen, own, inside, isBarrierOf]

variable {coordinator} {msgs : List (SourceMsg Offset Rows)}

include known in
theorem foldl_processMsg_source :
    let after := msgs.foldl (processMsg callbacks sources) coordinator
    takenFrom sourceIdx after.sourceBatchesBuf =
        takenFrom sourceIdx coordinator.sourceBatchesBuf ++
          (if sourceIdx ∈ coordinator.barrierSeen then []
            else batchesFrom sourceIdx (beforeBarrier sourceIdx msgs)) ∧
      batchesFrom sourceIdx after.postBarrierBuf =
        batchesFrom sourceIdx coordinator.postBarrierBuf ++
          batchesFrom sourceIdx (if sourceIdx ∈ coordinator.barrierSeen then msgs
            else fromBarrier sourceIdx msgs) := by
  induction msgs generalizing coordinator with
  | nil => simp [beforeBarrier, fromBarrier]
  | cons msg msgs ih =>
    obtain ⟨taken, deferred, isSeen⟩ := @processMsg_source _ _ _ callbacks _ _ known coordinator msg
    obtain ⟨takenRest, deferredRest⟩ := @ih (coordinator.processMsg callbacks sources msg)
    have first : ∀ later, batchesFrom sourceIdx (msg :: later) =
        batchesFrom sourceIdx [msg] ++ batchesFrom sourceIdx later := batchesFrom_append _ [msg]
    simp only [foldl_cons, takenRest, deferredRest, taken, deferred, isSeen, append_assoc]
    by_cases seen : sourceIdx ∈ coordinator.barrierSeen
    · simp [seen, first msgs]
    · by_cases isBarrier : msg.isBarrierOf sourceIdx = true
      · have noBatch : batchesFrom sourceIdx [msg] = [] := by
          cases msg with
          | batch idx batch => cases isBarrier
          | barrier idx barrier => rfl
        simp [seen, isBarrier, noBatch, first msgs, beforeBarrier_cons, fromBarrier_cons]
      · simp [seen, isBarrier, first (beforeBarrier sourceIdx msgs), beforeBarrier_cons,
          fromBarrier_cons]

variable (coordinator) in
include known in
theorem drain_source (messages : List (SourceMsg Offset Rows)) :
    takenFrom sourceIdx (coordinator.drain callbacks sources messages).sourceBatchesBuf =
        batchesFrom sourceIdx (beforeBarrier sourceIdx (coordinator.postBarrierBuf ++ messages)) ∧
      batchesFrom sourceIdx (coordinator.drain callbacks sources messages).postBarrierBuf =
        batchesFrom sourceIdx (fromBarrier sourceIdx (coordinator.postBarrierBuf ++ messages)) := by
  rw [drain, beginCycle, ← foldl_append, Option.toList_none, append_nil]
  refine ⟨(foldl_processMsg_source known).1.trans ?_, (foldl_processMsg_source known).2.trans ?_⟩
  · rw [takenFrom_nil, nil_append, if_neg (Finset.notMem_empty _)]
  · rw [batchesFrom_nil, nil_append, if_neg (Finset.notMem_empty _)]

variable (callbacks sourceIdx) in
/-- A result of `filter_late_rows` for a batch, after `extract_watermark` of that batch. -/
def FilterResult (batch : Batch Offset Rows) (result : Option Rows) : Prop :=
  ∃ callback, result = callbacks.filterLateRows
    (callbacks.extractWatermark callback sourceIdx batch.rows) sourceIdx batch.rows

variable (callbacks) in
def Filtered (taken : List (CycleBatch Offset Rows)) : Prop :=
  ∀ entry ∈ taken, FilterResult callbacks entry.sourceIdx entry.batch entry.kept

section

variable (filtered : Filtered callbacks coordinator.sourceBatchesBuf)

include filtered

theorem filtered_processMsg {msg : SourceMsg Offset Rows} :
    Filtered callbacks (coordinator.processMsg callbacks sources msg).sourceBatchesBuf := by
  cases msg with
  | barrier idx barrier => exact filtered
  | batch idx batch =>
    simp only [processMsg]
    split
    · exact filtered
    · split
      · refine forall_mem_append.mpr ⟨filtered, forall_mem_singleton.mpr ?_⟩
        exact ⟨coordinator.callback, rfl⟩
      · exact filtered

theorem filtered_foldl_processMsg :
    Filtered callbacks
      (msgs.foldl (processMsg callbacks sources) coordinator).sourceBatchesBuf := by
  induction msgs generalizing coordinator with
  | nil => exact filtered
  | cons msg msgs ih => exact ih (filtered_processMsg filtered)

end

variable (coordinator) in
theorem filtered_drain (messages : List (SourceMsg Offset Rows)) :
    Filtered callbacks (coordinator.drain callbacks sources messages).sourceBatchesBuf := by
  apply filtered_foldl_processMsg
  apply filtered_foldl_processMsg
  intro entry mem
  cases mem

theorem forall₂_resultsFrom {taken : List (CycleBatch Offset Rows)}
    (filtered : Filtered callbacks taken) (sourceIdx : Nat) :
    List.Forall₂ (FilterResult callbacks sourceIdx) (takenFrom sourceIdx taken)
      (resultsFrom sourceIdx taken) := by
  induction taken with
  | nil => exact .nil
  | cons entry taken ih =>
    have rest := ih (forall_mem_cons.mp filtered).2
    by_cases own : entry.sourceIdx = sourceIdx
    · subst own
      rw [← singleton_append, takenFrom_append, takenFrom_singleton, if_pos rfl]
      simp only [resultsFrom, singleton_append, filter_cons, decide_true, if_true, map_cons]
      exact .cons (filtered entry mem_cons_self) rest
    · rw [← singleton_append, takenFrom_append, takenFrom_singleton, if_neg own]
      simp only [resultsFrom, nil_append, singleton_append, filter_cons, own,
        decide_false, Bool.false_eq_true, if_false]
      exact rest

variable (callbacks sourceIdx) in
/-- The batches of a source in the order of a run: those that were moved, then those still
deferred, are those received, and the buffer holds what the filter left of those moved. -/
structure InOrder
    (received : List (Batch Offset Rows)) (buffers : List (List (CycleBatch Offset Rows)))
    (waiting : List (SourceMsg Offset Rows)) : Prop where
  conserved : buffers.flatMap (takenFrom sourceIdx) ++ batchesFrom sourceIdx waiting = received
  filtered : ∃ results, List.Forall₂ (FilterResult callbacks sourceIdx)
      (buffers.flatMap (takenFrom sourceIdx)) results ∧
    buffers.flatMap (bufferedFrom sourceIdx) = results.filterMap id

variable (coordinator) in
include known in
theorem inOrder_buffers {inputs : List (CycleInput Offset Rows CallbackState)} :
    InOrder callbacks sourceIdx
      (batchesFrom sourceIdx (coordinator.postBarrierBuf ++ inputs.flatMap CycleInput.messages))
      (buffers callbacks sources coordinator inputs)
      (runCycles callbacks sources coordinator inputs).postBarrierBuf := by
  induction inputs generalizing coordinator with
  | nil => exact ⟨by simp [buffers, runCycles], [], .nil, rfl⟩
  | cons input inputs ih =>
    have rest := ih (coordinator.cycle callbacks sources input)
    obtain ⟨taken, deferred⟩ := @drain_source _ _ _ callbacks _ _ known coordinator input.messages
    refine ⟨?_, ?_⟩
    · have restConserved := rest.conserved
      rw [batchesFrom_append, postBarrierBuf_cycle, deferred] at restConserved
      simp only [buffers, runCycles, foldl_cons, flatMap_cons, append_assoc]
      rw [runCycles] at restConserved
      rw [restConserved, taken, ← append_assoc, batchesFrom_beforeBarrier_append,
        ← batchesFrom_append, append_assoc]
    · obtain ⟨results, areResults, buffered⟩ := rest.filtered
      have first := @forall₂_resultsFrom _ _ _ callbacks _
        (@filtered_drain _ _ _ callbacks sources coordinator input.messages) sourceIdx
      refine ⟨_, rel_append first areResults, ?_⟩
      rw [filterMap_append, ← buffered]
      rfl

end Coordinator

open Pipeline.Coordinator

/-- Over any passes the batches of a source stay in order, and the next pass moves no batch behind a
barrier of its source. -/
theorem sourceBatches_inOrder (callbacks : PipelineCallback CallbackState Rows) (sources : Nat)
    (source : Fin sources) (coordinator : Coordinator Offset Rows CallbackState)
    (inputs : List (CycleInput Offset Rows CallbackState)) :
    InOrder callbacks source.val
        (batchesFrom source.val (coordinator.postBarrierBuf ++ inputs.flatMap CycleInput.messages))
        (buffers callbacks sources coordinator inputs)
        (runCycles callbacks sources coordinator inputs).postBarrierBuf ∧
      ∀ next : CycleInput Offset Rows CallbackState,
        takenFrom source.val ((runCycles callbacks sources coordinator inputs).drain callbacks
            sources next.messages).sourceBatchesBuf =
          batchesFrom source.val (beforeBarrier source.val
            ((runCycles callbacks sources coordinator inputs).postBarrierBuf ++
              next.messages)) := by
  refine ⟨inOrder_buffers source.isLt coordinator, ?_⟩
  intro next
  exact (drain_source source.isLt _ next.messages).1

/-- A coordinator at the start, with a source whose watermark column has no slack. -/
def lateStart : Coordinator Nat (List (Time.Row Unit)) LaminarDB.Pipeline.CallbackState where
  point := .waiting
  callback := .start [ascendingColumn]
  sourceBatchesBuf := []
  postBarrierBuf := []
  barrierSeen := ∅
  barriersBuf := []
  pendingBarrier := .new Nat
  nextCheckpointId := 1
  executed := []

def lateBatch : CycleInput Nat (List (Time.Row Unit)) LaminarDB.Pipeline.CallbackState where
  messages := [.batch 0 ⟨1, [stampedRow 100]⟩, .batch 0 ⟨2, [stampedRow 50]⟩]
  watched := fun _ => 0
  due := false
  timedOut := false
  callback := id

/-- The late batch is received and never put into the buffer. -/
theorem lateBatch_not_buffered :
    (buffers (lateFilter Unit) 1 lateStart [lateBatch]).flatMap (bufferedFrom 0) ++
        (batchesFrom 0 (runCycles (lateFilter Unit) 1 lateStart [lateBatch]).postBarrierBuf).map
          Batch.rows ≠
      (batchesFrom 0 lateBatch.messages).map Batch.rows := by
  decide +kernel

end LaminarDB.Pipeline
