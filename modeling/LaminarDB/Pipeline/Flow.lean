import LaminarDB.Pipeline.System

/-!
# The flow of one source's messages

The messages of a source keep their order from `poll_batch` to
`execute_cycle`. A barrier therefore splits the batches of its source, and
`Flow` says of every barrier on its way which batches lie before it.
-/

namespace LaminarDB.Pipeline

open Library List SourceTask

variable {Offset Rows : Type} (sourceIdx : Nat)

def batchesFrom (msgs : List (SourceMsg Offset Rows)) : List (Batch Offset Rows) :=
  msgs.filterMap fun msg =>
    match msg with
    | .batch idx batch => if idx = sourceIdx then some batch else none
    | .barrier _ _ => none

def takenFrom (taken : List (CycleBatch Offset Rows)) : List (Batch Offset Rows) :=
  taken.filterMap fun entry => if entry.sourceIdx = sourceIdx then some entry.batch else none

@[simp]
theorem batchesFrom_append (left right : List (SourceMsg Offset Rows)) :
    batchesFrom sourceIdx (left ++ right) =
      batchesFrom sourceIdx left ++ batchesFrom sourceIdx right := by
  simp [batchesFrom]

@[simp]
theorem takenFrom_append (left right : List (CycleBatch Offset Rows)) :
    takenFrom sourceIdx (left ++ right) =
      takenFrom sourceIdx left ++ takenFrom sourceIdx right := by
  simp [takenFrom]

@[simp]
theorem takenFrom_nil : takenFrom sourceIdx ([] : List (CycleBatch Offset Rows)) = [] := rfl

@[simp]
theorem takenFrom_singleton (entry : CycleBatch Offset Rows) :
    takenFrom sourceIdx [entry] = if entry.sourceIdx = sourceIdx then [entry.batch] else [] := by
  by_cases same : entry.sourceIdx = sourceIdx <;> simp [takenFrom, same]

@[simp]
theorem batchesFrom_nil : batchesFrom sourceIdx ([] : List (SourceMsg Offset Rows)) = [] := rfl

@[simp]
theorem batchesFrom_batch (sourceIdx idx : Nat) (batch : Batch Offset Rows)
    (msgs : List (SourceMsg Offset Rows)) :
    batchesFrom sourceIdx (.batch idx batch :: msgs) =
      (if idx = sourceIdx then [batch] else []) ++ batchesFrom sourceIdx msgs := by
  by_cases same : idx = sourceIdx <;> simp [batchesFrom, same]

variable {sourceIdx : Nat} {msgs : List (SourceMsg Offset Rows)} {barrier : CheckpointBarrier}

@[simp]
theorem batchesFrom_barrier {idx : Nat} :
    batchesFrom sourceIdx (.barrier idx barrier :: msgs) = batchesFrom sourceIdx msgs := by
  simp [batchesFrom]

section Flow

variable [LinearOrder Offset]

def SourceTask.inHand (task : SourceTask Offset Rows) : List (Batch Offset Rows) :=
  match task.point with
  | .publishing batch => [batch]
  | .sending batch => [batch]
  | _ => []

/-- `batches` are the batches of the task up to an offset it has reached. -/
def SourceTask.Cut (task : SourceTask Offset Rows) (offset : Offset)
    (batches : List (Batch Offset Rows)) : Prop :=
  offset ≤ task.position ∧ batches = task.polled.filter fun batch => decide (batch.offset ≤ offset)

/-- `batches` are the batches of the task before its barrier of this epoch. -/
def SourceTask.CutAt (task : SourceTask Offset Rows) (epoch : Nat)
    (batches : List (Batch Offset Rows)) : Prop :=
  ∃ offset, task.barrierOffsets[epoch]? = some offset ∧ task.Cut offset batches

/-- Every barrier of the source among `msgs` has the batches before it on its
left: those in `before` and those among the messages that precede it. -/
def BarriersCut (task : SourceTask Offset Rows) (sourceIdx : Nat) :
    List (Batch Offset Rows) → List (SourceMsg Offset Rows) → Prop
  | _, [] => True
  | before, .batch idx batch :: msgs =>
    BarriersCut task sourceIdx (if idx = sourceIdx then before ++ [batch] else before) msgs
  | before, .barrier idx barrier :: msgs =>
    (idx = sourceIdx → task.CutAt barrier.epoch before) ∧ BarriersCut task sourceIdx before msgs

variable (task : SourceTask Offset Rows) {before : List (Batch Offset Rows)}

def SourceTask.EpochsAgree : Prop :=
  match task.point with
  | .publishingBarrier barrier =>
    barrier.epoch = task.barrierOffsets.length ∧ task.epoch = task.barrierOffsets.length + 1
  | .sendingBarrier barrier =>
    task.barrierOffsets[barrier.epoch]? = some task.position ∧
      task.epoch = task.barrierOffsets.length
  | _ => task.epoch = task.barrierOffsets.length

/-- What holds of one source: no batch is lost, doubled or reordered between
`poll_batch` and `execute_cycle`, and every barrier splits the batches. -/
structure Flow (sourceIdx : Nat) (taken deferred : List (Batch Offset Rows))
    (inbox : List (SourceMsg Offset Rows)) : Prop where
  conserved : taken ++ deferred ++ batchesFrom sourceIdx inbox ++ task.inHand = task.polled
  reached : ∀ batch ∈ task.polled, batch.offset ≤ task.position
  epochs : task.EpochsAgree
  cuts : BarriersCut task sourceIdx (taken ++ deferred) inbox

theorem barriersCut_append {left right : List (SourceMsg Offset Rows)} :
    BarriersCut task sourceIdx before (left ++ right) ↔
      BarriersCut task sourceIdx before left ∧
        BarriersCut task sourceIdx (before ++ batchesFrom sourceIdx left) right := by
  induction left generalizing before with
  | nil => simp [BarriersCut]
  | cons msg left ih =>
    cases msg with
    | batch idx batch =>
      by_cases same : idx = sourceIdx <;>
        simp [BarriersCut, ih, same]
    | barrier idx barrier =>
      simp [BarriersCut, ih, and_assoc]

variable {task : SourceTask Offset Rows}

theorem BarriersCut.map {next : SourceTask Offset Rows}
    (kept : ∀ epoch batches, task.CutAt epoch batches → next.CutAt epoch batches)
    (cuts : BarriersCut task sourceIdx before msgs) : BarriersCut next sourceIdx before msgs := by
  induction msgs generalizing before with
  | nil => trivial
  | cons msg msgs ih =>
    cases msg with
    | batch idx batch => exact ih cuts
    | barrier idx barrier =>
      exact ⟨fun same => kept _ _ (cuts.1 same), ih cuts.2⟩

theorem BarriersCut.setPoint (cuts : BarriersCut task sourceIdx before msgs)
    (point : TaskPoint Offset Rows) (epoch : Nat) :
    BarriersCut { task with point, epoch } sourceIdx before msgs := by
  refine cuts.map ?_
  intro _ _ cutAt
  exact cutAt

variable {batches : List (Batch Offset Rows)} {point : TaskPoint Offset Rows}
  {batch : Batch Offset Rows}

theorem SourceTask.Cut.poll {offset : Offset}
    (cut : task.Cut offset batches) (beyond : task.position < batch.offset) :
    Cut
      { task with
        point, position := batch.offset, polled := task.polled ++ [batch] }
      offset batches := by
  refine ⟨cut.1.trans beyond.le, ?_⟩
  have later := not_le.mpr (cut.1.trans_lt beyond)
  rw [filter_append, cut.2]
  simp [later]

theorem SourceTask.CutAt.publishBarrier {epoch : Nat} (cutAt : task.CutAt epoch batches) :
    CutAt
      { task with point, barrierOffsets := task.barrierOffsets ++ [task.position] }
      epoch batches := by
  rcases cutAt with ⟨offset, published, cut⟩
  refine ⟨offset, ?_, cut⟩
  have inside := (List.getElem?_eq_some_iff.mp published).1
  rw [List.getElem?_append_left inside]
  exact published

namespace Flow

variable {sourceIdx : Nat}
variable {taken deferred : List (Batch Offset Rows)}
variable {inbox : List (SourceMsg Offset Rows)}

theorem setPoint (flow : Flow task sourceIdx taken deferred inbox) (point : TaskPoint Offset Rows)
    (epoch : Nat) (inHand : inHand { task with point, epoch } = task.inHand)
    (epochs : EpochsAgree { task with point, epoch }) :
    Flow { task with point, epoch } sourceIdx taken deferred inbox := by
  refine { flow with conserved := ?_, epochs, cuts := flow.cuts.setPoint point epoch }
  rw [inHand]
  exact flow.conserved

theorem poll (flow : Flow task sourceIdx taken deferred inbox) (polling : task.point = .polling)
    (beyond : task.position < batch.offset) :
    Flow
      { task with
        point := .publishing batch
        position := batch.offset
        polled := task.polled ++ [batch] }
      sourceIdx taken deferred inbox where
  conserved := by
    have conserved := flow.conserved
    simp only [inHand, polling, append_nil] at conserved
    simp [inHand, ← conserved]
  reached := by
    intro other mem
    rcases mem_append.mp mem with earlier | new
    · exact (flow.reached other earlier).trans beyond.le
    · rw [mem_singleton.mp new]
  epochs := by simpa [EpochsAgree, polling] using flow.epochs
  cuts := flow.cuts.map fun epoch batches cutAt => by
    rcases cutAt with ⟨offset, published, cut⟩
    exact ⟨offset, published, cut.poll beyond⟩

variable {msg : SourceMsg Offset Rows}

section

variable (flow : Flow task sourceIdx taken deferred inbox)

include flow

theorem publishBarrier (point : task.point = .publishingBarrier barrier) :
    Flow
      { task with
        point := .sendingBarrier barrier
        barrierOffsets := task.barrierOffsets ++ [task.position] }
      sourceIdx taken deferred inbox where
  conserved := by simpa [inHand, point] using flow.conserved
  reached := flow.reached
  epochs := by
    have epochs := flow.epochs
    simp only [EpochsAgree, point] at epochs
    simp [EpochsAgree, epochs.1, epochs.2]
  cuts := flow.cuts.map fun _ _ cutAt => cutAt.publishBarrier

theorem sendBatch (point : task.point = .sending batch) :
    Flow { task with point := .loadingBarrier } sourceIdx taken deferred
      (inbox ++ [.batch sourceIdx batch]) where
  conserved := by
    have conserved := flow.conserved
    simp only [inHand, point] at conserved
    simp [inHand, ← conserved]
  reached := flow.reached
  epochs := by simpa [EpochsAgree, point] using flow.epochs
  cuts := by
    rw [barriersCut_append]
    exact ⟨flow.cuts.setPoint _ _, by simp [BarriersCut]⟩

theorem sendBarrier (point : task.point = .sendingBarrier barrier) :
    Flow { task with point := .polling } sourceIdx taken deferred
      (inbox ++ [.barrier sourceIdx barrier]) where
  conserved := by simpa [inHand, point] using flow.conserved
  reached := flow.reached
  epochs := by
    have epochs := flow.epochs
    simp only [EpochsAgree, point] at epochs
    simp [EpochsAgree, epochs.2]
  cuts := by
    have epochs := flow.epochs
    have conserved := flow.conserved
    simp only [EpochsAgree, point] at epochs
    simp only [inHand, point, append_nil] at conserved
    rw [barriersCut_append]
    refine ⟨flow.cuts.setPoint _ _, fun _ => ?_, trivial⟩
    refine ⟨task.position, epochs.1, le_rfl, ?_⟩
    rw [conserved, filter_eq_self.mpr]
    intro batch mem
    exact decide_eq_true (flow.reached batch mem)

theorem sendOther (other : msg.sourceIdx ≠ sourceIdx) :
    Flow task sourceIdx taken deferred (inbox ++ [msg]) where
  conserved := by
    have conserved := flow.conserved
    cases msg with
    | batch idx batch =>
      have different : idx ≠ sourceIdx := other
      simpa [different] using conserved
    | barrier idx barrier => simpa using conserved
  reached := flow.reached
  epochs := flow.epochs
  cuts := by
    rw [barriersCut_append]
    refine ⟨flow.cuts, ?_⟩
    cases msg with
    | batch idx batch => trivial
    | barrier idx barrier => exact ⟨fun same => absurd same other, trivial⟩

end

theorem takeBatch (flow : Flow task sourceIdx taken [] (.batch sourceIdx batch :: inbox)) :
    Flow task sourceIdx (taken ++ [batch]) [] inbox :=
  { flow with
    conserved := by simpa using flow.conserved
    cuts := by simpa [BarriersCut] using flow.cuts }

theorem deferBatch (flow : Flow task sourceIdx taken deferred (.batch sourceIdx batch :: inbox)) :
    Flow task sourceIdx taken (deferred ++ [batch]) inbox :=
  { flow with
    conserved := by simpa using flow.conserved
    cuts := by simpa [BarriersCut] using flow.cuts }

theorem takeBarrier
    (flow : Flow task sourceIdx taken deferred (.barrier sourceIdx barrier :: inbox)) :
    Flow task sourceIdx taken deferred inbox ∧ task.CutAt barrier.epoch (taken ++ deferred) := by
  refine ⟨{ flow with conserved := ?_, cuts := flow.cuts.2 }, flow.cuts.1 rfl⟩
  simpa using flow.conserved

theorem takeOther
    (flow : Flow task sourceIdx taken deferred (msg :: inbox)) (other : msg.sourceIdx ≠ sourceIdx) :
    Flow task sourceIdx taken deferred inbox := by
  have conserved := flow.conserved
  have cuts := flow.cuts
  cases msg with
  | batch idx batch =>
    have different : idx ≠ sourceIdx := other
    simp only [batchesFrom_batch, different, if_false, nil_append] at conserved
    simp only [BarriersCut, different, if_false] at cuts
    exact { flow with conserved, cuts }
  | barrier idx barrier => exact { flow with conserved, cuts := cuts.2 }

theorem requeue (batchesOnly : ∀ msg ∈ msgs, ∃ idx batch, msg = .batch idx batch)
    (flow : Flow task sourceIdx taken (batchesFrom sourceIdx msgs) inbox) :
    Flow task sourceIdx taken [] (msgs ++ inbox) where
  conserved := by simpa using flow.conserved
  reached := flow.reached
  epochs := flow.epochs
  cuts := by
    rw [barriersCut_append, append_nil]
    refine ⟨?_, flow.cuts⟩
    have general : ∀ before, BarriersCut task sourceIdx before msgs := by
      clear flow
      induction msgs with
      | nil => exact fun _ => trivial
      | cons msg msgs ih =>
        intro before
        rcases batchesOnly msg mem_cons_self with ⟨idx, batch, rfl⟩
        exact ih (forall_mem_cons.mp batchesOnly).2 _
    exact general taken

end Flow

end Flow

end LaminarDB.Pipeline
