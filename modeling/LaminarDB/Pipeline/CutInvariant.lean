import LaminarDB.Pipeline.Flow

/-!
# The invariant behind consistent cuts

The invariant keeps the flow of every source, the cut of every barrier that `handle_barrier` has
still to see, and the cut of every recorded offset.
-/

namespace LaminarDB.Pipeline

open List Function LoopPoint Pipeline.Coordinator

variable {Offset Rows CallbackState : Type} [LinearOrder Offset]
  (coordinator : Coordinator Offset Rows CallbackState) {msgs : List (SourceMsg Offset Rows)}
  {sourceIdx : Nat}

/-- The batches of a source that the coordinator has taken, executed or in the
running cycle. -/
def Coordinator.taken (sourceIdx : Nat) : List (Batch Offset Rows) :=
  takenFrom sourceIdx coordinator.executed ++
    if coordinator.point.inCycle then takenFrom sourceIdx coordinator.sourceBatchesBuf
    else []

def Coordinator.toHandle : List (Nat × CheckpointBarrier) :=
  match coordinator.point with
  | .draining => coordinator.barriersBuf
  | .executing => coordinator.barriersBuf
  | .handling barriers => barriers
  | _ => []

/-- The messages on their way to `process_msg`, apart from the deferred ones. -/
def State.inbox (state : State Offset Rows CallbackState) : List (SourceMsg Offset Rows) :=
  match state.coordinator.point with
  | .received msg => msg.toList ++ state.queue
  | _ => state.queue

structure Invariant (sources : Nat) (tasks : Nat → SourceTask Offset Rows)
    (coordinator : Coordinator Offset Rows CallbackState)
    (inbox : List (SourceMsg Offset Rows)) : Prop where
  flow : ∀ sourceIdx, sourceIdx < sources →
    Flow (tasks sourceIdx) sourceIdx (coordinator.taken sourceIdx)
      (batchesFrom sourceIdx coordinator.postBarrierBuf) inbox
  known : ∀ msg ∈ inbox, msg.sourceIdx < sources
  deferred : ∀ msg ∈ coordinator.postBarrierBuf, ∃ idx batch, msg = .batch idx batch ∧ idx < sources
  deferredSeen : coordinator.point = .draining →
    ∀ msg ∈ coordinator.postBarrierBuf, msg.sourceIdx ∈ coordinator.barrierSeen
  barriersSeen : coordinator.point = .draining →
    ∀ entry ∈ coordinator.barriersBuf, entry.1 ∈ coordinator.barrierSeen
  barriers : ∀ entry ∈ coordinator.toHandle, entry.1 < sources ∧
    (tasks entry.1).CutAt entry.2.epoch (coordinator.taken entry.1)
  aligned : coordinator.pendingBarrier.active = true →
    ∀ sourceIdx offset,
      coordinator.pendingBarrier.sourceCheckpoints sourceIdx = some offset →
      sourceIdx < sources ∧ sourceIdx ∈ coordinator.pendingBarrier.sourcesAligned ∧
        (tasks sourceIdx).Cut offset (coordinator.taken sourceIdx)

def PendingBarrier.recorded (pending : PendingBarrier Offset) (sourceIdx : Nat) : Bool :=
  pending.active && decide (sourceIdx ∈ pending.sourcesAligned)

/-- A message may be processed without spoiling a cut: a batch that is taken
now belongs to a source whose offset is not recorded, and a barrier does not
overtake a deferred batch of its source. -/
def Coordinator.admitsMsg :
    SourceMsg Offset Rows → Bool
  | .batch sourceIdx _ =>
    decide (sourceIdx ∈ coordinator.barrierSeen) || !coordinator.pendingBarrier.recorded sourceIdx
  | .barrier sourceIdx _ =>
    (batchesFrom sourceIdx coordinator.postBarrierBuf).isEmpty

omit [LinearOrder Offset] in
theorem batchesFrom_eq_nil
    (absent : ∀ msg ∈ msgs, msg.sourceIdx ≠ sourceIdx) : batchesFrom sourceIdx msgs = [] := by
  rw [batchesFrom, filterMap_eq_nil_iff]
  intro msg mem
  have different := absent msg mem
  cases msg with
  | batch idx batch => simpa [SourceMsg.sourceIdx] using different
  | barrier idx barrier => rfl

namespace Invariant

variable {sources : Nat} {tasks : Nat → SourceTask Offset Rows}
variable {coordinator : Coordinator Offset Rows CallbackState}
variable {inbox : List (SourceMsg Offset Rows)}
variable (callbacks : PipelineCallback CallbackState Rows)

variable {barrier : CheckpointBarrier} {msg : SourceMsg Offset Rows}

section

variable (draining : coordinator.point = .draining)

include draining

theorem deferred_eq_nil (invariant : Invariant sources tasks coordinator inbox)
    (unseen : sourceIdx ∉ coordinator.barrierSeen) :
    batchesFrom sourceIdx coordinator.postBarrierBuf = [] := by
  apply batchesFrom_eq_nil
  intro msg mem same
  apply unseen
  rw [← same]
  exact invariant.deferredSeen draining msg mem

section

variable {batch : Batch Offset Rows}
  (invariant : Invariant sources tasks coordinator (.batch sourceIdx batch :: inbox))

include invariant

theorem processMsg_deferred (seen : sourceIdx ∈ coordinator.barrierSeen) :
    Invariant sources tasks
      { coordinator with
        postBarrierBuf := coordinator.postBarrierBuf ++ [.batch sourceIdx batch] }
      inbox where
  flow := by
    intro other inRange
    have flow := invariant.flow other inRange
    show Flow _ _ (coordinator.taken other)
      (batchesFrom other (coordinator.postBarrierBuf ++ [.batch sourceIdx batch])) _
    rw [batchesFrom_append, batchesFrom_batch]
    by_cases same : sourceIdx = other
    · subst other
      rw [if_pos rfl]
      exact flow.deferBatch
    · rw [if_neg same, batchesFrom_nil, append_nil, append_nil]
      exact flow.takeOther same
  known := (forall_mem_cons.mp invariant.known).2
  deferred := forall_mem_append.mpr ⟨invariant.deferred,
    forall_mem_singleton.mpr ⟨sourceIdx, batch, rfl, invariant.known _ mem_cons_self⟩⟩
  deferredSeen := fun _ =>
    forall_mem_append.mpr ⟨invariant.deferredSeen draining, forall_mem_singleton.mpr seen⟩
  barriersSeen := invariant.barriersSeen
  barriers := invariant.barriers
  aligned := invariant.aligned

theorem processMsg_taken (unseen : sourceIdx ∉ coordinator.barrierSeen)
    (unrecorded : coordinator.pendingBarrier.recorded sourceIdx = false) {callback : CallbackState}
    (kept : Option Rows) :
    Invariant sources tasks
      { coordinator with
        callback
        sourceBatchesBuf := coordinator.sourceBatchesBuf ++ [{ sourceIdx, batch, kept }] }
      inbox := by
  have takenAfter : ∀ other, taken
      { coordinator with
        callback
        sourceBatchesBuf := coordinator.sourceBatchesBuf ++ [{ sourceIdx, batch, kept }] }
      other = coordinator.taken other ++ if sourceIdx = other then [batch] else [] := by
    intro other
    simp [taken, draining, inCycle]
  refine
    { invariant with
      flow := ?_
      known := (forall_mem_cons.mp invariant.known).2
      barriers := ?_
      aligned := ?_ }
  · intro other inRange
    have flow := invariant.flow other inRange
    by_cases same : sourceIdx = other
    · subst other
      rw [invariant.deferred_eq_nil draining unseen] at flow
      rw [takenAfter, if_pos rfl]
      rw [invariant.deferred_eq_nil draining unseen]
      exact flow.takeBatch
    · rw [takenAfter, if_neg same, append_nil]
      exact flow.takeOther same
  · intro entry mem
    have pending : entry ∈ coordinator.barriersBuf := by
      simpa [toHandle, draining] using mem
    have different : sourceIdx ≠ entry.1 := by
      rintro rfl
      exact unseen (invariant.barriersSeen draining entry pending)
    rw [takenAfter, if_neg different, append_nil]
    exact invariant.barriers entry (by simpa [toHandle, draining] using pending)
  · intro active other offset recorded
    rcases invariant.aligned active other offset recorded with ⟨inRange, isAligned, cut⟩
    have different : sourceIdx ≠ other := by
      rintro rfl
      simp only [PendingBarrier.recorded] at unrecorded
      have activeBefore : coordinator.pendingBarrier.active = true := active
      have alignedBefore := isAligned
      simp [activeBefore, alignedBefore] at unrecorded
    rw [takenAfter, if_neg different, append_nil]
    exact ⟨inRange, isAligned, cut⟩

end

theorem processMsg_barrier
    (invariant : Invariant sources tasks coordinator (.barrier sourceIdx barrier :: inbox))
    (nothingDeferred : batchesFrom sourceIdx coordinator.postBarrierBuf = []) :
    Invariant sources tasks
      { coordinator with
        barrierSeen := insert sourceIdx coordinator.barrierSeen
        barriersBuf := coordinator.barriersBuf ++ [(sourceIdx, barrier)] }
      inbox where
  flow := by
    intro other inRange
    have flow := invariant.flow other inRange
    by_cases same : sourceIdx = other
    · subst other
      exact flow.takeBarrier.1
    · exact flow.takeOther same
  known := (forall_mem_cons.mp invariant.known).2
  deferred := invariant.deferred
  deferredSeen := fun _ msg mem =>
    Finset.mem_insert_of_mem (invariant.deferredSeen draining msg mem)
  barriersSeen := by
    refine fun _ => forall_mem_append.mpr ⟨fun entry earlier => ?_, forall_mem_singleton.mpr ?_⟩
    · exact Finset.mem_insert_of_mem (invariant.barriersSeen draining entry earlier)
    · exact Finset.mem_insert_self _ _
  barriers := by
    intro entry mem
    have inRange : sourceIdx < sources := invariant.known _ mem_cons_self
    have split : entry ∈ coordinator.barriersBuf ++ [(sourceIdx, barrier)] := by
      simpa only [toHandle, draining] using mem
    rcases mem_append.mp split with earlier | new
    · exact invariant.barriers entry (by simpa [toHandle, draining] using earlier)
    · rw [mem_singleton.mp new]
      have cutAt := (invariant.flow sourceIdx inRange).takeBarrier.2
      rw [nothingDeferred, append_nil] at cutAt
      exact ⟨inRange, cutAt⟩
  aligned := invariant.aligned

theorem processMsg (invariant : Invariant sources tasks coordinator (msg :: inbox))
    (admitted : coordinator.admitsMsg msg = true) :
    Invariant sources tasks (coordinator.processMsg callbacks sources msg) inbox := by
  cases msg with
  | batch sourceIdx batch =>
    have inRange : sourceIdx < sources := invariant.known _ mem_cons_self
    by_cases seen : sourceIdx ∈ coordinator.barrierSeen
    · simp only [processMsg, if_pos seen]
      exact invariant.processMsg_deferred draining seen
    · have unrecorded : coordinator.pendingBarrier.recorded sourceIdx = false := by
        simpa [admitsMsg, seen] using admitted
      simp only [processMsg, if_neg seen, if_pos inRange]
      exact invariant.processMsg_taken draining seen unrecorded _
  | barrier sourceIdx barrier =>
    have nothingDeferred : batchesFrom sourceIdx coordinator.postBarrierBuf = [] := by
      simpa [admitsMsg] using admitted
    exact invariant.processMsg_barrier draining nothingDeferred

theorem foldl_processMsg (invariant : Invariant sources tasks coordinator (msgs ++ inbox))
    (noneSeen : coordinator.barrierSeen = ∅)
    (batchesOnly : ∀ msg ∈ msgs, ∃ idx batch, msg = .batch idx batch ∧
      coordinator.pendingBarrier.recorded idx = false) :
    let after := msgs.foldl (Coordinator.processMsg callbacks sources) coordinator
    Invariant sources tasks after inbox ∧ after.point = .draining ∧ after.barrierSeen = ∅ ∧
      after.postBarrierBuf = coordinator.postBarrierBuf ∧
      after.pendingBarrier = coordinator.pendingBarrier := by
  induction msgs generalizing coordinator with
  | nil => exact ⟨invariant, draining, noneSeen, rfl, rfl⟩
  | cons msg msgs ih =>
    rcases batchesOnly msg mem_cons_self with ⟨idx, batch, rfl, unrecorded⟩
    have unseen : idx ∉ coordinator.barrierSeen := by simp [noneSeen]
    have inRange : idx < sources := invariant.known _ mem_cons_self
    have next := invariant.processMsg callbacks draining (by simp [admitsMsg, unrecorded])
    simp only [Coordinator.processMsg, if_neg unseen, if_pos inRange] at next
    simp only [foldl_cons, Coordinator.processMsg, if_neg unseen, if_pos inRange]
    exact ih draining next noneSeen (forall_mem_cons.mp batchesOnly).2

end

theorem beginCycle {msg : Option (SourceMsg Offset Rows)} {queue : List (SourceMsg Offset Rows)}
    (invariant : Invariant sources tasks coordinator (msg.toList ++ queue))
    (received : coordinator.point = .received msg)
    (unrecorded : ∀ other ∈ coordinator.postBarrierBuf ++ msg.toList,
      ∀ idx batch, other = .batch idx batch → coordinator.pendingBarrier.recorded idx = false) :
    Invariant sources tasks (coordinator.beginCycle callbacks sources msg) queue ∧
      (coordinator.beginCycle callbacks sources msg).point = .draining := by
  have cleared : Invariant sources tasks
      { coordinator with
        point := .draining
        sourceBatchesBuf := []
        barrierSeen := ∅
        barriersBuf := []
        postBarrierBuf := [] }
      (coordinator.postBarrierBuf ++ (msg.toList ++ queue)) := by
    have takenAfter : ∀ sourceIdx, taken
        { coordinator with
          point := .draining
          sourceBatchesBuf := []
          barrierSeen := ∅
          barriersBuf := []
          postBarrierBuf := [] } sourceIdx = coordinator.taken sourceIdx := by
      simp [taken, received, inCycle]
    refine
      { flow := ?_
        known := ?_
        deferred := by simp
        deferredSeen := by simp
        barriersSeen := by simp
        barriers := by simp [toHandle]
        aligned := ?_ }
    · intro sourceIdx inRange
      rw [takenAfter]
      refine (invariant.flow sourceIdx inRange).requeue ?_
      intro other mem
      rcases invariant.deferred other mem with ⟨idx, batch, rfl, _⟩
      exact ⟨idx, batch, rfl⟩
    · refine forall_mem_append.mpr ⟨fun other wasDeferred => ?_, invariant.known⟩
      rcases invariant.deferred other wasDeferred with ⟨idx, batch, rfl, inRange⟩
      exact inRange
    · intro active sourceIdx offset recorded
      rw [takenAfter]
      exact invariant.aligned active sourceIdx offset recorded
  have drained := cleared.foldl_processMsg callbacks rfl rfl (by
    intro other mem
    rcases invariant.deferred other mem with ⟨idx, batch, rfl, _⟩
    exact ⟨idx, batch, rfl, unrecorded _ (mem_append_left _ mem) idx batch rfl⟩)
  rcases drained with ⟨kept, draining, noneSeen, nothingDeferred, pendingKept⟩
  unfold Coordinator.beginCycle
  rw [foldl_append]
  cases msg with
  | none => exact ⟨kept, draining⟩
  | some first =>
    refine ⟨kept.processMsg callbacks draining ?_, ?_⟩
    · cases first with
      | batch idx batch =>
        simp only [admitsMsg, pendingKept]
        rw [unrecorded (.batch idx batch) (by simp) idx batch rfl]
        simp
      | barrier idx barrier => simp [admitsMsg, nothingDeferred]
    · simpa using draining

section

variable (invariant : Invariant sources tasks coordinator inbox)

include invariant

theorem moved {next : Coordinator Offset Rows CallbackState} (notDraining : next.point ≠ .draining)
    (taken : ∀ sourceIdx, next.taken sourceIdx = coordinator.taken sourceIdx)
    (toHandle : ∀ entry ∈ next.toHandle, entry ∈ coordinator.toHandle)
    (deferred : next.postBarrierBuf = coordinator.postBarrierBuf)
    (pending : next.pendingBarrier = coordinator.pendingBarrier) :
    Invariant sources tasks next inbox where
  flow := by simpa only [taken, deferred] using invariant.flow
  known := invariant.known
  deferred := deferred ▸ invariant.deferred
  deferredSeen := fun draining => absurd draining notDraining
  barriersSeen := fun draining => absurd draining notDraining
  barriers := fun entry mem => taken _ ▸ invariant.barriers entry (toHandle entry mem)
  aligned := by simpa only [taken, pending] using invariant.aligned

theorem setPoint (point : LoopPoint Offset Rows) (notDraining : point ≠ .draining)
    (taken : ∀ sourceIdx, taken { coordinator with point } sourceIdx = coordinator.taken sourceIdx)
    (toHandle : ∀ entry ∈ toHandle { coordinator with point },
      entry ∈ coordinator.toHandle) : Invariant sources tasks { coordinator with point } inbox :=
  invariant.moved notDraining taken toHandle rfl rfl

theorem setPending (pendingBarrier : PendingBarrier Offset)
    (aligned : pendingBarrier.active = true →
      ∀ sourceIdx offset, pendingBarrier.sourceCheckpoints sourceIdx = some offset →
      sourceIdx < sources ∧ sourceIdx ∈ pendingBarrier.sourcesAligned ∧
        (tasks sourceIdx).Cut offset (coordinator.taken sourceIdx)) :
    Invariant sources tasks { coordinator with pendingBarrier } inbox :=
  { invariant with aligned }

theorem executeCycle (executing : coordinator.point = .executing) :
    Invariant sources tasks coordinator.executeCycle inbox := by
  refine invariant.moved (by simp [Coordinator.executeCycle]) ?_ ?_ rfl rfl
  · simp [taken, Coordinator.executeCycle, executing, inCycle]
  · simp [toHandle, Coordinator.executeCycle, executing]

variable {watched : Nat → Offset} {point : TaskPoint Offset Rows}

theorem align (next : (sourceIdx, barrier) ∈ coordinator.toHandle)
    (active : coordinator.pendingBarrier.active = true)
    (current : (tasks sourceIdx).barrierOffsets[barrier.epoch]? = some (watched sourceIdx)) :
    ∀ other offset,
      (align watched coordinator.pendingBarrier sourceIdx).sourceCheckpoints other = some offset →
      other < sources ∧
        other ∈ (align watched coordinator.pendingBarrier
          sourceIdx).sourcesAligned ∧ (tasks other).Cut offset (coordinator.taken other) := by
  intro other offset recorded
  simp only [Coordinator.align] at recorded ⊢
  by_cases same : other = sourceIdx
  · subst other
    rw [update_self] at recorded
    cases recorded
    rcases invariant.barriers _ next with ⟨inRange, published, isPublished, cut⟩
    cases current.symm.trans isPublished
    exact ⟨inRange, Finset.mem_insert_self _ _, cut⟩
  · rw [update_of_ne same] at recorded
    rcases invariant.aligned active other offset recorded with ⟨inRange, isAligned, cut⟩
    exact ⟨inRange, Finset.mem_insert_of_mem isAligned, cut⟩

theorem handleBarrier (next : (sourceIdx, barrier) ∈ coordinator.toHandle)
    (current : coordinator.matchesPending barrier = true →
      (tasks sourceIdx).barrierOffsets[barrier.epoch]? = some (watched sourceIdx)) :
    Invariant sources tasks (coordinator.handleBarrier watched sourceIdx barrier).1
      inbox := by
  unfold Coordinator.handleBarrier
  by_cases isPending : coordinator.matchesPending barrier = true
  · have active : coordinator.pendingBarrier.active = true := by
      simp only [matchesPending, Bool.and_eq_true] at isPending
      exact isPending.1
    rw [if_pos isPending]
    dsimp only
    split
    · exact invariant.setPending _ (fun still => by simp at still)
    · exact invariant.setPending _ (fun _ => invariant.align next active (current isPending))
  · rw [if_neg isPending]
    exact invariant

theorem maybeCheckpoint (handled : coordinator.point = .handling []) (due : Bool) :
    Invariant sources tasks (coordinator.maybeCheckpoint sources due) inbox := by
  unfold Coordinator.maybeCheckpoint
  split
  · have moved := invariant.setPoint
      (.triggering coordinator.nextCheckpointId (range sources)) (by simp)
      (by simp [taken, handled, inCycle]) (by simp [toHandle])
    have cleared := moved.setPending
      (.reset coordinator.nextCheckpointId sources) (by simp [PendingBarrier.reset])
    exact { cleared with }
  · exact invariant.setPoint .maintaining (by simp) (by simp [taken, handled, inCycle])
      (by simp [toHandle])

theorem checkTimeout (maintaining : coordinator.point = .maintaining) (timedOut : Bool) :
    Invariant sources tasks (coordinator.checkTimeout timedOut) inbox := by
  have moved := invariant.setPoint .waiting (by simp) (by simp [taken, maintaining, inCycle])
    (by simp [toHandle])
  refine moved.setPending _ ?_
  intro active
  simp only [Bool.and_eq_true] at active
  exact moved.aligned active.1

theorem setTask {task : SourceTask Offset Rows} {later : List (SourceMsg Offset Rows)}
    (cuts : ∀ offset batches, (tasks sourceIdx).Cut offset batches → task.Cut offset batches)
    (offsets : ∀ (epoch : Nat) offset, (tasks sourceIdx).barrierOffsets[epoch]? = some offset →
      task.barrierOffsets[epoch]? = some offset)
    (flow : Flow task sourceIdx (coordinator.taken sourceIdx)
      (batchesFrom sourceIdx coordinator.postBarrierBuf) later)
    (others : ∀ other, other < sources → other ≠ sourceIdx →
      Flow (tasks other) other (coordinator.taken other)
        (batchesFrom other coordinator.postBarrierBuf) later)
    (known : ∀ msg ∈ later, msg.sourceIdx < sources) :
    Invariant sources (update tasks sourceIdx task) coordinator later := by
  have cutKept : ∀ other offset batches, (tasks other).Cut offset batches →
      (update tasks sourceIdx task other).Cut offset batches := by
    intro other offset batches cut
    by_cases same : other = sourceIdx
    · subst other
      rw [update_self]
      exact cuts offset batches cut
    · rw [update_of_ne same]
      exact cut
  refine { invariant with flow := ?_, known, barriers := ?_, aligned := ?_ }
  · intro other inRange
    by_cases same : other = sourceIdx
    · subst other
      rw [update_self]
      exact flow
    · rw [update_of_ne same]
      exact others other inRange same
  · intro entry mem
    rcases invariant.barriers entry mem with ⟨inRange, offset, published, cut⟩
    refine ⟨inRange, offset, ?_, cutKept _ _ _ cut⟩
    by_cases same : entry.1 = sourceIdx
    · rw [same, update_self]
      rw [same] at published
      exact offsets _ _ published
    · rw [update_of_ne same]
      exact published
  · intro active other offset recorded
    rcases invariant.aligned active other offset recorded with ⟨inRange, isAligned, cut⟩
    exact ⟨inRange, isAligned, cutKept _ _ _ cut⟩

theorem moveTask (inRange : sourceIdx < sources) {epoch : Nat}
    (inHand : SourceTask.inHand { tasks sourceIdx with point, epoch } = (tasks sourceIdx).inHand)
    (epochs : SourceTask.EpochsAgree { tasks sourceIdx with point, epoch }) :
    Invariant sources (update tasks sourceIdx { tasks sourceIdx with point, epoch })
      coordinator inbox :=
  invariant.setTask (fun _ _ cut => cut) (fun _ _ published => published)
    ((invariant.flow sourceIdx inRange).setPoint point epoch inHand epochs)
    (fun other otherInRange _ => invariant.flow other otherInRange) invariant.known

theorem sendTask (inRange : sourceIdx < sources) (fromTask : msg.sourceIdx = sourceIdx)
    (flow : Flow { tasks sourceIdx with point } sourceIdx (coordinator.taken sourceIdx)
      (batchesFrom sourceIdx coordinator.postBarrierBuf) (inbox ++ [msg])) :
    Invariant sources (update tasks sourceIdx { tasks sourceIdx with point })
      coordinator (inbox ++ [msg]) := by
  refine invariant.setTask (fun _ _ cut => cut) (fun _ _ published => published) flow ?_ ?_
  · intro other otherInRange different
    refine (invariant.flow other otherInRange).sendOther ?_
    rw [fromTask]
    exact different.symm
  · refine forall_mem_append.mpr ⟨invariant.known, forall_mem_singleton.mpr ?_⟩
    rwa [fromTask]

end

end Invariant

end LaminarDB.Pipeline
