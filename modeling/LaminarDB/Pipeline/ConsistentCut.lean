import LaminarDB.Pipeline.CutInvariant

/-!
# Consistent cuts of barrier checkpoints

A barrier checkpoint is consistent when the batches handed to `execute_cycle`
are, for every source in it, the batches up to the recorded offset.
-/

namespace LaminarDB.Pipeline

open Library Pipeline.Coordinator SourceTask LoopPoint Pipeline.State

variable {Offset Rows CallbackState : Type} [LinearOrder Offset]

/-- A batch of a source whose offset the pending checkpoint has recorded is not taken; a barrier
does not overtake a deferred batch of its source; and when a barrier is handled, the watch channel
of its source has not changed since the barrier was sent. -/
def KeepsCut (state : State Offset Rows CallbackState) : Label Offset Rows → Bool
  | .beginCycle =>
    match state.coordinator.point with
    | .received msg =>
      (state.coordinator.postBarrierBuf ++ msg.toList).all fun other =>
        match other with
        | .batch idx _ => !state.coordinator.pendingBarrier.recorded idx
        | .barrier _ _ => true
    | _ => true
  | .drain =>
    match state.queue with
    | msg :: _ => state.coordinator.admitsMsg msg
    | [] => true
  | .handleBarrier =>
    match state.coordinator.point with
    | .handling ((sourceIdx, barrier) :: _) =>
      !state.coordinator.matchesPending barrier ||
        decide ((state.tasks sourceIdx).barrierOffsets[barrier.epoch]? =
          some (state.watch sourceIdx))
    | _ => true
  | _ => true

def State.Sound (sources : Nat) (state : State Offset Rows CallbackState) : Prop :=
  Invariant sources state.tasks state.coordinator state.inbox

variable (callbacks : PipelineCallback CallbackState Rows) (sources : Nat)
  {state : State Offset Rows CallbackState}

theorem sound_initial (initial : Initial state) : state.Sound sources := by
  obtain ⟨fresh, queue, point, buf, deferred, seen, barriers, pending, nextId, executed⟩ := initial
  have inbox : state.inbox = [] := by simp [inbox, point, queue]
  have taken : ∀ sourceIdx, state.coordinator.taken sourceIdx = [] := by
    intro sourceIdx
    simp [taken, point, executed, inCycle]
  refine
    { flow := ?_
      known := by simp [inbox]
      deferred := by simp [deferred]
      deferredSeen := by simp [deferred]
      barriersSeen := by simp [barriers]
      barriers := by simp [toHandle, point]
      aligned := by simp [pending, PendingBarrier.new] }
  intro sourceIdx _
  obtain ⟨polling, epoch, polled, offsets, _⟩ := fresh sourceIdx
  rw [taken, deferred, inbox]
  refine ⟨?_, ?_, ?_, trivial⟩
  · simp [inHand, polling, polled]
  · simp [polled]
  · simp [EpochsAgree, polling, epoch, offsets]

variable {state next : State Offset Rows CallbackState}

omit [LinearOrder Offset] in
theorem inbox_send {msg : SourceMsg Offset Rows} (sent : state.send msg = some next) :
    next.inbox = state.inbox ++ [msg] ∧ next.tasks = state.tasks ∧
      next.coordinator = state.coordinator := by
  unfold send at sent
  split at sent
  · cases sent
    refine ⟨?_, rfl, rfl⟩
    simp only [inbox]
    split <;> simp
  · simp at sent

section

variable (sound : state.Sound sources) {sourceIdx : Nat}

include sound

theorem sound_advance (inRange : sourceIdx < sources)
    (stepped : state.advance sourceIdx = some next) : next.Sound sources := by
  have flow := sound.flow sourceIdx inRange
  have epochs := flow.epochs
  cases point : (state.tasks sourceIdx).point with simp only [State.advance, point] at stepped
  | polling => cases stepped
  | publishing batch =>
    cases stepped
    exact sound.moveTask inRange
      (by simp [inHand, point]) (by simpa [EpochsAgree, point] using epochs)
  | sending batch =>
    obtain ⟨inbox, tasks, coordinator⟩ := inbox_send stepped
    unfold Sound
    rw [inbox, tasks, coordinator]
    exact sound.sendTask inRange rfl (flow.sendBatch point)
  | loadingBarrier =>
    cases stepped
    refine sound.moveTask inRange ?_ ?_
    · by_cases none : state.cmd sourceIdx = 0 <;> simp [inHand, point, none]
    · by_cases none : state.cmd sourceIdx = 0 <;>
        simpa [EpochsAgree, point, none] using epochs
  | claimingBarrier packed =>
    simp only [EpochsAgree, point] at epochs
    split at stepped <;> cases stepped
    · exact sound.moveTask inRange (by simp [inHand, point])
        (by simp [EpochsAgree, claimedBarrier, epochs])
    · exact sound.moveTask inRange
        (by simp [inHand, point]) (by simp [EpochsAgree, epochs])
  | publishingBarrier barrier =>
    cases stepped
    refine sound.setTask (fun _ _ cut => cut) ?_ (flow.publishBarrier point)
      (fun other otherInRange _ => sound.flow other otherInRange) sound.known
    intro epoch offset published
    have inside := (List.getElem?_eq_some_iff.mp published).1
    rw [List.getElem?_append_left inside]
    exact published
  | sendingBarrier barrier =>
    obtain ⟨inbox, tasks, coordinator⟩ := inbox_send stepped
    unfold Sound
    rw [inbox, tasks, coordinator]
    exact sound.sendTask inRange rfl (flow.sendBarrier point)

theorem sound_move {point : LoopPoint Offset Rows} {queue : List (SourceMsg Offset Rows)}
    {cmd : Nat → UInt64} (inbox : inbox
      { state with queue, coordinator := { state.coordinator with point } } = state.inbox)
    (notDraining : point ≠ .draining) (cycle : point.inCycle = state.coordinator.point.inCycle)
    (toHandle : ∀ entry ∈ toHandle { state.coordinator with point },
      entry ∈ state.coordinator.toHandle) :
    Sound sources { state with queue, cmd, coordinator := { state.coordinator with point } } := by
  have moved := Invariant.setPoint sound point notDraining (by simp [taken, cycle]) toHandle
  show Invariant sources state.tasks _ (State.inbox
    { state with queue, coordinator := { state.coordinator with point } })
  rw [inbox]
  exact moved

variable {label : Label Offset Rows}

theorem sound_coordinatorStep (admitted : KeepsCut state label = true)
    (stepped : coordinatorStep callbacks sources state label = some next) : next.Sound sources := by
  cases label
  all_goals simp only [coordinatorStep] at stepped
  case poll | pollNothing | advance => cases stepped
  case receive =>
    split at stepped <;> cases stepped
    rename_i msg queue point pending
    exact sound_move sources sound
      (by simp [inbox, point, pending]) (by simp)
      (by simp [inCycle, point]) (by simp [toHandle])
  case idleTimeout | endDrain | trigger =>
    split at stepped <;> cases stepped
    all_goals
      rename_i point
      exact sound_move sources sound (by simp [inbox, point]) (by simp)
        (by simp [inCycle, point]) (by simp [toHandle, point])
  case beginCycle =>
    split at stepped <;> cases stepped
    rename_i msg point
    have received : Invariant sources state.tasks state.coordinator
        (msg.toList ++ state.queue) := by
      simpa [Sound, inbox, point] using sound
    simp only [KeepsCut, point, List.all_eq_true] at admitted
    have begun := received.beginCycle callbacks point (by
      rintro other mem idx batch rfl
      simpa using admitted _ mem)
    simpa [Sound, inbox, setCoordinator, begun.2] using begun.1
  case drain =>
    split at stepped <;> cases stepped
    rename_i msg queue point pending
    have drained : Invariant sources state.tasks state.coordinator (msg :: queue) := by
      simpa [Sound, inbox, point, pending] using sound
    simp only [KeepsCut, pending] at admitted
    simpa [Sound, inbox, point] using drained.processMsg callbacks point admitted
  case execute =>
    split at stepped <;> cases stepped
    rename_i point
    have executed := Invariant.executeCycle sound point
    simpa [Sound, inbox, setCoordinator, executeCycle, point] using executed
  case handleBarrier =>
    split at stepped <;> cases stepped
    rename_i sourceIdx barrier barriers point
    simp only [KeepsCut, point, Bool.or_eq_true, Bool.not_eq_true', decide_eq_true_eq] at admitted
    have next : (sourceIdx, barrier) ∈ state.coordinator.toHandle := by
      simp [toHandle, point]
    have handled := Invariant.handleBarrier sound next
      (fun isPending => admitted.resolve_left (by simp [isPending]))
    have moved := handled.setPoint (.handling barriers) (by simp) (by simp [taken, point, inCycle])
      (by
        intro entry mem
        have remaining : entry ∈ barriers := mem
        simp [toHandle, point, remaining])
    simpa [Sound, inbox, setCoordinator, point] using moved
  case maybeCheckpoint due =>
    split at stepped <;> cases stepped
    rename_i point
    have checked := Invariant.maybeCheckpoint sound point due
    have inboxBefore : state.inbox = state.queue := by simp [inbox, point]
    have inboxAfter : inbox (state.setCoordinator
        (state.coordinator.maybeCheckpoint sources due)) = state.queue := by
      simp only [inbox, setCoordinator, maybeCheckpoint]
      by_cases starts : (due && !state.coordinator.pendingBarrier.active &&
          decide (0 < sources)) = true <;> simp [starts]
    unfold Sound
    rw [inboxAfter, ← inboxBefore]
    exact checked
  case checkTimeout timedOut =>
    split at stepped <;> cases stepped
    rename_i point
    have checked := Invariant.checkTimeout sound point timedOut
    simpa [Sound, inbox, setCoordinator, checkTimeout, point] using checked

theorem sound_step (admitted : KeepsCut state label = true)
    (stepped : step callbacks sources state label = some next) : next.Sound sources := by
  cases label with simp only [step] at stepped
  | poll sourceIdx batch =>
    split at stepped
    case h_1 polling =>
      split at stepped <;> cases stepped
      rename_i enabled
      exact sound.setTask (fun _ _ cut => cut.poll enabled.2) (fun _ _ published => published)
        ((sound.flow sourceIdx enabled.1).poll polling enabled.2)
        (fun other otherInRange _ => sound.flow other otherInRange) sound.known
    case h_2 => cases stepped
  | pollNothing sourceIdx =>
    split at stepped
    case h_1 polling =>
      split at stepped <;> cases stepped
      rename_i inRange
      have epochs := (sound.flow sourceIdx inRange).epochs
      exact sound.moveTask inRange
        (by simp [inHand, polling]) (by simpa [EpochsAgree, polling] using epochs)
    case h_2 => cases stepped
  | advance sourceIdx =>
    obtain ⟨inRange, advanced⟩ := Option.ite_none_right_eq_some.mp stepped
    exact sound_advance sources sound inRange advanced
  | receive | idleTimeout | beginCycle | drain | endDrain | execute | handleBarrier
  | maybeCheckpoint | trigger | checkTimeout =>
    exact sound_coordinatorStep callbacks sources sound admitted stepped

end

variable (state) in
/-- The argument of `checkpoint_with_barrier` if the next barrier to handle
completes the alignment. -/
def State.checkpointCall? : Option (Nat → Option Offset) :=
  match state.coordinator.point with
  | .handling ((sourceIdx, barrier) :: _) =>
    (state.coordinator.handleBarrier state.watch sourceIdx barrier).2
  | _ => none

variable (state) in
def State.ConsistentCut (checkpoints : Nat → Option Offset) : Prop :=
  ∀ sourceIdx offset, checkpoints sourceIdx = some offset →
    takenFrom sourceIdx state.coordinator.executed =
      (state.tasks sourceIdx).polled.filter fun batch => decide (batch.offset ≤ offset)

/-- Every checkpoint taken in a run whose steps keep the cut is consistent. -/
theorem checkpointCall_consistentCut {state : State Offset Rows CallbackState}
    (reached : (system callbacks sources).Reaches
      (fun before label => KeepsCut before label = true) state)
    (admitted : KeepsCut state .handleBarrier = true) {checkpoints : Nat → Option Offset}
    (called : state.checkpointCall? = some checkpoints) :
    state.ConsistentCut checkpoints := by
  have sound : state.Sound sources := by
    refine reached.invariant ?_ ?_
    · intro start initial
      exact sound_initial sources initial
    · intro before label next soundBefore admittedStep stepped
      exact sound_step callbacks sources soundBefore admittedStep stepped
  unfold checkpointCall? at called
  split at called
  case h_1 sourceIdx barrier barriers point =>
    simp only [KeepsCut, point, Bool.or_eq_true, Bool.not_eq_true', decide_eq_true_eq] at admitted
    have isNext : (sourceIdx, barrier) ∈ state.coordinator.toHandle := by
      simp [toHandle, point]
    unfold handleBarrier at called
    split at called
    case isTrue isPending =>
      have active : state.coordinator.pendingBarrier.active = true := by
        simp only [matchesPending, Bool.and_eq_true] at isPending
        exact isPending.1
      have current := admitted.resolve_left (by simp [isPending])
      dsimp only at called
      split at called
      · cases called
        intro other offset recorded
        rcases Invariant.align sound isNext active current other offset recorded with
          ⟨_, _, _, cut⟩
        simpa [taken, point, inCycle] using cut
      · simp at called
    case isFalse => simp at called
  case h_2 => simp at called

section OneSource

def keepAll : PipelineCallback Unit Unit where
  extractWatermark := fun callback _ _ => callback
  filterLateRows := fun _ _ rows => some rows

def oneSource : State Nat Unit Unit where
  tasks := fun _ =>
    { point := .polling, position := 0, epoch := 0, polled := [], barrierOffsets := [] }
  watch := fun _ => 0
  cmd := fun _ => 0
  queue := []
  coordinator :=
    { point := .waiting
      callback := ()
      sourceBatchesBuf := []
      postBarrierBuf := []
      barrierSeen := ∅
      barriersBuf := []
      pendingBarrier := .new Nat
      nextCheckpointId := 1
      executed := [] }

theorem oneSource_initial : Initial oneSource := by
  simp [Initial, oneSource]

/-- The coordinator triggers a barrier; the source sends its first batch and
then the barrier. -/
def batchThenBarrier : List (Label Nat Unit) :=
  [.idleTimeout, .beginCycle, .endDrain, .execute, .maybeCheckpoint true, .trigger,
    .trigger, .checkTimeout false, .poll 0 ⟨1, ()⟩, .advance 0, .advance 0, .advance 0,
    .advance 0, .advance 0, .advance 0]

def drainBoth : List (Label Nat Unit) :=
  [.receive, .beginCycle, .drain, .endDrain, .execute]

def publishSecond : List (Label Nat Unit) :=
  [.poll 0 ⟨2, ()⟩, .advance 0]

def beforeCheckpoint (between : List (Label Nat Unit)) : State Nat Unit Unit :=
  ((system keepAll 1).run oneSource (batchThenBarrier ++ between ++ drainBoth)).getD oneSource

theorem checkpointCall_consistentCut_oneSource :
    ∃ checkpoints, (beforeCheckpoint []).checkpointCall? = some checkpoints ∧
      checkpoints 0 = some 1 ∧ (beforeCheckpoint []).ConsistentCut checkpoints := by
  have reached : (system keepAll 1).Reaches
      (fun before label => KeepsCut before label = true) (beforeCheckpoint []) :=
    .of_checkRun (fun _ _ admitted => admitted) (.initial oneSource_initial) (by decide +kernel)
  have called : (beforeCheckpoint []).checkpointCall? =
      some (((beforeCheckpoint []).checkpointCall?).get (by decide +kernel)) :=
    (Option.some_get _).symm
  exact ⟨_, called, by decide +kernel,
    checkpointCall_consistentCut keepAll 1 reached (by decide +kernel) called⟩

/-- The source polls its second batch between sending the barrier and the
handling of it: the recorded offset is already the one after that batch. -/
theorem checkpointCall_not_consistentCut :
    ∃ checkpoints,
      (system keepAll 1).Reaches (fun _ _ => True) (beforeCheckpoint publishSecond) ∧
      (beforeCheckpoint publishSecond).checkpointCall? = some checkpoints ∧
      checkpoints 0 = some 2 ∧
      takenFrom 0 (beforeCheckpoint publishSecond).coordinator.executed = [⟨1, ()⟩] ∧
      ¬ (beforeCheckpoint publishSecond).ConsistentCut checkpoints := by
  have reached : (system keepAll 1).Reaches (fun _ _ => True) (beforeCheckpoint publishSecond) :=
    .of_checkRun (fun _ _ (_ : true = true) => trivial)
      (.initial oneSource_initial) (by decide +kernel)
  have called : (beforeCheckpoint publishSecond).checkpointCall? =
      some (((beforeCheckpoint publishSecond).checkpointCall?).get (by decide +kernel)) :=
    (Option.some_get _).symm
  refine ⟨_, reached, called, by decide +kernel, by decide +kernel, ?_⟩
  intro consistent
  have both := consistent 0 2 (by decide +kernel)
  have first : takenFrom 0 (beforeCheckpoint publishSecond).coordinator.executed =
      [⟨1, ()⟩] := by decide +kernel
  have polled : ((beforeCheckpoint publishSecond).tasks 0).polled =
      [⟨1, ()⟩, ⟨2, ()⟩] := by decide +kernel
  rw [first, polled] at both
  simp at both

end OneSource

end LaminarDB.Pipeline
