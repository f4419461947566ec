import LaminarDB.Pipeline.ConsistentCut
import LaminarDB.Pipeline.SourceOrder

/-!
# No batch is lost on its way to a cycle

In every interleaving each polled batch of a source is in one place: handed to a cycle, deferred
behind a barrier, in the channel, or in the hand of its task, in the order of the polls.
-/

namespace LaminarDB.Pipeline

open Library List Function Pipeline.Coordinator SourceTask Pipeline.State LoopPoint

variable {Offset Rows CallbackState : Type} {callbacks : PipelineCallback CallbackState Rows}
  {sources sourceIdx : Nat} {coordinator : Coordinator Offset Rows CallbackState}
  {task : SourceTask Offset Rows} {msgs inbox : List (SourceMsg Offset Rows)}

/-- The batches of a source by the places they are in. In a drain none is deferred before a
barrier of the source. -/
structure Conserved (sourceIdx : Nat) (task : SourceTask Offset Rows)
    (coordinator : Coordinator Offset Rows CallbackState)
    (inbox : List (SourceMsg Offset Rows)) : Prop where
  inOrder : coordinator.taken sourceIdx ++ batchesFrom sourceIdx coordinator.postBarrierBuf ++
    batchesFrom sourceIdx inbox ++ task.inHand = task.polled
  opened : coordinator.point = .draining → sourceIdx ∉ coordinator.barrierSeen →
    batchesFrom sourceIdx coordinator.postBarrierBuf = []

theorem Conserved.processMsg (known : sourceIdx < sources) {msg : SourceMsg Offset Rows}
    (conserved : Conserved sourceIdx task coordinator (msg :: inbox))
    (draining : coordinator.point = .draining) :
    Conserved sourceIdx task (coordinator.processMsg callbacks sources msg) inbox := by
  obtain ⟨taken, deferred, isSeen⟩ := @processMsg_source _ _ _ callbacks _ _ known coordinator msg
  have executed : (coordinator.processMsg callbacks sources msg).executed =
      coordinator.executed := by
    cases msg with simp only [Coordinator.processMsg]
    | batch => split_ifs <;> rfl
  constructor
  · rw [← conserved.inOrder, ← singleton_append, batchesFrom_append, Coordinator.taken, executed,
      taken, deferred]
    by_cases seen : sourceIdx ∈ coordinator.barrierSeen
    · simp [Coordinator.taken, draining, inCycle, seen]
    · simp [Coordinator.taken, draining, inCycle, seen, conserved.opened draining seen]
  · intro _ unseen
    rw [isSeen, not_or] at unseen
    rw [deferred, if_neg unseen.1, append_nil, conserved.opened draining unseen.1]

theorem Conserved.foldl (known : sourceIdx < sources)
    (conserved : Conserved sourceIdx task coordinator (msgs ++ inbox))
    (draining : coordinator.point = .draining) :
    let after := msgs.foldl (Coordinator.processMsg callbacks sources) coordinator
    Conserved sourceIdx task after inbox ∧ after.point = .draining := by
  induction msgs generalizing coordinator with
  | nil => exact ⟨conserved, draining⟩
  | cons msg msgs ih =>
    exact ih (conserved.processMsg known draining) ((processMsg_point ..).trans draining)

variable {state next : State Offset Rows CallbackState}

def State.Conserves (state : State Offset Rows CallbackState) (sourceIdx : Nat) : Prop :=
  Conserved sourceIdx (state.tasks sourceIdx) state.coordinator state.inbox

section

variable (conserves : state.Conserves sourceIdx)

include conserves

theorem conserves_setTask {idx : Nat} (coordinator : next.coordinator = state.coordinator)
    (tasks : next.tasks = update state.tasks idx task) (inbox : next.inbox = state.inbox ++ msgs)
    (others : ∀ other ≠ idx, batchesFrom other msgs = [])
    (own : ∀ before, before ++ (state.tasks idx).inHand = (state.tasks idx).polled →
      before ++ batchesFrom idx msgs ++ task.inHand = task.polled) : next.Conserves sourceIdx := by
  refine ⟨?_, by simpa [coordinator] using conserves.opened⟩
  rw [coordinator, tasks, inbox, batchesFrom_append, ← append_assoc]
  by_cases same : sourceIdx = idx
  · subst same
    rw [update_self, own _ conserves.inOrder]
  · rw [update_of_ne same, others _ same, append_nil]
    exact conserves.inOrder

theorem conserves_advance {idx : Nat} (stepped : state.advance idx = some next) :
    next.Conserves sourceIdx := by
  cases point : (state.tasks idx).point with simp only [State.advance, point] at stepped
  | polling => cases stepped
  | publishing | publishingBarrier | loadingBarrier =>
    cases stepped
    refine conserves_setTask conserves rfl rfl (append_nil _).symm (by simp) ?_
    by_cases none : state.cmd idx = 0 <;> simp [inHand, point, none]
  | sending | sendingBarrier =>
    obtain ⟨inbox, tasks, coordinator⟩ := inbox_send stepped
    exact conserves_setTask conserves coordinator tasks inbox (by simp +contextual [eq_comm])
      (by simp [inHand, point])
  | claimingBarrier =>
    split at stepped <;> cases stepped
    all_goals
      refine conserves_setTask conserves rfl rfl (append_nil _).symm (by simp) ?_
      simp [inHand, point]

theorem conserves_coordinatorStep (known : sourceIdx < sources) {label : Label Offset Rows}
    (stepped : coordinatorStep callbacks sources state label = some next) :
    next.Conserves sourceIdx := by
  cases label
  all_goals simp only [coordinatorStep, setCoordinator, executeCycle, handleBarrier,
    maybeCheckpoint, checkTimeout] at stepped
  case poll | pollNothing | advance => cases stepped
  case beginCycle =>
    split at stepped <;> cases stepped
    rename_i msg point
    have begun : Conserved sourceIdx (state.tasks sourceIdx)
        (state.coordinator.beginCycle callbacks sources msg) state.queue ∧
        (state.coordinator.beginCycle callbacks sources msg).point = .draining := by
      refine Conserved.foldl known ⟨?_, fun _ _ => rfl⟩ rfl
      simpa [taken, State.inbox, inCycle, point] using conserves.inOrder
    simpa [Conserves, State.inbox, begun.2] using begun.1
  case drain =>
    split at stepped <;> cases stepped
    rename_i msg queue point pending
    simp only [Conserves, State.inbox, point, pending, processMsg_point] at conserves ⊢
    exact conserves.processMsg known point
  -- The other steps move the loop on and leave what it has received.
  all_goals
    split at stepped <;> cases stepped
    all_goals repeat' split
    all_goals exact ⟨by simpa [taken, State.inbox, inCycle, *] using conserves.inOrder, by simp⟩

end

theorem conserves_of_reaches [LinearOrder Offset] (known : sourceIdx < sources)
    (reached : (system callbacks sources).Reaches (fun _ _ => True) state) :
    state.Conserves sourceIdx := by
  induction reached with
  | initial started =>
    obtain ⟨fresh, queue, point, buffer, deferred, seen, barriers, pending, id, executed⟩ := started
    obtain ⟨polling, epoch, polled, _⟩ := fresh sourceIdx
    constructor <;> simp [taken, State.inbox, inHand, *]
  | @step state label next _ _ stepped conserves =>
    change step callbacks sources state label = some next at stepped
    cases label with simp only [step] at stepped
    | poll | pollNothing =>
      split at stepped <;> try cases stepped
      split at stepped <;> cases stepped
      refine conserves_setTask conserves rfl rfl (append_nil _).symm (by simp) ?_
      simp [inHand, *]
    | advance => exact conserves_advance conserves (Option.ite_none_right_eq_some.mp stepped).2
    | _ => exact conserves_coordinatorStep conserves known stepped

theorem conserves_of_reaches_oneSource : (beforeCheckpoint publishSecond).Conserves 0 :=
  conserves_of_reaches Nat.one_pos (.of_checkRun (fun _ _ (_ : true = true) => trivial)
    (.initial oneSource_initial) (by decide +kernel))

end LaminarDB.Pipeline
