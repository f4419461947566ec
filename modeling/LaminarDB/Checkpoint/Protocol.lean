import LaminarDB.Checkpoint.Delivery

/-!
# The transaction protocol of exactly-once sinks

As long as epochs are begun, manifests are stored and commits end without a timeout and alike at
every sink, each exactly-once connector is called as the transaction protocol asks.

A rollback closes the epoch at the sink, and the coordinator goes on with the same epoch without
beginning it again.
-/

namespace LaminarDB.Checkpoint

open Library SinkTask View

structure Traced (task : SinkTask Record) : Prop where
  ledger : task.ledger = task.calls.foldl EpochLedger.apply .empty
  conforms : EpochCall.Conforms task.calls

def SinkCommand.Works (epoch : Nat) (command : SinkCommand Record) : Prop :=
  (∃ batch, command = .writeBatch batch) ∨ ∃ ticket, command = .preCommit epoch ticket

def Stage.Expects (epoch : Nat) (command : SinkCommand Record) : Stage → Prop
  | .free => command.Works epoch
  | .preparing _ => command.Works epoch
  | .decided false => command.Works epoch
  | .starting _ _ =>
    (∃ other, command = .rollbackEpoch other) ∨ ∃ ticket, command = .beginEpoch epoch ticket
  | .deciding _ => ∃ ticket, command = .commitEpoch epoch ticket
  | _ => False

/-- What a sink contains while the protocol is kept, by stage and by whether
the awaited command has succeeded. -/
def Stage.Stands (ledger : EpochLedger Record) (epoch : Nat) : Stage → Bool → Prop
  | .down, _ => ledger = .empty
  | .starting _ _, false => ledger.ClosedBelow epoch
  | .starting _ _, true => ledger.OpenAt epoch
  | .started, _ => ledger.OpenAt epoch
  | .free, _ => ledger.OpenAt epoch
  | .preparing _, false => ledger.OpenAt epoch
  | .preparing _, true => ledger.PreparedAt epoch
  | .prepared, _ => ledger.PreparedAt epoch
  | .deciding _, false => ledger.PreparedAt epoch
  | .deciding _, true => ledger.ClosedBelow (epoch + 1)
  | .decided true, _ => ledger.ClosedBelow (epoch + 1)
  | .decided false, _ => ledger.OpenAt epoch

structure Conforming (view : View) : Prop where
  traced : Traced view.task
  expected : ∀ command ∈ view.task.queue, view.stage.Expects view.epoch command
  stands : view.stage.Stands view.task.ledger view.epoch view.succeeded

variable {command : SinkCommand Record} {task : SinkTask Record} {result : CallResult}
  {event : Event}

theorem Traced.handle (traced : Traced task) (result : CallResult)
    (allowed : task.ledger.Allows (command.toCall result.isOk)) :
    Traced (task.handle result command).1 := by
  rcases handle_cases task result command with ⟨same, _⟩ | ⟨calls, ledger, _⟩
  · rw [same]
    exact traced
  · refine ⟨?_, ?_⟩
    · rw [calls, ledger, traced.ledger, List.foldl_append]
      rfl
    · rw [calls]
      refine (EpochLedger.conformsFrom_concat _).mpr ⟨traced.conforms, ?_⟩
      rw [← traced.ledger]
      exact allowed

section Commands

variable {epoch : Nat} (result : CallResult) {stage : Stage}

theorem works_handle (traced : Traced task) (opened : task.ledger.OpenAt epoch)
    (works : command.Works epoch) :
    Traced (task.handle result command).1 ∧ (task.handle result command).1.ledger.OpenAt epoch := by
  have allowed : task.ledger.Allows (command.toCall result.isOk) := by
    rcases works with ⟨batch, rfl⟩ | ⟨ticket, rfl⟩
    · exact opened.allows_write
    · exact opened.isOpen
  refine ⟨traced.handle result allowed, ?_⟩
  rcases handle_cases task result command with ⟨same, _⟩ | ⟨_, ledger, _⟩
  · rw [same]
    exact opened
  · rw [ledger]
    rcases works with ⟨batch, rfl⟩ | ⟨ticket, rfl⟩
    · exact opened.write batch _
    · cases succeeded : result.isOk with
      | false => exact opened
      | true => exact opened.preCommit.toOpenAt

theorem awaited_handle {ticket : Nat} {reply : CallResult} (traced : Traced task)
    (awaits : stage.awaited epoch = some command) (stands : stage.Stands task.ledger epoch false)
    (replied : (task.handle result command).2 = some (ticket, reply)) :
    Traced (task.handle result command).1 ∧
      stage.Stands (task.handle result command).1.ledger epoch reply.isOk := by
  obtain ⟨allowed, answers⟩ : task.ledger.Allows (command.toCall result.isOk) ∧
      stage.Stands (task.ledger.apply (command.toCall result.isOk)) epoch result.isOk := by
    cases stage with
        first | obtain ⟨_, _, rfl⟩ := Option.map_eq_some_iff.mp awaits | cases awaits
    | starting =>
      cases succeeded : result.isOk with
      | false => exact ⟨trivial, stands⟩
      | true => exact ⟨trivial, stands.beginEpoch⟩
    | preparing =>
      cases succeeded : result.isOk with
      | false => exact ⟨stands.isOpen, stands⟩
      | true => exact ⟨stands.isOpen, stands.preCommit⟩
    | deciding =>
      cases succeeded : result.isOk with
      | false => exact ⟨stands.allows_commit, stands⟩
      | true => exact ⟨stands.allows_commit, stands.commit⟩
  refine ⟨traced.handle result allowed, ?_⟩
  rcases handle_cases task result command with ⟨same, refused⟩ | ⟨_, ledger, answered⟩
  · rw [refused, Option.map_eq_some_iff] at replied
    rcases replied with ⟨_, _, isReply⟩
    rw [same, ← (Prod.mk.inj isReply).2]
    exact stands
  · rw [answered, Option.map_eq_some_iff] at replied
    rcases replied with ⟨_, _, isReply⟩
    rw [ledger, ← (Prod.mk.inj isReply).2]
    exact answers

theorem left_handle (traced : Traced task) (left : stage.leaves command = true)
    (expected : stage.Expects epoch command) (stands : stage.Stands task.ledger epoch false) :
    Traced (task.handle result command).1 ∧
      stage.Stands (task.handle result command).1.ledger epoch false := by
  cases stage with
  | free | preparing => exact works_handle result traced stands expected
  | decided committed =>
    cases committed with
    | false => exact works_handle result traced stands expected
    | true => exact absurd expected id
  | starting _ waiting =>
    rcases expected with ⟨other, rfl⟩ | ⟨ticket, rfl⟩
    · refine ⟨traced.handle result trivial, ?_⟩
      have same : (task.handle result (.rollbackEpoch other)).1.ledger = task.ledger :=
        EpochLedger.ClosedBelow.rollback stands other _
      rw [same]
      exact stands
    · simp [Stage.leaves, SinkCommand.isRollback] at left
  | deciding => simp [Stage.leaves] at left
  | down | started | prepared => exact absurd expected id

end Commands

namespace Conforming

variable {view : View}

section

variable (conforming : Conforming view)

include conforming

theorem handled (shaped : Shaped view) {queue : List (SinkCommand Record)}
    (pending : view.task.queue = command :: queue) :
    Conforming (view.handled queue result command) := by
  have traced : Traced (view.task.setQueue queue) :=
    ⟨conforming.traced.ledger, conforming.traced.conforms⟩
  have stands := conforming.stands
  rcases shaped.first_cases pending with ⟨owed, rfl⟩ | ⟨left, noAck, other, _⟩
  · obtain ⟨noAck, awaits⟩ := owed_some owed
    obtain ⟨ticket, reply, _, replied, acked⟩ := acked_owed owed
    simp only [succeeded, noAck, Option.any_none] at stands
    obtain ⟨stillTraced, nowStands⟩ := awaited_handle result traced awaits stands replied
    rw [View.handled, acked]
    exact ⟨stillTraced, by simp, nowStands⟩
  · rw [View.handled, View.acked_other shaped.quiet other, noAck]
    simp only [succeeded, noAck, Option.any_none] at stands
    have expected := conforming.expected command (by simp [pending])
    obtain ⟨stillTraced, nowStands⟩ := left_handle result traced left expected stands
    refine ⟨stillTraced, ?_, nowStands⟩
    intro later mem
    rw [handle_queue, setQueue_queue] at mem
    exact conforming.expected later (by simp [pending, mem])

theorem panicked (shaped : Shaped view) (name : String) : Conforming (view.panicked name) := by
  refine ⟨⟨conforming.traced.ledger, conforming.traced.conforms⟩, by simp [abort], ?_⟩
  rw [shaped.succeeded_panicked name]
  exact conforming.stands

variable {stage : Stage} {ack : Option CallResult}

theorem enqueue {handed pending : List (List Record)}
    (earlier : ∀ queued, view.stage.Expects view.epoch queued → stage.Expects view.epoch queued)
    (expected : stage.Expects view.epoch command)
    (stands : stage.Stands view.task.ledger view.epoch (ack.any Except.isOk)) :
    Conforming { view with stage, task := view.task.enqueue command, ack, handed, pending } := by
  refine ⟨{ conforming.traced with }, ?_, stands⟩
  rw [enqueue_queue]
  refine List.forall_mem_append.mpr ⟨?_, List.forall_mem_singleton.mpr expected⟩
  intro queued mem
  exact earlier queued (conforming.expected queued mem)

theorem settle {epoch : Nat} {latest : Option CheckpointManifest} (empty : view.task.queue = [])
    (stands : stage.Stands view.task.ledger epoch (ack.any Except.isOk)) :
    Conforming { view with stage, ack, epoch, latest } :=
  ⟨conforming.traced, by simp [empty], stands⟩

end

end Conforming

def Event.Orderly (stage : Stage) : Event → Prop
  | .crashed => False
  | .beginFailed => False
  | .rolledBack => False
  | .commitTimedOut => False
  | .commitFailed => stage ≠ .decided true
  | _ => True

theorem conforming_step {routes : Record → Bool} {view next : View}
    (orderly : event.Orderly view.stage) (shaped : Shaped view)
    (conforming : Conforming view) (stepped : SinkStep routes event view next) :
    Conforming next := by
  have stands := conforming.stands
  have expected := conforming.expected
  cases stepped with
  | same => exact conforming
  | handled pending => exact conforming.handled shaped pending
  | panicked running => exact conforming.panicked shaped _
  | crashed | beginFailed | rolledBack | commitTimedOut => exact absurd orderly id
  | @recovered _ epoch manifest rollback stage =>
    rw [stage] at stands
    have empty := stands
    rw [empty]
    refine ⟨⟨rfl, trivial⟩, ?_, ⟨rfl, by simp [spawn, setQueue, EpochLedger.empty]⟩⟩
    intro command mem
    cases rollback with
    | false => simp at mem
    | true =>
      simp only [if_true, setQueue_queue, List.mem_singleton] at mem
      exact .inl ⟨_, mem⟩
  | cycled | writeLost | landed => exact ⟨conforming.traced, expected, stands⟩
  | @writeSent _ batch pending stage isPending running =>
    rw [stage] at stands
    refine conforming.enqueue (fun _ => id) ?_ ?_
    · rw [stage]
      exact .inl ⟨batch, rfl⟩
    · rw [stage]
      exact stands
  | prepare stage =>
    rw [stage] at stands expected
    refine ⟨conforming.traced, expected, ?_⟩
    simp only [succeeded, shaped.quiet (by simp [stage])]
    exact stands
  | beginSent stage | preCommitSent stage =>
    rw [shaped.notSucceeded (by simp [stage]), stage] at stands
    refine conforming.enqueue ?_ (.inr ⟨_, rfl⟩) stands
    rw [stage]
    exact fun _ => id
  | commitSent stage =>
    rw [shaped.notSucceeded (by simp [stage]), stage] at stands
    refine conforming.enqueue ?_ ⟨_, rfl⟩ stands
    rw [stage]
    exact fun _ => id
  | preCommitted stage acked succeeded | begun stage acked succeeded =>
    rw [stage] at stands
    simp only [View.succeeded, acked, Option.any_some, succeeded] at stands
    exact conforming.settle (shaped.empty_of_ack acked) stands
  | abandoned stage =>
    rcases stage with ⟨waiting, stage⟩ | stage
    · rw [stage] at stands expected
      refine ⟨conforming.traced, expected, ?_⟩
      cases succeeded : view.succeeded with rw [succeeded] at stands
      | false =>
        exact stands
      | true =>
        exact stands.toOpenAt
    · rw [stage] at stands
      exact conforming.settle (shaped.empty_of_leaves stage rfl fun _ => rfl) stands.toOpenAt
  | saved stage | found stage | finished stage =>
    rw [stage] at stands
    refine conforming.settle (shaped.empty_of_leaves stage rfl fun _ => rfl) ?_
    simp only [shaped.quiet (by simp [stage])]
    exact stands
  | notSaved stage =>
    rw [stage] at stands
    exact conforming.settle (shaped.empty_of_leaves stage rfl fun _ => rfl) stands.toOpenAt
  | @decided _ ticket result stage acked =>
    rw [stage] at stands
    simp only [succeeded, acked, Option.any_some] at stands
    refine conforming.settle (shaped.empty_of_ack acked) ?_
    cases succeeded : result.isOk with rw [succeeded] at stands
    | false =>
      exact stands.toOpenAt
    | true =>
      exact stands
  | unreachable stage ended =>
    rw [shaped.notSucceeded (by simp [stage]), stage] at stands
    exact conforming.settle (shaped.halted ended) stands.toOpenAt
  | @commitFailed _ committed latest stage =>
    cases committed with
    | true => exact absurd stage orderly
    | false =>
      rw [stage] at stands expected
      exact ⟨conforming.traced, expected, stands⟩
  | ready stage =>
    rw [stage] at stands
    exact conforming.settle (shaped.empty_of_leaves stage rfl fun _ => rfl) stands

/-- The steps that keep the protocol: no crash, every `begin_epoch` succeeds,
`save_manifest` succeeds, the commits do not time out, and they do not fail at
some sinks and succeed at others. -/
def KeepsProtocol (state : State) : Label → Bool
  | .crash => false
  | .advance =>
    match state.point with
    | .round (.beginning _ _) (sink :: _) none => (state.sinks sink).running
    | .round (.beginning _ _) (_ :: _) (some ticket) =>
      (state.acks ticket).all Except.isOk
    | _ => true
  | .persist outcome => outcome == .written || outcome == .alreadyExists
  | .timeOut =>
    match state.point with
    | .round (.committing _ _) _ _ => false
    | _ => true
  | .update _ =>
    match state.point with
    | .updating manifest =>
      !(manifest.sinkCommitStatuses.any fun entry => entry.2.isFailed) ||
        !(manifest.sinkCommitStatuses.any fun entry => entry.2 == .committed)
    | _ => true
  | _ => true

section Runs

variable {config : Config} {state next : State} {sink : Nat} {label : Label} {phase : Phase}

def Point.isUndoing : Point → Bool
  | .undoing _ _ _ => true
  | _ => false

theorem finish_notUndoing {statuses : List (Nat × SinkCommitStatus)} :
    (finish config state statuses).point.isUndoing = false := by
  unfold finish
  split <;> rfl

theorem complete_notUndoing : (complete config state phase).point.isUndoing = false := by
  cases phase with
  | beginning | preCommitting => rfl
  | committing manifest statuses =>
    simp only [complete]
    split
    · exact finish_notUndoing
    · rfl

theorem reply_notUndoing {first : Nat} {todo : List Nat}
    (succeeded : ∀ startup started, phase = .beginning startup started → result.isOk = true) :
    (reply config state first result todo phase).point.isUndoing = false := by
  cases phase with
  | beginning startup started => simp [reply, succeeded startup started rfl, Point.isUndoing]
  | preCommitting =>
    simp only [reply]
    split <;> rfl
  | committing manifest statuses => rfl

theorem notUndoing_step (before : state.point.isUndoing = false)
    (keeps : KeepsProtocol state label = true) (stepped : Step config state label next) :
    next.point.isUndoing = false := by
  cases stepped with
  | started | recovered | crashed | cycled | checkpointed | preCommitTimedOut
  | commitTimedOut | rejected | saved | found => rfl
  | notSaved point outcome =>
    rcases outcome with rfl | rfl <;> simp [KeepsProtocol] at keeps
  | updated | notUpdated => exact finish_notUndoing
  | landed | handled | panicked => exact before
  | advanced advanced =>
    cases advanced with
    | written | writeSent | writeLost | sent => rfl
    | completed => exact complete_notUndoing
    | replied point acked =>
      refine reply_notUndoing ?_
      rintro startup started rfl
      simpa [KeepsProtocol, point, acked] using keeps
    | closed point ended =>
      refine reply_notUndoing ?_
      rintro startup started rfl
      simp [KeepsProtocol, point, ended] at keeps
    | undone point | rollbackSent point | rollbackSkipped point =>
      simp [point, Point.isUndoing] at before

theorem notUndoing_of_reaches
    (reached : (system config).Reaches (fun before label => KeepsProtocol before label = true)
      state) : state.point.isUndoing = false := by
  induction reached with
  | initial initial =>
    rw [initial.1]
    rfl
  | step _ keeps stepped notUndoing =>
    exact notUndoing_step notUndoing keeps (step_cases stepped)

theorem orderly_of_caused
    (notUndoing : state.point.isUndoing = false) (keeps : KeepsProtocol state label = true)
    (caused : Caused state sink label event) : event.Orderly (viewOf state sink).stage := by
  cases caused with
  | crashed => simp [KeepsProtocol] at keeps
  | beginFailed point failed =>
    rcases failed with ⟨rfl, ended⟩ | ⟨ticket, result, rfl, acked, failed⟩
    · simp [KeepsProtocol, point, ended] at keeps
    · simp [KeepsProtocol, point, acked, failed] at keeps
  | rolledBack point => simp [point, Point.isUndoing] at notUndoing
  | commitTimedOut point => simp [KeepsProtocol, point] at keeps
  | @commitFailed manifest outcome point failed =>
    intro stage
    have committed : manifest.sinkCommitStatuses.lookup sink = some .committed := by
      simpa [viewOf, point] using stage
    rcases List.lookup_eq_some_iff.mp committed with ⟨left, right, split, _⟩
    have anyCommitted : (manifest.sinkCommitStatuses.any fun entry =>
        entry.2 == .committed) = true := by
      simp [split]
    simp [KeepsProtocol, point, failed, anyCommitted] at keeps
  | quiet | handled | started | recovered | cycled | prepared | saved | found | notSaved | landed =>
    trivial

theorem conforming_initial (initial : Initial state) : Conforming (viewOf state sink) := by
  obtain ⟨point, _, _, sinks, _, _⟩ := initial
  have task : (viewOf state sink).task = { spawn .empty with running := false } := sinks sink
  have stage : (viewOf state sink).stage = .down := by simp [viewOf, point]
  refine ⟨?_, by simp [task, spawn], ?_⟩
  · rw [task]
    exact ⟨rfl, trivial⟩
  · rw [task, stage]
    rfl

theorem calls_conform (config : Config) {state : State}
    (reached : (system config).Reaches (fun before label => KeepsProtocol before label = true)
      state) {sink : Nat} (membership : sink ∈ config.exactlyOnceSinks) :
    EpochCall.Conforms (state.sinks sink).calls := by
  have conforming : Conforming (viewOf state sink) := by
    refine view_invariant membership (fun _ initial => conforming_initial initial) ?_ reached
    intro before label event next earlier keeps caused stepped shaped conforming
    have orderly := orderly_of_caused (notUndoing_of_reaches earlier) keeps caused
    exact conforming_step orderly shaped conforming stepped
  exact conforming.traced.conforms

end Runs

section OneSink

def Label.notCrash : Label → Bool
  | .crash => false
  | _ => true

def rollBackCheckpoint : List Label :=
  [.persist .failed, .advance, .handle 0 (.ok ()), .advance]

def writeAround (ending : List Label) : State :=
  ((system (oneSink true)).run fresh
    (startUp true ++ writeOne (.ok ()) ++ prepareCheckpoint true ++ ending ++
      writeOne (.ok ()))).getD fresh

theorem calls_conform_oneSink :
    ((writeAround commitCheckpoint).sinks 0).calls =
        [.beginEpoch 1 true, .write [⟨0, 0⟩] true, .preCommit 1 true, .commit 1 true,
          .beginEpoch 2 true, .write [⟨0, 1⟩] true] ∧
      EpochCall.Conforms ((writeAround commitCheckpoint).sinks 0).calls := by
  have reached : (system (oneSink true)).Reaches
      (fun before label => KeepsProtocol before label = true)
      (writeAround commitCheckpoint) :=
    .of_checkRun (fun _ _ keeps => keeps) (.initial fresh_initial) (by decide +kernel)
  exact ⟨by decide +kernel, calls_conform (oneSink true) reached (by decide +kernel)⟩

/-- The store fails once: the next record is written outside any epoch. -/
theorem calls_not_conform :
    (system (oneSink true)).Reaches (fun _ label => label.notCrash = true)
        (writeAround rollBackCheckpoint) ∧
      ((writeAround rollBackCheckpoint).sinks 0).calls =
        [.beginEpoch 1 true, .write [⟨0, 0⟩] true, .preCommit 1 true, .rollback 1 true,
          .write [⟨0, 1⟩] true] ∧
      ¬ EpochCall.Conforms ((writeAround rollBackCheckpoint).sinks 0).calls := by
  refine ⟨?_, by decide +kernel, by decide +kernel⟩
  exact .of_checkRun (fun _ _ notCrash => notCrash) (.initial fresh_initial) (by decide +kernel)

end OneSink

end LaminarDB.Checkpoint
