import LaminarDB.Checkpoint.Queue

/-!
# A stored checkpoint follows delivery

The pre-commit of an exactly-once sink stands behind every batch in its queue,
and a poisoned epoch refuses it. So once all pre-commits of a checkpoint are
acknowledged, every batch that was handed to these sinks has been accepted.

Sinks without the exactly-once guarantee receive no pre-commit, and the store
does not wait for them.
-/

namespace LaminarDB.Checkpoint

open Library SinkTask EpochCall Stage

structure Delivered (task : SinkTask Record) (handed : List (List Record)) : Prop where
  accepted : accepted task.calls = handed
  clean : rejected task.calls = []
  drained : task.queuedBatches = []

def Stage.delivers : Stage → Option CallResult → Bool
  | .preparing (some _), some result => result.isOk
  | .starting _ _, _ => true
  | .started, _ => true
  | .prepared, _ => true
  | .deciding _, _ => true
  | .decided _, _ => true
  | _, _ => false

/-- The batches of a sink are written, queued or lost with its task, and a
failed write leaves its mark until the next epoch. -/
structure Delivering (view : View) : Prop where
  sent : view.task.running = true → written view.task.calls ++ view.task.queuedBatches = view.handed
  poisoned : view.task.running = true → view.task.epochPoisoned = false →
    rejected view.task.calls = []
  settled : view.stage.delivers view.ack = true → Delivered view.task view.handed

namespace Delivering

variable {view next : View} {command : SinkCommand Record} {queue : List (SinkCommand Record)}
  {result : CallResult}

theorem settled_handled (delivered : Delivered view.task view.handed)
    (pending : view.task.queue = command :: queue) :
    Delivered ((view.task.setQueue queue).handle result command).1 view.handed := by
  obtain ⟨accepted, clean, drained⟩ := delivered
  rw [queuedBatches_cons pending] at drained
  have noBatch : command.batch? = none := by
    simpa using (List.append_eq_nil_iff.mp drained).1
  have stillClean : rejected ((view.task.setQueue queue).handle result command).1.calls = [] := by
    rw [handle_rejected _ _ noBatch]
    exact clean
  refine ⟨?_, stillClean, ?_⟩
  · rw [accepted_of_rejected_nil stillClean, handle_written, noBatch,
      Option.toList_none, List.append_nil, ← accepted]
    exact (accepted_of_rejected_nil clean).symm
  · rw [handle_queuedBatches]
    exact (List.append_eq_nil_iff.mp drained).2

variable (delivering : Delivering view)

include delivering

theorem move (task : next.task = view.task) (handed : next.handed = view.handed)
    (delivers : next.stage.delivers next.ack = true → view.stage.delivers view.ack = true) :
    Delivering next := by
  refine ⟨?_, ?_, fun isSettled => ?_⟩
  · rw [task, handed]
    exact delivering.sent
  · rw [task]
    exact delivering.poisoned
  · rw [task, handed]
    exact delivering.settled (delivers isSettled)

theorem enqueue {stage : Stage} {ack : Option CallResult} (noBatch : command.batch? = none)
    (delivers : stage.delivers ack = true → view.stage.delivers view.ack = true) :
    Delivering { view with stage, task := view.task.enqueue command, ack } := by
  have sameBatches : (view.task.enqueue command).queuedBatches = view.task.queuedBatches := by
    simp [queuedBatches, noBatch]
  refine ⟨?_, delivering.poisoned, fun isSettled => ?_⟩
  · rw [sameBatches]
    exact delivering.sent
  · obtain ⟨accepted, clean, drained⟩ := delivering.settled (delivers isSettled)
    exact ⟨accepted, clean, sameBatches.trans drained⟩

theorem written_handled (running : view.task.running = true)
    (result : CallResult) (pending : view.task.queue = command :: queue) :
    written ((view.task.setQueue queue).handle result command).1.calls ++
        ((view.task.setQueue queue).handle result command).1.queuedBatches = view.handed := by
  have sent := delivering.sent running
  rw [queuedBatches_cons pending] at sent
  rw [handle_written, handle_queuedBatches, List.append_assoc]
  exact sent

theorem settled_preCommit (running : view.task.running = true) {epoch ticket other : Nat}
    {reply : CallResult} (pending : view.task.queue = [.preCommit epoch ticket])
    (replied : ((view.task.setQueue []).handle result (.preCommit epoch ticket)).2 =
      some (other, reply)) (succeeded : reply.isOk = true) :
    let after := ((view.task.setQueue []).handle result (.preCommit epoch ticket)).1
    Delivered after view.handed := by
  intro after
  have unpoisoned := preCommit_clean replied succeeded
  have drained : after.queuedBatches = [] := by
    simp [after, queuedBatches]
  have clean : rejected after.calls = [] := by
    rw [handle_rejected _ _ rfl]
    exact delivering.poisoned running unpoisoned
  have written := delivering.written_handled running result pending
  rw [drained, List.append_nil] at written
  exact ⟨(accepted_of_rejected_nil clean).trans written, clean, drained⟩

theorem handled (shaped : Shaped view) (pending : view.task.queue = command :: queue) :
    Delivering (view.handled queue result command) := by
  have running := shaped.running pending
  refine ⟨fun _ => delivering.written_handled running result pending, ?_, ?_⟩
  · intro _ unpoisoned
    cases isBegin : command.isBegin with
    | false =>
      obtain ⟨before, same⟩ := handle_clean _ _ isBegin unpoisoned
      rw [same]
      exact delivering.poisoned running before
    | true =>
      have delivered : Delivered view.task view.handed := by
        apply delivering.settled
        cases stage : view.stage with
        | starting => rfl
        | down | free | started | preparing | prepared | deciding | decided =>
          have notBegin := shaped.notBegin (by simp [stage]) command (by simp [pending])
          simp [isBegin] at notBegin
      exact (settled_handled delivered pending).clean
  · intro isSettled
    cases before : view.stage.delivers view.ack with
    | true => exact settled_handled (delivering.settled before) pending
    | false =>
      rcases shaped.first_cases pending with ⟨owed, rfl⟩ | ⟨_, _, other, _⟩
      · obtain ⟨ticket, reply, waits, replied, acked⟩ := View.acked_owed owed
        rw [View.handled, acked] at isSettled ⊢
        cases stage : view.stage with
        | preparing waiting =>
          have awaits := (View.owed_some owed).2
          rw [stage] at awaits
          rcases Option.map_eq_some_iff.mp awaits with ⟨other, rfl, rfl⟩
          have succeeded : reply.isOk = true := by
            rw [stage] at isSettled
            exact isSettled
          exact delivering.settled_preCommit running pending replied succeeded
        | starting | started | prepared | deciding | decided =>
          simp [stage, delivers] at before
        | down | free => simp [stage] at waits
      · rw [View.handled, View.acked_other shaped.quiet other, before] at isSettled
        exact absurd isSettled (by simp)

theorem panicked (shaped : Shaped view) (name : String) : Delivering (view.panicked name) := by
  refine ⟨by simp [abort], by simp [abort], ?_⟩
  intro isSettled
  have before : view.stage.delivers view.ack = true := by
    cases stage : view.stage with
    | preparing waiting =>
      rw [stage] at isSettled
      cases waiting with
      | none => simp [delivers] at isSettled
      | some ticket =>
        obtain ⟨reply, acked, same | ⟨_, failed⟩⟩ := shaped.dropped_ack name
          (show view.stage.ticket? = some ticket by simp [stage])
        · rw [View.panicked, acked] at isSettled
          rw [same]
          exact isSettled
        · rw [View.panicked, acked] at isSettled
          simp [delivers, failed] at isSettled
    | starting | started | prepared | deciding | decided => rfl
    | down | free => simp [stage, delivers] at isSettled
  obtain ⟨accepted, clean, _⟩ := delivering.settled before
  exact ⟨accepted, clean, rfl⟩

end Delivering

theorem delivering_step {routes : Record → Bool} {event : Event} {view next : View}
    (shaped : Shaped view) (delivering : Delivering view)
    (stepped : SinkStep routes event view next) : Delivering next := by
  cases stepped with
  | same => exact delivering
  | handled pending => exact delivering.handled shaped pending
  | panicked running => exact delivering.panicked shaped _
  | crashed => exact ⟨by simp, by simp, by simp [delivers]⟩
  | @recovered _ epoch manifest rollback stage =>
    have noBatches : ((spawn view.task.ledger).setQueue
        (if rollback then [.rollbackEpoch (manifest.elim 0 CheckpointManifest.epoch)]
          else [])).queuedBatches = [] := by
      cases rollback <;> rfl
    refine ⟨fun _ => ?_, fun _ _ => rfl, fun _ => ⟨rfl, rfl, noBatches⟩⟩
    rw [noBatches]
    rfl
  | cycled stage => exact delivering.move rfl rfl id
  | @writeSent _ batch pending stage isPending running =>
    refine ⟨fun _ => ?_, fun _ => delivering.poisoned running, ?_⟩
    · show written view.task.calls ++
        (view.task.enqueue (.writeBatch batch)).queuedBatches = view.handed ++ [batch]
      have batches : (view.task.enqueue (.writeBatch batch)).queuedBatches =
          view.task.queuedBatches ++ [batch] := by
        simp [queuedBatches, SinkCommand.batch?]
      rw [batches, ← List.append_assoc, delivering.sent running]
    · intro isSettled
      simp [stage, delivers] at isSettled
  | writeLost stage isPending ended =>
    refine ⟨?_, delivering.poisoned, ?_⟩
    · intro running
      simp [ended] at running
    · intro isSettled
      simp [stage, delivers] at isSettled
  | prepare | abandoned | notSaved | commitFailed | ready =>
    exact delivering.move rfl rfl (by simp [delivers])
  | @beginFailed _ startup stage =>
    exact delivering.move rfl rfl (by cases startup <;> simp [delivers])
  | beginSent stage | commitSent stage =>
    exact delivering.enqueue rfl (by simp [stage, delivers])
  | preCommitSent stage => exact delivering.enqueue rfl (by simp [delivers])
  | preCommitted stage acked succeeded =>
    exact delivering.move rfl rfl (by simp [stage, acked, succeeded, delivers])
  | saved stage | found stage | decided stage | unreachable stage | finished stage
  | begun stage =>
    exact delivering.move rfl rfl (by simp [stage, delivers])
  | commitTimedOut stage =>
    refine delivering.move rfl rfl ?_
    rcases stage with ⟨waiting, stage⟩ | ⟨committed, stage⟩ <;>
      simp [stage, delivers]
  | rolledBack stage =>
    refine delivering.enqueue rfl ?_
    rcases stage with stage | stage <;> simp [stage, delivers]
  | landed => exact delivering.move rfl rfl id

variable {state : State} {sink : Nat}

theorem delivering_initial (initial : Initial state) : Delivering (viewOf state sink) := by
  obtain ⟨point, _, _, sinks, _, _⟩ := initial
  have ended : (viewOf state sink).task.running = false := by simp [viewOf, sinks sink]
  refine ⟨by simp [ended], by simp [ended], ?_⟩
  simp [viewOf, point, delivers]

theorem delivering_of_reaches {config : Config} {admits : State → Label → Prop}
    (mem : sink ∈ config.exactlyOnceSinks)
    (reached : (system config).Reaches admits state) : Delivering (viewOf state sink) := by
  refine view_invariant mem (fun _ initial => delivering_initial initial) ?_ reached
  intro before label event next _ _ _ stepped shaped delivering
  exact delivering_step shaped delivering stepped

/-- A sink has accepted, without an error, every batch `write_to_sinks` handed to it. -/
def State.Accepted (state : State) (sink : Nat) : Prop :=
  accepted (state.sinks sink).calls = state.handed sink ∧ rejected (state.sinks sink).calls = []

/-- When `checkpoint_inner` is about to store a manifest, whatever offsets it was
handed, every exactly-once sink has accepted every batch that it was handed. -/
theorem persisting_accepted (config : Config) {state : State} {manifest : CheckpointManifest}
    (reached : (system config).Reaches (fun _ _ => True) state)
    (point : state.point = .persisting manifest) :
    ∀ sink ∈ config.exactlyOnceSinks, state.Accepted sink := by
  intro sink mem
  have delivered := (delivering_of_reaches mem reached).settled (by simp [viewOf, point, delivers])
  exact ⟨delivered.accepted, delivered.clean⟩

section OneSink

variable (exactlyOnce : Bool)

def oneSink : Config where
  sinks := 1
  sinkName := fun _ => "sink"
  exactlyOnce := fun _ => exactlyOnce
  routes := fun _ _ => true
  channelCapacity := 64
  commitTimeoutSecs := 60

def fresh : State where
  sinks := fun _ => { spawn .empty with running := false }
  handed := fun _ => []
  point := .stopped
  epoch := 1
  nextCheckpointId := 1
  nextTicket := 0
  acks := fun _ => none
  consumed := fun _ => 0
  offsets := fun _ => 0
  stored := []
  background := []

theorem fresh_initial : Initial fresh := by
  simp [Initial, fresh]

def startUp : List Label :=
  .recover none ::
    if exactlyOnce then [.advance, .handle 0 (.ok ()), .advance, .advance] else [.advance]

variable (result : CallResult)

def writeOne : List Label :=
  [.cycle 0 1 [], .advance, .advance, .handle 0 result]

def prepareCheckpoint : List Label :=
  .checkpoint none ::
    if exactlyOnce then [.advance, .handle 0 (.ok ()), .advance, .advance] else [.advance]

def commitCheckpoint : List Label :=
  [.persist .written, .advance, .handle 0 (.ok ()), .advance, .advance, .update .written,
    .advance, .handle 0 (.ok ()), .advance, .advance]

def beforeStore : State :=
  ((system (oneSink exactlyOnce)).run fresh
    (startUp exactlyOnce ++ writeOne result ++ prepareCheckpoint exactlyOnce)).getD fresh

theorem beforeStore_reached
    (checked : (system (oneSink exactlyOnce)).checkRun (fun _ _ => true) fresh
      (startUp exactlyOnce ++ writeOne result ++ prepareCheckpoint exactlyOnce) = true) :
    (system (oneSink exactlyOnce)).Reaches (fun _ _ => True) (beforeStore exactlyOnce result) :=
  .of_checkRun (fun _ _ _ => trivial) (.initial fresh_initial) checked

theorem persisting_accepted_oneSink :
    ∃ manifest, (beforeStore true (.ok ())).point = .persisting manifest ∧
      (beforeStore true (.ok ())).handed 0 = [[⟨0, 0⟩]] ∧
      ∀ sink ∈ (oneSink true).exactlyOnceSinks, (beforeStore true (.ok ())).Accepted sink := by
  have reached := beforeStore_reached true (.ok ()) (by decide +kernel)
  exact ⟨_, rfl, by decide +kernel, persisting_accepted (oneSink true) reached rfl⟩

/-- A sink without the guarantee fails to write its record, and the manifest of
a checkpoint past that record is stored all the same. -/
theorem persisting_not_accepted :
    ∃ manifest,
      (system (oneSink false)).Reaches (fun _ _ => True)
        (beforeStore false (.error "write failed")) ∧
      (beforeStore false (.error "write failed")).point = .persisting manifest ∧
      manifest.sourceOffsets 0 = 1 ∧
      (beforeStore false (.error "write failed")).handed 0 = [[⟨0, 0⟩]] ∧
      accepted ((beforeStore false (.error "write failed")).sinks 0).calls = [] ∧
      ¬ (beforeStore false (.error "write failed")).Accepted 0 := by
  have reached := beforeStore_reached false (.error "write failed") (by decide +kernel)
  refine ⟨_, reached, rfl, by decide +kernel, by decide +kernel, by decide +kernel, ?_⟩
  rintro ⟨_, clean⟩
  have rejected : rejected
      ((beforeStore false (.error "write failed")).sinks 0).calls = [[⟨0, 0⟩]] := by
    decide +kernel
  rw [rejected] at clean
  simp at clean

end OneSink

end LaminarDB.Checkpoint
