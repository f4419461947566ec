import LaminarDB.Checkpoint.Wiring

/-!
# What one exactly-once sink sees

A system with any number of sinks, seen from one exactly-once sink: the stage
of the checkpoint at this sink, its task, the reply it has sent, and the data
of the pipeline that its contents are compared with.

`SinkStep` lists what can happen to this view. `simulates` says that nothing
else does: every step of the system is one of these, for every sink.
-/

namespace LaminarDB.Checkpoint

open Library

inductive Stage where
  /-- No process is running, or the one that runs has failed to start. -/
  | down
  /-- No checkpoint, and no epoch being begun. -/
  | free
  /-- An epoch is being begun, the first one of the process or a later one. -/
  | starting (startup : Bool) (waiting : Option Nat)
  | started
  | preparing (waiting : Option Nat)
  | prepared
  | deciding (waiting : Option Nat)
  | decided (committed : Bool)
deriving DecidableEq

def Stage.ticket? : Stage → Option Nat
  | .starting _ waiting => waiting
  | .preparing waiting => waiting
  | .deciding waiting => waiting
  | _ => none

attribute [simp] Stage.ticket?.eq_1 Stage.ticket?.eq_2 Stage.ticket?.eq_3 Stage.ticket?.eq_4

def Phase.waitingStage (waiting : Option Nat) : Phase → Stage
  | .beginning startup _ => .starting startup waiting
  | .preCommitting => .preparing waiting
  | .committing _ _ => .deciding waiting

variable (sink : Nat)

def Phase.doneStage : Phase → Stage
  | .beginning _ _ => .started
  | .preCommitting => .prepared
  | .committing _ statuses => .decided (statuses.lookup sink == some .committed)

def stageOf : Point → Stage
  | .stopped => .down
  | .idle => .free
  | .writing _ => .free
  | .undoing startup _ _ => if startup then .down else .free
  | .round phase todo waiting =>
    if todo.head? = some sink then phase.waitingStage waiting
    else if sink ∈ todo then phase.waitingStage none
    else phase.doneStage sink
  | .persisting _ => .prepared
  | .updating manifest =>
    .decided (manifest.sinkCommitStatuses.lookup sink == some .committed)

/-- The batches of a sink that `write_to_sinks` has still to send. -/
def pendingOf : Point → List (List Record)
  | .writing pending =>
    pending.filterMap fun entry => if entry.1 = sink then some entry.2 else none
  | _ => []

-- The stage in a round depends on what is left of it.
attribute [simp] stageOf.eq_1 stageOf.eq_2 stageOf.eq_3 stageOf.eq_4 stageOf.eq_6 stageOf.eq_7
  pendingOf.eq_2

structure View where
  stage : Stage
  task : SinkTask Record
  /-- The reply to the ticket the stage waits for. -/
  ack : Option CallResult
  handed : List (List Record)
  pending : List (List Record)
  epoch : Nat
  consumed : Nat → Nat
  /-- The offsets that the last checkpoint was handed. -/
  offsets : Nat → Nat
  /-- The manifest that `load_latest` returns. -/
  latest : Option CheckpointManifest

def viewOf (state : State) (sink : Nat) : View where
  stage := stageOf sink state.point
  task := state.sinks sink
  ack := (stageOf sink state.point).ticket?.bind state.acks
  handed := state.handed sink
  pending := pendingOf sink state.point
  epoch := state.epoch
  consumed := state.consumed
  offsets := state.offsets
  latest := state.stored.head?

/-- What happens to a sink in one step, as far as a condition on runs can ask. -/
inductive Event where
  | quiet
  | handled (command : SinkCommand Record) (result : CallResult)
  | crashed
  | recovered (manifest : Option CheckpointManifest)
  | cycled (source count : Nat) (filterFailed : Bool)
  | prepared (passed : Option (Nat → Nat))
  | beginFailed
  | rolledBack
  | saved (manifest : CheckpointManifest)
  | found
  | notSaved
  | commitTimedOut
  | commitFailed
  | landed

section

variable (view : View)

def View.acked (replies : List (Nat × CallResult)) : Option CallResult :=
  view.stage.ticket?.bind fun ticket => (replies.lookup ticket).or view.ack

variable (queue : List (SinkCommand Record))

abbrev View.handle (result : CallResult)
    (command : SinkCommand Record) (ack : Option CallResult) : View :=
  { view with task := ((view.task.setQueue queue).handle result command).1, ack }

abbrev View.handled (result : CallResult) (command : SinkCommand Record) : View :=
  view.handle queue result command
    (view.acked ((view.task.setQueue queue).handle result command).2.toList)

abbrev View.panicked (name : String) : View :=
  { view with
    task := view.task.abort
    ack := view.acked (view.task.queue.filterMap (SinkTask.droppedAck name)) }

end

inductive SinkStep (routes : Record → Bool) : Event → View → View → Prop where
  | same {view} : SinkStep routes .quiet view view
  | handled {view command queue result} :
      view.task.queue = command :: queue →
      SinkStep routes (.handled command result) view
        { view with
          task := ((view.task.setQueue queue).handle result command).1
          ack := view.acked ((view.task.setQueue queue).handle result command).2.toList }
  | panicked {view name} :
      view.task.running = true →
      SinkStep routes .quiet view
        { view with
          task := view.task.abort
          ack := view.acked (view.task.queue.filterMap (SinkTask.droppedAck name)) }
  | crashed {view} :
      SinkStep routes .crashed view
        { view with
          stage := .down
          task := { SinkTask.spawn view.task.ledger.restart with running := false }
          ack := none
          handed := []
          pending := [] }
  | recovered {view epoch manifest} {rollback : Bool} :
      view.stage = .down →
      (∀ recovered, manifest = some recovered → epoch = recovered.epoch + 1) →
      SinkStep routes (.recovered manifest) view
        { view with
          stage := .starting true none
          task := (SinkTask.spawn view.task.ledger).setQueue
            (if rollback then [.rollbackEpoch (manifest.elim 0 CheckpointManifest.epoch)]
              else [])
          ack := none
          handed := []
          pending := []
          epoch
          consumed := manifest.elim (fun _ => 0) CheckpointManifest.sourceOffsets }
  | cycled {view source count filterFailed} {records : List Record} :
      view.stage = .free →
      view.pending = [] →
      records = (List.range count).map (fun step =>
        { source, index := view.consumed source + step }) →
      SinkStep routes (.cycled source count filterFailed) view
        { view with
          consumed := Function.update view.consumed source (view.consumed source + count)
          pending :=
            if filterFailed = true ∨ records.filter routes = [] then []
            else [records.filter routes] }
  | writeSent {view batch pending} :
      view.stage = .free →
      view.pending = batch :: pending →
      view.task.running = true →
      SinkStep routes .quiet view
        { view with
          task := view.task.enqueue (.writeBatch batch)
          handed := view.handed ++ [batch]
          pending }
  | writeLost {view batch pending} :
      view.stage = .free →
      view.pending = batch :: pending →
      view.task.running = false →
      SinkStep routes .quiet view { view with handed := view.handed ++ [batch], pending }
  | prepare {view} {passed : Option (Nat → Nat)} :
      view.stage = .free →
      view.pending = [] →
      SinkStep routes (.prepared passed) view
        { view with stage := .preparing none, offsets := passed.getD view.consumed }
  | beginSent {view startup ticket} :
      view.stage = .starting startup none →
      (∀ queued ∈ view.task.queue, queued.ticket? ≠ some ticket) →
      view.task.running = true →
      SinkStep routes .quiet view
        { view with
          stage := .starting startup (some ticket)
          task := view.task.enqueue (.beginEpoch view.epoch ticket)
          ack := none }
  | preCommitSent {view ticket} :
      view.stage = .preparing none →
      (∀ queued ∈ view.task.queue, queued.ticket? ≠ some ticket) →
      view.task.running = true →
      SinkStep routes .quiet view
        { view with
          stage := .preparing (some ticket)
          task := view.task.enqueue (.preCommit view.epoch ticket)
          ack := none }
  | commitSent {view ticket} :
      view.stage = .deciding none →
      (∀ queued ∈ view.task.queue, queued.ticket? ≠ some ticket) →
      view.task.running = true →
      SinkStep routes .quiet view
        { view with
          stage := .deciding (some ticket)
          task := view.task.enqueue (.commitEpoch view.epoch ticket)
          ack := none }
  | preCommitted {view ticket result} :
      view.stage = .preparing (some ticket) →
      view.ack = some result →
      result.isOk = true →
      SinkStep routes .quiet view { view with stage := .prepared, ack := none }
  | abandoned {view} :
      ((∃ waiting, view.stage = .preparing waiting) ∨ view.stage = .prepared) →
      SinkStep routes .quiet view { view with stage := .free, ack := none }
  | saved {view manifest} :
      view.stage = .prepared →
      manifest.epoch = view.epoch →
      manifest.sourceOffsets = view.offsets →
      SinkStep routes (.saved manifest) view
        { view with stage := .deciding none, latest := some manifest }
  | found {view} :
      view.stage = .prepared →
      SinkStep routes .found view { view with stage := .deciding none }
  | notSaved {view} :
      view.stage = .prepared →
      SinkStep routes .notSaved view { view with stage := .free }
  | decided {view ticket result} :
      view.stage = .deciding (some ticket) →
      view.ack = some result →
      SinkStep routes .quiet view { view with stage := .decided result.isOk, ack := none }
  | unreachable {view} :
      view.stage = .deciding none →
      view.task.running = false →
      SinkStep routes .quiet view { view with stage := .decided false }
  | commitTimedOut {view} :
      ((∃ waiting, view.stage = .deciding waiting) ∨ ∃ committed, view.stage = .decided committed) →
      SinkStep routes .commitTimedOut view { view with stage := .decided false, ack := none }
  | commitFailed {view committed latest} :
      view.stage = .decided committed →
      (latest = view.latest ∨ ∃ manifest, latest = some manifest ∧
        manifest.epoch = view.epoch ∧ manifest.sourceOffsets = view.offsets) →
      SinkStep routes .commitFailed view { view with stage := .free, latest }
  | finished {view latest} :
      view.stage = .decided true →
      (latest = view.latest ∨ ∃ manifest, latest = some manifest ∧
        manifest.epoch = view.epoch ∧ manifest.sourceOffsets = view.offsets) →
      SinkStep routes .quiet view
        { view with stage := .starting false none, epoch := view.epoch + 1, latest }
  | begun {view startup ticket result} :
      view.stage = .starting startup (some ticket) →
      view.ack = some result →
      result.isOk = true →
      SinkStep routes .quiet view { view with stage := .started, ack := none }
  | beginFailed {view} {startup : Bool} :
      (view.stage = .starting startup none ∨
        (∃ ticket result, view.stage = .starting startup (some ticket) ∧
          view.ack = some result ∧ result.isOk = false) ∨
        view.stage = .started) →
      SinkStep routes .beginFailed view
        { view with stage := if startup then .down else .free, ack := none }
  | ready {view} :
      view.stage = .started →
      SinkStep routes .quiet view { view with stage := .free }
  | rolledBack {view epoch} :
      (view.stage = .free ∨ view.stage = .down) →
      view.pending = [] →
      view.task.running = true →
      SinkStep routes .rolledBack view
        { view with task := view.task.enqueue (.rollbackEpoch epoch) }
  | landed {view latest} : SinkStep routes .landed view { view with latest }

/-- Why an event happens: the label of the step and what the state says. -/
inductive Caused (state : State) (sink : Nat) : Label → Event → Prop where
  | quiet {label} : Caused state sink label .quiet
  | handled {command queue result} :
      (state.sinks sink).queue = command :: queue →
      Caused state sink (.handle sink result) (.handled command result)
  | crashed : Caused state sink .crash .crashed
  | started : Caused state sink (.recover none) (.recovered none)
  | recovered {position manifest} :
      state.stored[position]? = some manifest →
      Caused state sink (.recover (some position)) (.recovered (some manifest))
  | cycled {source count filterErrors} :
      Caused state sink (.cycle source count filterErrors)
        (.cycled source count (decide (sink ∈ filterErrors)))
  | prepared {passed} : Caused state sink (.checkpoint passed) (.prepared passed)
  | beginFailed {startup started other todo waiting} :
      state.point = .round (.beginning startup started) (other :: todo) waiting →
      (waiting = none ∧ (state.sinks other).running = false ∨
        ∃ ticket result, waiting = some ticket ∧ state.acks ticket = some result ∧
          result.isOk = false) →
      Caused state sink .advance .beginFailed
  | rolledBack {startup epoch todo} :
      state.point = .undoing startup epoch (sink :: todo) →
      Caused state sink .advance .rolledBack
  | saved {manifest} :
      state.point = .persisting manifest →
      Caused state sink (.persist .written) (.saved manifest)
  | found : Caused state sink (.persist .alreadyExists) .found
  | notSaved {outcome} :
      outcome = .failed ∨ outcome = .unconfirmed →
      Caused state sink (.persist outcome) .notSaved
  | commitTimedOut {manifest statuses todo waiting} :
      state.point = .round (.committing manifest statuses) todo waiting →
      Caused state sink .timeOut .commitTimedOut
  | commitFailed {manifest outcome} :
      state.point = .updating manifest →
      (manifest.sinkCommitStatuses.any fun entry => entry.2.isFailed) = true →
      Caused state sink (.update outcome) .commitFailed
  | landed {position} : Caused state sink (.land position) .landed

end LaminarDB.Checkpoint
