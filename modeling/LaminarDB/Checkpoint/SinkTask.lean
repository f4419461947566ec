import LaminarDB.Library.EpochSink

/-!
# Sink tasks

A sink task owns its connector and handles the commands of one bounded queue
in order. A failed write poisons the epoch; a poisoned epoch is neither
pre-committed nor committed, and only a new epoch clears the poison.

The connector's results are choices of the environment. The calls it has
received, and what they make of its contents, are kept beside the task.
-/

namespace LaminarDB.Checkpoint

open Library EpochCall EpochLedger

/-- `SinkCommand`; a ticket stands for the acknowledgment channel. -/
inductive SinkCommand (Item : Type) where
  | writeBatch (batch : List Item)
  | beginEpoch (epoch ticket : Nat)
  | preCommit (epoch ticket : Nat)
  | commitEpoch (epoch ticket : Nat)
  | rollbackEpoch (epoch : Nat)
deriving DecidableEq

open SinkCommand

variable {Item : Type}

namespace SinkCommand

def ticket? : SinkCommand Item → Option Nat
  | .writeBatch _ => none
  | .beginEpoch _ ticket => some ticket
  | .preCommit _ ticket => some ticket
  | .commitEpoch _ ticket => some ticket
  | .rollbackEpoch _ => none

def batch? : SinkCommand Item → Option (List Item)
  | .writeBatch batch => some batch
  | _ => none

def toCall (ok : Bool) : SinkCommand Item → EpochCall Item
  | .writeBatch batch => .write batch ok
  | .beginEpoch epoch _ => .beginEpoch epoch ok
  | .preCommit epoch _ => .preCommit epoch ok
  | .commitEpoch epoch _ => .commit epoch ok
  | .rollbackEpoch epoch => .rollback epoch ok

def isBegin : SinkCommand Item → Bool
  | .beginEpoch _ _ => true
  | _ => false

def isCommit : SinkCommand Item → Bool
  | .commitEpoch _ _ => true
  | _ => false

def isRollback : SinkCommand Item → Bool
  | .rollbackEpoch _ => true
  | _ => false

end SinkCommand

abbrev CallResult := Except String Unit

/-- The task of `run_sink_task` with its connector. -/
structure SinkTask (Item : Type) where
  running : Bool
  queue : List (SinkCommand Item)
  epochPoisoned : Bool
  calls : List (EpochCall Item)
  ledger : EpochLedger Item

namespace SinkTask

def spawn (ledger : EpochLedger Item) : SinkTask Item where
  running := true
  queue := []
  epochPoisoned := false
  calls := []
  ledger

variable (task : SinkTask Item)

def queuedBatches : List (List Item) :=
  task.queue.filterMap batch?

def setQueue (queue : List (SinkCommand Item)) : SinkTask Item :=
  { task with queue }

def enqueue (command : SinkCommand Item) : SinkTask Item :=
  { task with queue := task.queue ++ [command] }

def call (task : SinkTask Item) (call : EpochCall Item) : SinkTask Item :=
  { task with calls := task.calls ++ [call], ledger := task.ledger.apply call }

/-- `ConnectorError::WriteError` for a poisoned epoch. -/
def poisonedError : CallResult :=
  .error "write error: epoch poisoned by prior write failure"

variable (result : CallResult)

/-- One turn of `run_sink_task`: handle a command with the connector's result,
and acknowledge it. -/
def handle :
    SinkCommand Item → SinkTask Item × Option (Nat × CallResult)
  | .writeBatch batch =>
    ({ task.call (.write batch result.isOk) with
        epochPoisoned := task.epochPoisoned || !result.isOk }, none)
  | .beginEpoch epoch ticket =>
    ({ task.call (.beginEpoch epoch result.isOk) with
        epochPoisoned := task.epochPoisoned && !result.isOk }, some (ticket, result))
  | .preCommit epoch ticket =>
    if task.epochPoisoned then (task, some (ticket, poisonedError))
    else (task.call (.preCommit epoch result.isOk), some (ticket, result))
  | .commitEpoch epoch ticket =>
    if task.epochPoisoned then (task, some (ticket, poisonedError))
    else (task.call (.commit epoch result.isOk), some (ticket, result))
  | .rollbackEpoch epoch => (task.call (.rollback epoch result.isOk), none)

def abort : SinkTask Item :=
  { task with running := false, queue := [] }

/-- `ConnectorError::ConnectionFailed` for a command that cannot be sent. -/
def closedError (name : String) : CallResult :=
  .error ("connection failed: sink task '" ++ name ++ "' closed unexpectedly")

/-- `ConnectorError::ConnectionFailed` for an acknowledgment that never comes. -/
def droppedError (name what : String) : CallResult :=
  .error ("connection failed: sink task '" ++ name ++ "' dropped " ++ what ++ " acknowledgment")

/-- What a waiting sender receives when its command is dropped with the queue. -/
def droppedAck (name : String) : SinkCommand Item → Option (Nat × CallResult)
  | .beginEpoch _ ticket => some (ticket, droppedError name "begin-epoch")
  | .preCommit _ ticket => some (ticket, droppedError name "pre-commit")
  | .commitEpoch _ ticket => some (ticket, droppedError name "commit")
  | .writeBatch _ => none
  | .rollbackEpoch _ => none

variable (queue : List (SinkCommand Item))

@[simp]
theorem setQueue_queue : (task.setQueue queue).queue = queue := rfl

@[simp]
theorem setQueue_running : (task.setQueue queue).running = task.running := rfl

variable (command : SinkCommand Item)

@[simp]
theorem enqueue_queue : (task.enqueue command).queue = task.queue ++ [command] := rfl

@[simp]
theorem handle_queue : (task.handle result command).1.queue = task.queue := by
  cases command <;> simp only [handle] <;> first | rfl | (split <;> rfl)

@[simp]
theorem handle_running : (task.handle result command).1.running = task.running := by
  cases command <;> simp only [handle] <;> first | rfl | (split <;> rfl)

@[simp]
theorem handle_queuedBatches :
    (task.handle result command).1.queuedBatches = task.queuedBatches := by
  rw [queuedBatches, handle_queue]
  rfl

@[simp]
theorem queuedBatches_enqueue :
    (task.enqueue command).queuedBatches = task.queuedBatches ++ command.batch?.toList := by
  simp only [queuedBatches, enqueue_queue, List.filterMap_append, List.filterMap_cons,
    List.filterMap_nil]
  cases command.batch? <;> rfl

variable {command : SinkCommand Item} {queue : List (SinkCommand Item)} {ticket epoch : Nat}

theorem queuedBatches_cons {task : SinkTask Item} (pending : task.queue = command :: queue) :
    task.queuedBatches = command.batch?.toList ++ (task.setQueue queue).queuedBatches := by
  rw [queuedBatches, pending, List.filterMap_cons]
  cases command.batch? <;> rfl

section

variable (command : SinkCommand Item)

theorem handle_ticket : (task.handle result command).2.map Prod.fst = command.ticket? := by
  cases command <;> simp only [handle] <;> first | rfl | (split <;> rfl)

theorem handle_cases :
    let after := task.handle result command
    (after.1 = task ∧ after.2 = command.ticket?.map fun ticket => (ticket, poisonedError)) ∨
      (after.1.calls = task.calls ++ [command.toCall result.isOk] ∧
        after.1.ledger = task.ledger.apply (command.toCall result.isOk) ∧
        after.2 = command.ticket?.map fun ticket => (ticket, result)) := by
  cases command with
  | writeBatch | beginEpoch | rollbackEpoch => exact .inr ⟨rfl, rfl, rfl⟩
  | preCommit | commitEpoch =>
    simp only [handle]
    split
    · exact .inl ⟨rfl, rfl⟩
    · exact .inr ⟨rfl, rfl, rfl⟩

theorem handle_written :
    written (task.handle result command).1.calls = written task.calls ++ command.batch?.toList := by
  cases command with
  | writeBatch | beginEpoch | rollbackEpoch => exact written_append
  | preCommit | commitEpoch =>
    simp only [handle]
    split
    · simp [batch?]
    · exact written_append

end

theorem handle_rejected (noBatch : command.batch? = none) :
    rejected (task.handle result command).1.calls = rejected task.calls := by
  have other {call : EpochCall Item} (notWrite : rejected [call] = []) :
      rejected (task.calls ++ [call]) = rejected task.calls := by
    rw [rejected_append, notWrite, List.append_nil]
  cases command with
  | writeBatch => simp [batch?] at noBatch
  | beginEpoch | rollbackEpoch => exact other rfl
  | preCommit | commitEpoch =>
    simp only [handle]
    split
    · rfl
    · exact other rfl

theorem handle_clean (notBegin : command.isBegin = false)
    (clean : (task.handle result command).1.epochPoisoned = false) :
    task.epochPoisoned = false ∧
      rejected (task.handle result command).1.calls = rejected task.calls := by
  cases command with
  | beginEpoch => simp [isBegin] at notBegin
  | writeBatch batch =>
    simp only [handle, Bool.or_eq_false_iff, Bool.not_eq_false'] at clean
    refine ⟨clean.1, ?_⟩
    simp only [handle, call, rejected_append, clean.2]
    exact List.append_nil _
  | preCommit | commitEpoch =>
    refine ⟨?_, handle_rejected task result rfl⟩
    simp only [handle] at clean
    split at clean <;> exact clean
  | rollbackEpoch => exact ⟨clean, handle_rejected task result rfl⟩

theorem preCommit_clean {task : SinkTask Item} {result reply : CallResult} {other : Nat}
    (replied : (task.handle result (.preCommit epoch ticket)).2 = some (other, reply))
    (succeeded : reply.isOk = true) : task.epochPoisoned = false := by
  cases poisoned : task.epochPoisoned with
  | false => rfl
  | true =>
    simp only [handle, poisoned, if_true] at replied
    cases replied
    cases succeeded

theorem handle_visible
    (inEpoch : ∀ batch, command = .writeBatch batch → task.ledger.current.isSome = true) :
    let after := (task.handle result command).1.ledger
    (after.visible = task.ledger.visible ∧ after.committed = task.ledger.committed) ∨
      ∃ epoch ticket, command = .commitEpoch epoch ticket ∧
        task.ledger.openEpoch = some epoch ∧ after.current = none ∧
        after.visible = task.ledger.contents ∧
        after.committed = epoch :: task.ledger.committed := by
  rcases handle_cases task result command with ⟨same, _⟩ | ⟨_, ledger, _⟩
  · rw [same]
    exact .inl ⟨rfl, rfl⟩
  · rw [ledger]
    have writes : ∀ items ok, command.toCall result.isOk = .write items ok →
        task.ledger.current.isSome = true := by
      intro items ok isWrite
      cases command with cases isWrite
      | writeBatch => exact inEpoch _ rfl
    rcases task.ledger.apply_visible writes with same | ⟨epoch, isCommit, opened⟩
    · exact .inl same
    · right
      cases command with
      | commitEpoch other ticket =>
        injection isCommit with isEpoch
        exact ⟨epoch, ticket, by rw [isEpoch], opened⟩
      | writeBatch | beginEpoch | preCommit | rollbackEpoch => cases isCommit

theorem handle_open (notBegin : command.isBegin = false)
    (isOpen : (task.handle result command).1.ledger.openEpoch = some epoch) :
    task.ledger.openEpoch = some epoch ∧
      (task.handle result command).1.ledger.committed = task.ledger.committed ∧
      (command.batch? = none ∨ (task.handle result command).1.epochPoisoned = false →
        (task.handle result command).1.ledger.contents =
          task.ledger.contents ++ command.batch?.toList.flatten) := by
  rcases handle_cases task result command with ⟨same, refused⟩ | ⟨_, ledger, _⟩
  · have noBatch : command.batch? = none := by
      cases command with
      | writeBatch batch =>
        have clash := congrArg (fun handled => handled.calls.length) same
        simp [handle, call] at clash
      | beginEpoch | preCommit | commitEpoch | rollbackEpoch => rfl
    rw [same] at isOpen ⊢
    exact ⟨isOpen, rfl, fun _ => by simp [noBatch]⟩
  · rw [ledger] at isOpen ⊢
    have other : ∀ epoch ok, command.toCall result.isOk ≠ .beginEpoch epoch ok := by
      cases command with
      | beginEpoch => simp [isBegin] at notBegin
      | writeBatch | preCommit | commitEpoch | rollbackEpoch => simp [toCall]
    obtain ⟨before, committed, contents⟩ := task.ledger.open_of_apply other isOpen
    refine ⟨before, committed, fun clean => contents.trans ?_⟩
    cases command with
    | writeBatch batch =>
      have succeeded : result.isOk = true := by
        have unpoisoned := clean.resolve_left (by simp [batch?])
        simp only [handle, Bool.or_eq_false_iff, Bool.not_eq_false'] at unpoisoned
        exact unpoisoned.2
      simp [toCall, batch?, added, succeeded]
    | beginEpoch | preCommit | commitEpoch | rollbackEpoch =>
      simp [toCall, batch?, added]

theorem handle_closed (notBegin : command.isBegin = false) (closed : task.ledger.current = none) :
    (task.handle result command).1.ledger.current = none := by
  cases after : (task.handle result command).1.ledger.current with
  | none => rfl
  | some current =>
    have isOpen : (task.handle result command).1.ledger.openEpoch = some current.epoch := by
      simp [openEpoch, after]
    have before := (handle_open task result notBegin isOpen).1
    simp [openEpoch, closed] at before

theorem droppedAck_ticket (name : String)
    (reply : Nat × CallResult) (mem : reply ∈ queue.filterMap (droppedAck name)) :
    ∃ command ∈ queue, command.ticket? = some reply.1 := by
  rw [List.mem_filterMap] at mem
  rcases mem with ⟨command, queued, dropped⟩
  refine ⟨command, queued, ?_⟩
  cases command with cases dropped
  | beginEpoch | preCommit | commitEpoch => rfl

theorem exists_droppedAck (name : String) (hasTicket : command.ticket? = some ticket) :
    ∃ reply, droppedAck name command = some (ticket, reply) ∧ reply.isOk = false := by
  cases command with cases hasTicket
  | beginEpoch | preCommit | commitEpoch => exact ⟨_, rfl, rfl⟩

end SinkTask

end LaminarDB.Checkpoint
