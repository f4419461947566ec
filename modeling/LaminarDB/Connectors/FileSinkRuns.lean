import LaminarDB.Connectors.FileSink
import LaminarDB.Library.Transition

/-!
# Runs of the file sink

A process opens the sink and makes calls. It may die between any two file operations of a call; then
the next process opens the sink in the directory that is left.

The ledger is what the calls say about each epoch: the rows accepted in the current one, whether it
is pre-committed, and the rows of the committed ones. A crash leaves a pre-committed epoch undecided
and discards any other; `rollback_epoch` decides its epoch also if the process dies in it.
-/

namespace LaminarDB.Connectors.Files

open Library

variable {Row : Type}

/-- A call of the sink; the writer passes `spilled` buffered rows to its file. -/
inductive Call (Row : Type) where
  | beginEpoch (epoch : Nat)
  | writeBatch (batch : List Row) (spilled : Nat)
  | preCommit (epoch : Nat)
  | commitEpoch (epoch : Nat)
  | rollbackEpoch (epoch : Nat)
  | close
deriving DecidableEq

structure Ledger (Row : Type) where
  epoch : Nat
  begun : Bool
  /-- Rows accepted in the epoch since it was begun or rolled back. -/
  pending : List Row
  prepared : Bool
  commits : List (Nat × List Row)
deriving DecidableEq

namespace Ledger

def start : Ledger Row where
  epoch := 0
  begun := false
  pending := []
  prepared := false
  commits := []

variable (ledger : Ledger Row)

def epochs : List Nat :=
  ledger.commits.map Prod.fst

def committedRows (epoch : Nat) : List Row :=
  (ledger.commits.filter fun commit => commit.1 == epoch).flatMap Prod.snd

/-- The process ends: of the current epoch only a pre-committed one is left. -/
def restart : Ledger Row :=
  { ledger with
    begun := false
    pending := if ledger.prepared then ledger.pending else [] }

def rollback (epoch : Nat) : Ledger Row :=
  if epoch = ledger.epoch then { ledger with pending := [], prepared := false } else ledger

def apply : Call Row → Ledger Row
  | .beginEpoch epoch =>
    { ledger with epoch, begun := true, pending := [], prepared := false }
  | .writeBatch batch _ => { ledger with pending := ledger.pending ++ batch }
  | .preCommit _ => { ledger with prepared := true }
  | .commitEpoch epoch =>
    { ledger with
      pending := []
      prepared := false
      commits := ledger.commits ++ [(epoch, ledger.pending)] }
  | .rollbackEpoch epoch => ledger.rollback epoch
  | .close => ledger.restart

def crash : Call Row → Ledger Row
  | .rollbackEpoch epoch => (ledger.rollback epoch).restart
  | _ => ledger.restart

/-- The calls the coordinator may make: an epoch is begun unless it is committed, rows are written
and pre-committed in the epoch that was begun, a commit follows a successful pre-commit, also one of
a process that has died, and a rollback is of the current epoch or comes before any is begun. -/
def Allows : Call Row → Prop
  | .beginEpoch epoch => epoch ∉ ledger.epochs
  | .writeBatch _ _ => ledger.begun = true
  | .preCommit epoch => ledger.begun = true ∧ epoch = ledger.epoch
  | .commitEpoch epoch => epoch = ledger.epoch ∧ ledger.prepared = true
  | .rollbackEpoch epoch => epoch = ledger.epoch ∨ ledger.begun = false
  | .close => True

instance (ledger : Ledger Row) (call : Call Row) : Decidable (ledger.Allows call) :=
  match call with
  | .beginEpoch _ => inferInstanceAs (Decidable (_ ∉ _))
  | .writeBatch _ _ => inferInstanceAs (Decidable (_ = true))
  | .preCommit _ => inferInstanceAs (Decidable (_ ∧ _))
  | .commitEpoch _ => inferInstanceAs (Decidable (_ ∧ _))
  | .rollbackEpoch _ => inferInstanceAs (Decidable (_ ∨ _))
  | .close => inferInstanceAs (Decidable True)

/-- An epoch is decided unless it is pre-committed and neither committed nor rolled
back. -/
def Decided (epoch : Nat) : Prop :=
  ¬(epoch = ledger.epoch ∧ ledger.prepared = true)

instance (ledger : Ledger Row) (epoch : Nat) : Decidable (ledger.Decided epoch) :=
  inferInstanceAs (Decidable ¬_)

end Ledger

/-- The output directory, the process that has the sink open, and the ledger. -/
structure System (Row : Type) where
  directory : Directory FileName Row
  process : Option (FileSink Row)
  ledger : Ledger Row
deriving DecidableEq

inductive Action (Row : Type) where
  | opening
  /-- A process dies in `open`, after some of its file operations. -/
  | crashOpening (operations : Nat)
  | call (call : Call Row)
  /-- The process dies in a call, after some of its file operations. -/
  | crash (call : Call Row) (operations : Nat)
deriving DecidableEq

variable (config : FileSinkConfig Row)

/-- The sink after a call, its file operations and whether it succeeds. -/
def Call.effect (sink : FileSink Row) :
    Call Row → Option (FileSink Row) × List (Operation Row) × Bool
  | .beginEpoch epoch =>
    let outcome := sink.beginEpoch epoch
    (some outcome.sink, outcome.operations, outcome.result.isOk)
  | .writeBatch batch spilled =>
    let outcome := sink.writeBatch config batch spilled
    (some outcome.sink, outcome.operations, outcome.result.isOk)
  | .preCommit _ =>
    let outcome := sink.preCommit config
    (some outcome.sink, outcome.operations, outcome.result.isOk)
  | .commitEpoch _ =>
    let outcome := sink.commitEpoch config
    (some outcome.sink, outcome.operations, outcome.result.isOk)
  | .rollbackEpoch _ =>
    let outcome := sink.rollbackEpoch
    (some outcome.sink, outcome.operations, outcome.result.isOk)
  | .close => (none, sink.close.operations, sink.close.result.isOk)

def System.start : System Row where
  directory := .empty
  process := none
  ledger := .start

def System.step (system : System Row) :
    Action Row → Option (System Row)
  | .opening =>
    match system.process with
    | some _ => none
    | none =>
      some { system with
        directory := system.directory.applyAll (cleanupTmpFiles system.directory)
        process := some .new }
  | .crashOpening operations =>
    match system.process with
    | some _ => none
    | none =>
      some { system with
        directory := system.directory.applyAll
          ((cleanupTmpFiles system.directory).take operations) }
  | .call call =>
    match system.process with
    | none => none
    | some sink =>
      if system.ledger.Allows call then
        let effect := call.effect config sink
        some
          { directory := system.directory.applyAll effect.2.1
            process := effect.1
            ledger := if effect.2.2 then system.ledger.apply call else system.ledger }
      else none
  | .crash call operations =>
    match system.process with
    | none => none
    | some sink =>
      if system.ledger.Allows call then
        some
          { directory := system.directory.applyAll ((call.effect config sink).2.1.take operations)
            process := none
            ledger := system.ledger.crash call }
      else none

def system : TransitionSystem (System Row) (Action Row) where
  initial state := state = .start
  step := System.step config

/-- The two-phase-commit promise: the final files of every decided epoch hold exactly
the rows committed in it, and if the current epoch is pre-committed, `commit_epoch`
adds its rows. -/
structure KeepsPromise (state : System Row) : Prop where
  decided : ∀ epoch, state.ledger.Decided epoch →
    state.directory.held (FileName.isFinal epoch) = state.ledger.committedRows epoch
  prepared : ∀ sink, state.process = some sink → state.ledger.prepared = true →
    (state.directory.applyAll (sink.commitEpoch config).operations).held
        (FileName.isFinal state.ledger.epoch) =
      state.ledger.committedRows state.ledger.epoch ++ state.ledger.pending

def Ledger.Writable (ledger : Ledger Row) : Prop :=
  ledger.prepared = false ∧ ledger.epoch ∉ ledger.epochs

instance (ledger : Ledger Row) : Decidable ledger.Writable :=
  inferInstanceAs (Decidable (_ ∧ _))

/-- The steps that keep the promise in rolling mode: rows are written only before the pre-commit,
and no process ends between a pre-commit and its decision. -/
def Safe (state : System Row) : Action Row → Prop
  | .call (.writeBatch batch _) => batch = [] ∨ state.ledger.Writable
  | .call .close => state.ledger.prepared = false
  | .crash call _ => (state.ledger.crash call).prepared = false
  | _ => True

end LaminarDB.Connectors.Files
