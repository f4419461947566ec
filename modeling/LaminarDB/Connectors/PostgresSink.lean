import LaminarDB.Connectors.SinkRuns
import LaminarDB.Connectors.Changelog

/-!
# The Postgres sink

`PostgresSink` in exactly-once mode. `pre_commit` writes the buffered rows and the epoch in one
transaction; the timer flush and `close` write the rows by themselves.

Of the database, the visible transactions are kept, each with the epoch it records and the rows it
applies. A failed statement has no effect and aborts its transaction, which refuses every statement
until it is rolled back; a failed `COMMIT` ends it.
-/

namespace LaminarDB.Connectors.Sinks.Postgres

open Connectors.Changelog

/-- The visible transactions and the row of `_laminardb_sink_offsets`. -/
structure Database (Row : Type) where
  transactions : List (Option Nat × List Row)
  committedEpoch : Option Nat
deriving DecidableEq

inductive Session (Row : Type) where
  | idle
  | inTransaction (rows : List Row) (epoch : Option Nat)
  | aborted
deriving DecidableEq

inductive Statement (Row : Type) where
  | begin
  | commit
  | rollback
  | setTimeout
  | select
  /-- `COPY`, `INSERT … ON CONFLICT` or `DELETE` of the target table. -/
  | apply (rows : List Row)
  /-- The upsert of the epoch. -/
  | mark (epoch : Nat)
deriving DecidableEq

variable {Row : Type}

namespace Database

variable (database : Database Row)

def rows : List Row :=
  database.transactions.flatMap Prod.snd

def add (rows : List Row) (epoch : Option Nat) : Database Row where
  transactions := database.transactions ++ [(epoch, rows)]
  committedEpoch := epoch.or database.committedEpoch

/-- The effect of a statement that reaches the server. `ok` is whether it takes effect. -/
def execute (session : Session Row) (statement : Statement Row)
    (ok : Bool) : Database Row × Session Row × Bool :=
  match session, statement, ok with
  | .idle, .begin, true => (database, .inTransaction [] none, true)
  | .idle, .apply rows, true => (database.add rows none, .idle, true)
  | .idle, .mark epoch, true => (database.add [] (some epoch), .idle, true)
  | .idle, _, ok => (database, .idle, ok)
  | .inTransaction rows epoch, .apply more, true =>
    (database, .inTransaction (rows ++ more) epoch, true)
  | .inTransaction rows _, .mark epoch, true => (database, .inTransaction rows (some epoch), true)
  | .inTransaction rows epoch, .commit, true => (database.add rows epoch, .idle, true)
  | .inTransaction _ _, .commit, false => (database, .idle, false)
  | .inTransaction _ _, .rollback, true => (database, .idle, true)
  | .inTransaction rows epoch, _, true => (database, .inTransaction rows epoch, true)
  | .inTransaction _ _, _, false => (database, .aborted, false)
  | .aborted, .commit, true => (database, .idle, true)
  | .aborted, .rollback, true => (database, .idle, true)
  | .aborted, _, _ => (database, .aborted, false)

def readEpoch : Session Row → Option Nat
  | .inTransaction _ (some epoch) => some epoch
  | _ => database.committedEpoch

end Database

/-- A connection that has been checked out, and what its next statements will answer. -/
structure Client (Row : Type) where
  database : Database Row
  session : Session Row
  answers : List Bool
deriving DecidableEq

namespace Client

def execute (client : Client Row) (statement : Statement Row) : Client Row × Bool :=
  let outcome := client.database.execute client.session statement (client.answers.headD false)
  (⟨outcome.1, outcome.2.1, client.answers.tail⟩, outcome.2.2)

def isEpochCommitted (client : Client Row) (epoch : Nat) : Client Row × Option Bool :=
  match client.execute .select with
  | (selected, false) => (selected, none)
  | (selected, true) =>
    match client.database.readEpoch client.session with
    | none => (selected, some false)
    | some committed => (selected, some (decide (epoch ≤ committed)))

def applyAll (client : Client Row) : List (List Row) → Client Row × Bool
  | [] => (client, true)
  | rows :: groups =>
    match client.execute (.apply rows) with
    | (client, true) => client.applyAll groups
    | (client, false) => (client, false)

end Client

inductive Checkout where
  | refused
  | pooled
  /-- The pooled connection was closed. -/
  | fresh
deriving DecidableEq

structure PostgresAnswers where
  checkout : Checkout
  encoded : Bool
  statements : List Bool
deriving DecidableEq

structure PostgresSink (Row : Type) where
  currentEpoch : Nat
  lastCommittedEpoch : Nat
  buffer : List (List Row)
  session : Session Row
deriving DecidableEq

section Sink

/-- The configuration and the operation of a row, which changelog mode reads. -/
structure TableConfig (Row : Type) where
  config : PostgresSinkConfig
  op : Row → Option String

namespace TableConfig

variable (table : TableConfig Row)

def isChangelog : Bool :=
  table.config.writeMode = .upsert && table.config.changelogMode

def applies (row : Row) : Bool :=
  !table.isChangelog || isUpsert (table.op row) || isDelete (table.op row)

/-- The statements of `flush_append`, `flush_upsert` and `flush_changelog`. -/
def groups (rows : List Row) : List (List Row) :=
  if table.isChangelog then
    [rows.filter fun row => isUpsert (table.op row),
      rows.filter fun row => isDelete (table.op row)].filter fun group => !group.isEmpty
  else [rows].filter fun group => !group.isEmpty

end TableConfig

namespace PostgresSink

variable (table : TableConfig Row) (database : Database Row)

/-- `open`, with the epoch that the database has recorded. -/
def openSink (answers : PostgresAnswers) : Option (PostgresSink Row) :=
  if table.config.changelogMode && table.config.writeMode = .append then none
  else if answers.checkout = .refused then none
  else if answers.statements.headD false then
    some
      { currentEpoch := 0
        lastCommittedEpoch := database.committedEpoch.getD 0
        buffer := []
        session := .idle }
  else none

/-- `pool.get()`. -/
def checkout (sink : PostgresSink Row) (answers : PostgresAnswers) : Option (Client Row) :=
  match answers.checkout with
  | .refused => none
  | .pooled => some ⟨database, sink.session, answers.statements⟩
  | .fresh => some ⟨database, .idle, answers.statements⟩

variable (sink : PostgresSink Row)

/-- `flush_to_client`. It does not matter whether the timeout could be set. -/
def flushToClient (encoded : Bool) (client : Client Row) : Client Row × Bool :=
  let client := (client.execute .setTimeout).1
  if encoded then client.applyAll (table.groups sink.buffer.flatten) else (client, false)

def release (client : Client Row) (ok : Bool) : Effect (Database Row) (PostgresSink Row) :=
  ⟨client.database, { sink with session := client.session }, ok⟩

def writeBatch (batch : List Row) : PostgresSink Row :=
  if batch.isEmpty then sink else { sink with buffer := sink.buffer ++ [batch] }

/-- The transaction of `pre_commit`. -/
def record (epoch : Nat) (encoded : Bool) (client : Client Row) :
    Effect (Database Row) (PostgresSink Row) :=
  match client.execute .begin with
  | (client, false) => sink.release client false
  | (client, true) =>
    match flushToClient table sink encoded client with
    | (client, false) => sink.release (client.execute .rollback).1 false
    | (client, true) =>
      match client.execute (.mark epoch) with
      | (client, false) => sink.release client false
      | (client, true) =>
        match client.execute .commit with
        | (client, false) => sink.release client false
        | (client, true) => { sink with buffer := [] }.release client true

def preCommit (sink : PostgresSink Row) (epoch : Nat)
    (answers : PostgresAnswers) : Effect (Database Row) (PostgresSink Row) :=
  if epoch ≠ sink.currentEpoch then ⟨database, sink, false⟩
  else if sink.buffer.isEmpty then ⟨database, sink, true⟩
  else
    match sink.checkout database answers with
    | none => ⟨database, sink, false⟩
    | some client =>
      match client.isEpochCommitted epoch with
      | (client, none) => sink.release client false
      | (client, some true) => { sink with buffer := [] }.release client true
      | (client, some false) => sink.record table epoch answers.encoded client

def commitEpoch (epoch : Nat) : PostgresSink Row × Bool :=
  if epoch ≠ sink.currentEpoch then (sink, false)
  else ({ sink with lastCommittedEpoch := epoch }, true)

variable (sink : PostgresSink Row)

def flush (answers : PostgresAnswers) : Effect (Database Row) (PostgresSink Row) :=
  if sink.buffer.isEmpty then ⟨database, sink, true⟩
  else
    match sink.checkout database answers with
    | none => ⟨database, sink, false⟩
    | some client =>
      match flushToClient table sink answers.encoded client with
      | (client, false) => sink.release client false
      | (client, true) => { sink with buffer := [] }.release client true

/-- `close`: a failed flush is ignored. -/
def close (answers : PostgresAnswers) : Effect (Database Row) (PostgresSink Row) :=
  { flush table database sink answers with ok := true }

def call :
    SinkCall Row → PostgresAnswers → Effect (Database Row) (PostgresSink Row)
  | .writeBatch batch, _ => ⟨database, sink.writeBatch batch, true⟩
  | .flush, answers => flush table database sink answers
  | .beginEpoch epoch, _ => ⟨database, { sink with currentEpoch := epoch }, true⟩
  | .preCommit epoch, answers => preCommit table database sink epoch answers
  | .commitEpoch epoch, _ =>
    let committed := sink.commitEpoch epoch
    ⟨database, committed.1, committed.2⟩
  | .rollbackEpoch _, _ => ⟨database, { sink with buffer := [] }, true⟩
  | .close, answers => close table database sink answers

end PostgresSink

abbrev postgresConnector (table : TableConfig Row) : Connector Row where
  Target := Database Row
  Sink := PostgresSink Row
  Answers := PostgresAnswers
  empty := ⟨[], none⟩
  openSink := PostgresSink.openSink table
  call := PostgresSink.call table

end Sink

end LaminarDB.Connectors.Sinks.Postgres
