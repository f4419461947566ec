import Mathlib

/-!
# The Delta Lake source

`DeltaSource` in incremental mode, with `read_batches_at_version` and `read_version_diff`.

The log of the table is the list of its commits; the commit at place `n` made version `n`. The
partition filter, the check of the schema and the alignment of batches to it are left out; a
schema mismatch is one of the errors of a read.
-/

namespace LaminarDB.Connectors.Delta

variable {Row : Type}

structure DataFile (Row : Type) where
  path : String
  rows : List Row
deriving DecidableEq

structure Commit (Row : Type) where
  added : List (DataFile Row)
  removed : List String
deriving DecidableEq

abbrev Log (Row : Type) := List (Commit Row)

variable (files : List (DataFile Row))

def filesRows : List Row := files.flatMap DataFile.rows

def Commit.apply (commit : Commit Row) : List (DataFile Row) :=
  files.filter (fun file => file.path ∉ commit.removed) ++ commit.added

variable (log : Log Row)

def live : List (DataFile Row) := log.foldl Commit.apply []

def Commit.netAdded (commit : Commit Row) : List (DataFile Row) :=
  commit.added.filter fun file => file.path ∉ commit.removed

def latestVersion : Int := log.length - 1

/-- In which order a scan finds rows, and how it cuts them into batches. -/
structure Scan (Row : Type) where
  order : List Row → List Row
  complete : ∀ rows, (order rows).Perm rows
  cut : List Row → List (List Row)
  whole : ∀ rows, (cut rows).flatten = rows

/-- `read_batches_at_version`. Without a limit all rows are read. -/
def readBatchesAtVersion (scan : Scan Row) (version : Int)
    (maxRecords : Option Nat) : Except String (List (List Row)) :=
  if 0 ≤ version ∧ version ≤ latestVersion log then
    let rows := scan.order (filesRows (live (log.take (version.toNat + 1))))
    .ok (scan.cut (maxRecords.elim rows rows.take))
  else .error ("failed to load version " ++ toString version)

def readVersionDiff (scan : Scan Row) (version : Int) (maxRecords : Nat) :
    Except String (List (List Row)) :=
  if version ≤ 0 then readBatchesAtVersion log scan version (some maxRecords)
  else
    match log[version.toNat]? with
    | none => .error ("failed to read commit of version " ++ toString version)
    | some commit => .ok (scan.cut ((filesRows commit.netAdded).take maxRecords))

/-- `DeltaSource`; `table` says that there is a handle of the table. -/
structure DeltaSource (Row : Type) where
  currentVersion : Int
  inflightVersion : Option Int
  knownLatestVersion : Int
  pendingBatches : List (List Row)
  table : Bool

namespace DeltaSource

def new : DeltaSource Row where
  currentVersion := -1
  inflightVersion := none
  knownLatestVersion := -1
  pendingBatches := []
  table := false

/-- Buffer the batches of a version. A version without rows is consumed at once. -/
def buffer (version : Int) (batches : List (List Row)) (source : DeltaSource Row) :
    DeltaSource Row :=
  let pending := batches.filter fun batch => !batch.isEmpty
  if pending.isEmpty then
    { source with pendingBatches := [], currentVersion := version }
  else { source with pendingBatches := pending, inflightVersion := some version }

/-- `open`. Without a starting version the rows of the table are read first. -/
def openTable (startingVersion : Option Int) (log : Log Row) (scan : Scan Row) :
    Except String (DeltaSource Row) :=
  let opened : DeltaSource Row := { new with table := true }
  match startingVersion with
  | some start => .ok { opened with currentVersion := start }
  | none =>
    if 0 < latestVersion log then
      (readBatchesAtVersion log scan (latestVersion log) none).map fun batches =>
        opened.buffer (latestVersion log) batches
    else .ok { opened with currentVersion := latestVersion log }

def takePending (source : DeltaSource Row) : Option (List Row × DeltaSource Row) :=
  match source.pendingBatches with
  | [] => none
  | batch :: rest =>
    let popped := { source with pendingBatches := rest }
    match rest, source.inflightVersion with
    | [], some version =>
      some (batch, { popped with currentVersion := version, inflightVersion := none })
    | _, _ => some (batch, popped)

/-- What happens during a poll: whether a lost table is reopened, the check is due, the check and
the read succeed, and what is read. -/
structure PollEnvironment (Row : Type) where
  reopens : Bool
  elapsed : Bool
  refreshes : Bool
  readError : Option String
  scan : Scan Row

variable (log : Log Row)

/-- Look for a new version; the result says whether there is one to read. -/
def refresh (environment : PollEnvironment Row) (source : DeltaSource Row) :
    DeltaSource Row × Bool :=
  if !source.table && !environment.reopens then (source, false)
  else
    let reopened := { source with table := true }
    if source.knownLatestVersion ≤ source.currentVersion then
      if !environment.elapsed then (reopened, false)
      else if !environment.refreshes then ({ reopened with table := false }, false)
      else
        ({ reopened with knownLatestVersion := latestVersion log },
          decide (source.currentVersion < latestVersion log))
    else (reopened, true)

def readTarget (maxRecords : Nat) (environment : PollEnvironment Row)
    (source : DeltaSource Row) : DeltaSource Row × Except String (Option (List Row)) :=
  let targetVersion := source.currentVersion + 1
  match environment.readError with
  | some error => (source, .error error)
  | none =>
    match readVersionDiff log environment.scan targetVersion maxRecords with
    | .error error => (source, .error error)
    | .ok batches =>
      let buffered := source.buffer targetVersion batches
      match buffered.takePending with
      | some (batch, taken) => (taken, .ok (some batch))
      | none => (buffered, .ok none)

def pollBatch (maxRecords : Nat) (environment : PollEnvironment Row)
    (source : DeltaSource Row) : DeltaSource Row × Except String (Option (List Row)) :=
  match source.takePending with
  | some (batch, taken) => (taken, .ok (some batch))
  | none =>
    match source.refresh log environment with
    | (refreshed, false) => (refreshed, .ok none)
    | (refreshed, true) => refreshed.readTarget log maxRecords environment

def checkpoint (source : DeltaSource Row) : Int := source.currentVersion

def restore (version : Int) (source : DeltaSource Row) : DeltaSource Row :=
  { source with currentVersion := version }

end DeltaSource

end LaminarDB.Connectors.Delta
