import LaminarDB.Storage.CheckpointStore

/-!
# Taking a checkpoint

`checkpoint_inner` of the `CheckpointCoordinator`, with the whole manifest that it builds and the
store that it writes to. The calls of the sinks and the waiting for the store are given by an
environment; what the sinks do with the calls is not modelled here.

A write of the store that the coordinator no longer waits for goes on in the background.
-/

namespace LaminarDB.Coordinator

open Library List
open Storage ObjectStore
open Checkpoint (SinkCommitStatus)

structure RegisteredSink where
  name : String
  exactlyOnce : Bool
deriving DecidableEq

structure CheckpointConfig where
  preCommitTimeoutSecs : Nat
  persistTimeoutSecs : Nat
  commitTimeoutSecs : Nat
  incremental : Bool
  stateInlineThreshold : Nat
  maxCheckpointBytes : Option Nat

/-- The methods of the trait `CheckpointStore`, with what may happen in their steps. -/
structure StoreMethods (Store : Type) where
  Outcomes : Type
  saveWithState : Outcomes → CheckpointManifest → Option Bytes → Step Store
  updateManifest : Outcomes → CheckpointManifest → Step Store
  /-- Whether `save_with_state` puts its manifest in place. -/
  writesManifest : Outcomes → CheckpointManifest → Option Bytes → Store → Bool
  reads : Store → StoreReads

variable (sha256Hex : Bytes → String)

def fileMethods : StoreMethods FileStore where
  Outcomes := FileStore.Outcomes
  saveWithState outcomes manifest stateData :=
    FileStore.saveWithState outcomes sha256Hex manifest stateData
  updateManifest := FileStore.updateManifest
  writesManifest outcomes _ stateData _ := FileStore.writesManifest outcomes stateData
  reads := FileStore.reads

def objectMethods : StoreMethods ObjectStore where
  Outcomes := Outcomes
  saveWithState outcomes manifest stateData := saveWithState outcomes sha256Hex manifest stateData
  updateManifest := updateManifest
  writesManifest := writesManifest
  reads := reads

/-- The answers of the sinks to a call, by their positions, and whether the time for all of
them has elapsed. -/
structure SinkCalls where
  answer : Nat → Except String Unit
  elapsed : Bool

def exactlyOnceSinks (sinks : List RegisteredSink) : List (RegisteredSink × Nat) :=
  sinks.zipIdx.filter fun sink => sink.1.exactlyOnce

def callInTurn (answer : Nat → Except String Unit) (describe : String → String → String) :
    List (RegisteredSink × Nat) → Except String Unit
  | [] => .ok ()
  | (sink, position) :: sinks =>
    match answer position with
    | .error error => .error (describe sink.name error)
    | .ok () => callInTurn answer describe sinks

/-- `DbError::Checkpoint`, as it is displayed. -/
def checkpointError (message : String) : String := "[LDB-6001] Checkpoint error: " ++ message

variable (config : CheckpointConfig)

section

variable (sinks : List RegisteredSink) (calls : SinkCalls) {Value : Type}
  {value : RegisteredSink × Nat → Value}

def preCommitSinks : Except String Unit :=
  if calls.elapsed then
    .error ("pre-commit timed out after " ++ toString config.preCommitTimeoutSecs ++ "s")
  else callInTurn calls.answer
    (fun name error => "sink '" ++ name ++ "' pre-commit failed: " ++ error)
    (exactlyOnceSinks sinks)

def commitStatus (sink : RegisteredSink × Nat) : SinkCommitStatus :=
  if calls.elapsed then
    .failed ("sink '" ++ sink.1.name ++ "' commit timed out after " ++
      toString config.commitTimeoutSecs ++ "s")
  else
    match calls.answer sink.2 with
    | .ok () => .committed
    | .error error => .failed ("sink '" ++ sink.1.name ++ "' commit failed: " ++ error)

def sinkMap {Value : Type} (value : RegisteredSink × Nat → Value) : KeyedMap String Value :=
  (exactlyOnceSinks sinks).foldl (fun map sink => map.insert sink.1.name (value sink)) .empty

theorem sinkMap_eq_nil_iff {sinks : List RegisteredSink} :
    (sinkMap sinks value).entries = [] ↔ exactlyOnceSinks sinks = [] := by
  unfold sinkMap
  rcases eq_nil_or_concat (exactlyOnceSinks sinks) with noSinks | ⟨others, last, isSplit⟩
  · rw [noSinks]
    exact iff_of_true rfl rfl
  · rw [isSplit, concat_eq_append, foldl_concat]
    exact iff_of_false (KeyedMap.insert_ne_nil _ _) (concat_ne_nil last others)

theorem mem_sinkMap {sinks : List RegisteredSink}
    {entry : String × Value} (mem : entry ∈ (sinkMap sinks value).entries) :
    ∃ sink ∈ exactlyOnceSinks sinks, entry = (sink.1.name, value sink) := by
  revert mem
  unfold sinkMap
  induction exactlyOnceSinks sinks using List.reverseRecOn with
  | nil =>
    intro mem
    cases mem
  | append_singleton others last ih =>
    intro mem
    rw [foldl_concat] at mem
    rcases KeyedMap.mem_insert mem with isLast | old
    · exact ⟨last, mem_append_right _ mem_cons_self, isLast⟩
    · obtain ⟨sink, known, isEntry⟩ := ih old
      exact ⟨sink, mem_append_left _ known, isEntry⟩

def commitSinksTracked : KeyedMap String SinkCommitStatus :=
  sinkMap sinks (commitStatus config calls)

variable {config : CheckpointConfig} {calls : SinkCalls}

theorem commitSinksTracked_eq_nil_iff {sinks : List RegisteredSink} :
    (commitSinksTracked config sinks calls).entries = [] ↔ exactlyOnceSinks sinks = [] :=
  sinkMap_eq_nil_iff

theorem noneFailed_of_commits {sinks : List RegisteredSink} (inTime : calls.elapsed = false)
    (commits : ∀ sink ∈ exactlyOnceSinks sinks, calls.answer sink.2 = .ok ()) :
    ((commitSinksTracked config sinks calls).entries.any fun entry => entry.2.isFailed) =
      false := by
  apply any_eq_false.mpr
  intro entry mem
  obtain ⟨sink, isSink, rfl⟩ := mem_sinkMap mem
  simp [commitStatus, inTime, commits sink isSink, SinkCommitStatus.isFailed]

def beginEpochForSinks (epoch : U64) (calls : SinkCalls) : Except String Unit :=
  callInTurn calls.answer
    (fun name error => "sink '" ++ name ++ "' failed to begin epoch " ++ toString epoch.val ++
      ": " ++ error)
    (exactlyOnceSinks sinks)

end

inductive BackgroundWrite where
  | save (manifest : CheckpointManifest) (stateData : Option Bytes)
  | update (manifest : CheckpointManifest)

/-- `CheckpointCoordinator` with the content of its store. -/
structure CheckpointCoordinator (Store : Type) where
  nextCheckpointId : U64
  epoch : U64
  store : Store
  background : List BackgroundWrite

/-- How the waiting for a blocking task of the store ends: with its result, with a failure of the
task, which may have done its work, or with the time elapsed and the task still running. -/
inductive Waiting (Outcomes : Type) where
  | returned (outcomes : Outcomes)
  | lost (error : String) (landed : Option Outcomes)
  | elapsed (landed : Option Outcomes)

/-- The end of `save_manifest`; `word` is what its messages call it. -/
def awaitTask {Store Outcomes : Type} (task : Outcomes → Step Store) (write : BackgroundWrite)
    (word timedOut : String) (waiting : Waiting Outcomes)
    (coordinator : CheckpointCoordinator Store) :
    CheckpointCoordinator Store × Except String Unit :=
  match waiting with
  | .returned outcomes =>
    match task outcomes coordinator.store with
    | (store, .ok ()) => ({ coordinator with store := store }, .ok ())
    | (store, .error error) =>
      ({ coordinator with store := store },
        .error (checkpointError ("manifest " ++ word ++ " failed: " ++ error.text)))
  | .lost error landed =>
    let store := match landed with
      | some outcomes => (task outcomes coordinator.store).1
      | none => coordinator.store
    ({ coordinator with store := store },
      .error (checkpointError ("manifest " ++ word ++ " task failed: " ++ error)))
  | .elapsed (some outcomes) =>
    ({ coordinator with store := (task outcomes coordinator.store).1 },
      .error (checkpointError timedOut))
  | .elapsed none =>
    ({ coordinator with background := write :: coordinator.background },
      .error (checkpointError timedOut))

variable {Store : Type} (methods : StoreMethods Store)

section

variable (config : CheckpointConfig) (manifest : CheckpointManifest)

def saveManifest (stateData : Option Bytes)
    (waiting : Waiting methods.Outcomes) (coordinator : CheckpointCoordinator Store) :
    CheckpointCoordinator Store × Except String Unit :=
  awaitTask (fun outcomes => methods.saveWithState outcomes manifest stateData)
    (.save manifest stateData) "persist"
    ("[LDB-6011] manifest persist timed out after " ++ toString config.persistTimeoutSecs ++
      "s — filesystem may be degraded") waiting coordinator

def updateManifestOnly (waiting : Waiting methods.Outcomes)
    (coordinator : CheckpointCoordinator Store) :
    CheckpointCoordinator Store × Except String Unit :=
  awaitTask (fun outcomes => methods.updateManifest outcomes manifest) (.update manifest) "update"
    ("manifest update timed out after " ++ toString config.persistTimeoutSecs ++ "s")
    waiting coordinator

theorem store_updateManifestOnly
    {outcomes : methods.Outcomes} {coordinator : CheckpointCoordinator Store} :
    (updateManifestOnly methods config manifest (.returned outcomes) coordinator).1.store =
      (methods.updateManifest outcomes manifest coordinator.store).1 := by
  unfold updateManifestOnly awaitTask
  dsimp only
  split
  · rename_i updated
    rw [updated]
  · rename_i updated
    rw [updated]

end

structure CheckpointInput where
  operatorStates : List (String × Bytes)
  watermark : Option Int
  tableStoreCheckpointPath : Option String
  extraTableOffsets : List (String × ConnectorCheckpoint)
  sourceWatermarks : List (String × Int)
  pipelineHash : Option U64
  sourceOffsetOverrides : List (String × ConnectorCheckpoint)

/-- What the calls made by `checkpoint_inner` give. -/
structure Environment (Outcomes : Type) where
  timestampMs : Nat
  wal : Except String (List Nat)
  preCommit : SinkCalls
  persist : Waiting Outcomes
  commit : SinkCalls
  update : Waiting Outcomes
  beginNext : SinkCalls

structure CheckpointResult where
  success : Bool
  checkpointId : U64
  epoch : U64
  error : Option String
deriving DecidableEq

/-- The manifest that `checkpoint_inner` builds, and the sidecar. -/
def buildManifest (sinks : List RegisteredSink)
    (input : CheckpointInput) (timestampMs : Nat) (perCoreWalPositions : List Nat)
    (coordinator : CheckpointCoordinator Store) : CheckpointManifest × Option Bytes :=
  let packed := packOperatorStates input.operatorStates config.stateInlineThreshold
  ({ CheckpointManifest.new coordinator.nextCheckpointId coordinator.epoch timestampMs with
      sourceOffsets := input.sourceOffsetOverrides
      tableOffsets := input.extraTableOffsets
      sinkEpochs := (sinkMap sinks fun _ => coordinator.epoch).entries
      sinkCommitStatuses := (sinkMap sinks fun _ => SinkCommitStatus.pending).entries
      watermark := input.watermark
      sourceWatermarks := input.sourceWatermarks
      perCoreWalPositions := perCoreWalPositions
      tableStoreCheckpointPath := input.tableStoreCheckpointPath
      isIncremental := config.incremental
      sourceNames := (input.sourceOffsetOverrides.map Prod.fst).insertionSort (· ≤ ·)
      sinkNames := (sinks.map RegisteredSink.name).insertionSort (· ≤ ·)
      pipelineHash := input.pipelineHash
      operatorStates := packed.1 }, packed.2)

def exceededCap (stateData : Option Bytes) : Option Nat :=
  config.maxCheckpointBytes.filter fun cap => decide (cap < (stateData.getD []).length)

def failure (coordinator : CheckpointCoordinator Store) (error : String) : CheckpointResult :=
  ⟨false, coordinator.nextCheckpointId, coordinator.epoch, some error⟩

variable (config : CheckpointConfig)

/-- The steps up to the size check: the manifest and the sidecar, or how the checkpoint ends. -/
def prepareManifest {Outcomes : Type} (sinks : List RegisteredSink)
    (input : CheckpointInput) (environment : Environment Outcomes)
    (coordinator : CheckpointCoordinator Store) :
    Except (Except String CheckpointResult) (CheckpointManifest × Option Bytes) :=
  match environment.wal with
  | .error error => .error (.error (checkpointError error))
  | .ok positions =>
    match preCommitSinks config sinks environment.preCommit with
    | .error error =>
      .error (.ok (failure coordinator ("pre-commit failed: " ++ checkpointError error)))
    | .ok () =>
      let built := buildManifest config sinks input environment.timestampMs positions coordinator
      match exceededCap config built.2 with
      | some cap =>
        .error (.ok (failure coordinator ("[LDB-6014] checkpoint size " ++
          toString (built.2.getD []).length ++ " bytes exceeds cap " ++ toString cap ++
          " bytes — checkpoint rejected")))
      | none => .ok built

def finish {Outcomes : Type} (sinks : List RegisteredSink) (environment : Environment Outcomes)
    (coordinator : CheckpointCoordinator Store) : CheckpointCoordinator Store × CheckpointResult :=
  let next := { coordinator with
    nextCheckpointId := coordinator.nextCheckpointId + 1
    epoch := coordinator.epoch + 1 }
  let error := match beginEpochForSinks sinks next.epoch environment.beginNext with
    | .ok () => none
    | .error error => some (checkpointError error)
  (next, ⟨true, coordinator.nextCheckpointId, coordinator.epoch, error⟩)

/-- Overwrite the manifest with the final statuses of the sinks, if there are any. -/
def recordStatuses
    (environment : Environment methods.Outcomes) (statuses : KeyedMap String SinkCommitStatus)
    (manifest : CheckpointManifest) (coordinator : CheckpointCoordinator Store) :
    CheckpointCoordinator Store :=
  if statuses.entries = [] then coordinator
  else (updateManifestOnly methods config
    { manifest with sinkCommitStatuses := statuses.entries } environment.update coordinator).1

variable (sinks : List RegisteredSink)

def commitCheckpoint (environment : Environment methods.Outcomes)
    (manifest : CheckpointManifest) (coordinator : CheckpointCoordinator Store) :
    CheckpointCoordinator Store × CheckpointResult :=
  let statuses := commitSinksTracked config sinks environment.commit
  let updated := recordStatuses methods config environment statuses manifest coordinator
  if statuses.entries.any fun entry => entry.2.isFailed then
    (updated, failure updated "partial sink commit failure")
  else finish sinks environment updated

def checkpointInner (input : CheckpointInput)
    (environment : Environment methods.Outcomes) (coordinator : CheckpointCoordinator Store) :
    CheckpointCoordinator Store × Except String CheckpointResult :=
  match prepareManifest config sinks input environment coordinator with
  | .error result => (coordinator, result)
  | .ok (manifest, stateData) =>
    match saveManifest methods config manifest stateData environment.persist coordinator with
    | (saved, .error error) =>
      (saved, .ok (failure saved ("manifest persist failed: " ++ error)))
    | (saved, .ok ()) =>
      let committed := commitCheckpoint methods config sinks environment manifest saved
      (committed.1, .ok committed.2)

end LaminarDB.Coordinator
