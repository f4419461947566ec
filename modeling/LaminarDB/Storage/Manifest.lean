import LaminarDB.Checkpoint.Coordinator

/-!
# Checkpoint manifests

`CheckpointManifest` with `validate`, and `OperatorCheckpoint` with the packing of operator
states into a sidecar.

Maps are lists of entries. A state that is held in the manifest is held as its bytes, not as
their base64 text. In-flight data and the assignment of virtual nodes, which nothing here
reads, are left out.
-/

namespace LaminarDB.Storage

open Checkpoint (SinkCommitStatus)

abbrev U64 := Fin (2 ^ 64)

instance neZeroU64 : NeZero (2 ^ 64) := inferInstance

abbrev Bytes := List UInt8

structure ConnectorCheckpoint where
  offsets : List (String × String)
  epoch : U64
  metadata : List (String × String)
deriving DecidableEq

structure OperatorCheckpoint where
  stateB64 : Option Bytes
  external : Bool
  externalOffset : Nat
  externalLength : Nat
deriving DecidableEq

namespace OperatorCheckpoint

/-- `OperatorCheckpoint::inline`. -/
def inlined (data : Bytes) : OperatorCheckpoint where
  stateB64 := some data
  external := false
  externalOffset := 0
  externalLength := 0

/-- `OperatorCheckpoint::external`. -/
def externalAt (offset length : Nat) : OperatorCheckpoint where
  stateB64 := none
  external := true
  externalOffset := offset
  externalLength := length

def fromBytes (data : Bytes) (threshold currentOffset : Nat) : OperatorCheckpoint × Option Bytes :=
  if data.length ≤ threshold then (inlined data, none)
  else (externalAt currentOffset data.length, some data)

end OperatorCheckpoint

structure CheckpointManifest where
  version : Nat
  checkpointId : U64
  epoch : U64
  timestampMs : Nat
  sourceOffsets : List (String × ConnectorCheckpoint)
  sinkEpochs : List (String × U64)
  sinkCommitStatuses : List (String × SinkCommitStatus)
  tableOffsets : List (String × ConnectorCheckpoint)
  operatorStates : List (String × OperatorCheckpoint)
  tableStoreCheckpointPath : Option String
  perCoreWalPositions : List Nat
  watermark : Option Int
  sourceWatermarks : List (String × Int)
  sourceNames : List String
  sinkNames : List String
  pipelineHash : Option U64
  vnodeMap : List (Nat × Nat)
  vnodeCount : Nat
  isIncremental : Bool
  parentId : Option U64
  stateChecksum : Option String
deriving DecidableEq

def runtimeVnodeCount : Nat := 256

namespace CheckpointManifest

/-- `CheckpointManifest::new`, at a time. -/
def new (checkpointId epoch : U64) (timestampMs : Nat) : CheckpointManifest where
  version := 1
  checkpointId := checkpointId
  epoch := epoch
  timestampMs := timestampMs
  sourceOffsets := []
  sinkEpochs := []
  sinkCommitStatuses := []
  tableOffsets := []
  operatorStates := []
  tableStoreCheckpointPath := none
  perCoreWalPositions := []
  watermark := none
  sourceWatermarks := []
  sourceNames := []
  sinkNames := []
  pipelineHash := none
  vnodeMap := []
  vnodeCount := runtimeVnodeCount
  isIncremental := false
  parentId := none
  stateChecksum := none

variable (manifest : CheckpointManifest)

def sinksWithoutStatus : List String :=
  if manifest.sinkCommitStatuses.isEmpty then []
  else (manifest.sinkEpochs.map Prod.fst).filter fun sink =>
    !(manifest.sinkCommitStatuses.map Prod.fst).contains sink

def unknownSources : List String :=
  if manifest.sourceNames.isEmpty then []
  else (manifest.sourceOffsets.map Prod.fst).filter fun source =>
    !manifest.sourceNames.contains source

def unknownVnodes : List Nat :=
  if manifest.vnodeCount = 0 then []
  else (manifest.vnodeMap.map Prod.fst).filter fun vnode => decide (manifest.vnodeCount ≤ vnode)

def validate : List String :=
  (if manifest.version = 0 then ["manifest version is 0"] else []) ++
  (if manifest.checkpointId = 0 then ["checkpoint_id is 0"] else []) ++
  (if manifest.epoch = 0 then ["epoch is 0"] else []) ++
  (if manifest.timestampMs = 0 then ["timestamp_ms is 0 (missing creation time)"] else []) ++
  (manifest.sinksWithoutStatus.map fun sink =>
    "sink '" ++ sink ++ "' has epoch but no commit status") ++
  (manifest.unknownSources.map fun source =>
    "source_offsets contains '" ++ source ++ "' not in source_names") ++
  (if manifest.isIncremental && manifest.parentId.isNone then
    ["incremental checkpoint has no parent_id"] else []) ++
  (manifest.unknownVnodes.map fun vnode =>
    "vnode_map contains vnode_id " ++ toString vnode ++ " >= vnode_count " ++
      toString manifest.vnodeCount) ++
  (if manifest.vnodeCount = 0 then ["vnode_count is 0 (missing or legacy checkpoint)"]
  else if manifest.vnodeCount = runtimeVnodeCount then []
  else ["vnode_count mismatch: checkpoint has " ++ toString manifest.vnodeCount ++
    ", runtime expects " ++ toString runtimeVnodeCount])

end CheckpointManifest

def packOperatorState (threshold : Nat) (packed : List (String × OperatorCheckpoint) × Bytes)
    (entry : String × Bytes) : List (String × OperatorCheckpoint) × Bytes :=
  let (checkpoint, blob) := OperatorCheckpoint.fromBytes entry.2 threshold packed.2.length
  (packed.1 ++ [(entry.1, checkpoint)], packed.2 ++ blob.getD [])

variable (operatorStates : List (String × Bytes)) (threshold : Nat)

/-- `pack_operator_states`: the entries of the manifest and the sidecar. -/
def packOperatorStates : List (String × OperatorCheckpoint) × Option Bytes :=
  let packed := operatorStates.foldl (packOperatorState threshold) ([], [])
  (packed.1, if packed.2.isEmpty then none else some packed.2)

def externalised : List (String × Bytes) :=
  operatorStates.filter fun entry => decide (threshold < entry.2.length)

theorem foldl_packOperatorState (operatorStates : List (String × Bytes))
    (packed : List (String × OperatorCheckpoint) × Bytes) :
    (operatorStates.foldl (packOperatorState threshold) packed).2 =
      packed.2 ++ (externalised operatorStates threshold).flatMap Prod.snd := by
  induction operatorStates generalizing packed with
  | nil => simp [externalised]
  | cons entry operatorStates ih =>
    rw [List.foldl_cons, ih]
    by_cases fits : entry.2.length ≤ threshold
    · simp [packOperatorState, OperatorCheckpoint.fromBytes, externalised, fits]
    · simp [packOperatorState, OperatorCheckpoint.fromBytes, externalised, fits,
        Nat.lt_of_not_le fits]

theorem packOperatorStates_sidecar :
    (packOperatorStates operatorStates threshold).2 =
      if externalised operatorStates threshold = [] then none
      else some ((externalised operatorStates threshold).flatMap Prod.snd) := by
  have isSidecar := foldl_packOperatorState threshold operatorStates ([], [])
  rw [List.nil_append] at isSidecar
  simp only [packOperatorStates, isSidecar]
  by_cases allFit : externalised operatorStates threshold = []
  · simp [allFit]
  · rw [if_neg allFit, if_neg]
    intro isEmpty
    obtain ⟨entry, mem⟩ := List.exists_mem_of_ne_nil _ allFit
    have noBytes := List.flatMap_eq_nil_iff.mp (List.isEmpty_iff.mp isEmpty) entry mem
    have large : threshold < entry.2.length := by simpa using (List.mem_filter.mp mem).2
    rw [noBytes] at large
    cases large

end LaminarDB.Storage
