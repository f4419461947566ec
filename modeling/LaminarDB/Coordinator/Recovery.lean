import LaminarDB.Coordinator.Checkpoint
import LaminarDB.Library.Result

/-!
# Recovery

`RecoveryManager::recover`: the latest checkpoint first, then all that are listed, the last one
first. A candidate is restored, with the rollbacks of the sinks, before it is checked, so a
candidate that is rejected may have rolled sinks back.

The warnings about validation and topology, and in-flight data, are left out.
-/

namespace LaminarDB.Coordinator

open Library
open Storage
open Checkpoint (SinkCommitStatus)

/-- `RegisteredSource`, with what its connector answers to `restore`. -/
structure RegisteredSource where
  name : String
  supportsReplay : Bool
  restore : ConnectorCheckpoint → Except String Unit

structure RecoveryManager where
  sha256Hex : Bytes → String
  store : StoreReads
  strict : Bool
  sources : List RegisteredSource
  sinks : List RegisteredSink
  tableSources : List RegisteredSource

structure RecoveredState where
  manifest : CheckpointManifest
  sourcesRestored : Nat
  tablesRestored : Nat
  sinksRolledBack : Nat
  sourceErrors : KeyedMap String String
  sinkErrors : KeyedMap String String

def RecoveredState.hasErrors (state : RecoveredState) : Bool :=
  !state.sourceErrors.entries.isEmpty || !state.sinkErrors.entries.isEmpty

/-- An operator state with its bytes from the sidecar, and whether the sidecar has them. -/
def resolveState (data : Bytes) (state : OperatorCheckpoint) : OperatorCheckpoint × Bool :=
  if state.external then
    if state.externalOffset + state.externalLength ≤ data.length then
      (.inlined ((data.drop state.externalOffset).take state.externalLength), true)
    else (.inlined [], false)
  else (state, true)

/-- The end of the state is not a `u64`, so its sum panics. A sidecar is never that long. -/
def endOverflows (data : Bytes) (state : OperatorCheckpoint) : Bool :=
  state.external && decide (data.length < state.externalOffset + state.externalLength ∧
    2 ^ 64 ≤ state.externalOffset + state.externalLength)

def clearState (state : OperatorCheckpoint) : OperatorCheckpoint :=
  if state.external then .inlined [] else state

/-- `resolve_external_states`, with the manifest that it changes; `none` if it panics. -/
def resolveExternalStates (store : StoreReads) (manifest : CheckpointManifest) :
    Option (CheckpointManifest × Bool) :=
  if manifest.operatorStates.any fun entry => entry.2.external then
    match store.loadStateData manifest.checkpointId with
    | .ok (some data) =>
      if manifest.operatorStates.any fun entry => endOverflows data entry.2 then none
      else some ({ manifest with operatorStates := manifest.operatorStates.map fun entry =>
          (entry.1, (resolveState data entry.2).1) },
        manifest.operatorStates.all fun entry => (resolveState data entry.2).2)
    | _ =>
      some ({ manifest with operatorStates := manifest.operatorStates.map fun entry =>
          (entry.1, clearState entry.2) }, false)
  else some (manifest, true)

def Resolves (store : StoreReads) (manifest : CheckpointManifest) : Prop :=
  ∀ entry ∈ manifest.operatorStates, entry.2.external = true →
    ∃ data, store.loadStateData manifest.checkpointId = .ok (some data) ∧
      entry.2.externalOffset + entry.2.externalLength ≤ data.length

theorem resolveState_resolved_iff {data : Bytes} {state : OperatorCheckpoint} :
    (resolveState data state).2 = true ↔
      (state.external = true → state.externalOffset + state.externalLength ≤ data.length) := by
  unfold resolveState
  by_cases isExternal : state.external = true
  · rw [if_pos isExternal]
    by_cases inside : state.externalOffset + state.externalLength ≤ data.length
    · simp [inside]
    · simp [inside, isExternal]
  · simp [isExternal]

/-- The end of every external state is a `u64`. -/
def HasRanges (manifest : CheckpointManifest) : Prop :=
  ∀ entry ∈ manifest.operatorStates, entry.2.external = true →
    entry.2.externalOffset + entry.2.externalLength < 2 ^ 64

theorem endOverflows_of_hasRanges {data : Bytes} {manifest : CheckpointManifest}
    (hasRanges : HasRanges manifest) :
    (manifest.operatorStates.any fun entry => endOverflows data entry.2) = false := by
  refine List.any_eq_false.mpr fun entry mem overflows => ?_
  obtain ⟨isExternal, _, beyond⟩ := by simpa [endOverflows] using overflows
  have := hasRanges entry mem isExternal
  omega

theorem resolveExternalStates_of_hasRanges {store : StoreReads} {manifest : CheckpointManifest}
    (hasRanges : HasRanges manifest) :
    ∃ resolved, resolveExternalStates store manifest = some resolved := by
  unfold resolveExternalStates
  simp only [endOverflows_of_hasRanges hasRanges]
  split
  · split <;> exact ⟨_, rfl⟩
  · exact ⟨_, rfl⟩

theorem endOverflows_of_inside {data : Bytes} {state : OperatorCheckpoint}
    (inside : state.external = true →
      state.externalOffset + state.externalLength ≤ data.length) :
    endOverflows data state = false := by
  rw [Bool.eq_false_iff]
  intro overflows
  obtain ⟨isExternal, beyond, _⟩ := by simpa [endOverflows] using overflows
  have := inside isExternal
  omega

theorem resolveExternalStates_resolved {store : StoreReads} {manifest resolved : CheckpointManifest}
    {complete : Bool}
    (isResolved : resolveExternalStates store manifest = some (resolved, complete)) :
    complete = true ↔ Resolves store manifest := by
  unfold resolveExternalStates at isResolved
  by_cases someExternal : (manifest.operatorStates.any fun entry => entry.2.external) = true
  · rw [if_pos someExternal] at isResolved
    obtain ⟨entry, mem, isExternal⟩ := List.any_eq_true.mp someExternal
    split at isResolved
    · rename_i data loaded
      split at isResolved
      · cases isResolved
      cases isResolved
      simp only [List.all_eq_true, resolveState_resolved_iff]
      constructor
      · intro inside other isOther otherExternal
        exact ⟨data, loaded, inside other isOther otherExternal⟩
      · intro resolves other isOther otherExternal
        obtain ⟨bytes, isLoaded, inside⟩ := resolves other isOther otherExternal
        rw [loaded] at isLoaded
        cases isLoaded
        exact inside
    · rename_i notLoaded
      cases isResolved
      constructor
      · intro resolved
        cases resolved
      · intro resolves
        obtain ⟨bytes, isLoaded, _⟩ := resolves entry mem isExternal
        exact absurd isLoaded (notLoaded bytes)
  · rw [if_neg someExternal] at isResolved
    cases isResolved
    refine iff_of_true rfl ?_
    intro entry mem isExternal
    exact absurd (List.any_eq_true.mpr ⟨entry, mem, isExternal⟩) someExternal

theorem resolveExternalStates_of_resolves {store : StoreReads} {manifest : CheckpointManifest}
    (resolves : Resolves store manifest) :
    ∃ resolved, resolveExternalStates store manifest = some (resolved, true) := by
  have answers : ∃ resolved, resolveExternalStates store manifest = some resolved := by
    unfold resolveExternalStates
    split
    · split
      · rename_i data loaded
        rw [if_neg]
        · exact ⟨_, rfl⟩
        · rw [Bool.not_eq_true, List.any_eq_false]
          intro entry mem
          rw [Bool.not_eq_true]
          refine endOverflows_of_inside fun isExternal => ?_
          obtain ⟨bytes, isLoaded, inside⟩ := resolves entry mem isExternal
          rw [loaded] at isLoaded
          cases isLoaded
          exact inside
      · exact ⟨_, rfl⟩
    · exact ⟨_, rfl⟩
  obtain ⟨⟨resolved, complete⟩, isResolved⟩ := answers
  have isComplete := (resolveExternalStates_resolved isResolved).mpr resolves
  exact ⟨resolved, isComplete ▸ isResolved⟩

/-- Restore the sources that have a checkpoint; `word` is what the errors begin with. -/
def restoreSources (word : String) (skips : RegisteredSource → Bool)
    (offsets : List (String × ConnectorCheckpoint)) (sources : List RegisteredSource)
    (before : Nat × KeyedMap String String) : Nat × KeyedMap String String :=
  sources.foldl (fun restored source =>
    if skips source then restored
    else
      match offsets.lookup source.name with
      | none => restored
      | some checkpoint =>
        match source.restore checkpoint with
        | .ok () => (restored.1 + 1, restored.2)
        | .error error =>
          (restored.1, restored.2.insert source.name (word ++ " restore failed: " ++ error)))
    before

def uncommittedSinks (sinks : List RegisteredSink) (manifest : CheckpointManifest) :
    List RegisteredSink :=
  sinks.filter fun sink =>
    sink.exactlyOnce && manifest.sinkCommitStatuses.lookup sink.name != some .committed

structure Rollback where
  sink : String
  epoch : U64
deriving DecidableEq

namespace RecoveryManager

variable (manager : RecoveryManager)

/-- What `restore_from` does with the manifest `resolved`, whose states are `complete`. -/
def restoreResolved (manifest resolved : CheckpointManifest) (complete : Bool) :
    RecoveredState × List Rollback :=
  let errors : KeyedMap String String :=
    if complete then .empty
    else KeyedMap.empty.insert "__sidecar__"
      ("[LDB-6010] sidecar state.bin missing or truncated " ++
        "— operator state cannot be fully restored")
  let sources := restoreSources "source" (fun source => !source.supportsReplay)
    manifest.sourceOffsets manager.sources (0, errors)
  let tables := restoreSources "table source" (fun _ => false) manifest.tableOffsets
    manager.tableSources (0, sources.2)
  let uncommitted := uncommittedSinks manager.sinks manifest
  (⟨resolved, sources.1, tables.1, uncommitted.length, tables.2, .empty⟩,
    uncommitted.map fun sink => ⟨sink.name, manifest.epoch⟩)

/-- `restore_from`, with the rollbacks that it sends. -/
def restoreFrom (manifest : CheckpointManifest) : Option (RecoveredState × List Rollback) :=
  (resolveExternalStates manager.store manifest).map fun resolved =>
    manager.restoreResolved manifest resolved.1 resolved.2

def isCheckpointCorrupt (manifest : CheckpointManifest) : Bool :=
  if manifest.stateChecksum.isNone && manifest.operatorStates.isEmpty then false
  else
    match validateCheckpoint manager.sha256Hex manager.store manifest.checkpointId with
    | .ok result => !result.valid
    | .error _ => true

def checkStrict (state : RecoveredState) : Except String Unit :=
  if !manager.strict || !state.hasErrors then .ok ()
  else
    let messages :=
      (state.sourceErrors.entries.map fun entry => "source '" ++ entry.1 ++ "': " ++ entry.2) ++
        (state.sinkErrors.entries.map fun entry => "sink '" ++ entry.1 ++ "': " ++ entry.2)
    .error (checkpointError ("strict recovery failed — " ++ toString messages.length ++
      " restore error(s): " ++ "; ".intercalate messages))

/-- A candidate that was tried, with the state if it was accepted and the rollbacks it caused. -/
structure Attempt where
  manifest : CheckpointManifest
  restored : Option RecoveredState
  rollbacks : List Rollback

/-- Try a candidate; `none` if it panics. -/
def attempt (manifest : CheckpointManifest) : Option Attempt :=
  if manager.isCheckpointCorrupt manifest then some ⟨manifest, none, []⟩
  else
    (manager.restoreFrom manifest).map fun restored =>
      match manager.checkStrict restored.1 with
      | .ok () => ⟨manifest, some restored.1, restored.2⟩
      | .error _ => ⟨manifest, none, restored.2⟩

/-- Try a candidate, and go on with `others` if it is rejected. -/
def attemptOr {α : Type} (manifest : CheckpointManifest) (accept : RecoveredState → α)
    (others : Option (α × List Attempt)) : Option (α × List Attempt) :=
  (manager.attempt manifest).bind fun tried =>
    match tried.restored with
    | some state => some (accept state, [tried])
    | none => others.map fun found => (found.1, tried :: found.2)

def fallback : List U64 → Option (Option RecoveredState × List Attempt)
  | [] => some (none, [])
  | id :: ids =>
    match manager.store.loadById id with
    | .ok (some manifest) => manager.attemptOr manifest some (fallback ids)
    | _ => fallback ids

/-- The part of `recover` after the latest checkpoint. -/
def recoverListed : Option (Except String (Option RecoveredState) × List Attempt) :=
  match manager.store.list with
  | .error error =>
    some (.error (checkpointError ("failed to list checkpoints for fallback: " ++ error.text)), [])
  | .ok entries =>
    (manager.fallback (entries.reverse.map Prod.fst)).map fun found => (.ok found.1, found.2)

/-- `RecoveryManager::recover`, with the candidates that it tried; `none` if it panics. -/
def recover : Option (Except String (Option RecoveredState) × List Attempt) :=
  match manager.store.loadLatest with
  | .ok none => some (.ok none, [])
  | .error _ => manager.recoverListed
  | .ok (some manifest) =>
    manager.attemptOr manifest (fun state => .ok (some state)) manager.recoverListed

def new (sha256Hex : Bytes → String) (store : StoreReads) (sources : List RegisteredSource)
    (sinks : List RegisteredSink) (tableSources : List RegisteredSource) : RecoveryManager :=
  ⟨sha256Hex, store, true, sources, sinks, tableSources⟩

end RecoveryManager

end LaminarDB.Coordinator
