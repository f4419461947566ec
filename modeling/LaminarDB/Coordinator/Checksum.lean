import LaminarDB.Coordinator.Checkpoint
import LaminarDB.Storage.SavedCheckpoint

/-!
# The checksum of the sidecar

`save_with_state` fills the checksum of the sidecar into its own copy of the manifest. When a sink
takes part in two-phase commit, `checkpoint_inner` writes its copy again, without the checksum.
-/

namespace LaminarDB.Coordinator

open Library
open Storage
open Checkpoint (SinkCommitStatus)

open ObjectStore

structure Sha256 where
  hex : Bytes → String
  injective : Function.Injective hex

/-- The manifest of an id carries the checksum of the sidecar that was stored with it, and a
store with this manifest and any other sidecar, or none, is found to be invalid. -/
structure SidecarProtected (sha256 : Sha256) (reads : StoreReads) (id : U64) (data : Bytes) :
    Prop where
  checksum : ∀ manifest, reads.loadById id = .ok (some manifest) →
    manifest.stateChecksum = some (sha256.hex data)
  rejects : ∀ later : StoreReads, later.loadById id = reads.loadById id →
    later.loadStateData id ≠ .ok (some data) →
      ∀ result, validateCheckpoint sha256.hex later id = .ok result → result.valid = false

variable {Store : Type} {manifest : CheckpointManifest} {sha256 : Sha256}
  {methods : StoreMethods Store} {data : Bytes} {id : U64}

theorem rejects_of_checksum {later : StoreReads}
    (checksum : ∀ manifest, later.loadById id = .ok (some manifest) →
      manifest.stateChecksum = some (sha256.hex data))
    (altered : later.loadStateData id ≠ .ok (some data)) {result : ValidationResult}
    (validated : validateCheckpoint sha256.hex later id = .ok result) : result.valid = false := by
  unfold validateCheckpoint at validated
  split at validated
  · cases validated
    rfl
  · cases validated
  · cases validated
    rfl
  · rename_i manifest loaded
    rw [checksum manifest loaded] at validated
    obtain ⟨issues, checked, rfl⟩ := Result.map_eq_ok validated
    obtain ⟨found, isFound, rfl⟩ := Result.map_eq_ok checked
    apply Bool.eq_false_iff.mpr
    intro valid
    obtain ⟨bytes, rfl, sameHash⟩ := sidecar_of_fine _ (fine_of_valid _ valid)
    rw [sha256.injective sameHash] at isFound
    exact altered isFound

theorem sidecarProtected_of_checksum {reads : StoreReads}
    (checksum : ∀ manifest, reads.loadById id = .ok (some manifest) →
      manifest.stateChecksum = some (sha256.hex data)) : SidecarProtected sha256 reads id data := by
  refine ⟨checksum, ?_⟩
  intro later sameManifest altered result validated
  refine rejects_of_checksum ?_ altered validated
  intro manifest loaded
  exact checksum manifest (sameManifest ▸ loaded)

section Runs

variable {config : CheckpointConfig} {sinks : List RegisteredSink} {input : CheckpointInput}
  {coordinator final : CheckpointCoordinator Store} {environment : Environment methods.Outcomes}
  {result : CheckpointResult} {stateData : Option Bytes}

theorem saveManifest_ok {waiting : Waiting methods.Outcomes}
    (saved : saveManifest methods config manifest stateData waiting coordinator = (final, .ok ())) :
    ∃ outcomes store,
      methods.saveWithState outcomes manifest stateData coordinator.store = (store, .ok ()) ∧
      final = { coordinator with store := store } := by
  unfold saveManifest awaitTask at saved
  split at saved
  · rename_i outcomes
    split at saved
    · rename_i store written
      exact ⟨outcomes, store, written, (Prod.mk.inj saved).1.symm⟩
    · cases (Prod.mk.inj saved).2
  · cases (Prod.mk.inj saved).2
  · cases (Prod.mk.inj saved).2
  · cases (Prod.mk.inj saved).2

theorem store_commitCheckpoint :
    (commitCheckpoint methods config sinks environment manifest coordinator).1.store =
      (recordStatuses methods config environment
        (commitSinksTracked config sinks environment.commit) manifest coordinator).store := by
  unfold commitCheckpoint
  dsimp only
  split <;> rfl

theorem recordStatuses_of_noSinks (noSinks : exactlyOnceSinks sinks = []) :
    recordStatuses methods config environment
      (commitSinksTracked config sinks environment.commit) manifest coordinator = coordinator :=
  if_pos (commitSinksTracked_eq_nil_iff.mpr noSinks)

theorem checkpointInner_success
    (ran : checkpointInner methods config sinks input environment coordinator =
      (final, .ok result)) (success : result.success = true) :
    ∃ manifest stateData outcomes store,
      (∃ positions, buildManifest config sinks input environment.timestampMs positions
        coordinator = (manifest, stateData)) ∧
      exceededCap config stateData = none ∧
      methods.saveWithState outcomes manifest stateData coordinator.store = (store, .ok ()) ∧
      (exactlyOnceSinks sinks = [] → final.store = store) := by
  unfold checkpointInner at ran
  split at ran
  · rename_i early prepared
    obtain ⟨rfl, rfl⟩ := Prod.mk.inj ran
    unfold prepareManifest at prepared
    split at prepared
    · cases prepared
    · split at prepared
      · cases prepared
        cases success
      · dsimp only at prepared
        split at prepared <;> cases prepared
        cases success
  · rename_i manifest stateData prepared
    split at ran
    · cases ran
      cases success
    · rename_i saved isSaved
      obtain ⟨outcomes, store, written, rfl⟩ := saveManifest_ok isSaved
      obtain ⟨rfl, _⟩ := Prod.mk.inj ran
      unfold prepareManifest at prepared
      split at prepared
      · cases prepared
      · rename_i positions _
        split at prepared
        · cases prepared
        · dsimp only at prepared
          split at prepared
          · cases prepared
          · rename_i fits
            have built := Except.ok.inj prepared
            rw [built] at fits
            refine ⟨manifest, stateData, outcomes, store, ⟨positions, built⟩, fits, written, ?_⟩
            intro noSinks
            rw [store_commitCheckpoint, recordStatuses_of_noSinks noSinks]

/-- An environment in which the sinks answer and both writes of the store end in the same way. -/
def quietEnvironment {Outcomes : Type} (outcomes : Outcomes) : Environment Outcomes where
  timestampMs := 0
  wal := .ok []
  preCommit := ⟨fun _ => .ok (), false⟩
  persist := .returned outcomes
  commit := ⟨fun _ => .ok (), false⟩
  update := .returned outcomes
  beginNext := ⟨fun _ => .ok (), false⟩

theorem callInTurn_ok {describe : String → String → String} {others : List (RegisteredSink × Nat)} :
    callInTurn (fun _ => .ok ()) describe others = .ok () := by
  induction others with
  | nil => rfl
  | cons sink others ih => exact ih

theorem checkpointInner_quiet {outcomes : methods.Outcomes} {store : Store}
    (built : buildManifest config sinks input 0 [] coordinator = (manifest, stateData))
    (fits : exceededCap config stateData = none)
    (saved : methods.saveWithState outcomes manifest stateData coordinator.store =
      (store, .ok ())) :
    ∃ final result statuses, checkpointInner methods config sinks input
        (quietEnvironment outcomes) coordinator = (final, .ok result) ∧ result.success = true ∧
      final.store = if exactlyOnceSinks sinks = [] then store
        else (methods.updateManifest outcomes
          { manifest with sinkCommitStatuses := statuses } store).1 := by
  have preCommitted : preCommitSinks config sinks (quietEnvironment outcomes).preCommit =
      .ok () := callInTurn_ok
  have noFailure := @noneFailed_of_commits config
    (@quietEnvironment methods.Outcomes outcomes).commit sinks rfl fun _ _ => rfl
  have prepared : prepareManifest config sinks input (quietEnvironment outcomes) coordinator =
      .ok (manifest, stateData) := by
    simp only [prepareManifest, quietEnvironment] at preCommitted ⊢
    rw [preCommitted]
    simp only [built, fits]
  have persisted : saveManifest methods config manifest stateData
      (quietEnvironment outcomes).persist coordinator =
        ({ coordinator with store := store }, .ok ()) := by
    simp only [saveManifest, awaitTask, quietEnvironment, saved]
  have ran : checkpointInner methods config sinks input (quietEnvironment outcomes) coordinator =
      ((commitCheckpoint methods config sinks (quietEnvironment outcomes) manifest
          { coordinator with store := store }).1,
        .ok (commitCheckpoint methods config sinks (quietEnvironment outcomes) manifest
          { coordinator with store := store }).2) := by
    unfold checkpointInner
    rw [prepared]
    dsimp only
    rw [persisted]
  refine ⟨_, _, (commitSinksTracked config sinks (quietEnvironment outcomes).commit).entries, ran,
    ?_, ?_⟩
  · simp only [commitCheckpoint, noFailure]
    rfl
  · rw [store_commitCheckpoint]
    by_cases noSinks : exactlyOnceSinks sinks = []
    · rw [if_pos noSinks, recordStatuses_of_noSinks noSinks]
    · rw [if_neg noSinks, recordStatuses, if_neg (mt commitSinksTracked_eq_nil_iff.mp noSinks)]
      exact store_updateManifestOnly methods config _

end Runs

variable (sha256Hex : Bytes → String) {store : ObjectStore} {outcomes : Outcomes}

def unprunedFiles : FileStore.Outcomes := { FileStore.allDone with lists := false }

/-- All steps succeed, and of these objects those that are selected are removed. -/
def prunedObjects (lists : Bool) (removes : String → Bool) : Outcomes where
  state := .done
  manifest := .done
  latest := .done
  lists := lists
  removes := removes

theorem checksum_files {outcomes : FileStore.Outcomes} {sha256Hex : Bytes → String}
    {found : CheckpointManifest} {store final : FileStore}
    (saved : FileStore.saveWithState outcomes sha256Hex manifest (some data) store =
      (final, .ok ())) (loaded : final.loadById manifest.checkpointId = .ok (some found)) :
    found.stateChecksum = some (sha256Hex data) := by
  obtain ⟨-, written, holds, rfl⟩ := FileStore.saveWithState_ok saved
  obtain ⟨state, present, _⟩ := holds.present
  rw [manifest.checkpointId_withChecksum] at present
  rw [FileStore.loadById, FileStore.directory_autoPrune, present] at loaded
  by_cases removed : 0 < written.maxRetained ∧ outcomes.lists = true ∧
      manifest.checkpointId ∈ outdated written.maxRetained written.listedIds ∧
        outcomes.removes manifest.checkpointId = true
  · rw [if_pos removed] at loaded
    cases loaded
  · rw [if_neg removed] at loaded
    cases loaded
    rfl

theorem loadById_updateManifest_files {store : FileStore} :
    (FileStore.updateManifest unprunedFiles manifest store).1.loadById manifest.checkpointId =
      .ok (some manifest) := by
  have saved : FileStore.save unprunedFiles manifest store =
      ((FileStore.autoPrune unprunedFiles (FileStore.writeLatest manifest.checkpointId
        (FileStore.writeManifest manifest (FileStore.createDirectory manifest.checkpointId
          store)))).1, .ok ()) := rfl
  rw [FileStore.updateManifest, saved, FileStore.loadById, FileStore.directory_autoPrune, if_neg,
    FileStore.directory_writes]
  · rfl
  · rintro ⟨_, lists, _⟩
    cases lists

def Carries (checksum : String) (file : Option ManifestFile) : Prop :=
  ∀ manifest, file = some (.ok manifest) → manifest.stateChecksum = some checksum

/-- A manifest of the id that is not replaced, or that can show up when the new one is pruned,
has this checksum. -/
structure KeepsChecksum (store : ObjectStore) (id : U64) (checksum : String) : Prop where
  inPlace : store.conditionalPut = true → Carries checksum (store.manifests.find? (manifestName id))
  legacy : store.Retains id ∨ Carries checksum (store.legacyManifests.find? (checkpointName id))

theorem manifestName_ne_legacy : manifestName id ≠ checkpointName id ++ "/manifest.json" := by
  intro same
  have letters := congrArg (fun name => name.toList.head?) same
  rw [manifestName, checkpointName] at letters
  simp [String.toList_append] at letters

theorem find?_autoPrune :
    (autoPrune outcomes store).1.manifests.find? (manifestName id) =
        (if id ∈ store.pruned outcomes ∧ outcomes.removes (manifestName id) = true then none
        else store.manifests.find? (manifestName id)) ∧
      (autoPrune outcomes store).1.legacyManifests.find? (checkpointName id) =
        (if id ∈ store.pruned outcomes ∧
          outcomes.removes (checkpointName id ++ "/manifest.json") = true then none
        else store.legacyManifests.find? (checkpointName id)) := by
  obtain ⟨manifests, _, legacy, _⟩ := foldl_removeObjects store
  rw [autoPrune_eq, manifests, legacy]
  exact ⟨KeyedMap.find?_eraseAll manifestName_injective _,
    KeyedMap.find?_eraseAll checkpointName_injective _⟩

theorem carries_inPlace_iff {checksum : String} (own : manifest.stateChecksum = some checksum) :
    Carries checksum (some (store.inPlace manifest)) ↔
      (store.conditionalPut = true →
        Carries checksum (store.manifests.find? (manifestName manifest.checkpointId))) := by
  have ownCarries : Carries checksum (some (.ok manifest)) := by
    rintro _ ⟨⟩
    exact own
  unfold inPlace
  by_cases conditional : store.conditionalPut = true
  · rw [if_pos conditional]
    cases store.manifests.find? (manifestName manifest.checkpointId) with
    | none => exact iff_of_true ownCarries nofun
    | some file => exact ⟨fun carries _ => carries, fun carries => carries conditional⟩
  · rw [if_neg conditional]
    exact iff_of_true ownCarries fun isConditional => absurd isConditional conditional

theorem checksum_objects_iff :
    (∀ outcomes final, saveWithState outcomes sha256Hex manifest (some data) store =
        (final, .ok ()) →
      ∀ found, final.loadById manifest.checkpointId = .ok (some found) →
        found.stateChecksum = some (sha256Hex data)) ↔
      KeepsChecksum store manifest.checkpointId (sha256Hex data) := by
  have own : (manifest.withChecksum sha256Hex (some data)).stateChecksum =
      some (sha256Hex data) := rfl
  constructor
  · intro keeps
    constructor
    · apply (carries_inPlace_iff own).mp
      intro found isFound
      obtain ⟨-, written, holds, isFinal⟩ := saveWithState_ok
        (rfl : saveWithState (prunedObjects false fun _ => false) sha256Hex manifest
          (some data) store = (_, .ok ()))
      apply keeps (prunedObjects false fun _ => false) _ rfl
      apply loadById_eq_some_iff.mpr
      left
      rw [isFinal, find?_autoPrune.1, if_neg]
      · exact holds.present.trans isFound
      · exact fun removed => Bool.false_ne_true removed.2
    · by_contra neither
      obtain ⟨notRetained, notCarried⟩ := not_or.mp neither
      apply notCarried
      intro found isFound
      obtain ⟨-, written, holds, isFinal⟩ := saveWithState_ok
        (rfl : saveWithState (prunedObjects true
          fun name => name == manifestName manifest.checkpointId) sha256Hex manifest
            (some data) store = (_, .ok ()))
      apply keeps (prunedObjects true fun name => name == manifestName manifest.checkpointId) _ rfl
      apply loadById_eq_some_iff.mpr
      right
      have isPruned := (holds.mem_pruned_iff (prunedObjects true
        fun name => name == manifestName manifest.checkpointId)).mpr ⟨rfl, notRetained⟩
      rw [isFinal, find?_autoPrune.1, find?_autoPrune.2]
      constructor
      · exact if_pos ⟨isPruned, beq_self_eq_true _⟩
      · rw [if_neg, holds.legacy]
        · exact isFound
        · rintro ⟨_, removed⟩
          exact manifestName_ne_legacy (beq_iff_eq.mp removed).symm
  · rintro ⟨inPlace, legacy⟩ outcomes final saved found loaded
    obtain ⟨-, written, holds, rfl⟩ := saveWithState_ok saved
    rcases loadById_eq_some_iff.mp loaded with isFound | ⟨isRemoved, isFound⟩
    · rw [find?_autoPrune.1] at isFound
      split at isFound
      · cases isFound
      · exact (carries_inPlace_iff own).mpr inPlace found (holds.present.symm.trans isFound)
    · rw [find?_autoPrune.1] at isRemoved
      split at isRemoved
      · rename_i removed
        have notRetained := ((holds.mem_pruned_iff outcomes).mp removed.1).2
        rw [find?_autoPrune.2] at isFound
        split at isFound
        · cases isFound
        · rw [holds.legacy] at isFound
          exact legacy.resolve_left notRetained found isFound
      · have present := holds.present
        rw [manifest.checkpointId_withChecksum, isRemoved] at present
        cases present

theorem loadById_updateManifest_objects (written : outcomes.manifest = .done) :
    (updateManifest outcomes manifest store).1.loadById manifest.checkpointId =
      .ok (some manifest) := by
  rw [updateManifest, written]
  apply loadById_eq_some_iff.mpr
  left
  exact (KeyedMap.find?_insert _ _ _ _).trans (if_pos rfl)

variable (config : CheckpointConfig) (input : CheckpointInput)

def sidecar : Bytes :=
  (externalised input.operatorStates config.stateInlineThreshold).flatMap Prod.snd

/-- Every successful checkpoint that moves an operator state out of the manifest leaves its
sidecar protected. -/
def ProtectsSidecar {Store : Type} (sha256 : Sha256) (methods : StoreMethods Store)
    (config : CheckpointConfig) (sinks : List RegisteredSink) (input : CheckpointInput)
    (coordinator : CheckpointCoordinator Store) : Prop :=
  externalised input.operatorStates config.stateInlineThreshold ≠ [] →
    ∀ environment final result,
      checkpointInner methods config sinks input environment coordinator = (final, .ok result) →
      result.success = true →
        SidecarProtected sha256 (methods.reads final.store) coordinator.nextCheckpointId
          (sidecar config input)

/-- No sidecar is written: all states fit into the manifest, or together they exceed the cap. -/
def NoSidecar : Prop :=
  externalised input.operatorStates config.stateInlineThreshold = [] ∨
    ∃ cap, config.maxCheckpointBytes = some cap ∧ cap < (sidecar config input).length

section Protection

variable {config : CheckpointConfig} {sinks : List RegisteredSink} {input : CheckpointInput}
  {coordinator : CheckpointCoordinator Store}

theorem buildManifest_spec
    (moved : externalised input.operatorStates config.stateInlineThreshold ≠ [])
    (timestampMs : Nat) (positions : List Nat) :
    ∃ manifest, buildManifest config sinks input timestampMs positions coordinator =
        (manifest, some (sidecar config input)) ∧
      manifest.checkpointId = coordinator.nextCheckpointId ∧ manifest.stateChecksum = none := by
  refine ⟨_, Prod.ext rfl ?_, rfl, rfl⟩
  refine (packOperatorStates_sidecar _ _).trans ?_
  rw [if_neg moved]
  rfl

theorem exceededCap_eq_none_iff :
    exceededCap config (some data) = none ↔
      ¬∃ cap, config.maxCheckpointBytes = some cap ∧ cap < data.length := by
  simp [exceededCap, Option.filter_eq_none_iff]

theorem protectsSidecar_of_save (noSinks : exactlyOnceSinks sinks = [])
    (keeps : ∀ manifest outcomes store, manifest.checkpointId = coordinator.nextCheckpointId →
      methods.saveWithState outcomes manifest (some (sidecar config input)) coordinator.store =
        (store, .ok ()) →
      ∀ found, (methods.reads store).loadById manifest.checkpointId = .ok (some found) →
        found.stateChecksum = some (sha256.hex (sidecar config input))) :
    ProtectsSidecar sha256 methods config sinks input coordinator := by
  intro moved environment final result ran success
  obtain ⟨manifest, stateData, outcomes, store, ⟨positions, built⟩, _, saved, unchanged⟩ :=
    checkpointInner_success ran success
  obtain ⟨_, isBuilt, sameId, _⟩ := @buildManifest_spec _ config sinks input coordinator moved
    environment.timestampMs positions
  rw [built] at isBuilt
  obtain ⟨rfl, rfl⟩ := Prod.mk.inj isBuilt
  rw [unchanged noSinks]
  apply sidecarProtected_of_checksum
  intro found loaded
  rw [← sameId] at loaded
  exact keeps manifest outcomes store sameId saved found loaded

theorem save_of_protectsSidecar
    (protects : ProtectsSidecar sha256 methods config sinks input coordinator)
    (sidecarWritten : ¬NoSidecar config input) :
    ∃ manifest : CheckpointManifest, manifest.checkpointId = coordinator.nextCheckpointId ∧
      ∀ outcomes store, methods.saveWithState outcomes manifest (some (sidecar config input))
          coordinator.store = (store, .ok ()) →
        (exactlyOnceSinks sinks = [] →
          ∀ found, (methods.reads store).loadById manifest.checkpointId = .ok (some found) →
            found.stateChecksum = some (sha256.hex (sidecar config input))) ∧
        ((∀ other : CheckpointManifest,
          (methods.reads (methods.updateManifest outcomes other store).1).loadById
            other.checkpointId = .ok (some other)) → exactlyOnceSinks sinks = []) := by
  obtain ⟨moved, fits⟩ := not_or.mp sidecarWritten
  obtain ⟨manifest, built, sameId, noChecksum⟩ :=
    @buildManifest_spec _ config sinks input coordinator moved 0 []
  refine ⟨manifest, sameId, ?_⟩
  intro outcomes store saved
  obtain ⟨final, result, statuses, ran, success, isFinal⟩ :=
    checkpointInner_quiet built (exceededCap_eq_none_iff.mpr fits) saved
  have checksum := (protects moved _ final result ran success).checksum
  rw [isFinal, ← sameId] at checksum
  constructor
  · intro noSinks
    rw [if_pos noSinks] at checksum
    exact checksum
  · intro updates
    by_contra someSinks
    rw [if_neg someSinks] at checksum
    have lost := checksum _ (updates { manifest with sinkCommitStatuses := statuses })
    cases noChecksum.symm.trans lost

theorem protectsSidecar_of_noSidecar (noSidecar : NoSidecar config input) :
    ProtectsSidecar sha256 methods config sinks input coordinator := by
  intro moved environment final result ran success
  obtain ⟨manifest, stateData, _, _, ⟨positions, built⟩, fits, _⟩ :=
    checkpointInner_success ran success
  obtain ⟨_, isBuilt, _⟩ := @buildManifest_spec _ config sinks input coordinator moved
    environment.timestampMs positions
  rw [built] at isBuilt
  obtain ⟨rfl, rfl⟩ := Prod.mk.inj isBuilt
  exact absurd (noSidecar.resolve_left moved) (exceededCap_eq_none_iff.mp fits)

end Protection

/-- A sidecar is protected after every successful checkpoint exactly if none is written or no
sink takes part in two-phase commit; in an object store no other manifest of the id may stay. -/
theorem sidecarProtected_iff_noSinks (sha256 : Sha256) (config : CheckpointConfig)
    (sinks : List RegisteredSink) (input : CheckpointInput)
    (files : CheckpointCoordinator FileStore) (objects : CheckpointCoordinator ObjectStore) :
    (ProtectsSidecar sha256 (fileMethods sha256.hex) config sinks input files ↔
        NoSidecar config input ∨ exactlyOnceSinks sinks = []) ∧
      (ProtectsSidecar sha256 (objectMethods sha256.hex) config sinks input objects ↔
        NoSidecar config input ∨ exactlyOnceSinks sinks = [] ∧
          KeepsChecksum objects.store objects.nextCheckpointId
            (sha256.hex (sidecar config input))) := by
  constructor
  · constructor
    · intro protects
      by_contra neither
      obtain ⟨sidecarWritten, someSinks⟩ := not_or.mp neither
      obtain ⟨manifest, _, saves⟩ := save_of_protectsSidecar protects sidecarWritten
      exact someSinks ((saves unprunedFiles _ rfl).2 fun other => loadById_updateManifest_files)
    · rintro (noSidecar | noSinks)
      · exact protectsSidecar_of_noSidecar noSidecar
      · apply protectsSidecar_of_save noSinks
        intro manifest outcomes store _ saved found loaded
        exact checksum_files saved loaded
  · constructor
    · intro protects
      by_contra neither
      obtain ⟨sidecarWritten, notBoth⟩ := not_or.mp neither
      obtain ⟨manifest, sameId, saves⟩ := save_of_protectsSidecar protects sidecarWritten
      have noSinks := (saves (prunedObjects false fun _ => false) _ rfl).2 fun other =>
        loadById_updateManifest_objects rfl
      apply notBoth
      refine ⟨noSinks, ?_⟩
      rw [← sameId]
      apply (checksum_objects_iff sha256.hex).mp
      intro outcomes store saved
      exact (saves outcomes store saved).1 noSinks
    · rintro (noSidecar | ⟨noSinks, keeps⟩)
      · exact protectsSidecar_of_noSidecar noSidecar
      · apply protectsSidecar_of_save noSinks
        intro manifest outcomes store sameId saved
        rw [← sameId] at keeps
        exact (checksum_objects_iff sha256.hex).mpr keeps outcomes store saved

theorem ofUInt8_injective : Function.Injective Char.ofUInt8 := by
  intro first second same
  have values := congrArg (fun letter => letter.val.toNat) same
  exact UInt8.toNat_inj.mp values

def byteText : Sha256 where
  hex data := String.ofList (data.map Char.ofUInt8)
  injective := by
    intro first second same
    have letters := congrArg String.toList same
    rw [String.toList_ofList, String.toList_ofList] at letters
    exact ofUInt8_injective.list_map letters

def externalConfig : CheckpointConfig where
  preCommitTimeoutSecs := 30
  persistTimeoutSecs := 120
  commitTimeoutSecs := 60
  incremental := false
  stateInlineThreshold := 0
  maxCheckpointBytes := none

def oneState : CheckpointInput where
  operatorStates := [("sum", [7])]
  watermark := none
  tableStoreCheckpointPath := none
  extraTableOffsets := []
  sourceWatermarks := []
  pipelineHash := none
  sourceOffsetOverrides := []

def emptyFiles : CheckpointCoordinator FileStore where
  nextCheckpointId := 1
  epoch := 1
  store := ⟨3, .empty, none⟩
  background := []

/-- With one exactly-once sink the first checkpoint loses its checksum. -/
theorem sidecar_not_protected :
    ¬ProtectsSidecar byteText (fileMethods byteText.hex) externalConfig [⟨"orders", true⟩] oneState
      emptyFiles := by
  intro protects
  have sidecarWritten : ¬NoSidecar externalConfig oneState := by
    rintro (allFit | ⟨cap, isCap, _⟩)
    · cases allFit
    · cases isCap
  obtain ⟨manifest, _, saves⟩ := save_of_protectsSidecar protects sidecarWritten
  have noSinks := (saves unprunedFiles _ rfl).2 fun other => loadById_updateManifest_files
  cases noSinks

end LaminarDB.Coordinator
