import LaminarDB.Coordinator.Recovery
import LaminarDB.Storage.SavedCheckpoint

/-!
# The checkpoint that recovery chooses

Recovery takes the first candidate that passes its checks: the one that the latest pointer names,
then those that are listed, from the largest number on. Both stores list their checkpoints in
order, so that only the pointer can hide the newest usable checkpoint. A candidate is restored
before it is checked, so one that is rejected leaves no trace only if it is found corrupt or has
nothing to roll back.
-/

namespace LaminarDB.Coordinator

open Library List RecoveryManager
open Storage

namespace RecoveryManager

variable {manager : RecoveryManager}

def Intact (manager : RecoveryManager) (manifest : CheckpointManifest) : Prop :=
  (manifest.stateChecksum = none ∧ manifest.operatorStates = []) ∨
    ∃ result, validateCheckpoint manager.sha256Hex manager.store manifest.checkpointId =
      .ok result ∧ result.valid = true

def Restores (skips : RegisteredSource → Bool) (offsets : List (String × ConnectorCheckpoint))
    (sources : List RegisteredSource) : Prop :=
  ∀ source ∈ sources, skips source = false →
    ∀ checkpoint, offsets.lookup source.name = some checkpoint → source.restore checkpoint = .ok ()

/-- The checkpoint is intact, its external states resolve and it passes the strict check. -/
structure Passes (manager : RecoveryManager) (manifest : CheckpointManifest) : Prop where
  intact : manager.Intact manifest
  resolves : Resolves manager.store manifest
  sources : Restores (fun source => !source.supportsReplay) manifest.sourceOffsets manager.sources
  tables : Restores (fun _ => false) manifest.tableOffsets manager.tableSources

variable {manifest : CheckpointManifest}

theorem isCheckpointCorrupt_eq_false_iff :
    manager.isCheckpointCorrupt manifest = false ↔ manager.Intact manifest := by
  unfold isCheckpointCorrupt Intact
  by_cases nothing : manifest.stateChecksum = none ∧ manifest.operatorStates = []
  · simp [nothing]
  · have notNothing :
        ¬(manifest.stateChecksum.isNone && manifest.operatorStates.isEmpty) = true := by
      simpa using nothing
    cases validateCheckpoint manager.sha256Hex manager.store manifest.checkpointId with
    | error | ok => simp [nothing]

theorem restoreSources_eq_nil_iff (word : String) (skips : RegisteredSource → Bool)
    (offsets : List (String × ConnectorCheckpoint)) {sources : List RegisteredSource}
    (before : Nat × KeyedMap String String) :
    (restoreSources word skips offsets sources before).2.entries = [] ↔
      before.2.entries = [] ∧ Restores skips offsets sources := by
  induction sources generalizing before with
  | nil =>
    refine ⟨fun noErrors => ⟨noErrors, ?_⟩, fun both => both.1⟩
    intro source mem
    cases mem
  | cons first sources ih =>
    refine (ih _).trans ?_
    have split : Restores skips offsets (first :: sources) ↔
        (skips first = false → ∀ checkpoint, offsets.lookup first.name = some checkpoint →
          first.restore checkpoint = .ok ()) ∧ Restores skips offsets sources :=
      forall_mem_cons
    rw [split, ← and_assoc]
    apply and_congr_left
    intro _
    cases skipped : skips first with
    | true => simp [skipped]
    | false =>
      cases found : offsets.lookup first.name with
      | none => simp [skipped, found]
      | some checkpoint =>
        cases restored : first.restore checkpoint with
        | ok answer => simp [skipped, found, restored]
        | error error => simp [skipped, found, restored, KeyedMap.insert_ne_nil]

theorem hasErrors_restoreResolved_iff {resolved : CheckpointManifest} {complete : Bool} :
    (manager.restoreResolved manifest resolved complete).1.hasErrors = false ↔
      complete = true ∧
        Restores (fun source => !source.supportsReplay) manifest.sourceOffsets manager.sources ∧
          Restores (fun _ => false) manifest.tableOffsets manager.tableSources := by
  have errors : (manager.restoreResolved manifest resolved complete).1.hasErrors = false ↔
      (manager.restoreResolved manifest resolved complete).1.sourceErrors.entries = [] := by
    simp [RecoveredState.hasErrors, restoreResolved, KeyedMap.empty]
  rw [errors]
  simp only [restoreResolved, restoreSources_eq_nil_iff]
  rw [and_assoc]
  apply and_congr_left
  intro _
  cases complete with
  | true => exact iff_of_true rfl rfl
  | false => exact iff_of_false (KeyedMap.insert_ne_nil _ _) Bool.false_ne_true

variable (strict : manager.strict = true)

include strict in
theorem checkStrict_eq_ok_iff {state : RecoveredState} :
    manager.checkStrict state = .ok () ↔ state.hasErrors = false := by
  unfold checkStrict
  cases state.hasErrors with
  | false => simp
  | true =>
    rw [strict, if_neg (by decide)]
    exact iff_of_false (nofun) (nofun)

include strict in
theorem attempt_of_passes (passes : manager.Passes manifest) :
    ∃ restored, manager.restoreFrom manifest = some restored ∧
      manager.attempt manifest = some ⟨manifest, some restored.1, restored.2⟩ := by
  have intact := isCheckpointCorrupt_eq_false_iff.mpr passes.intact
  obtain ⟨resolved, isResolved⟩ := resolveExternalStates_of_resolves passes.resolves
  have noErrors := (@hasErrors_restoreResolved_iff manager manifest resolved true).mpr
    ⟨rfl, passes.sources, passes.tables⟩
  have accepted := (checkStrict_eq_ok_iff strict).mpr noErrors
  have restored : manager.restoreFrom manifest =
      some (manager.restoreResolved manifest resolved true) := by
    rw [restoreFrom, isResolved]
    rfl
  refine ⟨_, restored, ?_⟩
  simp only [attempt, intact, Bool.false_eq_true, if_false, restored, Option.map_some, accepted]

variable (manager manifest) in
/-- A candidate leaves no trace if it is found corrupt, or there is nothing to roll back. -/
def Quiet : Prop :=
  ¬manager.Intact manifest ∨ uncommittedSinks manager.sinks manifest = []

include strict in
theorem attempt_of_not_passes (fails : ¬manager.Passes manifest) (quiet : manager.Quiet manifest)
    (hasRanges : manager.Intact manifest → HasRanges manifest) :
    manager.attempt manifest = some ⟨manifest, none, []⟩ := by
  by_cases intact : manager.Intact manifest
  · have notCorrupt := isCheckpointCorrupt_eq_false_iff.mpr intact
    have nothing := quiet.resolve_left (not_not_intro intact)
    obtain ⟨⟨resolved, complete⟩, isResolved⟩ :=
      @resolveExternalStates_of_hasRanges manager.store _ (hasRanges intact)
    have rejected : ¬manager.checkStrict
        (manager.restoreResolved manifest resolved complete).1 = .ok () := by
      intro accepted
      obtain ⟨isComplete, sources, tables⟩ :=
        hasErrors_restoreResolved_iff.mp ((checkStrict_eq_ok_iff strict).mp accepted)
      exact fails ⟨intact, (resolveExternalStates_resolved isResolved).mp isComplete, sources,
        tables⟩
    have noRollbacks : (manager.restoreResolved manifest resolved complete).2 = [] := by
      simp only [restoreResolved, nothing, map_nil]
    simp only [attempt, notCorrupt, Bool.false_eq_true, if_false, restoreFrom, isResolved,
      Option.map_some]
    split
    · rename_i accepted
      exact absurd accepted rejected
    · rw [noRollbacks]
  · have corrupt := Bool.eq_true_of_not_eq_false (mt isCheckpointCorrupt_eq_false_iff.mp intact)
    rw [attempt, if_pos corrupt]

variable (manager manifest) in
structure Usable : Prop where
  loads : ∃ id, manager.store.loadById id = .ok (some manifest)
  passes : manager.Passes manifest

variable (manager manifest) in
def Newest : Prop :=
  ∀ other, manager.Usable other → other.checkpointId ≤ manifest.checkpointId

/-- A recovery gives the newest usable checkpoint, or none if there is none, and no rejected
candidate has rolled a sink back. -/
structure PicksNewest (manager : RecoveryManager)
    (run : Except String (Option RecoveredState) × List Attempt) : Prop where
  answers : ∃ found, run.1 = .ok found
  newest : ∀ state, run.1 = .ok (some state) →
    ∃ manifest rollbacks, manager.Usable manifest ∧ manager.Newest manifest ∧
      manager.restoreFrom manifest = some (state, rollbacks)
  fresh : run.1 = .ok none → ∀ manifest, ¬manager.Usable manifest
  noTrace : ∀ tried ∈ run.2, tried.restored = none → tried.rollbacks = []

theorem numbers_restoreFrom {restored : RecoveredState × List Rollback}
    (isRestored : manager.restoreFrom manifest = some restored) :
    restored.1.manifest.checkpointId = manifest.checkpointId ∧
      restored.1.manifest.epoch = manifest.epoch := by
  rw [restoreFrom, Option.map_eq_some_iff] at isRestored
  obtain ⟨resolved, isResolved, rfl⟩ := isRestored
  simp only [resolveExternalStates] at isResolved
  split at isResolved
  · split at isResolved
    · split at isResolved
      · cases isResolved
      · cases isResolved
        exact ⟨rfl, rfl⟩
    · cases isResolved
      exact ⟨rfl, rfl⟩
  · cases isResolved
    exact ⟨rfl, rfl⟩

theorem picksNewest_none (nothing : ∀ manifest, ¬manager.Usable manifest) :
    manager.PicksNewest (.ok none, []) :=
  ⟨⟨none, rfl⟩, nofun, fun _ => nothing, forall_mem_nil _⟩

theorem recover_of_missing (missing : manager.store.loadLatest = .ok none) :
    manager.recover = some (.ok none, []) := by
  simp only [recover, missing]

/-- The manifests carry the numbers under which they are stored. The latest pointer is there if a
checkpoint is usable, and does not name an older one. Newer ones that are not usable are quiet. -/
structure Orderly (manager : RecoveryManager) : Prop where
  numbered : ∀ id manifest, manager.store.loadById id = .ok (some manifest) →
    manifest.checkpointId = id
  present : ∀ manifest, manager.Usable manifest → manager.store.loadLatest ≠ .ok none
  current : ∀ manifest latest, manager.Usable manifest →
    manager.store.loadLatest = .ok (some latest) → manifest.checkpointId ≤ latest.checkpointId
  quiet : ∀ id manifest, manager.store.loadById id = .ok (some manifest) →
    ¬manager.Passes manifest →
      (∀ other, manager.Usable other → other.checkpointId < manifest.checkpointId) →
        manager.Quiet manifest ∧ (manager.Intact manifest → HasRanges manifest)

theorem map_attemptOr {α β : Type} (answer : α → β) {accept : RecoveredState → α}
    {others : Option (α × List Attempt)} :
    (manager.attemptOr manifest accept others).map (fun found => (answer found.1, found.2)) =
      manager.attemptOr manifest (fun state => answer (accept state))
        (others.map fun found => (answer found.1, found.2)) := by
  rw [attemptOr, attemptOr, Option.map_bind]
  congr 1
  funext tried
  simp only [Function.comp_apply]
  split
  · rfl
  · simp only [Option.map_map]
    rfl

variable {accept : RecoveredState → Except String (Option RecoveredState)}

include strict

theorem attemptOr_of_passes {α : Type} {accept : RecoveredState → α}
    {others : Option (α × List Attempt)} (passes : manager.Passes manifest) :
    ∃ restored, manager.restoreFrom manifest = some restored ∧
      manager.attemptOr manifest accept others =
        some (accept restored.1, [⟨manifest, some restored.1, restored.2⟩]) := by
  obtain ⟨restored, isRestored, isAttempt⟩ := attempt_of_passes strict passes
  refine ⟨restored, isRestored, ?_⟩
  rw [attemptOr, isAttempt]
  rfl

theorem recover_of_passes (loaded : manager.store.loadLatest = .ok (some manifest))
    (passes : manager.Passes manifest) :
    ∃ restored, manager.restoreFrom manifest = some restored ∧
      manager.recover =
        some (.ok (some restored.1), [⟨manifest, some restored.1, restored.2⟩]) := by
  simp only [recover, loaded]
  exact attemptOr_of_passes strict passes

variable {id : U64} {others : Option (Except String (Option RecoveredState) × List Attempt)}

theorem picksNewest_of_newest (loaded : manager.store.loadById id = .ok (some manifest))
    (passes : manager.Passes manifest) (newest : manager.Newest manifest) :
    ∃ run, manager.attemptOr manifest (fun state => .ok (some state)) others = some run ∧
      manager.PicksNewest run := by
  obtain ⟨restored, isRestored, isRun⟩ := attemptOr_of_passes strict passes
  refine ⟨_, isRun, ⟨_, rfl⟩, ?_, nofun, ?_⟩
  · intro state isState
    cases isState
    exact ⟨manifest, restored.2, ⟨⟨id, loaded⟩, passes⟩, newest, isRestored⟩
  · intro tried isTried isRejected
    rw [mem_singleton.mp isTried] at isRejected
    cases isRejected

/-- A candidate that is newer than all usable ones is passed over. -/
theorem picksNewest_of_unusable (orderly : manager.Orderly)
    (loaded : manager.store.loadById id = .ok (some manifest)) (fails : ¬manager.Passes manifest)
    (newer : ∀ other, manager.Usable other → other.checkpointId ≤ manifest.checkpointId)
    (picks : ∃ run, others = some run ∧ manager.PicksNewest run) :
    ∃ run, manager.attemptOr manifest accept others = some run ∧ manager.PicksNewest run := by
  have strictlyNewer : ∀ other, manager.Usable other →
      other.checkpointId < manifest.checkpointId := by
    intro other usable
    refine lt_of_le_of_ne (newer other usable) fun same => fails ?_
    obtain ⟨otherId, otherLoaded⟩ := usable.loads
    have sameId : otherId = id :=
      (orderly.numbered _ _ otherLoaded).symm.trans (same.trans (orderly.numbered _ _ loaded))
    rw [sameId, loaded] at otherLoaded
    cases otherLoaded
    exact usable.passes
  obtain ⟨quiet, hasRanges⟩ := orderly.quiet id manifest loaded fails strictlyNewer
  obtain ⟨run, isRun, ⟨answers, newest, fresh, noTrace⟩⟩ := picks
  refine ⟨(run.1, ⟨manifest, none, []⟩ :: run.2), ?_, answers, newest, fresh, ?_⟩
  · rw [attemptOr, attempt_of_not_passes strict fails quiet hasRanges, isRun]
    rfl
  · exact forall_mem_cons.mpr ⟨fun _ => rfl, noTrace⟩

theorem picksNewest_fallback (orderly : manager.Orderly) {ids : List U64}
    (descending : ids.Pairwise (· ≥ ·))
    (listed : ∀ manifest, manager.Usable manifest → manifest.checkpointId ∈ ids) :
    ∃ run, (manager.fallback ids).map (fun found => (.ok found.1, found.2)) = some run ∧
      manager.PicksNewest run := by
  induction ids with
  | nil => exact ⟨_, rfl, picksNewest_none fun manifest usable => nomatch listed manifest usable⟩
  | cons id ids ih =>
    obtain ⟨isLargest, descending⟩ := pairwise_cons.mp descending
    -- what is usable is listed behind a number that does not load a usable manifest
    have behind : (∀ manifest, manager.store.loadById id = .ok (some manifest) →
        ¬manager.Passes manifest) →
        ∀ manifest, manager.Usable manifest → manifest.checkpointId ∈ ids := by
      intro unusable manifest usable
      refine (mem_cons.mp (listed manifest usable)).resolve_left fun isFirst => ?_
      obtain ⟨other, loaded⟩ := usable.loads
      rw [← orderly.numbered _ _ loaded, isFirst] at loaded
      exact unusable manifest loaded usable.passes
    rw [fallback]
    split
    · rename_i manifest loaded
      have numbered := orderly.numbered _ _ loaded
      have newer : manager.Newest manifest := by
        intro other usable
        rcases mem_cons.mp (listed other usable) with same | later
        · exact (same.trans numbered.symm).le
        · exact numbered ▸ isLargest _ later
      rw [map_attemptOr]
      by_cases passes : manager.Passes manifest
      · exact picksNewest_of_newest strict loaded passes newer
      · refine picksNewest_of_unusable strict orderly loaded passes newer (ih descending ?_)
        refine behind fun other otherLoaded => ?_
        rw [loaded] at otherLoaded
        cases otherLoaded
        exact passes
    · rename_i notLoaded
      exact ih descending (behind fun manifest loaded => absurd loaded (notLoaded manifest))

end RecoveryManager

/-- The list holds the numbers of all manifests that load, in order. -/
def ListsInOrder (store : StoreReads) : Prop :=
  ∃ entries, store.list = .ok entries ∧ (entries.map Prod.fst).Pairwise (· ≤ ·) ∧
    ∀ id manifest, store.loadById id = .ok (some manifest) → id ∈ entries.map Prod.fst

theorem listsInOrder_of_sorted {store : StoreReads} {ids : List U64}
    (numbered : ∀ id manifest, store.loadById id = .ok (some manifest) →
      manifest.checkpointId = id)
    (listed : store.list = .ok ((ids.insertionSort (· ≤ ·)).filterMap fun id =>
      match store.loadById id with
      | .ok (some manifest) => some (manifest.checkpointId, manifest.epoch)
      | _ => none))
    (complete : ∀ id manifest, store.loadById id = .ok (some manifest) → id ∈ ids) :
    ListsInOrder store := by
  refine ⟨_, listed, ?_, ?_⟩
  · rw [pairwise_map, pairwise_filterMap]
    refine (pairwise_insertionSort (· ≤ ·) ids).imp fun {id later} ordered first isFirst second
      isSecond => ?_
    split at isFirst
    · rename_i firstManifest firstLoaded
      split at isSecond
      · rename_i secondManifest secondLoaded
        cases isFirst
        cases isSecond
        rw [numbered _ _ firstLoaded, numbered _ _ secondLoaded]
        exact ordered
      · cases isSecond
    · cases isFirst
  · intro id manifest loaded
    refine mem_map.mpr ⟨(manifest.checkpointId, manifest.epoch), mem_filterMap.mpr
      ⟨id, (mem_insertionSort _).mpr (complete id manifest loaded), ?_⟩,
      numbered id manifest loaded⟩
    rw [loaded]

theorem listsInOrder_files {files : FileStore}
    (numbered : ∀ id manifest, files.loadById id = .ok (some manifest) →
      manifest.checkpointId = id) : ListsInOrder files.reads := by
  refine @listsInOrder_of_sorted files.reads _ numbered rfl fun id manifest loaded => ?_
  cases found : files.directory id with
  | none => simp [FileStore.reads, FileStore.loadById, found] at loaded
  | some directory =>
    exact mem_filterMap.mpr ⟨checkpointName id, mem_map.mpr ⟨_, KeyedMap.mem_of_find? found, rfl⟩,
      parseCheckpointId_checkpointName id⟩

theorem listsInOrder_objects {objects : ObjectStore}
    (numbered : ∀ id manifest, objects.loadById id = .ok (some manifest) →
      manifest.checkpointId = id) : ListsInOrder objects.reads := by
  refine @listsInOrder_of_sorted objects.reads _ numbered rfl fun id manifest loaded => ?_
  rw [ObjectStore.mem_listedIds_iff]
  rcases ObjectStore.loadById_eq_some_iff.mp loaded with found | ⟨_, found⟩
  · exact .inl ⟨manifestName id, mem_map.mpr ⟨_, KeyedMap.mem_of_find? found, rfl⟩,
      parseManifestName_manifestName id⟩
  · exact .inr ⟨checkpointName id, mem_map.mpr ⟨_, KeyedMap.mem_of_find? found, rfl⟩,
      parseCheckpointId_checkpointName id⟩

/-- What either store reads. -/
def storeReads : FileStore ⊕ ObjectStore → StoreReads :=
  Sum.elim FileStore.reads ObjectStore.reads

theorem listsInOrder (store : FileStore ⊕ ObjectStore)
    (numbered : ∀ id manifest, (storeReads store).loadById id = .ok (some manifest) →
      manifest.checkpointId = id) : ListsInOrder (storeReads store) := by
  cases store with
  | inl files => exact listsInOrder_files numbered
  | inr objects => exact listsInOrder_objects numbered

/-- The latest checkpoint is one that can also be loaded by its number. -/
theorem loadById_of_loadLatest {store : FileStore ⊕ ObjectStore} {latest : CheckpointManifest}
    (loaded : (storeReads store).loadLatest = .ok (some latest)) :
    ∃ id, (storeReads store).loadById id = .ok (some latest) := by
  cases store with
  | inl files =>
    simp only [storeReads, Sum.elim_inl, FileStore.reads, FileStore.loadLatest] at loaded ⊢
    grind
  | inr objects =>
    simp only [storeReads, Sum.elim_inr, ObjectStore.reads, ObjectStore.loadLatest] at loaded ⊢
    grind

def RecoversNewest (manager : RecoveryManager) : Prop :=
  ∃ run, manager.recover = some run ∧ manager.PicksNewest run

/-- A manifest with an external state and no checksum, of which a sink has not committed. -/
def externalManifest : CheckpointManifest :=
  { CheckpointManifest.new 2 2 2000 with
    sinkCommitStatuses := [("orders", .pending)]
    operatorStates := [("sum", .externalAt 0 1)] }

def oneSinkManager (store : FileStore) : RecoveryManager :=
  .new (fun _ => "") store.reads [] [⟨"orders", true⟩] []

def earlierManifest : CheckpointManifest :=
  { externalManifest with checkpointId := 1, epoch := 1 }

def laterManifest : CheckpointManifest :=
  { externalManifest with stateChecksum := some "7f" }

/-- The sidecar of the second checkpoint is lost. -/
def strippedFiles : FileStore where
  maxRetained := 3
  directories := (KeyedMap.empty.insert (checkpointName 1) ⟨some (.ok earlierManifest), some [7]⟩)
    |>.insert (checkpointName 2) ⟨some (.ok laterManifest), none⟩
  latest := some (.ok (checkpointName 2))

theorem loadById_strippedFiles {id : U64} {manifest : CheckpointManifest}
    (loaded : strippedFiles.loadById id = .ok (some manifest)) :
    id = 1 ∧ manifest = earlierManifest ∨ id = 2 ∧ manifest = laterManifest := by
  simp only [strippedFiles, FileStore.loadById, FileStore.directory, KeyedMap.find?_insert,
    KeyedMap.find?_empty, checkpointName_injective.eq_iff] at loaded
  split at loaded
  · cases loaded
  · rename_i file isFile
    split at isFile
    · cases isFile
      cases loaded
      exact .inr ⟨by assumption, rfl⟩
    · split at isFile
      · cases isFile
        cases loaded
        exact .inl ⟨by assumption, rfl⟩
      · cases isFile

/-- The first checkpoint was saved, and the process crashed before it wrote `latest.txt`. -/
def unpointedFiles : FileStore where
  maxRetained := 3
  directories := KeyedMap.empty.insert (checkpointName 1) ⟨some (.ok (.new 1 1 1000)), none⟩
  latest := none

def unresolvedFiles : FileStore where
  maxRetained := 3
  directories := KeyedMap.empty.insert (checkpointName 2) ⟨some (.ok externalManifest), none⟩
  latest := some (.ok (checkpointName 2))

/-- The end of the external state is beyond `u64`. -/
def overflowingFiles : FileStore where
  maxRetained := 3
  directories := KeyedMap.empty.insert (checkpointName 2)
    ⟨some (.ok { externalManifest with operatorStates := [("sum", .externalAt (2 ^ 64 - 1) 2)] }),
      some [7]⟩
  latest := some (.ok (checkpointName 2))

end LaminarDB.Coordinator
