import LaminarDB.Library.Result
import LaminarDB.Storage.CheckpointStore

/-!
# What a successful save leaves

A save writes a manifest and points at it, then prunes the smallest ids, its own included, and an
object store does not replace a manifest that exists.
-/

namespace LaminarDB.Storage

open Library List KeyedMap Step

/-- A store gives back a manifest as the latest one and by its id, and its sidecar. -/
structure ReadsBack (reads : StoreReads) (manifest : CheckpointManifest)
    (stateData : Option Bytes) : Prop where
  latest : reads.loadLatest = .ok (some manifest)
  byId : reads.loadById manifest.checkpointId = .ok (some manifest)
  state : ∀ data, stateData = some data →
    reads.loadStateData manifest.checkpointId = .ok (some data)

variable {stateData : Option Bytes} {sha256Hex : Bytes → String} {outcomes : Outcomes}
  {ids : List U64}

namespace FileStore

variable {store : FileStore} {id other : U64} (directory : CheckpointDirectory)

theorem directory_setDirectory :
    (store.setDirectory id directory).directory other =
      if other = id then some directory else store.directory other := by
  rw [FileStore.directory, setDirectory, find?_insert]
  simp only [checkpointName_injective.eq_iff]
  rfl

def othersOf (id : U64) (store : FileStore) : List U64 :=
  (store.directories.keys.filter (· != checkpointName id)).filterMap parseCheckpointId

theorem keys_upsert_filter {key : String} {directory : CheckpointDirectory}
    {entries : List (String × CheckpointDirectory)} :
    ((upsert key directory entries).map Prod.fst).filter (· != key) =
      (entries.map Prod.fst).filter (· != key) := by
  induction entries with
  | nil => simp [upsert]
  | cons entry entries ih =>
    by_cases same : entry.1 = key
    · simp [upsert, same]
    · rw [upsert, if_neg same, map_cons, map_cons, filter_cons, filter_cons, ih]

theorem othersOf_setDirectory : (store.setDirectory id directory).othersOf id = store.othersOf id :=
  congrArg (filterMap parseCheckpointId) keys_upsert_filter

theorem listedIds_perm (present : (store.directory id).isSome) :
    store.listedIds.Perm (id :: store.othersOf id) := by
  obtain ⟨directory, found⟩ := Option.isSome_iff_exists.mp present
  have known : checkpointName id ∈ store.directories.keys :=
    mem_map.mpr ⟨_, mem_of_find? found, rfl⟩
  have unique : store.directories.keys.Nodup := store.directories.unique
  have split := perm_cons_erase known
  rw [unique.erase_eq_filter] at split
  have parsed := split.filterMap parseCheckpointId
  rw [filterMap_cons_some (parseCheckpointId_checkpointName id)] at parsed
  exact parsed

theorem foldl_removeDirectory :
    ids.foldl removeDirectory store = { store with
      directories := eraseAll checkpointName (fun _ => true) ids store.directories } := by
  induction ids generalizing store with
  | nil => rfl
  | cons first ids ih => exact ih

theorem directory_autoPrune (outcomes : Outcomes) :
    (autoPrune outcomes store).1.directory id =
      if 0 < store.maxRetained ∧ outcomes.lists = true ∧
        id ∈ outdated store.maxRetained store.listedIds ∧ outcomes.removes id = true then none
      else store.directory id := by
  unfold autoPrune prune
  by_cases retains : 0 < store.maxRetained
  · by_cases lists : outcomes.lists = true
    · simp [retains, lists, foldl_removeDirectory, directory,
        find?_eraseAll checkpointName_injective]
    · simp [retains, lists]
  · simp [retains]

theorem latest_autoPrune : (autoPrune outcomes store).1.latest = store.latest := by
  unfold autoPrune prune
  split
  · split
    · rw [foldl_removeDirectory]
    · rfl
  · rfl

variable (manifest : CheckpointManifest)

/-- The store before `save` prunes it. -/
structure Holds (stateData : Option Bytes) (before store : FileStore) : Prop where
  present : ∃ state, store.directory manifest.checkpointId = some ⟨some (.ok manifest), state⟩ ∧
    ∀ data, stateData = some data → state = some data
  latest : store.latest = some (.ok (checkpointName manifest.checkpointId))
  others : store.othersOf manifest.checkpointId = before.othersOf manifest.checkpointId
  maxRetained : store.maxRetained = before.maxRetained

variable (store : FileStore)

theorem othersOf_writes :
    (writeLatest manifest.checkpointId (writeManifest manifest
      (createDirectory manifest.checkpointId store))).othersOf manifest.checkpointId =
        store.othersOf manifest.checkpointId := by
  change (writeManifest manifest (createDirectory manifest.checkpointId store)).othersOf _ = _
  rw [writeManifest, othersOf_setDirectory, createDirectory, othersOf_setDirectory]

theorem directory_writes :
    (writeLatest manifest.checkpointId (writeManifest manifest
      (createDirectory manifest.checkpointId store))).directory manifest.checkpointId =
        some ⟨some (.ok manifest),
          (store.directory manifest.checkpointId).bind CheckpointDirectory.state⟩ := by
  change (writeManifest manifest (createDirectory manifest.checkpointId store)).directory _ = _
  rw [writeManifest, directory_setDirectory, if_pos rfl, createDirectory, directory_setDirectory,
    if_pos rfl, Option.getD_some]
  cases store.directory manifest.checkpointId <;> rfl

variable {manifest : CheckpointManifest} {store final : FileStore}

theorem save_ok (saved : save outcomes manifest store = (final, .ok ())) :
    (outcomes.directory = .done ∧ outcomes.manifest = .done) ∧
      final = (autoPrune outcomes (writeLatest manifest.checkpointId (writeManifest manifest
        (createDirectory manifest.checkpointId store)))).1 := by
  obtain ⟨created, isCreated, saved⟩ := andThen_ok saved
  obtain ⟨written, isWritten, saved⟩ := andThen_ok saved
  obtain ⟨pointed, isPointed, saved⟩ := andThen_ok saved
  obtain ⟨creates, rfl⟩ := attempt_ok isCreated
  obtain ⟨writes, rfl⟩ := attempt_ok isWritten
  obtain ⟨-, rfl⟩ := attempt_ok isPointed
  exact ⟨⟨creates, writes⟩, (Prod.mk.inj saved).1.symm⟩

theorem saveWithState_ok
    (saved : saveWithState outcomes sha256Hex manifest stateData store = (final, .ok ())) :
    writesManifest outcomes stateData = true ∧
      ∃ written, Holds (manifest.withChecksum sha256Hex stateData) stateData store written ∧
        final = (autoPrune outcomes written).1 := by
  cases stateData with
  | none =>
    obtain ⟨done, isFinal⟩ := save_ok saved
    refine ⟨by simp [writesManifest, done, Outcome.hasEffect], _, ⟨⟨_, directory_writes manifest
      store, ?_⟩, rfl, othersOf_writes manifest store, rfl⟩, isFinal⟩
    intro data given
    cases given
  | some data =>
    obtain ⟨withState, isState, saved⟩ := andThen_ok saved
    obtain ⟨created, isCreated, isState⟩ := andThen_ok isState
    obtain ⟨creates, rfl⟩ := attempt_ok isCreated
    obtain ⟨writes, rfl⟩ := attempt_ok isState
    obtain ⟨done, isFinal⟩ := save_ok saved
    have sameId := manifest.checkpointId_withChecksum sha256Hex (some data)
    refine ⟨by simp [writesManifest, creates, writes, done, Outcome.hasEffect], _, ⟨⟨_,
      directory_writes (manifest.withChecksum sha256Hex (some data)) (writeState
        manifest.checkpointId data (createDirectory manifest.checkpointId store)), ?_⟩, rfl, ?_,
      rfl⟩, isFinal⟩
    · intro other given
      rw [sameId, writeState, directory_setDirectory, if_pos rfl, Option.bind_some, given]
    · rw [othersOf_writes, sameId, writeState, othersOf_setDirectory, createDirectory,
        othersOf_setDirectory]

theorem readsBack_of_directory {state : Option Bytes}
    (latest : store.latest = some (.ok (checkpointName manifest.checkpointId)))
    (present : store.directory manifest.checkpointId = some ⟨some (.ok manifest), state⟩)
    (isState : ∀ data, stateData = some data → state = some data) :
    ReadsBack store.reads manifest stateData := by
  have byId : store.loadById manifest.checkpointId = .ok (some manifest) := by
    rw [loadById, present]
    rfl
  refine ⟨?_, byId, ?_⟩
  · change store.loadLatest = _
    rw [loadLatest, latest]
    simp only [trim_checkpointName, checkpointName_ne_empty, if_false,
      parseCheckpointId_checkpointName]
    exact byId
  · intro data given
    change store.loadStateData _ = _
    rw [loadStateData, present, Option.bind_some, isState data given]

/-- Among the directories of larger or equal ids there is room for one more. -/
def Retains (store : FileStore) (id : U64) : Prop :=
  store.maxRetained = 0 ∨
    ((store.othersOf id).filter fun other => decide (id ≤ other)).length < store.maxRetained

theorem Holds.outdated_iff {before : FileStore} (holds : Holds manifest stateData before store) :
    manifest.checkpointId ∈ outdated store.maxRetained store.listedIds ↔
      before.maxRetained ≤ ((before.othersOf manifest.checkpointId).filter fun other =>
        decide (manifest.checkpointId ≤ other)).length := by
  obtain ⟨state, present, _⟩ := holds.present
  have listed := listedIds_perm (Option.isSome_iff_exists.mpr ⟨_, present⟩)
  have member := listed.mem_iff.mpr mem_cons_self
  rw [mem_outdated_iff member, (listed.filter _).length_eq, filter_cons_of_pos (by simp),
    length_cons, holds.others, holds.maxRetained, Nat.lt_succ_iff]

variable (sha256Hex : Bytes → String)

def KeepsSaved (store : FileStore) (manifest : CheckpointManifest)
    (stateData : Option Bytes) : Prop :=
  ∀ outcomes final, saveWithState outcomes sha256Hex manifest stateData store = (final, .ok ()) →
    ReadsBack final.reads (manifest.withChecksum sha256Hex stateData) stateData

def allDone : Outcomes where
  stateDirectory := .done
  state := .done
  directory := .done
  manifest := .done
  latest := .done
  lists := true
  removes _ := true

theorem saveWithState_allDone (manifest : CheckpointManifest)
    (stateData : Option Bytes) (store : FileStore) :
    ∃ final, saveWithState allDone sha256Hex manifest stateData store = (final, .ok ()) := by
  cases stateData <;> exact ⟨_, rfl⟩

theorem keepsSaved_iff (manifest : CheckpointManifest) (stateData : Option Bytes) :
    KeepsSaved sha256Hex store manifest stateData ↔ store.Retains manifest.checkpointId := by
  have sameId := manifest.checkpointId_withChecksum sha256Hex stateData
  constructor
  · intro keeps
    obtain ⟨final, saved⟩ := saveWithState_allDone sha256Hex manifest stateData store
    have byId := (keeps allDone final saved).byId
    obtain ⟨-, written, holds, rfl⟩ := saveWithState_ok saved
    by_contra notRetained
    rw [Retains, not_or, not_lt] at notRetained
    have isOutdated := holds.outdated_iff.mpr (by rw [sameId]; exact notRetained.2)
    have positive : 0 < written.maxRetained := by
      rw [holds.maxRetained]
      exact Nat.pos_of_ne_zero notRetained.1
    have removed := @directory_autoPrune written
      (manifest.withChecksum sha256Hex stateData).checkpointId allDone
    rw [if_pos ⟨positive, rfl, isOutdated, rfl⟩] at removed
    change loadById _ _ = _ at byId
    rw [loadById, removed] at byId
    cases byId
  · intro retains outcomes final saved
    obtain ⟨-, written, holds, rfl⟩ := saveWithState_ok saved
    obtain ⟨state, present, isState⟩ := holds.present
    apply readsBack_of_directory (latest_autoPrune.trans holds.latest) _ isState
    rw [directory_autoPrune, if_neg]
    · exact present
    · rintro ⟨positive, _, isOutdated, _⟩
      have tooMany := holds.outdated_iff.mp isOutdated
      rw [holds.maxRetained] at positive
      rw [sameId] at tooMany
      rcases retains with isZero | room <;> omega

end FileStore

namespace ObjectStore

variable {store : ObjectStore} {id : U64}

theorem loadById_eq_some_iff {found : CheckpointManifest} :
    store.loadById id = .ok (some found) ↔
      store.manifests.find? (manifestName id) = some (.ok found) ∨
        store.manifests.find? (manifestName id) = none ∧
          store.legacyManifests.find? (checkpointName id) = some (.ok found) := by
  unfold loadById
  cases store.manifests.find? (manifestName id) with
  | some file => cases file <;> simp [Except.map]
  | none =>
    cases store.legacyManifests.find? (checkpointName id) with
    | some file => cases file <;> simp [Except.map]
    | none => simp

theorem mem_listedIds_iff :
    id ∈ store.listedIds ↔
      (∃ name ∈ store.manifests.keys, parseManifestName name = some id) ∨
        ∃ name ∈ store.legacyManifests.keys, parseCheckpointId name = some id := by
  rw [listedIds, mem_dedup, mem_append, mem_filterMap, mem_filterMap]

theorem nodup_listedIds : store.listedIds.Nodup :=
  nodup_dedup _

variable {manifest : CheckpointManifest}

theorem mem_listedIds_overwriteManifest :
    id ∈ (overwriteManifest manifest store).listedIds ↔
      id = manifest.checkpointId ∨ id ∈ store.listedIds := by
  rw [mem_listedIds_iff, mem_listedIds_iff, ← or_assoc]
  apply or_congr_left
  constructor
  · rintro ⟨name, known, parsed⟩
    rcases mem_keys_upsert.mp known with rfl | old
    · left
      rw [parseManifestName_manifestName] at parsed
      exact (Option.some.inj parsed).symm
    · exact .inr ⟨name, old, parsed⟩
  · rintro (rfl | ⟨name, old, parsed⟩)
    · exact ⟨_, mem_keys_upsert.mpr (.inl rfl), parseManifestName_manifestName _⟩
    · exact ⟨name, mem_keys_upsert.mpr (.inr old), parsed⟩

theorem mem_listedIds_of_find? (present : (store.manifests.find? (manifestName id)).isSome) :
    id ∈ store.listedIds := by
  obtain ⟨file, found⟩ := Option.isSome_iff_exists.mp present
  exact mem_listedIds_iff.mpr (.inl ⟨_, mem_map.mpr ⟨_, mem_of_find? found, rfl⟩,
    parseManifestName_manifestName id⟩)

variable (store manifest) in
def inPlace : ManifestFile :=
  if store.conditionalPut then
    (store.manifests.find? (manifestName manifest.checkpointId)).getD (.ok manifest)
  else .ok manifest

theorem createManifest_spec :
    let after := createManifest manifest store
    after.manifests.find? (manifestName manifest.checkpointId) = some (store.inPlace manifest) ∧
      (∀ other, other ∈ after.listedIds ↔ other = manifest.checkpointId ∨ other ∈ store.listedIds) ∧
      after.states = store.states ∧ after.legacyManifests = store.legacyManifests ∧
      after.maxRetained = store.maxRetained := by
  unfold createManifest
  split
  · rename_i kept
    obtain ⟨conditional, present⟩ := kept
    obtain ⟨file, found⟩ := Option.isSome_iff_exists.mp present
    refine ⟨?_, ?_, rfl, rfl, rfl⟩
    · rw [inPlace, if_pos conditional, found, Option.getD_some]
    · intro other
      constructor
      · exact .inr
      · rintro (rfl | known)
        · exact mem_listedIds_of_find? present
        · exact known
  · rename_i replaced
    refine ⟨?_, fun other => mem_listedIds_overwriteManifest, rfl, rfl, rfl⟩
    rw [find?_insert, if_pos rfl, inPlace]
    by_cases conditional : store.conditionalPut = true
    · have missing :=
        Option.not_isSome_iff_eq_none.mp fun present => replaced ⟨conditional, present⟩
      rw [if_pos conditional, missing, Option.getD_none]
    · rw [if_neg conditional]

theorem foldl_removeObjects {removes : String → Bool} (store : ObjectStore) :
    let after := ids.foldl (removeObjects removes) store
    after.manifests =
        eraseAll manifestName (fun id => removes (manifestName id)) ids store.manifests ∧
      after.states = eraseAll stateName (fun id => removes (stateName id)) ids store.states ∧
      after.legacyManifests =
        eraseAll checkpointName
          (fun id => removes (checkpointName id ++ "/manifest.json")) ids store.legacyManifests ∧
      after.latest = store.latest := by
  induction ids generalizing store with
  | nil => exact ⟨rfl, rfl, rfl, rfl⟩
  | cons first ids ih => exact ih (removeObjects removes store first)

def pruned (outcomes : Outcomes) (store : ObjectStore) : List U64 :=
  if 0 < store.maxRetained ∧ outcomes.lists = true then outdated store.maxRetained store.listedIds
  else []

theorem autoPrune_eq :
    (autoPrune outcomes store).1 =
      (store.pruned outcomes).foldl (removeObjects outcomes.removes) store := by
  unfold autoPrune prune pruned
  by_cases retains : 0 < store.maxRetained
  · by_cases lists : outcomes.lists = true <;> simp [retains, lists]
  · simp [retains]

/-- The store before `save` prunes it. -/
structure Holds (manifest : CheckpointManifest) (stateData : Option Bytes)
    (before store : ObjectStore) : Prop where
  present : store.manifests.find? (manifestName manifest.checkpointId) =
    some (before.inPlace manifest)
  state : ∀ data, stateData = some data →
    store.states.find? (stateName manifest.checkpointId) = some data
  latest : store.latest = some (.ok manifest.checkpointId)
  listed : ∀ other, other ∈ store.listedIds ↔
    other = manifest.checkpointId ∨ other ∈ before.listedIds
  legacy : store.legacyManifests = before.legacyManifests
  maxRetained : store.maxRetained = before.maxRetained

variable {store final : ObjectStore}

theorem save_ok (saved : save outcomes manifest store = (final, .ok ())) :
    outcomes.manifest = .done ∧ final = (autoPrune outcomes
      (writeLatest manifest.checkpointId (createManifest manifest store))).1 := by
  obtain ⟨written, isWritten, saved⟩ := andThen_ok saved
  obtain ⟨pointed, isPointed, saved⟩ := andThen_ok saved
  obtain ⟨writes, rfl⟩ := attempt_ok isWritten
  obtain ⟨-, rfl⟩ := attempt_ok isPointed
  exact ⟨writes, (Prod.mk.inj saved).1.symm⟩

theorem saveWithState_ok
    (saved : saveWithState outcomes sha256Hex manifest stateData store = (final, .ok ())) :
    writesManifest outcomes manifest stateData store = !(store.conditionalPut &&
        (store.manifests.find? (manifestName manifest.checkpointId)).isSome) ∧
      ∃ written, Holds (manifest.withChecksum sha256Hex stateData) stateData store written ∧
        final = (autoPrune outcomes written).1 := by
  cases stateData with
  | none =>
    obtain ⟨present, listed, _, legacy, maxRetained⟩ := createManifest_spec
    obtain ⟨done, isFinal⟩ := save_ok saved
    refine ⟨by simp [writesManifest, done, Outcome.hasEffect], _, ?_, isFinal⟩
    refine ⟨present, ?_, rfl, listed, legacy, maxRetained⟩
    intro data given
    cases given
  | some data =>
    obtain ⟨withState, isState, saved⟩ := andThen_ok saved
    obtain ⟨writes, rfl⟩ := attempt_ok isState
    obtain ⟨present, listed, states, legacy, maxRetained⟩ := createManifest_spec
    obtain ⟨done, isFinal⟩ := save_ok saved
    refine ⟨by simp [writesManifest, writes, done, Outcome.hasEffect], _, ?_, isFinal⟩
    refine ⟨present, ?_, rfl, listed, legacy, maxRetained⟩
    intro other given
    change (createManifest _ _).states.find? _ = _
    rw [states, manifest.checkpointId_withChecksum, writeState, find?_insert, if_pos rfl, given]

def Retains (store : ObjectStore) (id : U64) : Prop :=
  store.maxRetained = 0 ∨
    (store.listedIds.filter fun other => decide (id < other)).length < store.maxRetained

variable (store manifest) in
/-- No other manifest stands in the place of this one, or it is replaced. -/
def Replaces : Prop :=
  store.conditionalPut = false ∨
    store.manifests.find? (manifestName manifest.checkpointId) = none ∨
      store.manifests.find? (manifestName manifest.checkpointId) = some (.ok manifest)

theorem inPlace_eq_ok_iff : store.inPlace manifest = .ok manifest ↔ store.Replaces manifest := by
  unfold inPlace Replaces
  cases store.conditionalPut with
  | false => simp
  | true =>
    cases store.manifests.find? (manifestName manifest.checkpointId) with
    | none | some => simp

variable {before : ObjectStore}

theorem Holds.outdated_iff (holds : Holds manifest stateData before store) :
    manifest.checkpointId ∈ outdated store.maxRetained store.listedIds ↔
      before.maxRetained ≤ (before.listedIds.filter fun other =>
        decide (manifest.checkpointId < other)).length := by
  have member := (holds.listed _).mpr (.inl rfl)
  have permuted : (store.listedIds.filter fun other =>
      decide (manifest.checkpointId ≤ other)).Perm
        (manifest.checkpointId :: before.listedIds.filter fun other =>
          decide (manifest.checkpointId < other)) := by
    apply (perm_ext_iff_of_nodup (nodup_listedIds.filter _) _).mpr
    · intro other
      simp only [mem_filter, mem_cons, decide_eq_true_eq, holds.listed]
      constructor
      · rintro ⟨isId | known, atLeast⟩
        · exact .inl isId
        · rcases atLeast.eq_or_lt with same | above
          · exact .inl same.symm
          · exact .inr ⟨known, above⟩
      · rintro (rfl | ⟨known, above⟩)
        · exact ⟨.inl rfl, le_rfl⟩
        · exact ⟨.inr known, above.le⟩
    · refine nodup_cons.mpr ⟨?_, nodup_listedIds.filter _⟩
      simp
  rw [mem_outdated_iff member, permuted.length_eq, length_cons, holds.maxRetained, Nat.lt_succ_iff]

theorem Holds.mem_pruned_iff (holds : Holds manifest stateData before store) (outcomes : Outcomes) :
    manifest.checkpointId ∈ store.pruned outcomes ↔
      outcomes.lists = true ∧ ¬before.Retains manifest.checkpointId := by
  rw [Retains, not_or, not_lt, ← holds.outdated_iff, ← holds.maxRetained]
  unfold pruned
  by_cases prunes : 0 < store.maxRetained ∧ outcomes.lists = true
  · rw [if_pos prunes]
    constructor
    · exact fun isOutdated => ⟨prunes.2, prunes.1.ne', isOutdated⟩
    · exact fun both => both.2.2
  · rw [if_neg prunes]
    constructor
    · intro mem
      cases mem
    · rintro ⟨lists, positive, _⟩
      exact absurd ⟨Nat.pos_of_ne_zero positive, lists⟩ prunes

variable (sha256Hex : Bytes → String)

def KeepsSaved (store : ObjectStore) (manifest : CheckpointManifest)
    (stateData : Option Bytes) : Prop :=
  ∀ outcomes final, saveWithState outcomes sha256Hex manifest stateData store = (final, .ok ()) →
    ReadsBack final.reads (manifest.withChecksum sha256Hex stateData) stateData

def allDone : Outcomes where
  state := .done
  manifest := .done
  latest := .done
  lists := true
  removes _ := true

theorem saveWithState_allDone (manifest : CheckpointManifest)
    (stateData : Option Bytes) (store : ObjectStore) :
    ∃ final, saveWithState allDone sha256Hex manifest stateData store = (final, .ok ()) := by
  cases stateData <;> exact ⟨_, rfl⟩

variable {written : ObjectStore}

theorem loadById_pruned (isPruned : id ∈ written.pruned allDone) :
    (autoPrune allDone written).1.loadById id = .ok none := by
  obtain ⟨manifests, _, legacy, _⟩ := foldl_removeObjects written
  rw [autoPrune_eq, loadById, manifests, legacy,
    find?_eraseAll manifestName_injective, if_pos ⟨isPruned, rfl⟩]
  rw [find?_eraseAll checkpointName_injective, if_pos ⟨isPruned, rfl⟩]

theorem find?_not_pruned (notPruned : id ∉ written.pruned outcomes) :
    (autoPrune outcomes written).1.manifests.find? (manifestName id) =
        written.manifests.find? (manifestName id) ∧
      (autoPrune outcomes written).1.states.find? (stateName id) =
        written.states.find? (stateName id) ∧
      (autoPrune outcomes written).1.latest = written.latest := by
  obtain ⟨manifests, states, _, latest⟩ := foldl_removeObjects written
  rw [autoPrune_eq, manifests, states, latest, find?_eraseAll manifestName_injective,
    find?_eraseAll stateName_injective, if_neg fun both => notPruned both.1,
    if_neg fun both => notPruned both.1]
  exact ⟨rfl, rfl, rfl⟩

theorem keepsSaved_iff (store : ObjectStore)
    (manifest : CheckpointManifest) (stateData : Option Bytes) :
    KeepsSaved sha256Hex store manifest stateData ↔
      store.Retains manifest.checkpointId ∧
        store.Replaces (manifest.withChecksum sha256Hex stateData) := by
  rw [← manifest.checkpointId_withChecksum sha256Hex stateData]
  constructor
  · intro keeps
    obtain ⟨final, saved⟩ := saveWithState_allDone sha256Hex manifest stateData store
    have byId : final.loadById _ = _ := (keeps allDone final saved).byId
    obtain ⟨-, written, holds, rfl⟩ := saveWithState_ok saved
    have notPruned : (manifest.withChecksum sha256Hex stateData).checkpointId ∉
        written.pruned allDone := by
      intro isPruned
      rw [loadById_pruned isPruned] at byId
      cases byId
    constructor
    · by_contra notRetained
      exact notPruned ((holds.mem_pruned_iff allDone).mpr ⟨rfl, notRetained⟩)
    · apply inPlace_eq_ok_iff.mp
      rw [loadById, (find?_not_pruned notPruned).1, holds.present] at byId
      obtain ⟨loaded, isLoaded, same⟩ := Result.map_eq_ok byId
      rw [isLoaded, Option.some.inj same]
  · rintro ⟨retains, replaces⟩ outcomes final saved
    obtain ⟨-, written, holds, rfl⟩ := saveWithState_ok saved
    have notPruned : (manifest.withChecksum sha256Hex stateData).checkpointId ∉
        written.pruned outcomes := by
      intro isPruned
      exact ((holds.mem_pruned_iff outcomes).mp isPruned).2 retains
    obtain ⟨manifests, states, latest⟩ := find?_not_pruned notPruned
    have byId : (autoPrune outcomes written).1.loadById
        (manifest.withChecksum sha256Hex stateData).checkpointId =
          .ok (some (manifest.withChecksum sha256Hex stateData)) := by
      rw [loadById, manifests, holds.present, inPlace_eq_ok_iff.mpr replaces]
      rfl
    refine ⟨?_, byId, ?_⟩
    · change loadLatest _ = _
      rw [loadLatest, latest, holds.latest]
      exact byId
    · intro data given
      change loadStateData _ _ = _
      rw [loadStateData, states, holds.state data given]
      rfl

end ObjectStore

/-- A successful save is read back exactly if the ids at least as large leave room for it, and
an object store holds no other manifest of the id that it does not replace. -/
theorem saved_iff_kept (sha256Hex : Bytes → String) (files : FileStore) (objects : ObjectStore)
    (manifest : CheckpointManifest) (stateData : Option Bytes) :
    (files.KeepsSaved sha256Hex manifest stateData ↔ files.Retains manifest.checkpointId) ∧
      (objects.KeepsSaved sha256Hex manifest stateData ↔
        objects.Retains manifest.checkpointId ∧
          objects.Replaces (manifest.withChecksum sha256Hex stateData)) :=
  ⟨files.keepsSaved_iff sha256Hex manifest stateData,
    objects.keepsSaved_iff sha256Hex manifest stateData⟩

def corruptDirectory : CheckpointDirectory where
  manifest := some (.error (.serde "EOF while parsing a value"))
  state := none

def corruptFiles : FileStore where
  maxRetained := 2
  directories := (empty.insert (checkpointName 5) corruptDirectory).insert
    (checkpointName 6) corruptDirectory
  latest := some (.ok (checkpointName 6))

def retriedObjects : ObjectStore where
  maxRetained := 3
  conditionalPut := true
  manifests := empty.insert (manifestName 3) (.ok (.new 3 3 1000))
  states := .empty
  legacyManifests := .empty
  legacyStates := .empty
  latest := some (.ok 3)
  legacyLatest := none

/-- Checkpoint 4 is saved and pruned at once; the second save of checkpoint 3 is skipped. -/
theorem saved_not_kept :
    ¬corruptFiles.KeepsSaved (fun _ => "") (.new 4 4 2000) none ∧
      ¬retriedObjects.KeepsSaved (fun _ => "") (.new 3 3 2000) none := by
  constructor
  · intro keeps
    have byId := (keeps FileStore.allDone _ rfl).byId
    revert byId
    decide +kernel
  · intro keeps
    have byId := (keeps ObjectStore.allDone _ rfl).byId
    revert byId
    decide +kernel

end LaminarDB.Storage
