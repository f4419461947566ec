import LaminarDB.Library.Maps
import LaminarDB.Library.Retention
import LaminarDB.Library.Text
import LaminarDB.Storage.Manifest

/-!
# Checkpoint stores

`FileSystemCheckpointStore` and `ObjectStoreCheckpointStore` with what they have stored:
`save`, `save_with_state`, `update_manifest`, `prune` and what recovery reads.

A write of a file or an object takes effect as a whole or not at all. A step that reports an
error may have taken effect, as when a directory is not synced after a renaming. A manifest
file is held as what reading it gives.
-/

namespace LaminarDB.Storage

open Library Text

/-- `CheckpointStoreError`. -/
inductive StoreError where
  | io (text : String)
  | serde (text : String)
  | notFound (id : U64)
  | objectStore (text : String)
deriving DecidableEq

def StoreError.text : StoreError → String
  | .io text => "checkpoint I/O error: " ++ text
  | .serde text => "checkpoint serialization error: " ++ text
  | .notFound id => "checkpoint " ++ toString id.val ++ " not found"
  | .objectStore text => "object store error: " ++ text

abbrev ManifestFile := Except StoreError CheckpointManifest

inductive Outcome where
  | done
  | failed (error : StoreError) (tookEffect : Bool)
deriving DecidableEq

def Outcome.hasEffect : Outcome → Bool
  | .done => true
  | .failed _ tookEffect => tookEffect

abbrev Step (Store : Type) := Store → Store × Except StoreError Unit

namespace Step

variable {Store : Type}

def attempt (outcome : Outcome) (change : Store → Store) : Step Store := fun store =>
  match outcome with
  | .done => (change store, .ok ())
  | .failed error tookEffect => (if tookEffect then change store else store, .error error)

def andThen (first second : Step Store) : Step Store := fun store =>
  match first store with
  | (next, .ok ()) => second next
  | (next, .error error) => (next, .error error)

theorem attempt_ok {outcome : Outcome} {change : Store → Store} {store next : Store}
    (succeeded : attempt outcome change store = (next, .ok ())) :
    outcome = .done ∧ next = change store := by
  cases outcome with
  | done => exact ⟨rfl, (Prod.mk.inj succeeded).1.symm⟩
  | failed error tookEffect => cases (Prod.mk.inj succeeded).2

theorem andThen_ok {first second : Step Store} {store next : Store}
    (succeeded : andThen first second store = (next, .ok ())) :
    ∃ middle, first store = (middle, .ok ()) ∧ second middle = (next, .ok ()) := by
  unfold andThen at succeeded
  split at succeeded
  · exact ⟨_, by assumption, succeeded⟩
  · cases (Prod.mk.inj succeeded).2

end Step

/-- What recovery reads of a `CheckpointStore`. -/
structure StoreReads where
  loadLatest : Except StoreError (Option CheckpointManifest)
  loadById : U64 → Except StoreError (Option CheckpointManifest)
  list : Except StoreError (List (U64 × U64))
  loadStateData : U64 → Except StoreError (Option Bytes)

structure ValidationResult where
  checkpointId : U64
  valid : Bool
  issues : List String
deriving DecidableEq

variable (sha256Hex : Bytes → String)

def sidecarIssues (expected : String) : Option Bytes → List String
  | some data =>
    if sha256Hex data = expected then []
    else ["state.bin checksum mismatch: expected " ++ expected ++ ", got " ++ sha256Hex data]
  | none => ["state.bin referenced by checksum but not found"]

def checkSidecar (store : StoreReads) (id : U64) :
    Option String → Except StoreError (List String)
  | none => .ok []
  | some expected => (store.loadStateData id).map (sidecarIssues sha256Hex expected)

variable (id : U64) {width : Nat}

/-- The result for a manifest that was loaded, with the issues of its sidecar. -/
def validateLoaded (manifest : CheckpointManifest) (sidecar : List String) : ValidationResult :=
  let issues := (manifest.validate.map fun error => "manifest validation: " ++ error) ++ sidecar
  if manifest.epoch = 0 ∨ manifest.checkpointId = 0 then
    ⟨id, false, issues ++ ["epoch or checkpoint_id is 0 — likely corrupted"]⟩
  else ⟨id, issues.all fun issue => startsWith "manifest validation:" issue, issues⟩

def validateCheckpoint (store : StoreReads) (id : U64) : Except StoreError ValidationResult :=
  match store.loadById id with
  | .error (.serde error) => .ok ⟨id, false, ["corrupt manifest: " ++ error]⟩
  | .error error => .error error
  | .ok none => .ok ⟨id, false, ["manifest not found for checkpoint " ++ toString id.val]⟩
  | .ok (some manifest) =>
    (checkSidecar sha256Hex store id manifest.stateChecksum).map (validateLoaded id manifest)

theorem startsWith_validation (error : String) :
    startsWith "manifest validation:" ("manifest validation: " ++ error) = true := by
  have split : "manifest validation: " ++ error = "manifest validation:" ++ (" " ++ error) := by
    rfl
  rw [split]
  exact startsWith_append

theorem fine_of_valid {manifest : CheckpointManifest} {sidecar : List String}
    (valid : (validateLoaded id manifest sidecar).valid = true) :
    ∀ issue ∈ sidecar, startsWith "manifest validation:" issue = true := by
  unfold validateLoaded at valid
  split at valid
  · cases valid
  · simpa only [List.all_append, Bool.and_eq_true, List.all_map, List.all_eq_true,
      Function.comp_apply, startsWith_validation, implies_true, true_and] using valid

theorem sidecar_of_fine {expected : String} {data : Option Bytes}
    (fine : ∀ issue ∈ sidecarIssues sha256Hex expected data,
      startsWith "manifest validation:" issue = true) :
    ∃ bytes, data = some bytes ∧ sha256Hex bytes = expected := by
  cases data with
  | none => exact absurd (fine _ List.mem_cons_self) (by decide)
  | some bytes =>
    refine ⟨bytes, rfl, ?_⟩
    by_contra different
    rw [sidecarIssues, if_neg different] at fine
    have wrong := fine _ List.mem_cons_self
    simp [startsWith, String.toList_append] at wrong

/-- A directory `checkpoint_…` with its two files. -/
structure CheckpointDirectory where
  manifest : Option ManifestFile
  state : Option Bytes

/-- `FileSystemCheckpointStore` and its directory `checkpoints`. -/
structure FileStore where
  maxRetained : Nat
  directories : KeyedMap String CheckpointDirectory
  /-- `latest.txt`, as reading it gives. -/
  latest : Option (Except StoreError String)

/-- The name `checkpoint_000042`. -/
def checkpointName : String :=
  "checkpoint_" ++ String.ofList (digits 6 id.val)

def parseU64 (text : String) : Option U64 :=
  (parseUnsigned (2 ^ 64) text.toList).map (Fin.ofNat (2 ^ 64))

def parseCheckpointId (name : String) : Option U64 :=
  (stripFront "checkpoint_" name).bind parseU64

theorem parseU64_digits : parseU64 (String.ofList (digits width id.val)) = some id := by
  rw [parseU64, String.toList_ofList, parseUnsigned_digits id.isLt, Option.map_some]
  congr 1
  exact Fin.ofNat_val_eq_self id

theorem parseCheckpointId_checkpointName : parseCheckpointId (checkpointName id) = some id := by
  rw [parseCheckpointId, checkpointName, stripFront_append, Option.bind_some, parseU64_digits]

theorem injective_of_parse {name : U64 → String} {parse : String → Option U64}
    (parsed : ∀ id, parse (name id) = some id) : Function.Injective name := by
  intro first second same
  rw [← Option.some.injEq, ← parsed, same, parsed]

theorem checkpointName_injective : Function.Injective checkpointName :=
  injective_of_parse parseCheckpointId_checkpointName

theorem trim_checkpointName : trim (checkpointName id) = checkpointName id := by
  apply trim_of_not_blank
  intro letter mem
  rw [checkpointName, String.toList_append, List.mem_append] at mem
  rcases mem with inFront | inDigits
  · have noBlanks : ("checkpoint_".toList.all fun letter => !letter.isWhitespace) = true := by
      decide
    simpa using List.all_eq_true.mp noBlanks letter inFront
  · rw [String.toList_ofList] at inDigits
    exact not_blank_of_isDigit (isDigit_of_mem_digits inDigits)

theorem checkpointName_ne_empty : checkpointName id ≠ "" := by
  intro isEmpty
  have letters := congrArg String.toList isEmpty
  rw [checkpointName, String.toList_append] at letters
  cases letters

namespace FileStore

variable (store : FileStore)

section

variable (id : U64)

/-- `checkpoint_dir(id)`. -/
def directory : Option CheckpointDirectory :=
  store.directories.find? (checkpointName id)

def setDirectory (directory : CheckpointDirectory) (store : FileStore) : FileStore :=
  { store with directories := store.directories.insert (checkpointName id) directory }

/-- `create_dir_all`. -/
def createDirectory (store : FileStore) : FileStore :=
  store.setDirectory id ((store.directory id).getD ⟨none, none⟩)

def writeManifest (manifest : CheckpointManifest) (store : FileStore) : FileStore :=
  store.setDirectory manifest.checkpointId
    { (store.directory manifest.checkpointId).getD ⟨none, none⟩ with
      manifest := some (.ok manifest) }

def writeState (data : Bytes) (store : FileStore) : FileStore :=
  store.setDirectory id { (store.directory id).getD ⟨none, none⟩ with state := some data }

def writeLatest (store : FileStore) : FileStore :=
  { store with latest := some (.ok (checkpointName id)) }

def listedIds : List U64 := store.directories.keys.filterMap parseCheckpointId

def sortedCheckpointIds : List U64 :=
  store.listedIds.insertionSort (· ≤ ·)

/-- `remove_dir_all`. -/
def removeDirectory : FileStore :=
  { store with directories := store.directories.erase (checkpointName id) }

end

/-- What happens in the steps of `save_with_state`; the removals that succeed. -/
structure Outcomes where
  stateDirectory : Outcome
  state : Outcome
  directory : Outcome
  manifest : Outcome
  latest : Outcome
  lists : Bool
  removes : U64 → Bool

variable (outcomes : Outcomes)

/-- `prune`; its errors and its count are only logged by `save`. -/
def prune (keepCount : Nat) (store : FileStore) : FileStore :=
  if outcomes.lists then
    ((outdated keepCount store.listedIds).filter outcomes.removes).foldl removeDirectory store
  else store

def autoPrune : Step FileStore := fun store =>
  (if 0 < store.maxRetained then store.prune outcomes store.maxRetained else store, .ok ())

def save (manifest : CheckpointManifest) : Step FileStore :=
  (Step.attempt outcomes.directory (createDirectory manifest.checkpointId)).andThen
    ((Step.attempt outcomes.manifest (writeManifest manifest)).andThen
      ((Step.attempt outcomes.latest (writeLatest manifest.checkpointId)).andThen
        (autoPrune outcomes)))

def saveStateData (id : U64) (data : Bytes) : Step FileStore :=
  (Step.attempt outcomes.stateDirectory (createDirectory id)).andThen
    (Step.attempt outcomes.state (writeState id data))

/-- `update_manifest`, which is `save` for files. -/
def updateManifest (manifest : CheckpointManifest) : Step FileStore :=
  save outcomes manifest

def loadById (id : U64) : Except StoreError (Option CheckpointManifest) :=
  match (store.directory id).bind CheckpointDirectory.manifest with
  | none => .ok none
  | some file => file.map some

def loadLatest : Except StoreError (Option CheckpointManifest) :=
  match store.latest with
  | none => .ok none
  | some (.error error) => .error error
  | some (.ok content) =>
    if trim content = "" then .ok none
    else
      match parseCheckpointId (trim content) with
      | some id => store.loadById id
      | none => .ok none

def loadStateData (id : U64) : Except StoreError (Option Bytes) :=
  .ok ((store.directory id).bind CheckpointDirectory.state)

/-- `list`: the numbers in the manifests that can be loaded. -/
def list : Except StoreError (List (U64 × U64)) :=
  .ok (store.sortedCheckpointIds.filterMap fun id =>
    match store.loadById id with
    | .ok (some manifest) => some (manifest.checkpointId, manifest.epoch)
    | _ => none)

def reads : StoreReads where
  loadLatest := store.loadLatest
  loadById := store.loadById
  list := store.list
  loadStateData := store.loadStateData

end FileStore

def CheckpointManifest.withChecksum (manifest : CheckpointManifest) :
    Option Bytes → CheckpointManifest
  | none => manifest
  | some data => { manifest with stateChecksum := some (sha256Hex data) }

theorem CheckpointManifest.checkpointId_withChecksum
    (manifest : CheckpointManifest) (stateData : Option Bytes) :
    (manifest.withChecksum sha256Hex stateData).checkpointId = manifest.checkpointId := by
  cases stateData <;> rfl

/-- `save_with_state`, the same for both stores: the sidecar first, then the manifest. -/
def saveWithState {Store : Type} (saveStateData : U64 → Bytes → Step Store)
    (save : CheckpointManifest → Step Store) (sha256Hex : Bytes → String)
    (manifest : CheckpointManifest) (stateData : Option Bytes) : Step Store :=
  match stateData with
  | none => save manifest
  | some data =>
    (saveStateData manifest.checkpointId data).andThen
      (save (manifest.withChecksum sha256Hex (some data)))

def FileStore.saveWithState (outcomes : Outcomes) (sha256Hex : Bytes → String)
    (manifest : CheckpointManifest) (stateData : Option Bytes) : Step FileStore :=
  Storage.saveWithState (FileStore.saveStateData outcomes) (FileStore.save outcomes) sha256Hex
    manifest stateData

namespace FileStore

/-- Whether `save_with_state` puts its manifest in place. -/
def writesManifest (outcomes : Outcomes) (stateData : Option Bytes) : Bool :=
  (stateData.isNone || outcomes.stateDirectory == .done && outcomes.state == .done) &&
    (outcomes.directory == .done && outcomes.manifest.hasEffect)

end FileStore

/-- `ObjectStoreCheckpointStore` and its objects, by the last parts of their paths; the
objects of the old layout by the names of their directories. -/
structure ObjectStore where
  maxRetained : Nat
  conditionalPut : Bool
  manifests : KeyedMap String ManifestFile
  states : KeyedMap String Bytes
  legacyManifests : KeyedMap String ManifestFile
  legacyStates : KeyedMap String Bytes
  /-- The number in `latest.json`, as reading it gives. -/
  latest : Option (Except StoreError U64)
  legacyLatest : Option String

/-- The name `manifest-000042.json`. -/
def manifestName : String :=
  "manifest-" ++ (String.ofList (digits 6 id.val) ++ ".json")

/-- The name `state-000042.bin`. -/
def stateName : String :=
  "state-" ++ (String.ofList (digits 6 id.val) ++ ".bin")

def parseBetween (front back name : String) : Option U64 :=
  (stripFront front name).bind fun rest => (stripBack back rest).bind parseU64

def parseManifestName (name : String) : Option U64 := parseBetween "manifest-" ".json" name

theorem parseBetween_digits (back : String) {front : String} (id : U64) :
    parseBetween front back (front ++ (String.ofList (digits width id.val) ++ back)) = some id := by
  rw [parseBetween, stripFront_append, Option.bind_some, stripBack_append,
    Option.bind_some, parseU64_digits]

theorem parseManifestName_manifestName : parseManifestName (manifestName id) = some id :=
  parseBetween_digits ".json" id

theorem manifestName_injective : Function.Injective manifestName :=
  injective_of_parse parseManifestName_manifestName

theorem stateName_injective : Function.Injective stateName :=
  injective_of_parse fun id => parseBetween_digits ".bin" id

attribute [irreducible] checkpointName manifestName stateName parseCheckpointId parseManifestName

namespace ObjectStore

structure Outcomes where
  state : Outcome
  manifest : Outcome
  latest : Outcome
  lists : Bool
  removes : String → Bool

variable (store : ObjectStore)

/-- `list_checkpoint_ids`, from a set. -/
def listedIds : List U64 :=
  (store.manifests.keys.filterMap parseManifestName ++
    store.legacyManifests.keys.filterMap parseCheckpointId).dedup

/-- The put of a manifest with `PutMode::Create`: an existing object is kept, unless the
backend knows no such mode. -/
def createManifest (manifest : CheckpointManifest) (store : ObjectStore) : ObjectStore :=
  if store.conditionalPut ∧ (store.manifests.find? (manifestName manifest.checkpointId)).isSome
  then store
  else { store with
    manifests := store.manifests.insert (manifestName manifest.checkpointId) (.ok manifest) }

def overwriteManifest (manifest : CheckpointManifest) (store : ObjectStore) : ObjectStore :=
  { store with
    manifests := store.manifests.insert (manifestName manifest.checkpointId) (.ok manifest) }

def writeState (id : U64) (data : Bytes) (store : ObjectStore) : ObjectStore :=
  { store with states := store.states.insert (stateName id) data }

def writeLatest (id : U64) (store : ObjectStore) : ObjectStore :=
  { store with latest := some (.ok id) }

/-- The deletions of one id in both layouts; those that fail are ignored. -/
def removeObjects (removes : String → Bool) (store : ObjectStore) (id : U64) : ObjectStore :=
  { store with
    manifests := if removes (manifestName id) then store.manifests.erase (manifestName id)
      else store.manifests
    states := if removes (stateName id) then store.states.erase (stateName id)
      else store.states
    legacyManifests := if removes (checkpointName id ++ "/manifest.json") then
      store.legacyManifests.erase (checkpointName id) else store.legacyManifests
    legacyStates := if removes (checkpointName id ++ "/state.bin") then
      store.legacyStates.erase (checkpointName id) else store.legacyStates }

variable (outcomes : Outcomes)

def prune (keepCount : Nat) (store : ObjectStore) : ObjectStore :=
  if outcomes.lists then
    (outdated keepCount store.listedIds).foldl (removeObjects outcomes.removes) store
  else store

def autoPrune : Step ObjectStore := fun store =>
  (if 0 < store.maxRetained then store.prune outcomes store.maxRetained else store, .ok ())

section

variable (manifest : CheckpointManifest)

def save : Step ObjectStore :=
  (Step.attempt outcomes.manifest (createManifest manifest)).andThen
    ((Step.attempt outcomes.latest (writeLatest manifest.checkpointId)).andThen
      (autoPrune outcomes))

def saveStateData (id : U64) (data : Bytes) : Step ObjectStore :=
  Step.attempt outcomes.state (writeState id data)

/-- `update_manifest`, which overwrites. -/
def updateManifest : Step ObjectStore :=
  Step.attempt outcomes.manifest (overwriteManifest manifest)

def saveWithState (sha256Hex : Bytes → String)
    (manifest : CheckpointManifest) (stateData : Option Bytes) : Step ObjectStore :=
  Storage.saveWithState (saveStateData outcomes) (save outcomes) sha256Hex manifest stateData

def writesManifest (stateData : Option Bytes) (store : ObjectStore) : Bool :=
  (stateData.isNone || outcomes.state == .done) && (outcomes.manifest.hasEffect &&
    !(store.conditionalPut && (store.manifests.find? (manifestName manifest.checkpointId)).isSome))

end

/-- `load_by_id`: the new layout, then the old one. -/
def loadById (id : U64) : Except StoreError (Option CheckpointManifest) :=
  match store.manifests.find? (manifestName id) with
  | some file => file.map some
  | none =>
    match store.legacyManifests.find? (checkpointName id) with
    | some file => file.map some
    | none => .ok none

def loadLatest : Except StoreError (Option CheckpointManifest) :=
  match store.latest with
  | some (.error error) => .error error
  | some (.ok id) => store.loadById id
  | none =>
    match store.legacyLatest with
    | none => .ok none
    | some content =>
      if trim content = "" then .ok none
      else
        match parseCheckpointId (trim content) with
        | some id => store.loadById id
        | none => .ok none

def loadStateData (id : U64) : Except StoreError (Option Bytes) :=
  .ok ((store.states.find? (stateName id)).or (store.legacyStates.find? (checkpointName id)))

def list : Except StoreError (List (U64 × U64)) :=
  .ok ((store.listedIds.insertionSort (· ≤ ·)).filterMap fun id =>
    match store.loadById id with
    | .ok (some manifest) => some (manifest.checkpointId, manifest.epoch)
    | _ => none)

def reads : StoreReads where
  loadLatest := store.loadLatest
  loadById := store.loadById
  list := store.list
  loadStateData := store.loadStateData

end ObjectStore

end LaminarDB.Storage
