import LaminarDB.Library.Changes
import LaminarDB.Storage.WriteAheadLog

/-!
# Recovery from incremental checkpoints

`RecoveryManager::recover` loads the newest checkpoint that `IncrementalCheckpointManager` finds
in its directory and replays the write-ahead log from the position of that checkpoint.
-/

namespace LaminarDB.Storage.Incremental

open Library List WriteAheadLog
open Library.FramedLog KeyedMap

structure IncrementalCheckpointMetadata where
  id : Nat
  epoch : Nat
  walPosition : Nat
  sourceOffsets : KeyedMap String Nat
  watermark : Option Int

structure StateSnapshot where
  data : List (Bytes × Bytes)

inductive IncrementalCheckpointError where
  | deserialization (message : String)
  | notFound (message : String)
  /-- The error of the log stands for its text. -/
  | wal (error : WalError)

/-- How the files of a checkpoint are read: `serde_json` and `rkyv`. -/
structure CheckpointFormat where
  fromJson : Bytes → Except String IncrementalCheckpointMetadata
  fromBytes : Bytes → Except String StateSnapshot

/-- The files `metadata.json` and `state.bin` of a directory, as far as they exist. -/
structure CheckpointFiles where
  metadata : Option Bytes
  state : Option Bytes

/-- The directories of the checkpoints by their ids, in the order in which they are listed. -/
abbrev Directory := KeyedMap Nat CheckpointFiles

/-- One directory of `scan_checkpoints`: the greatest id, and the greatest one with metadata. -/
def scanDirectory (found : Nat × Option Nat) (entry : Nat × CheckpointFiles) : Nat × Option Nat :=
  (if found.1 ≤ entry.1 then entry.1 else found.1,
    if entry.2.metadata.isSome && found.2.all (· ≤ entry.1) then some entry.1 else found.2)

def scanCheckpoints (directory : Directory) : Nat × Option Nat :=
  let found := directory.entries.foldl scanDirectory (0, none)
  (found.1 + 1, found.2)

variable (format : CheckpointFormat) (directory : Directory)

def loadCheckpointMetadata (id : Nat) :
    Except IncrementalCheckpointError (Option IncrementalCheckpointMetadata) :=
  match (directory.find? id).bind CheckpointFiles.metadata with
  | none => .ok none
  | some json => ((format.fromJson json).mapError .deserialization).map some

def findLatestCheckpoint :
    Except IncrementalCheckpointError (Option IncrementalCheckpointMetadata) :=
  match (scanCheckpoints directory).2 with
  | none => .ok none
  | some id => loadCheckpointMetadata format directory id

def loadCheckpointState (id : Nat) : Except IncrementalCheckpointError Bytes :=
  match (directory.find? id).bind CheckpointFiles.state with
  | none => .error (.notFound ("State file not found for checkpoint " ++ toString id))
  | some state => .ok state

structure RecoveryConfig where
  repairWal : Bool
  collectStateChanges : Bool
  maxWalEntries : Nat

structure RecoveredState where
  epoch : Nat
  stateSnapshot : Option StateSnapshot
  walPosition : Nat
  walEntriesReplayed : Nat
  sourceOffsets : KeyedMap String Nat
  watermark : Option Int
  checkpointId : Option Nat
  stateChanges : List (Change Bytes Bytes)

def RecoveredState.empty : RecoveredState := ⟨0, none, 0, 0, .empty, none, none, []⟩

/-- `load_checkpoint`: a snapshot that cannot be read is left out. -/
def loadCheckpoint (checkpoint : IncrementalCheckpointMetadata) : RecoveredState :=
  { RecoveredState.empty with
    checkpointId := some checkpoint.id
    epoch := checkpoint.epoch
    walPosition := checkpoint.walPosition
    sourceOffsets := checkpoint.sourceOffsets
    watermark := checkpoint.watermark
    stateSnapshot :=
      match loadCheckpointState directory checkpoint.id with
      | .ok state => (format.fromBytes state).toOption
      | .error _ => none }

structure WalReplayResult where
  entriesReplayed : Nat
  finalPosition : Nat
  sourceOffsets : KeyedMap String Nat
  watermark : Option Int
  stateChanges : List (Change Bytes Bytes)

open WalReplayResult

namespace WalReplayResult

variable (config : RecoveryConfig)

def collect (change : Change Bytes Bytes) (result : WalReplayResult) : WalReplayResult :=
  if config.collectStateChanges then
    { result with stateChanges := result.stateChanges ++ [change] }
  else result

/-- An entry is replayed, and the reader is then at the position. -/
def add (entry : WalEntry) (position : Nat) (result : WalReplayResult) : WalReplayResult :=
  let counted := { result with
    finalPosition := position
    entriesReplayed := result.entriesReplayed + 1 }
  match entry with
  | .put key value => counted.collect config (key, some value)
  | .delete key => counted.collect config (key, none)
  | .commit offsets watermark =>
    { counted with
      sourceOffsets := counted.sourceOffsets.insertAll offsets
      watermark := watermark.or counted.watermark }
  | .checkpoint _ => counted

end WalReplayResult

/-- The loop of `replay_wal`. -/
def replayEntries (wal : WalEntryFormat) (config : RecoveryConfig) (maxEntries : Nat)
    (reader : WalReader) (result : WalReplayResult) :
    Except IncrementalCheckpointError WalReplayResult :=
  if maxEntries ≤ result.entriesReplayed then .ok result
  else
    match _found : reader.readNext wal with
    | .error error => .error (.wal error)
    | .ok (.entry entry, next) =>
      replayEntries wal config maxEntries next (result.add config entry next.position)
    | .ok (_, _) => .ok result
termination_by reader.file.length - reader.position
decreasing_by
  obtain ⟨data, isRead, _, sameFile⟩ := (WalReader.of_readNext _found).2 entry rfl
  have advanced := read_record_advances isRead
  rw [sameFile]
  omega

/-- `replay_wal`. A repair that fails is only reported. -/
def replayWal (wal : WalEntryFormat) (config : RecoveryConfig) (file : Bytes) (start : Nat) :
    Except IncrementalCheckpointError WalReplayResult :=
  let opened := new file
  let log := if config.repairWal then
      match opened.repair wal with
      | .ok (repaired, _) => repaired
      | .error _ => opened.sync
    else opened
  let maxEntries := if 0 < config.maxWalEntries then config.maxWalEntries else 2 ^ 64 - 1
  replayEntries wal config maxEntries (log.readFrom start) ⟨0, start, .empty, none, []⟩

def RecoveredState.add (config : RecoveryConfig) (replayed : WalReplayResult)
    (result : RecoveredState) : RecoveredState :=
  { result with
    walEntriesReplayed := replayed.entriesReplayed
    walPosition := replayed.finalPosition
    sourceOffsets := result.sourceOffsets.insertAll replayed.sourceOffsets.entries
    watermark := replayed.watermark.or result.watermark
    stateChanges :=
      if config.collectStateChanges then replayed.stateChanges else result.stateChanges }

variable (format : CheckpointFormat) (wal : WalEntryFormat)
  (config : RecoveryConfig) (directory : Directory)

/-- `recover`, with the file of the log if it exists. -/
def recover (file : Option Bytes) :
    Except IncrementalCheckpointError RecoveredState := do
  let found ← findLatestCheckpoint format directory
  let result := (found.map (loadCheckpoint format directory)).getD .empty
  match file with
  | none => .ok result
  | some file => .ok (result.add config (← replayWal wal config file result.walPosition))

variable (entries : List WalEntry)

def changesOf : List (Change Bytes Bytes) :=
  entries.filterMap fun
    | .put key value => some (key, some value)
    | .delete key => some (key, none)
    | _ => none

def folded : KeyedMap Bytes Bytes :=
  empty.applyChanges (changesOf entries)

def StateSnapshot.state (snapshot : StateSnapshot) : KeyedMap Bytes Bytes :=
  empty.insertAll snapshot.data

def RecoveredState.state (recovered : RecoveredState) : KeyedMap Bytes Bytes :=
  ((recovered.stateSnapshot.map StateSnapshot.state).getD .empty).applyChanges
    recovered.stateChanges

variable (history : List WalEntry)

/-- The log goes on behind the position with what follows the snapshot in the history. What
stands before the position need not be the front of the history. -/
def Continues (position : Nat) (snapshot : StateSnapshot) : Prop :=
  ∃ front before after, entries = front ++ after ∧ history = before ++ after ∧
    position = (wal.records front).length ∧
      ∀ key, snapshot.state.find? key = (folded before).find? key

/-- Both files of the checkpoint can be read, and what they say is right. -/
def CheckpointFiles.Intact (files : CheckpointFiles) (id : Nat) : Prop :=
  ∃ json metadata state snapshot, files.metadata = some json ∧
    format.fromJson json = .ok metadata ∧ metadata.id = id ∧ files.state = some state ∧
      format.fromBytes state = .ok snapshot ∧
        Continues wal entries history metadata.walPosition snapshot

/-- The recovery succeeds with the state of the whole history, and no checkpoint goes without its
snapshot. -/
def FallsBack : Prop :=
  ∃ recovered, recover format wal config directory (some (wal.records entries)) = .ok recovered ∧
    (∀ key, recovered.state.find? key = (folded history).find? key) ∧
      (recovered.checkpointId.isSome → recovered.stateSnapshot.isSome)

def Newest (id : Nat) (files : CheckpointFiles) : Prop :=
  directory.find? id = some files ∧ files.metadata.isSome ∧
    ∀ other files', directory.find? other = some files' → files'.metadata.isSome → other ≤ id

section

variable {format : CheckpointFormat} {wal : WalEntryFormat} {config : RecoveryConfig}
  {directory : Directory} {entries history : List WalEntry}

theorem scanDirectory_foldl {list : List (Nat × CheckpointFiles)} :
    (∀ id, (list.foldl scanDirectory (0, none)).2 = some id →
      ∃ entry ∈ list, entry.1 = id ∧ entry.2.metadata.isSome) ∧
    ∀ entry ∈ list, entry.2.metadata.isSome →
      ∃ latest, (list.foldl scanDirectory (0, none)).2 = some latest ∧ entry.1 ≤ latest := by
  induction list using List.reverseRecOn with
  | nil => exact ⟨nofun, nofun⟩
  | append_singleton list entry ih =>
    obtain ⟨occurs, greatest⟩ := ih
    rw [foldl_concat]
    generalize list.foldl scanDirectory (0, none) = found at occurs greatest ⊢
    simp only [mem_append, mem_singleton, scanDirectory]
    split
    · next taken =>
      obtain ⟨hasMetadata, above⟩ := Bool.and_eq_true_iff.mp taken
      refine ⟨fun id isId => ⟨entry, .inr rfl, Option.some.inj isId, hasMetadata⟩, ?_⟩
      rintro other (among | rfl) others
      · obtain ⟨latest, isLatest, below⟩ := greatest other among others
        rw [isLatest] at above
        exact ⟨entry.1, rfl, below.trans (of_decide_eq_true above)⟩
      · exact ⟨other.1, rfl, le_rfl⟩
    · next passed =>
      refine ⟨fun id isId => ?_, ?_⟩
      · obtain ⟨other, among, isOther⟩ := occurs id isId
        exact ⟨other, .inl among, isOther⟩
      · rintro other (among | rfl) others
        · exact greatest other among others
        · cases isLatest : found.2 with
          | none => simp [others, isLatest] at passed
          | some latest =>
            simp only [others, isLatest, Option.all_some, Bool.true_and, decide_eq_true_eq]
              at passed
            exact ⟨latest, rfl, Nat.le_of_not_le passed⟩

theorem newest_of_scan :
    (∀ id, (scanCheckpoints directory).2 = some id → ∃ files, Newest directory id files) ∧
      ((scanCheckpoints directory).2 = none → ∀ id files, ¬Newest directory id files) := by
  obtain ⟨occurs, greatest⟩ := scanDirectory_foldl
  refine ⟨fun id isId => ?_, fun none id files newest => ?_⟩
  · obtain ⟨⟨_, files⟩, among, rfl, hasMetadata⟩ := occurs id isId
    refine ⟨files, find?_of_mem among, hasMetadata, fun other files' found others => ?_⟩
    obtain ⟨latest, isLatest, below⟩ := greatest _ (mem_iff_find?.mpr found) others
    cases isLatest.symm.trans isId
    exact below
  · obtain ⟨latest, isLatest, _⟩ := greatest _ (mem_iff_find?.mpr newest.1) newest.2.1
    cases isLatest.symm.trans none

theorem Newest.unique {id other : Nat} {files files' : CheckpointFiles}
    (first : Newest directory id files) (second : Newest directory other files') :
    other = id ∧ files' = files := by
  have same : other = id := Nat.le_antisymm (first.2.2 other files' second.1 second.2.1)
    (second.2.2 id files first.1 first.2.1)
  subst same
  exact ⟨rfl, Option.some.inj (second.1.symm.trans first.1)⟩

theorem replayEntries_eq (collects : config.collectStateChanges = true) {maxEntries : Nat}
    {reader : WalReader} {result : WalReplayResult} (reads : reader.ReadsAs wal entries)
    (fits : result.entriesReplayed + entries.length < maxEntries) :
    ∃ replayed, replayEntries wal config maxEntries reader result = .ok replayed ∧
      replayed.stateChanges = result.stateChanges ++ changesOf entries := by
  induction entries generalizing reader result with
  | nil =>
    obtain ⟨next, isRead⟩ := reads
    refine ⟨result, ?_, (append_nil _).symm⟩
    rw [replayEntries, if_neg (by omega)]
    split
    · next error failed => cases failed.symm.trans isRead
    · next entry next' found => cases found.symm.trans isRead
    · rfl
  | cons entry entries ih =>
    obtain ⟨next, isRead, later⟩ := reads
    have counted : (result.add config entry next.position).entriesReplayed =
        result.entriesReplayed + 1 := by
      cases entry <;> simp only [add, collect, collects, if_true]
    have collected : (result.add config entry next.position).stateChanges ++ changesOf entries =
        result.stateChanges ++ changesOf (entry :: entries) := by
      cases entry <;> simp [add, collect, collects, changesOf]
    obtain ⟨replayed, isReplayed, changes⟩ := @ih next (result.add config entry next.position) later
      (by rw [counted]; simp only [length_cons] at fits; omega)
    refine ⟨replayed, ?_, changes.trans collected⟩
    rw [replayEntries, if_neg (by omega)]
    split
    · next error failed => cases failed.symm.trans isRead
    · next entry' next' found =>
      cases found.symm.trans isRead
      exact isReplayed
    · next notEntry found =>
      cases found.symm.trans isRead
      exact absurd rfl (notEntry entry)

theorem repair_records
    (short : ∀ entry ∈ entries, (wal.serialize entry).length ≤ 256 * 1024 * 1024) :
    ∃ repaired position, (new (wal.records entries)).repair wal =
      .ok (repaired, position) ∧ repaired.file = wal.records entries := by
  have scanned := scan_records_append short []
  rw [append_nil, scan_nil, append_nil] at scanned
  obtain ⟨repaired, position, isRepaired, file, _⟩ :=
    @repair_new wal (wal.records entries) (by
      rw [scanned]
      rintro ⟨length, next, isRead⟩
      cases isRead.symm.trans (read_ended (Nat.zero_le 0)))
  rw [scanned] at file
  exact ⟨repaired, position, isRepaired, file⟩

theorem replayWal_eq (collects : config.collectStateChanges = true)
    (unlimited : config.maxWalEntries = 0) {before after : List WalEntry}
    (short : ∀ entry ∈ before ++ after, (wal.serialize entry).length ≤ 256 * 1024 * 1024)
    (fits : after.length < 2 ^ 64 - 1) :
    ∃ replayed, replayWal wal config (wal.records (before ++ after)) (wal.records before).length =
      .ok replayed ∧ replayed.stateChanges = changesOf after := by
  have reads : WalReader.ReadsAs wal
      ⟨wal.records (before ++ after), (wal.records before).length⟩ after := by
    refine WalReader.readsAs_iff.mpr ⟨after.map wal.serialize, ?_, ?_, forall₂_serialize after⟩
    · simp only [WalEntryFormat.records, map_append, frames_append]
      exact drop_left' rfl
    · exact forall_mem_map.mpr (forall_mem_append.mp short).2
  obtain ⟨repaired, position, isRepaired, file⟩ := repair_records short
  simp only [replayWal, isRepaired, unlimited, lt_irrefl, if_false]
  apply replayEntries_eq collects _ (by rwa [Nat.zero_add])
  split
  · rw [readFrom, file]
    exact reads
  · exact reads

theorem find?_applyChanges_changesOf {before after : List WalEntry} {state : KeyedMap Bytes Bytes}
    (agrees : ∀ key, state.find? key = (folded before).find? key) (key : Bytes) :
    (state.applyChanges (changesOf after)).find? key = (folded (before ++ after)).find? key := by
  have split : folded (before ++ after) = (folded before).applyChanges (changesOf after) := by
    simp only [folded, changesOf, filterMap_append, applyChanges, foldl_append]
  rw [split, find?_applyChanges, find?_applyChanges, agrees]

theorem recover_eq {found : Option IncrementalCheckpointMetadata}
    (isFound : findLatestCheckpoint format directory = .ok found) (file : Bytes) :
    recover format wal config directory (some file) =
      (replayWal wal config file
        ((found.map (loadCheckpoint format directory)).getD .empty).walPosition).map
          fun replayed =>
            ((found.map (loadCheckpoint format directory)).getD .empty).add config replayed := by
  simp only [recover, isFound, bind, Except.bind]
  cases replayWal wal config file _ <;> rfl

theorem findLatestCheckpoint_newest {id : Nat} {files : CheckpointFiles} {json : Bytes}
    (newest : Newest directory id files) (isJson : files.metadata = some json) :
    findLatestCheckpoint format directory =
      ((format.fromJson json).mapError .deserialization).map some := by
  obtain ⟨newestOf, noneOf⟩ := @newest_of_scan directory
  cases scanned : (scanCheckpoints directory).2 with
  | none => exact absurd newest (noneOf scanned id files)
  | some other =>
    obtain ⟨files', newest'⟩ := newestOf other scanned
    obtain ⟨rfl, rfl⟩ := newest.unique newest'
    simp only [findLatestCheckpoint, scanned, loadCheckpointMetadata, newest.1,
      Option.bind_some, isJson]

end

/-- One text is metadata, and the empty state is a snapshot. -/
def plainFormat : CheckpointFormat where
  fromJson json := if json = [1] then .ok ⟨1, 0, 0, .empty, none⟩ else .error "damaged"
  fromBytes state := if state = [] then .ok ⟨[]⟩ else .error "damaged"

end LaminarDB.Storage.Incremental
