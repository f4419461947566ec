import LaminarDB.Library.Maps
import LaminarDB.Storage.Manifest

/-!
# Uploads of partitions

`ObjectStoreCheckpointer::save_partitions_concurrent` starts an upload for each snapshot. If
as many run as may, it first waits for one of them, and drops the entry that this one returns.
-/

namespace LaminarDB.Storage

open Library List

structure CheckpointPaths where
  basePrefix : String

namespace CheckpointPaths

variable (paths : CheckpointPaths) (id operator : String) (partition : Nat)

def partitionFile (extension : String) : String :=
  paths.basePrefix ++ id ++ "operators/" ++ operator ++ "/partition-" ++ toString partition ++
    extension

def snapshot : String := paths.partitionFile id operator partition ".snap"

def delta : String := paths.partitionFile id operator partition ".delta"

end CheckpointPaths

structure PartitionSnapshot where
  operator : String
  partition : Nat
  isDelta : Bool
  data : Bytes

structure PartitionSnapshotEntry where
  partitionId : Nat
  isDelta : Bool
  path : String
  sizeBytes : Nat
  sha256 : Option String

/-- `location` is `Path::from` of the object store, which also normalises the path. -/
structure ObjectStoreCheckpointer (Location : Type) where
  paths : CheckpointPaths
  maxConcurrentUploads : Nat
  sha256Hex : Bytes → String
  location : String → Location

namespace ObjectStoreCheckpointer

variable {Location : Type} [DecidableEq Location] (checkpointer : ObjectStoreCheckpointer Location)
  (id : String) (snapshots : List PartitionSnapshot) (snapshot : PartitionSnapshot)
  (objects : KeyedMap Location Bytes)

def loadArtifact (path : String) : Option Bytes :=
  objects.find? (checkpointer.location path)

def path : String :=
  if snapshot.isDelta then checkpointer.paths.delta id snapshot.operator snapshot.partition
  else checkpointer.paths.snapshot id snapshot.operator snapshot.partition

def entry : String × PartitionSnapshotEntry :=
  (snapshot.operator, ⟨snapshot.partition, snapshot.isDelta, checkpointer.path id snapshot,
    snapshot.data.length, some (checkpointer.sha256Hex snapshot.data)⟩)

def object : Location := checkpointer.location (checkpointer.path id snapshot)

def upload : KeyedMap Location Bytes :=
  objects.insert (checkpointer.object id snapshot) snapshot.data

/-- The rest of a call that succeeds, from the snapshots not started, the running uploads and the
objects, to the objects and entries at its end. Any running upload may finish next. Nothing reads
the objects before the end, so an upload can be taken to write its object when it is seen to finish.
-/
inductive SavePartitionsConcurrent : List PartitionSnapshot → List PartitionSnapshot →
    KeyedMap Location Bytes → KeyedMap Location Bytes →
      List (String × PartitionSnapshotEntry) → Prop where
  | returns {last} : SavePartitionsConcurrent [] [] last last []
  | starts {next waiting running stored last entries} :
      running.length < checkpointer.maxConcurrentUploads ∨ running = [] →
      SavePartitionsConcurrent waiting (next :: running) stored last entries →
      SavePartitionsConcurrent (next :: waiting) running stored last entries
  | waits {next waiting running finished rest stored last entries} :
      checkpointer.maxConcurrentUploads ≤ running.length → running.Perm (finished :: rest) →
      SavePartitionsConcurrent waiting (next :: rest) (checkpointer.upload id finished stored)
        last entries →
      SavePartitionsConcurrent (next :: waiting) running stored last entries
  | collects {running finished rest stored last entries} : running.Perm (finished :: rest) →
      SavePartitionsConcurrent [] rest (checkpointer.upload id finished stored) last entries →
      SavePartitionsConcurrent [] running stored last (checkpointer.entry id finished :: entries)

/-- There is one entry for each snapshot, and its path leads to the snapshot's data. -/
def Reports (entries : List (String × PartitionSnapshotEntry)) : Prop :=
  entries.Perm (snapshots.map (checkpointer.entry id)) ∧ ∀ snapshot ∈ snapshots,
    checkpointer.loadArtifact objects (checkpointer.path id snapshot) = some snapshot.data

variable {checkpointer id snapshots snapshot objects} {waiting running : List PartitionSnapshot}
  {last : KeyedMap Location Bytes} {entries : List (String × PartitionSnapshotEntry)}

variable (checkpointer id snapshots objects) in
/-- The object was last written by one of the snapshots. -/
def Held (location : Location) : Prop :=
  ∃ snapshot ∈ snapshots, checkpointer.object id snapshot = location ∧
    objects.find? location = some snapshot.data

variable {location : Location}

theorem held_upload (isSnapshot : snapshot ∈ snapshots)
    (written : checkpointer.object id snapshot = location ∨
      checkpointer.Held id snapshots objects location) :
    checkpointer.Held id snapshots (checkpointer.upload id snapshot objects) location := by
  by_cases same : location = checkpointer.object id snapshot
  · exact ⟨snapshot, isSnapshot, same.symm, by rw [upload, KeyedMap.find?_insert, if_pos same]⟩
  · obtain ⟨other, isOther, isLocation, found⟩ := written.resolve_left (Ne.symm same)
    exact ⟨other, isOther, isLocation, by rwa [upload, KeyedMap.find?_insert, if_neg same]⟩

section

variable (saved : checkpointer.SavePartitionsConcurrent id waiting running objects last entries)

include saved

theorem length_entries (positive : 1 ≤ checkpointer.maxConcurrentUploads)
    (bounded : running.length ≤ checkpointer.maxConcurrentUploads) :
    entries.length = min checkpointer.maxConcurrentUploads (waiting.length + running.length) := by
  induction saved with
  | returns => simp
  | starts room _ ih =>
    have started := ih (by
      rcases room with room | rfl
      · exact room
      · exact positive)
    simp only [length_cons] at started ⊢
    omega
  | waits crowded others _ ih =>
    have sameLength := others.length_eq
    simp only [length_cons] at sameLength ih ⊢
    have started := ih (by omega)
    omega
  | collects others _ ih =>
    have sameLength := others.length_eq
    simp only [length_cons, length_nil] at sameLength ih ⊢
    have collected := ih (by omega)
    omega

theorem perm_entries (fits : waiting.length + running.length ≤ checkpointer.maxConcurrentUploads) :
    entries.Perm ((running ++ waiting).map (checkpointer.entry id)) := by
  induction saved with
  | returns => exact .nil
  | starts _ _ ih =>
    simp only [length_cons] at fits ih
    refine (ih (by omega)).trans (Perm.map _ ?_)
    exact perm_middle.symm
  | waits crowded _ _ _ =>
    simp only [length_cons] at fits
    omega
  | collects others _ ih =>
    have sameLength := others.length_eq
    simp only [length_cons, length_nil, append_nil] at sameLength fits ih ⊢
    exact ((ih (by omega)).cons _).trans (others.map _).symm

theorem held_last
    (included : ∀ snapshot, snapshot ∈ waiting ∨ snapshot ∈ running → snapshot ∈ snapshots)
    (written : (∃ snapshot, (snapshot ∈ waiting ∨ snapshot ∈ running) ∧
        checkpointer.object id snapshot = location) ∨
      checkpointer.Held id snapshots objects location) :
    checkpointer.Held id snapshots last location := by
  induction saved with
  | returns => simpa using written
  | starts _ _ ih =>
    simp only [mem_cons, or_assoc, or_left_comm] at ih included written ⊢
    exact ih included written
  | waits _ others _ ih =>
    simp only [others.mem_iff, mem_cons] at ih included written
    grind [held_upload]
  | collects others _ ih =>
    simp only [others.mem_iff, mem_cons] at ih included written
    grind [held_upload]

end

/-- A call that succeeds reports every snapshot exactly if it did not have to wait and no two
snapshots with different data have one location. -/
theorem reports_iff (checkpointer : ObjectStoreCheckpointer Location) (id : String)
    (snapshots : List PartitionSnapshot) (objects last : KeyedMap Location Bytes)
    (entries : List (String × PartitionSnapshotEntry))
    (positive : 1 ≤ checkpointer.maxConcurrentUploads)
    (saved : checkpointer.SavePartitionsConcurrent id snapshots [] objects last entries) :
    checkpointer.Reports id snapshots last entries ↔
      snapshots.length ≤ checkpointer.maxConcurrentUploads ∧
        ∀ left ∈ snapshots, ∀ right ∈ snapshots,
          checkpointer.object id left = checkpointer.object id right → left.data = right.data := by
  constructor
  · rintro ⟨all, stored⟩
    have kept := length_entries saved positive (Nat.zero_le _)
    rw [all.length_eq, length_map] at kept
    refine ⟨kept ▸ Nat.min_le_left .., fun left isLeft right isRight same => ?_⟩
    have atLeft : last.find? (checkpointer.object id left) = some left.data := stored left isLeft
    rw [same] at atLeft
    exact Option.some.inj (atLeft.symm.trans (stored right isRight))
  · rintro ⟨fits, consistent⟩
    refine ⟨perm_entries saved fits, fun snapshot isSnapshot => ?_⟩
    obtain ⟨other, isOther, same, found⟩ := held_last saved
      (fun _ known => known.resolve_right not_mem_nil) (.inl ⟨snapshot, .inl isSnapshot, rfl⟩)
    rw [← consistent other isOther snapshot isSnapshot same]
    exact found

def twoAtATime : ObjectStoreCheckpointer String :=
  ⟨⟨"checkpoints/"⟩, 2, fun _ => "", fun path => path⟩

def partitions (count : Nat) : List PartitionSnapshot :=
  (List.range count).map fun partition => ⟨"sum", partition, false, []⟩

theorem reports_iff_two : ∃ last entries,
    twoAtATime.SavePartitionsConcurrent "a" (partitions 2) [] .empty last entries ∧
      twoAtATime.Reports "a" (partitions 2) last entries := by
  have saved : ∃ last entries,
      twoAtATime.SavePartitionsConcurrent "a" (partitions 2) [] .empty last entries :=
    ⟨_, _, .starts (.inr rfl) (.starts (.inl (by decide)) (.collects (.refl _)
      (.collects (.refl _) .returns)))⟩
  obtain ⟨last, entries, saved⟩ := saved
  refine ⟨last, entries, saved, (reports_iff _ _ _ _ _ _ (by decide) saved).mpr ⟨by decide, ?_⟩⟩
  simp [partitions]

/-- Of three uploads, the one that is waited for is not listed. -/
theorem not_reports_three : ∃ last entries,
    twoAtATime.SavePartitionsConcurrent "a" (partitions 3) [] .empty last entries ∧
      ¬twoAtATime.Reports "a" (partitions 3) last entries := by
  refine ⟨_, _, .starts (.inr rfl) (.starts (.inl (by decide)) (.waits (by decide) (.refl _)
    (.collects (.refl _) (.collects (.refl _) .returns)))), fun reports => ?_⟩
  exact absurd reports.1.length_eq (by decide)

end ObjectStoreCheckpointer

end LaminarDB.Storage
