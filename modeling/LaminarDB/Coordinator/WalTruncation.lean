import LaminarDB.Coordinator.Checkpoint
import LaminarDB.Storage.Wal

/-!
# Truncation of the write-ahead log

`prepare_wal_for_checkpoint` records the positions up to which a checkpoint covers the segments, and
`truncate_wal_after_checkpoint` cuts the segments at the positions of the checkpoint before. The
changelog drainers, which `prepare_wal_for_checkpoint` drains before, and failing file operations
are left out.
-/

namespace LaminarDB.Coordinator

open Library List
open Storage PerCoreWalManager PerCoreWalEntry

structure WalCoordinator where
  walManager : Option PerCoreWalManager
  previousWalPositions : Option (List Nat)

namespace WalCoordinator

/-- `prepare_wal_for_checkpoint`: the coordinator and `per_core_wal_positions`. `now` is the
clock that each writer reads. -/
def prepareWalForCheckpoint (format : WalFormat) (now : Nat → Int) (coordinator : WalCoordinator) :
    WalCoordinator × List Nat :=
  match coordinator.walManager with
  | none => (coordinator, [])
  | some wal =>
    let (advanced, epoch) := wal.advanceEpoch
    let synced := ((advanced.setEpochAll epoch).writeEpochBarrierAll format now).syncAll
    ({ coordinator with walManager := some synced }, synced.syncedPositions)

def truncateWalAfterCheckpoint (currentPositions : List Nat) (coordinator : WalCoordinator) :
    WalCoordinator × Except String Unit :=
  match coordinator.walManager, coordinator.previousWalPositions with
  | none, _ => ({ coordinator with previousWalPositions := some currentPositions }, .ok ())
  | some wal, some previous =>
    match wal.truncateAll previous with
    | .error error =>
      (coordinator, .error (checkpointError ("WAL truncation failed: " ++ error.text)))
    | .ok truncated => (⟨some truncated, some currentPositions⟩, .ok ())
  | some wal, none => (⟨some wal.resetAll, some currentPositions⟩, .ok ())

end WalCoordinator

inductive AppendCall where
  | put (key value : Bytes)
  | delete (key : Bytes)
  | checkpoint (id : Nat)
  | commit (offsets : List (String × Nat)) (watermark : Option Int)
  | epochBarrier

namespace AppendCall

def perform (format : WalFormat) (now : Int) (writer : CoreWalWriter) :
    AppendCall → CoreWalWriter × Nat
  | .put key value => writer.appendPut format now key value
  | .delete key => writer.appendDelete format now key
  | .checkpoint id => writer.appendCheckpoint format now id
  | .commit offsets watermark => writer.appendCommit format now offsets watermark
  | .epochBarrier => writer.appendEpochBarrier format now

def operation (writer : CoreWalWriter) : AppendCall → WalOperation
  | .put key value => .put key value
  | .delete key => .delete key
  | .checkpoint id => .checkpoint id
  | .commit offsets watermark => .commit offsets watermark
  | .epochBarrier => .epochBarrier writer.epoch

def entry (now : Int) (writer : CoreWalWriter) (call : AppendCall) : PerCoreWalEntry :=
  writer.entryOf now (call.operation writer)

theorem perform_eq (format : WalFormat) (now : Int) (writer : CoreWalWriter) (call : AppendCall) :
    call.perform format now writer = writer.append format (call.entry now writer) := by
  cases call <;> rfl

end AppendCall

inductive WalEvent where
  | append (core : Nat) (now : Int) (call : AppendCall)
  | prepare (now : Nat → Int)
  | truncate (currentPositions : List Nat)

/-- The coordinator's log, the positions that the last checkpoint recorded, the entries that
were appended to each segment after it, and how many bytes truncations have added. -/
structure WalRun where
  coordinator : WalCoordinator
  recorded : Option (List Nat)
  since : Nat → List PerCoreWalEntry
  zeroFilled : Nat

def lengthened (before after : Option PerCoreWalManager) : Nat :=
  match before, after with
  | some before, some after =>
    (zipWith (fun shorter longer => longer - shorter) before.positions after.positions).sum
  | _, _ => 0

namespace WalRun

def append (format : WalFormat) (core : Nat) (now : Int) (call : AppendCall)
    (manager : PerCoreWalManager) (writer : CoreWalWriter) (run : WalRun) : WalRun :=
  { run with
    coordinator := { run.coordinator with
      walManager := some (manager.modifyWriter core fun writer =>
        (call.perform format now writer).1) }
    since := Function.update run.since core (run.since core ++ [call.entry now writer]) }

def prepare (format : WalFormat) (now : Nat → Int) (run : WalRun) : WalRun :=
  { run with
    coordinator := (run.coordinator.prepareWalForCheckpoint format now).1
    recorded := some (run.coordinator.prepareWalForCheckpoint format now).2
    since := fun _ => [] }

def truncate (currentPositions : List Nat) (run : WalRun) : WalRun :=
  { run with
    coordinator := (run.coordinator.truncateWalAfterCheckpoint currentPositions).1
    zeroFilled := run.zeroFilled + lengthened run.coordinator.walManager
      (run.coordinator.truncateWalAfterCheckpoint currentPositions).1.walManager }

def start (numCores : Nat) (segment : Nat → Bytes) : WalRun where
  coordinator := ⟨some (.new numCores segment), none⟩
  recorded := none
  since := fun _ => []
  zeroFilled := 0

end WalRun

variable (format : WalFormat)

/-- Runs of appends, preparations and truncations. There is no writer for a core that the
manager does not have. -/
def walRuns : TransitionSystem WalRun WalEvent where
  initial run := ∃ numCores segment, run = .start numCores segment
  step run event :=
    match event with
    | .append core now call =>
      run.coordinator.walManager.bind fun manager =>
        manager.writers[core]?.map fun writer => run.append format core now call manager writer
    | .prepare now => some (run.prepare format now)
    | .truncate currentPositions => some (run.truncate currentPositions)

variable (run : WalRun)

/-- A replay from the recorded positions, after a sync and a crash, finds in each segment the
entries appended after the checkpoint and replays these and no others, in their order. No truncation
has filled a segment with zeros. -/
structure ReplaysExactly : Prop where
  segments : ∀ manager recorded core file, run.coordinator.walManager = some manager →
    run.recorded = some recorded → manager.syncAll.segments core = some file →
    ∃ position, readSegment format manager.syncAll.segments recorded core =
      .ok (run.since core, position)
  merged : ∀ manager recorded, run.coordinator.walManager = some manager →
    run.recorded = some recorded → ∀ (Base : Type) (baseState : Base) (baseEpoch : Nat),
    ∃ entries positions,
      recoverFromPositions format manager.numCores manager.syncAll.segments baseState baseEpoch
        recorded = .ok (replayed baseState baseEpoch entries positions) ∧
      entries.Perm ((range manager.numCores).flatMap run.since) ∧
      ∀ core < manager.numCores, (run.since core).Sublist entries
  noZeros : run.zeroFilled = 0

/-- The first entry after a checkpoint is appended at the recorded position, the entry is small
enough to be read, and the clock has not gone back. -/
structure AppendKeeps (core : Nat) (now : Int)
    (call : AppendCall) (writer : CoreWalWriter) (position : Nat) : Prop where
  atRecorded : run.since core = [] → writer.position = position
  accepted : format.Accepts (call.entry now writer)
  clock : ∀ earlier ∈ run.since core, earlier.timestampNs ≤ now

/-- Where a truncation cuts the segments. Positions of another number of cores are refused, and
nothing is cut. -/
def cutPositions (previous : Option (List Nat)) (manager : PerCoreWalManager) : List Nat :=
  match previous with
  | none => replicate manager.numCores 0
  | some previous => if previous.length = manager.numCores then previous else manager.positions

/-- A segment is not lengthened, and it is cut only if nothing has been appended to it since the
last checkpoint. -/
structure CutKeeps (core cut : Nat) (writer : CoreWalWriter) : Prop where
  within : cut ≤ writer.position
  covered : run.recorded = none ∨ run.since core = [] ∨ cut = writer.position

def KeepsReplay : WalEvent → Prop
  | .append core now call => ∀ manager recorded writer position,
      run.coordinator.walManager = some manager → run.recorded = some recorded →
      manager.writers[core]? = some writer → recorded[core]? = some position →
      AppendKeeps format run core now call writer position
  | .prepare _ => True
  | .truncate _ => ∀ manager core cut writer, run.coordinator.walManager = some manager →
      (cutPositions run.coordinator.previousWalPositions manager)[core]? = some cut →
      manager.writers[core]? = some writer → CutKeeps run core cut writer

/-- Behind a position a segment holds the records of entries, which are of the writer's epoch and
in the order of their replay. -/
structure Follows (writer : CoreWalWriter) (position : Nat)
    (entries : List PerCoreWalEntry) : Prop where
  found : writer.contents.drop position = format.records entries
  accepted : ∀ entry ∈ entries, format.Accepts entry
  current : ∀ entry ∈ entries, entry.epoch = writer.epoch ∧
    entry.coreId = writer.coreId % 2 ^ 16 ∧ entry.sequence < writer.sequence
  ordered : entries.Pairwise Precedes

variable {format : WalFormat} {writer : CoreWalWriter} {position : Nat}

theorem follows_nil (behind : writer.position ≤ position) : Follows format writer position [] where
  found := by
    rw [format.records_nil, drop_eq_nil_iff, writer.length_contents]
    exact behind
  accepted := forall_mem_nil _
  current := forall_mem_nil _
  ordered := .nil

variable {call : AppendCall} {now : Int} {entries : List PerCoreWalEntry}

namespace Follows

section

variable (follows : Follows format writer position entries)
  (atRecorded : entries = [] → writer.position = position)

include follows atRecorded

theorem position_le : position ≤ writer.position := by
  rcases eq_or_ne entries [] with none | some
  · exact (atRecorded none).ge
  · by_contra beyond
    apply some
    apply format.records_eq_nil
    rw [← follows.found, drop_eq_nil_iff, writer.length_contents]
    omega

theorem append (accepted : format.Accepts (call.entry now writer))
    (clock : ∀ earlier ∈ entries, earlier.timestampNs ≤ now) :
    Follows format (call.perform format now writer).1 position
      (entries ++ [call.entry now writer]) := by
  rw [call.perform_eq]
  have within := follows.position_le atRecorded
  constructor
  · rw [writer.contents_append, drop_append_of_le_length (by rwa [writer.length_contents]),
      follows.found, format.records_concat]
  · exact forall_mem_append.mpr ⟨follows.accepted, forall_mem_singleton.mpr accepted⟩
  · refine forall_mem_append.mpr ⟨fun entry earlier => ?_, forall_mem_singleton.mpr ?_⟩
    · obtain ⟨epochs, cores, sequences⟩ := follows.current entry earlier
      exact ⟨epochs, cores, Nat.lt_succ_of_lt sequences⟩
    · exact ⟨rfl, rfl, Nat.lt_succ_self _⟩
  · refine pairwise_append.mpr ⟨follows.ordered, pairwise_singleton _ _, ?_⟩
    intro earlier isEarlier last isLast
    rw [mem_singleton.mp isLast]
    obtain ⟨epochs, cores, sequences⟩ := follows.current earlier isEarlier
    exact precedes_of_sequence epochs cores (clock earlier isEarlier) sequences.le

end

end Follows

/-- What a truncation makes of a writer: the segment is cut, and the sequence starts again only
in an empty segment. -/
structure CutTo (cut : Nat) (before after : CoreWalWriter) : Prop where
  position : after.position = cut
  contents : cut ≤ before.position → after.contents = before.contents.take cut
  coreId : after.coreId = before.coreId
  epoch : after.epoch = before.epoch
  sequence : after.sequence = before.sequence ∨ cut = 0

theorem cutTo_truncate {cut : Nat} : CutTo cut writer (writer.truncate cut) where
  position := rfl
  contents := CoreWalWriter.contents_truncate
  coreId := rfl
  epoch := rfl
  sequence := .inl rfl

theorem cutTo_reset : CutTo 0 writer writer.reset where
  position := rfl
  contents := CoreWalWriter.contents_truncate
  coreId := rfl
  epoch := rfl
  sequence := .inr rfl

theorem cutTo_self : CutTo writer.position writer writer where
  position := rfl
  contents := fun _ => by rw [← writer.length_contents, take_length]
  coreId := rfl
  epoch := rfl
  sequence := .inl rfl

theorem Follows.cut {before after : CoreWalWriter} {cut : Nat}
    (follows : Follows format before position entries)
    (cutTo : CutTo cut before after) (within : cut ≤ before.position)
    (covered : entries = [] ∨ cut = before.position) : Follows format after position entries := by
  rcases covered with none | whole
  · subst none
    have behind := drop_eq_nil_iff.mp follows.found
    rw [before.length_contents] at behind
    apply follows_nil
    rw [cutTo.position]
    exact within.trans behind
  · have same : after.contents = before.contents := by
      rw [cutTo.contents within, whole, ← before.length_contents, take_length]
    refine ⟨same ▸ follows.found, follows.accepted, ?_, follows.ordered⟩
    intro entry among
    obtain ⟨epochs, cores, sequences⟩ := follows.current entry among
    refine ⟨cutTo.epoch ▸ epochs, cutTo.coreId ▸ cores, ?_⟩
    rcases cutTo.sequence with kept | zero
    · rw [kept]
      exact sequences
    · have empty : before.contents = [] := by
        apply eq_nil_of_length_eq_zero
        rw [before.length_contents, ← whole, zero]
      have nothing : entries = [] := by
        apply format.records_eq_nil
        rw [← follows.found, empty, drop_nil]
      rw [nothing] at among
      exact absurd among not_mem_nil

/-- Every segment follows the position that the last checkpoint recorded for it. -/
structure Intact (format : WalFormat) (run : WalRun) : Prop where
  sized : ∀ manager recorded, run.coordinator.walManager = some manager →
    run.recorded = some recorded → recorded.length = manager.numCores
  follows : ∀ manager recorded core writer position, run.coordinator.walManager = some manager →
    run.recorded = some recorded → manager.writers[core]? = some writer →
    recorded[core]? = some position → Follows format writer position (run.since core)
  noZeros : run.zeroFilled = 0

variable {run : WalRun}

theorem intact_start {numCores : Nat} {segment : Nat → Bytes} :
    Intact format (.start numCores segment) where
  sized := nofun
  follows := nofun
  noZeros := rfl

variable {coordinator : WalCoordinator} {manager : PerCoreWalManager}

theorem WalCoordinator.prepare_of_managed {now : Nat → Int}
    (managed : coordinator.walManager = some manager) :
    ∃ written : PerCoreWalManager,
      (coordinator.prepareWalForCheckpoint format now).1.walManager = some written.syncAll ∧
      (coordinator.prepareWalForCheckpoint format now).2 = written.syncAll.syncedPositions := by
  rw [prepareWalForCheckpoint, managed]
  exact ⟨_, rfl, rfl⟩

theorem WalCoordinator.prepare_of_unmanaged (format : WalFormat)
    (now : Nat → Int) (unmanaged : coordinator.walManager = none) :
    (coordinator.prepareWalForCheckpoint format now).1.walManager = none := by
  rw [prepareWalForCheckpoint, unmanaged]
  exact unmanaged

variable (currentPositions : List Nat)

theorem WalCoordinator.truncate_of_managed (managed : coordinator.walManager = some manager) :
    ∃ after, (coordinator.truncateWalAfterCheckpoint currentPositions).1.walManager = some after ∧
      after.numCores = manager.numCores ∧
      ∀ (core : Nat) (writer : CoreWalWriter), manager.writers[core]? = some writer →
        ∃ cut writer', (cutPositions coordinator.previousWalPositions manager)[core]? = some cut ∧
          after.writers[core]? = some writer' ∧ CutTo cut writer writer' := by
  rw [truncateWalAfterCheckpoint, managed]
  cases coordinator.previousWalPositions with
  | none =>
    refine ⟨_, rfl, rfl, fun core writer written => ⟨0, writer.reset, ?_, ?_, cutTo_reset⟩⟩
    · obtain ⟨within, _⟩ := List.getElem?_eq_some_iff.mp written
      rw [manager.sized] at within
      rw [cutPositions, getElem?_replicate, if_pos within]
    · simp only [resetAll, mapWriters, getElem?_mapIdx, written, Option.map_some]
  | some previous =>
    by_cases sizes : previous.length = manager.numCores
    · simp only [truncateAll, dif_pos sizes, cutPositions, if_pos sizes]
      refine ⟨_, rfl, rfl, fun core writer written => ?_⟩
      obtain ⟨within, _⟩ := List.getElem?_eq_some_iff.mp written
      rw [manager.sized, ← sizes] at within
      refine ⟨previous[core], writer.truncate previous[core],
        getElem?_eq_getElem within, ?_, cutTo_truncate⟩
      simp only [getElem?_zipWith, getElem?_eq_getElem within, written]
    · simp only [truncateAll, dif_neg sizes, cutPositions, if_neg sizes]
      refine ⟨manager, managed, rfl, fun core writer written =>
        ⟨writer.position, writer, ?_, written, cutTo_self⟩⟩
      rw [positions, getElem?_map, written, Option.map_some]

variable {core : Nat} {recorded : List Nat}

theorem Intact.append (intact : Intact format run)
    (managed : run.coordinator.walManager = some manager)
    (written : manager.writers[core]? = some writer)
    (keeps : KeepsReplay format run (.append core now call)) :
    Intact format (run.append format core now call manager writer) := by
  refine ⟨?_, ?_, intact.noZeros⟩
  · intro manager' recorded isManager isRecorded
    cases isManager
    exact intact.sized manager recorded managed isRecorded
  · intro manager' recorded other writer' position isManager isRecorded isWriter isPosition
    cases isManager
    rcases eq_or_ne core other with rfl | different
    · have changed : writer' = (call.perform format now writer).1 := by
        simp only [modifyWriter, getElem?_modify_eq, written] at isWriter
        exact (Option.some.inj isWriter).symm
      have admitted := keeps manager recorded writer position managed isRecorded written isPosition
      have before := intact.follows manager recorded core writer position managed isRecorded
        written isPosition
      rw [changed]
      simp only [WalRun.append, Function.update_self]
      exact before.append admitted.atRecorded admitted.accepted admitted.clock
    · have kept : manager.writers[other]? = some writer' := by
        rw [← isWriter]
        exact (getElem?_modify_ne _ _ different).symm
      simp only [WalRun.append, Function.update_of_ne different.symm]
      exact intact.follows manager recorded other writer' position managed isRecorded kept
        isPosition

theorem Intact.prepare (now : Nat → Int) (intact : Intact format run) :
    Intact format (run.prepare format now) := by
  cases managed : run.coordinator.walManager with
  | none =>
    have unmanaged := WalCoordinator.prepare_of_unmanaged format now managed
    refine ⟨?_, ?_, intact.noZeros⟩
    · intro manager recorded isManager
      cases unmanaged.symm.trans isManager
    · intro manager recorded core writer position isManager
      cases unmanaged.symm.trans isManager
  | some manager =>
    obtain ⟨written, isWritten, positions⟩ := WalCoordinator.prepare_of_managed managed
    refine ⟨?_, ?_, intact.noZeros⟩
    · intro manager' recorded isManager isRecorded
      cases isWritten.symm.trans isManager
      rw [← Option.some.inj isRecorded, positions, syncedPositions,
        length_map, PerCoreWalManager.sized]
    · intro manager' recorded core writer position isManager isRecorded isWriter isPosition
      cases isWritten.symm.trans isManager
      rw [← Option.some.inj isRecorded, positions, syncedPositions,
        getElem?_map, isWriter] at isPosition
      apply follows_nil
      rw [← Option.some.inj isPosition]
      simp only [syncAll, mapWriters, getElem?_mapIdx, Option.map_eq_some_iff] at isWriter
      obtain ⟨_, _, synced⟩ := isWriter
      rw [← synced]
      exact le_rfl

theorem lengthened_eq_zero {before after : PerCoreWalManager}
    (shorter : ∀ (core : Nat) (writer writer' : CoreWalWriter),
      before.writers[core]? = some writer → after.writers[core]? = some writer' →
        writer'.position ≤ writer.position) :
    lengthened (some before) (some after) = 0 := by
  apply sum_eq_zero
  intro growth among
  obtain ⟨core, found⟩ := mem_iff_getElem?.mp among
  simp only [getElem?_zipWith, positions, getElem?_map] at found
  cases isBefore : before.writers[core]? with
  | none => simp [isBefore] at found
  | some writer =>
    cases isAfter : after.writers[core]? with
    | none => simp [isBefore, isAfter] at found
    | some writer' =>
      simp only [isBefore, isAfter, Option.map_some, Option.some.injEq] at found
      have bound := shorter core writer writer' isBefore isAfter
      omega

theorem Intact.truncate (intact : Intact format run)
    (keeps : KeepsReplay format run (.truncate currentPositions)) :
    Intact format (run.truncate currentPositions) := by
  cases managed : run.coordinator.walManager with
  | none =>
    have unmanaged :
        (run.coordinator.truncateWalAfterCheckpoint currentPositions).1.walManager = none := by
      rw [WalCoordinator.truncateWalAfterCheckpoint, managed]
    refine ⟨?_, ?_, ?_⟩
    · intro manager recorded isManager
      cases unmanaged.symm.trans isManager
    · intro manager recorded core writer position isManager
      cases unmanaged.symm.trans isManager
    · rw [WalRun.truncate, unmanaged, managed]
      exact intact.noZeros
  | some manager =>
    obtain ⟨after, isAfter, sizes, cuts⟩ :=
      WalCoordinator.truncate_of_managed currentPositions managed
    have cutTo : ∀ (core : Nat) (writer' : CoreWalWriter), after.writers[core]? = some writer' →
        ∃ cut writer, (cutPositions run.coordinator.previousWalPositions manager)[core]? =
            some cut ∧ manager.writers[core]? = some writer ∧ CutTo cut writer writer' := by
      intro core writer' isWriter
      obtain ⟨within, _⟩ := List.getElem?_eq_some_iff.mp isWriter
      rw [after.sized, sizes, ← manager.sized] at within
      obtain ⟨cut, other, isCut, isOther, cutTo⟩ :=
        cuts core manager.writers[core] (getElem?_eq_getElem within)
      cases isOther.symm.trans isWriter
      exact ⟨cut, _, isCut, getElem?_eq_getElem within, cutTo⟩
    refine ⟨?_, ?_, ?_⟩
    · intro manager' recorded isManager isRecorded
      cases isAfter.symm.trans isManager
      rw [sizes]
      exact intact.sized manager recorded managed isRecorded
    · intro manager' recorded core writer' position isManager isRecorded isWriter isPosition
      cases isAfter.symm.trans isManager
      obtain ⟨cut, writer, isCut, isBefore, cutTo⟩ := cutTo core writer' isWriter
      have admitted := keeps manager core cut writer managed isCut isBefore
      have before := intact.follows manager recorded core writer position managed isRecorded
        isBefore isPosition
      apply before.cut cutTo admitted.within
      rcases admitted.covered with unrecorded | covered
      · cases unrecorded.symm.trans isRecorded
      · exact covered
    · have unchanged : lengthened (some manager) (some after) = 0 := by
        apply lengthened_eq_zero
        intro core writer writer' isBefore isWriter
        obtain ⟨cut, other, isCut, isOther, cutTo⟩ := cutTo core writer' isWriter
        rw [cutTo.position]
        exact (keeps manager core cut writer managed isCut isBefore).within
      rw [WalRun.truncate, isAfter, managed]
      simp only [unchanged, intact.noZeros]

theorem Intact.of_reaches (reached : (walRuns format).Reaches (KeepsReplay format) run) :
    Intact format run := by
  refine reached.invariant ?_ ?_
  · rintro _ ⟨numCores, segment, rfl⟩
    exact intact_start
  · intro before event after intact keeps stepped
    cases event with
    | append core now call =>
      obtain ⟨manager, managed, appended⟩ := Option.bind_eq_some_iff.mp stepped
      obtain ⟨writer, written, rfl⟩ := Option.map_eq_some_iff.mp appended
      exact intact.append managed written keeps
    | prepare now =>
      cases stepped
      exact intact.prepare now
    | truncate currentPositions =>
      cases stepped
      exact intact.truncate currentPositions keeps

def replayEnd (format : WalFormat) (run : WalRun) (recorded : List Nat) (core : Nat) : Nat :=
  recorded[core]?.getD 0 + (format.records (run.since core)).length

section

variable (intact : Intact format run)
  (managed : run.coordinator.walManager = some manager) (isRecorded : run.recorded = some recorded)

include intact managed isRecorded

theorem Intact.exists_follows (within : core < manager.numCores) :
    ∃ writer position, manager.writers[core]? = some writer ∧ recorded[core]? = some position ∧
      Follows format writer position (run.since core) := by
  have inRecorded : core < recorded.length := by
    rw [intact.sized manager recorded managed isRecorded]
    exact within
  have inWriters : core < manager.writers.length := by
    rw [manager.sized]
    exact within
  have written := getElem?_eq_getElem inWriters
  have isPosition := getElem?_eq_getElem inRecorded
  exact ⟨_, _, written, isPosition,
    intact.follows manager recorded core _ _ managed isRecorded written isPosition⟩

theorem Intact.readSegment_eq (within : core < manager.numCores) :
    readSegment format manager.syncAll.segments recorded core =
      .ok (run.since core, replayEnd format run recorded core) := by
  obtain ⟨writer, position, written, isPosition, follows⟩ :=
    intact.exists_follows managed isRecorded within
  rw [readSegment, segments_syncAll written, replayEnd, isPosition, Option.getD_some]
  simp only [PerCoreWalReader.readAll_records follows.found follows.accepted]
  rfl

theorem Intact.readAllSegments_eq :
    readAllSegments format manager.numCores manager.syncAll.segments recorded =
      .ok (((range manager.numCores).flatMap run.since).insertionSort Precedes,
        (range manager.numCores).map (replayEnd format run recorded)) := by
  have collected : Result.collect (readSegment format manager.syncAll.segments recorded)
      (range manager.numCores) = .ok ((range manager.numCores).map fun core =>
        (run.since core, replayEnd format run recorded core)) := by
    apply Result.collect_eq_ok_iff.mpr
    apply forall₂_map_right_iff.mpr
    apply forall₂_same.mpr
    intro core inRange
    exact intact.readSegment_eq managed isRecorded (mem_range.mp inRange)
  rw [readAllSegments, collected]
  simp only [Except.map, flatMap_map, map_map]
  rfl

end

theorem replaysExactly_of_reaches (format : WalFormat) (run : WalRun)
    (reached : (walRuns format).Reaches (KeepsReplay format) run) :
    ReplaysExactly format run := by
  have intact := Intact.of_reaches reached
  refine ⟨?_, ?_, intact.noZeros⟩
  · intro manager recorded core file managed isRecorded isFile
    refine ⟨_, intact.readSegment_eq managed isRecorded ?_⟩
    obtain ⟨writer, isWriter, _⟩ := Option.map_eq_some_iff.mp isFile
    obtain ⟨within, _⟩ := List.getElem?_eq_some_iff.mp isWriter
    rw [manager.syncAll.sized] at within
    exact within
  · intro manager recorded managed isRecorded Base baseState baseEpoch
    refine ⟨_, (range manager.numCores).map (replayEnd format run recorded), ?_,
      perm_insertionSort Precedes _, ?_⟩
    · rw [recoverFromPositions, if_pos (intact.sized manager recorded managed isRecorded),
        intact.readAllSegments_eq managed isRecorded]
      rfl
    · intro core within
      obtain ⟨writer, position, _, _, follows⟩ := intact.exists_follows managed isRecorded within
      apply sublist_insertionSort follows.ordered
      exact sublist_flatten_of_mem (mem_map_of_mem (mem_range.mpr within))

theorem ReplaysExactly.since_eq_nil (exactly : ReplaysExactly format run) (core : Nat)
    (managed : run.coordinator.walManager = some manager)
    (isRecorded : run.recorded = some recorded) (written : manager.writers[core]? = some writer)
    (isPosition : recorded[core]? = some position) (behind : writer.position ≤ position) :
    run.since core = [] := by
  have file := segments_syncAll written
  obtain ⟨last, found⟩ := exactly.segments manager recorded core _ managed isRecorded file
  have nothing := @PerCoreWalReader.readAll_of_ended format ⟨writer.contents, position⟩
    (writer.length_contents.trans_le behind)
  rw [readSegment, file, isPosition, Option.getD_some] at found
  simp only [nothing] at found
  exact (congrArg Prod.fst (Except.ok.inj found)).symm

def numberedFormat : WalFormat where
  serialize := NumberedCode.write
  deserialize := NumberedCode.read
  crc32c := NumberedCode.checksum
  roundTrip := NumberedCode.read_write

def walRun (events : List WalEvent) : WalRun :=
  ((walRuns numberedFormat).run (.start 1 fun _ => []) events).getD (.start 1 fun _ => [])

/-- Two checkpoints, with the truncation after the first of them. -/
def twoCheckpoints : List WalEvent :=
  [.append 0 5 (.delete []), .prepare fun _ => 6, .truncate [226], .prepare fun _ => 7]

theorem replaysExactly_of_reaches_appended :
    ReplaysExactly numberedFormat (walRun (twoCheckpoints ++ [.append 0 8 (.delete [])])) := by
  apply replaysExactly_of_reaches
  have started : (walRuns numberedFormat).Reaches (KeepsReplay numberedFormat) (walRun []) :=
    .initial ⟨1, fun _ => [], rfl⟩
  have logged := started.next (.append 0 5 (.delete []))
    (fun _ _ _ _ _ isRecorded => nomatch isRecorded) rfl
  have prepared := logged.next (.prepare fun _ => 6) trivial rfl
  have truncated := prepared.next (.truncate [226]) (fun _ _ _ _ isManager isCut _ => by
    cases isManager
    cases (Option.ite_none_right_eq_some.mp (getElem?_replicate.symm.trans isCut)).2
    exact ⟨Nat.zero_le _, .inr (.inl rfl)⟩) rfl
  have recorded := truncated.next (.prepare fun _ => 7) trivial rfl
  refine recorded.next (.append 0 8 (.delete [])) ?_ rfl
  intro manager recorded writer position isManager isRecorded isWriter isPosition
  cases isManager
  cases isRecorded
  cases isWriter
  exact ⟨fun _ => Option.some.inj isPosition, by decide +kernel, forall_mem_nil _⟩

/-- The first truncation empties the segment, so that the position which the checkpoint recorded
is behind the entry that is appended next. -/
theorem not_replaysExactly :
    ¬ ReplaysExactly numberedFormat
      (walRun [.append 0 5 (.delete []), .prepare fun _ => 6, .truncate [226],
        .append 0 7 (.delete [])]) := by
  intro exactly
  have nothing := exactly.since_eq_nil 0 rfl rfl rfl rfl (by decide +kernel)
  cases nothing

end LaminarDB.Coordinator
