import LaminarDB.Library.FramedLog
import LaminarDB.Library.NumberedCode
import LaminarDB.Library.Result
import LaminarDB.Storage.Manifest

/-!
# The write-ahead log of each core

`CoreWalWriter`, `PerCoreWalManager`, `PerCoreWalReader` and the replay of
`PerCoreRecoveryManager::recover_from_positions`.

A segment is the bytes of its file and the bytes that the writer still buffers. The format of
an entry and the checksum are parameters. File operations succeed. Counters and positions are
natural numbers.
-/

namespace LaminarDB.Storage

open Library List
open Library.FramedLog

inductive WalOperation where
  | put (key value : Bytes)
  | delete (key : Bytes)
  | checkpoint (id : Nat)
  | commit (offsets : List (String × Nat)) (watermark : Option Int)
  | epochBarrier (epoch : Nat)
deriving DecidableEq

structure PerCoreWalEntry where
  epoch : Nat
  sequence : Nat
  coreId : Nat
  timestampNs : Int
  operation : WalOperation
deriving DecidableEq

instance : Encodable Bytes := inferInstanceAs (Encodable (List UInt8))

deriving instance Encodable for WalOperation

deriving instance Encodable for PerCoreWalEntry

namespace PerCoreWalEntry

def cmp : PerCoreWalEntry → PerCoreWalEntry → Ordering :=
  compareLex (compareOn epoch)
    (compareLex (compareOn timestampNs) (compareLex (compareOn coreId) (compareOn sequence)))

def Precedes (first second : PerCoreWalEntry) : Prop := (first.cmp second).isLE = true

instance : DecidableRel Precedes := fun _ _ => inferInstanceAs (Decidable (_ = true))

theorem precedes_of_sequence {first second : PerCoreWalEntry} (epochs : first.epoch = second.epoch)
    (cores : first.coreId = second.coreId) (times : first.timestampNs ≤ second.timestampNs)
    (sequences : first.sequence ≤ second.sequence) : first.Precedes second := by
  simp only [Precedes, cmp, compareLex, compareOn, epochs, cores, Std.ReflCmp.compare_self,
    Ordering.eq_then, Ordering.isLE_then_iff_or]
  rcases times.lt_or_eq with earlier | same
  · exact .inl (Std.compare_eq_lt.mpr earlier)
  · rw [same]
    exact .inr ⟨Std.ReflCmp.compare_self, Std.isLE_compare.mpr sequences⟩

end PerCoreWalEntry

/-- How entries are written: `rkyv` and `crc32c`. -/
structure WalFormat where
  serialize : PerCoreWalEntry → Bytes
  deserialize : Bytes → Except String PerCoreWalEntry
  crc32c : Bytes → UInt32
  roundTrip : ∀ entry, deserialize (serialize entry) = .ok entry

variable {entries : List PerCoreWalEntry}

namespace WalFormat

def framing (format : WalFormat) : Framing where
  checksum := format.crc32c
  limit := 256 * 1024 * 1024
  limitFits := by decide

variable (format : WalFormat) (entry : PerCoreWalEntry)

def record : Bytes := frame format.framing (format.serialize entry)

variable (entries : List PerCoreWalEntry)

def records : Bytes :=
  frames format.framing (entries.map format.serialize)

def Accepts : Prop :=
  (format.serialize entry).length ≤ 256 * 1024 * 1024

instance : DecidablePred format.Accepts := fun _ => Nat.decLe _ _

@[simp]
theorem records_nil : format.records [] = [] := rfl

theorem records_cons :
    format.records (entry :: entries) = format.record entry ++ format.records entries := rfl

theorem records_concat (entry : PerCoreWalEntry) :
    format.records (entries ++ [entry]) = format.records entries ++ format.record entry := by
  simp only [records, map_append, map_singleton, frames_concat, record]

theorem records_eq_nil (empty : format.records entries = []) : entries = [] := by
  apply map_eq_nil_iff.mp
  exact frames_eq_nil format.framing empty

end WalFormat

inductive PerCoreWalError where
  | deserialization (message : String)
  | invalidCoreId (coreId maxCoreId : Nat)
deriving DecidableEq

def PerCoreWalError.text : PerCoreWalError → String
  | .deserialization message => "Deserialization error: " ++ message
  | .invalidCoreId coreId maxCoreId =>
    "Invalid core ID " ++ toString coreId ++ ": max is " ++ toString maxCoreId

/-- The writer of a segment. Its position counts the bytes of the file and of the buffer. -/
structure CoreWalWriter where
  coreId : Nat
  file : Bytes
  buffered : Bytes
  position : Nat
  syncedPosition : Nat
  epoch : Nat
  sequence : Nat
  positioned : position = file.length + buffered.length

open CoreWalWriter

namespace CoreWalWriter

def new (coreId : Nat) (file : Bytes) : CoreWalWriter where
  coreId := coreId
  file := file
  buffered := []
  position := file.length
  syncedPosition := file.length
  epoch := 0
  sequence := 0
  positioned := rfl

variable (writer : CoreWalWriter)

def contents : Bytes := writer.file ++ writer.buffered

theorem length_contents : writer.contents.length = writer.position := by
  rw [contents, length_append, writer.positioned]

def setEpoch (epoch : Nat) (writer : CoreWalWriter) : CoreWalWriter :=
  { writer with epoch := epoch }

variable (format : WalFormat)

/-- `append`: the writer, and the position of the record. -/
def append (entry : PerCoreWalEntry) (writer : CoreWalWriter) : CoreWalWriter × Nat :=
  ({ writer with
      buffered := writer.buffered ++ format.record entry
      position := writer.position + (format.record entry).length
      sequence := writer.sequence + 1
      positioned := by rw [writer.positioned, length_append, Nat.add_assoc] },
    writer.position)

variable (now : Int) (operation : WalOperation) {file : Bytes} {length : Nat}

section

variable (writer : CoreWalWriter)

/-- The entry that a writer makes of an operation. The core is cut to sixteen bits. -/
def entryOf : PerCoreWalEntry where
  epoch := writer.epoch
  sequence := writer.sequence
  coreId := writer.coreId % 2 ^ 16
  timestampNs := now
  operation := operation

def appendOperation : CoreWalWriter × Nat :=
  writer.append format (writer.entryOf now operation)

def appendPut (key value : Bytes) (writer : CoreWalWriter) : CoreWalWriter × Nat :=
  writer.appendOperation format now (.put key value)

def appendDelete (key : Bytes) (writer : CoreWalWriter) : CoreWalWriter × Nat :=
  writer.appendOperation format now (.delete key)

def appendCheckpoint (id : Nat) (writer : CoreWalWriter) : CoreWalWriter × Nat :=
  writer.appendOperation format now (.checkpoint id)

def appendCommit (offsets : List (String × Nat))
    (watermark : Option Int) (writer : CoreWalWriter) : CoreWalWriter × Nat :=
  writer.appendOperation format now (.commit offsets watermark)

def appendEpochBarrier : CoreWalWriter × Nat :=
  writer.appendOperation format now (.epochBarrier writer.epoch)

end

def sync : CoreWalWriter :=
  { writer with
    file := writer.contents
    buffered := []
    syncedPosition := writer.position
    positioned := (length_contents writer).symm }

/-- `File::set_len`: a file is cut, or filled with zeros. -/
def setLen (length : Nat) (file : Bytes) : Bytes :=
  file.take length ++ replicate (length - file.length) 0

theorem length_setLen : (setLen length file).length = length := by
  simp only [setLen, length_append, length_take, length_replicate]
  omega

theorem setLen_of_le (within : length ≤ file.length) : setLen length file = file.take length := by
  rw [setLen, Nat.sub_eq_zero_of_le within, replicate_zero, append_nil]

theorem setLen_of_isPrefix {kept : Bytes} (isPrefix : kept <+: file) :
    setLen kept.length file = kept := by
  rw [setLen_of_le isPrefix.length_le]
  exact (prefix_iff_eq_take.mp isPrefix).symm

def truncate (position : Nat) (writer : CoreWalWriter) : CoreWalWriter :=
  { writer.sync with
    file := setLen position writer.sync.file
    position := position
    syncedPosition := position
    positioned := length_setLen.symm }

def reset : CoreWalWriter :=
  { writer.truncate 0 with sequence := 0 }

theorem contents_append (entry : PerCoreWalEntry) (writer : CoreWalWriter) :
    (writer.append format entry).1.contents = writer.contents ++ format.record entry :=
  (append_assoc writer.file writer.buffered (format.record entry)).symm

@[simp]
theorem file_sync : writer.sync.file = writer.contents := rfl

theorem contents_truncate {position : Nat} {writer : CoreWalWriter}
    (within : position ≤ writer.position) :
    (writer.truncate position).contents = writer.contents.take position := by
  have within' : position ≤ writer.contents.length := by rwa [length_contents]
  calc (writer.truncate position).contents = setLen position writer.contents := append_nil _
    _ = writer.contents.take position := setLen_of_le within'

end CoreWalWriter

structure PerCoreWalManager where
  numCores : Nat
  writers : List CoreWalWriter
  globalEpoch : Nat
  sized : writers.length = numCores

namespace PerCoreWalManager

/-- `PerCoreWalManager::new`, over the segments that are there. -/
def new (numCores : Nat) (segment : Nat → Bytes) : PerCoreWalManager where
  numCores := numCores
  writers := (range numCores).map fun core => .new core (segment core)
  globalEpoch := 0
  sized := by rw [length_map, length_range]

variable (manager : PerCoreWalManager)

/-- `advance_epoch`: the manager and the new epoch. -/
def advanceEpoch : PerCoreWalManager × Nat :=
  ({ manager with globalEpoch := manager.globalEpoch + 1 }, manager.globalEpoch + 1)

def mapWriters (change : Nat → CoreWalWriter → CoreWalWriter) (manager : PerCoreWalManager) :
    PerCoreWalManager :=
  { manager with
    writers := manager.writers.mapIdx change
    sized := by rw [length_mapIdx, manager.sized] }

def modifyWriter (core : Nat) (change : CoreWalWriter → CoreWalWriter)
    (manager : PerCoreWalManager) : PerCoreWalManager :=
  { manager with
    writers := manager.writers.modify core change
    sized := by rw [length_modify, manager.sized] }

def setEpochAll (epoch : Nat) (manager : PerCoreWalManager) : PerCoreWalManager :=
  manager.mapWriters fun _ => setEpoch epoch

/-- `write_epoch_barrier_all`, with the clock that each writer reads. -/
def writeEpochBarrierAll (format : WalFormat) (now : Nat → Int) (manager : PerCoreWalManager) :
    PerCoreWalManager :=
  manager.mapWriters fun core writer => (writer.appendEpochBarrier format (now core)).1

def syncAll : PerCoreWalManager :=
  manager.mapWriters fun _ => sync

def positions : List Nat :=
  manager.writers.map position

def syncedPositions : List Nat :=
  manager.writers.map syncedPosition

/-- `truncate_all`. The greatest core of a manager without cores wraps around. -/
def truncateAll (positions : List Nat) (manager : PerCoreWalManager) :
    Except PerCoreWalError PerCoreWalManager :=
  if sizes : positions.length = manager.numCores then
    .ok { manager with
      writers := zipWith truncate positions manager.writers
      sized := by rw [length_zipWith, sizes, manager.sized, Nat.min_self] }
  else .error (.invalidCoreId positions.length ((manager.numCores + 2 ^ 64 - 1) % 2 ^ 64))

def resetAll : PerCoreWalManager :=
  manager.mapWriters fun _ => reset

def segments (core : Nat) : Option Bytes :=
  manager.writers[core]?.map file

theorem segments_syncAll {manager : PerCoreWalManager} {core : Nat} {writer : CoreWalWriter}
    (written : manager.writers[core]? = some writer) :
    manager.syncAll.segments core = some writer.contents := by
  simp only [segments, syncAll, mapWriters, getElem?_mapIdx, written, Option.map_some, file_sync]

end PerCoreWalManager

inductive WalReadResult where
  | entry (entry : PerCoreWalEntry)
  | eof
  | tornWrite (position : Nat) (reason : String)
  | checksumMismatch (position : Nat) (expected actual : UInt32)
  | corrupted (position : Nat) (reason : String)
deriving DecidableEq

structure PerCoreWalReader where
  file : Bytes
  position : Nat
deriving DecidableEq

namespace PerCoreWalReader

/-- `read_next`: what is found, and the reader after it. -/
def readNext (format : WalFormat) (reader : PerCoreWalReader) :
    Except PerCoreWalError (WalReadResult × PerCoreWalReader) :=
  match read format.framing reader.file reader.position with
  | (.record data, next) =>
    match format.deserialize data with
    | .ok entry => .ok (.entry entry, { reader with position := next })
    | .error message => .error (.deserialization message)
  | (.ended, next) => .ok (.eof, { reader with position := next })
  | (.tornHeader remaining, next) =>
    .ok (.tornWrite reader.position
      ("incomplete header: only " ++ toString remaining ++ " bytes remaining, need 8"),
      { reader with position := next })
  | (.tooLong length, next) =>
    .ok (.corrupted reader.position
      ("entry length " ++ toString length ++ " exceeds 256 MiB — likely corrupted"),
      { reader with position := next })
  | (.tornData remaining length, next) =>
    .ok (.tornWrite reader.position
      ("incomplete data: only " ++ toString remaining ++ " bytes remaining, need " ++
        toString length),
      { reader with position := next })
  | (.mismatch expected actual, next) =>
    .ok (.checksumMismatch reader.position expected actual, { reader with position := next })

variable {entry : PerCoreWalEntry} {format : WalFormat} {reader : PerCoreWalReader}

theorem readNext_entry {after : PerCoreWalReader}
    (isRead : reader.readNext format = .ok (.entry entry, after)) :
    after.file = reader.file ∧ reader.position < after.position ∧
      after.position ≤ reader.file.length := by
  rw [readNext] at isRead
  split at isRead
  · rename_i data next found
    split at isRead <;> cases isRead
    exact ⟨rfl, read_record_advances found⟩
  all_goals cases isRead

/-- `read_all`: the entries up to the first that cannot be read, and the reader after them. -/
def readAll (format : WalFormat) (reader : PerCoreWalReader) :
    Except PerCoreWalError (List PerCoreWalEntry × PerCoreWalReader) :=
  match _found : reader.readNext format with
  | .error error => .error error
  | .ok (.entry entry, next) =>
    (readAll format next).map fun (entries, last) => (entry :: entries, last)
  | .ok (_, next) => .ok ([], next)
termination_by reader.file.length - reader.position
decreasing_by
  obtain ⟨sameFile, advanced, within⟩ := readNext_entry _found
  rw [sameFile]
  omega

theorem readAll_step :
    reader.readAll format =
      match reader.readNext format with
      | .error error => .error error
      | .ok (.entry entry, next) =>
        (next.readAll format).map fun (entries, last) => (entry :: entries, last)
      | .ok (_, next) => .ok ([], next) := by
  rw [readAll]
  split <;> simp only [*]

theorem readAll_of_ended
    (atEnd : reader.file.length ≤ reader.position) : reader.readAll format = .ok ([], reader) := by
  rw [readAll_step, readNext, read_ended atEnd]

theorem readAll_records {file : Bytes} {position : Nat}
    (found : file.drop position = format.records entries)
    (accepted : ∀ entry ∈ entries, format.Accepts entry) :
    readAll format ⟨file, position⟩ =
      .ok (entries, ⟨file, position + (format.records entries).length⟩) := by
  induction entries generalizing position with
  | nil =>
    apply readAll_of_ended
    exact drop_eq_nil_iff.mp found
  | cons entry entries ih =>
    have later : file.drop (position + (format.record entry).length) = format.records entries := by
      rw [← drop_drop, found]
      exact drop_left' rfl
    rw [WalFormat.record] at later
    rw [readAll_step, readNext, read_frame found (accepted entry mem_cons_self)]
    simp only [format.roundTrip, ih later (forall_mem_cons.mp accepted).2,
      format.records_cons, length_append, Nat.add_assoc]
    rfl

end PerCoreWalReader

/-- Read the segment of a core; the entries and the position after them. -/
def readSegment (format : WalFormat) (segments : Nat → Option Bytes)
    (startingPositions : List Nat) (core : Nat) :
    Except PerCoreWalError (List PerCoreWalEntry × Nat) :=
  match segments core with
  | none => .ok ([], 0)
  | some file =>
    (PerCoreWalReader.readAll format ⟨file, startingPositions[core]?.getD 0⟩).map
      fun (entries, reader) => (entries, reader.position)

/-- `read_all_segments`: the entries of all segments in the order of their replay, and the
positions after them. -/
def readAllSegments (format : WalFormat) (numCores : Nat) (segments : Nat → Option Bytes)
    (startingPositions : List Nat) : Except PerCoreWalError (List PerCoreWalEntry × List Nat) :=
  (Result.collect (readSegment format segments startingPositions) (range numCores)).map
    fun read => ((read.flatMap Prod.fst).insertionSort PerCoreWalEntry.Precedes, read.map Prod.snd)

structure StateChange where
  key : Bytes
  value : Option Bytes
  epoch : Nat
  coreId : Nat
deriving DecidableEq

def PerCoreWalEntry.stateChange (entry : PerCoreWalEntry) : Option StateChange :=
  match entry.operation with
  | .put key value => some ⟨key, some value, entry.epoch, entry.coreId⟩
  | .delete key => some ⟨key, none, entry.epoch, entry.coreId⟩
  | _ => none

structure PerCoreRecoveredState (Base : Type) where
  baseState : Base
  stateChanges : List StateChange
  walPositions : List Nat
  entriesReplayed : Nat
  finalEpoch : Nat

def replayed {Base : Type} (baseState : Base) (baseEpoch : Nat) (entries : List PerCoreWalEntry)
    (walPositions : List Nat) : PerCoreRecoveredState Base where
  baseState := baseState
  stateChanges := entries.filterMap PerCoreWalEntry.stateChange
  walPositions := walPositions
  entriesReplayed := entries.length
  finalEpoch := entries.foldl (fun epoch entry => max epoch entry.epoch) baseEpoch

/-- `recover_from_positions`, over the base state that was recovered. -/
def recoverFromPositions {Base : Type} (format : WalFormat) (numCores : Nat)
    (segments : Nat → Option Bytes) (baseState : Base) (baseEpoch : Nat) (positions : List Nat) :
    Except PerCoreWalError (PerCoreRecoveredState Base) :=
  let startingPositions := if positions.length = numCores then positions else replicate numCores 0
  (readAllSegments format numCores segments startingPositions).map
    fun (entries, walPositions) => replayed baseState baseEpoch entries walPositions

end LaminarDB.Storage
