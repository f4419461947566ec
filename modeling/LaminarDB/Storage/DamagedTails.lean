import LaminarDB.Storage.WalReopen
import LaminarDB.Storage.WriteAheadLog

/-!
# Damaged tails

The iterator over `PerCoreWalReader`, the reading of a `WalReader` up to its last entry, and the
positions that `PerCoreRecoveryManager::read_all_segments` reports. A reader stays where it finds
less than a header, so that its iterator gives the same error for ever. Behind a header it has
moved, also if no record follows, so that its position is not the end of the last entry.
-/

namespace LaminarDB.Storage

open Library Result List FramedLog CoreWalWriter

/-- An iteration gives finitely many items, and each of them raises the position or is the last. -/
inductive Finishes {Reader Item : Type} (next : Reader → Option Item × Reader)
    (position : Reader → Nat) : Reader → Prop
  | ended {reader} : (next reader).1 = none → Finishes next position reader
  | item {reader} : position reader < position (next reader).2 ∨ (next (next reader).2).1 = none →
      Finishes next position (next reader).2 → Finishes next position reader

inductive WalItemError where
  | tornWrite (coreId position : Nat) (reason : String)
  | checksumMismatch (coreId position : Nat) (expected actual : UInt32)
  | corrupted (coreId position : Nat) (reason : String)
  | read (error : PerCoreWalError)
deriving DecidableEq

namespace PerCoreWalReader

/-- `Iterator::next`. The reader has moved also where it cannot deserialize an entry. -/
def next (format : WalFormat) (coreId : Nat) (reader : PerCoreWalReader) :
    Option (Except WalItemError PerCoreWalEntry) × PerCoreWalReader :=
  (match reader.readNext format with
    | .ok (.entry entry, _) => some (.ok entry)
    | .ok (.eof, _) => none
    | .ok (.tornWrite position reason, _) => some (.error (.tornWrite coreId position reason))
    | .ok (.checksumMismatch position expected actual, _) =>
      some (.error (.checksumMismatch coreId position expected actual))
    | .ok (.corrupted position reason, _) => some (.error (.corrupted coreId position reason))
    | .error error => some (.error (.read error)),
  { reader with position := (read format.framing reader.file reader.position).2 })

variable {format : WalFormat} {coreId : Nat} {reader : PerCoreWalReader}

theorem next_eq_none_iff :
    (reader.next format coreId).1 = none ↔ reader.file.length ≤ reader.position := by
  refine ⟨fun ended => ?_, fun atEnd => ?_⟩
  · rcases found : read format.framing reader.file reader.position with ⟨reading, after⟩
    cases reading with
    | ended => exact ended_of_read found
    | record data =>
      cases decoded : format.deserialize data with
      | error | ok => simp only [next, readNext, found, decoded] at ended; cases ended
    | _ => simp only [next, readNext, found] at ended; cases ended
  · simp only [next, readNext, read_ended atEnd]

theorem finishes_iff :
    Finishes (next format coreId) position reader ↔
      unread format.framing reader.file reader.position = 0 := by
  constructor
  · intro finishes
    induction finishes with
    | ended atEnd =>
      rw [unread, dif_neg] <;> rw [next_eq_none_iff] at atEnd <;> omega
    | item _ _ ih => exact unread_read.symm.trans ih
  · intro noneLeft
    induction left : reader.file.length - reader.position using Nat.strongRecOn
      generalizing reader with
    | _ _ ih =>
      by_cases header : 8 ≤ reader.file.length - reader.position
      · have moved := @read_header format.framing _ _ header
        refine .item (.inl (Nat.lt_of_lt_of_le (Nat.lt_add_of_pos_right (by decide)) moved))
          (ih _ ?_ (unread_read.trans noneLeft) rfl)
        simp only [next]
        omega
      · rw [unread, dif_neg header] at noneLeft
        exact .ended (next_eq_none_iff.mpr (Nat.sub_eq_zero_iff_le.mp noneLeft))

end PerCoreWalReader

/-- Reading a single log up to the first result that is not an entry. -/
def WalReader.nextEntry (format : WalEntryFormat) (reader : WalReader) :
    Option WalEntry × WalReader :=
  match reader.readNext format with
  | .ok (.entry entry, after) => (some entry, after)
  | _ => (none, reader)

theorem WalReader.finishes (format : WalEntryFormat) (reader : WalReader) :
    Finishes (nextEntry format) WalReader.position reader := by
  induction left : reader.file.length - reader.position using Nat.strongRecOn
    generalizing reader with
  | _ _ ih =>
    cases isRead : (nextEntry format reader).1 with
    | none => exact .ended isRead
    | some entry =>
      obtain ⟨after, isAfter⟩ : ∃ after, reader.readNext format = .ok (.entry entry, after) := by
        rw [nextEntry] at isRead
        split at isRead <;> cases isRead
        exact ⟨_, ‹_›⟩
      obtain ⟨data, found, _, sameFile⟩ := (of_readNext isAfter).2 entry rfl
      obtain ⟨further, within⟩ := read_record_advances found
      have isNext : (nextEntry format reader).2 = after := by rw [nextEntry, isAfter]
      refine .item (.inl (isNext ▸ further)) (ih _ ?_ _ rfl)
      rw [isNext, sameFile]
      omega

/-- The entries of a single log come to an end. The items of a core do just if, reading on over
everything, no bytes are left that are too few for a header. -/
theorem iterations_finish_iff (format : WalFormat) (logFormat : WalEntryFormat) (coreId : Nat)
    (file : Bytes) (position : Nat) :
    (Finishes (PerCoreWalReader.next format coreId) PerCoreWalReader.position ⟨file, position⟩ ∧
        Finishes (WalReader.nextEntry logFormat) WalReader.position ⟨file, position⟩) ↔
      unread format.framing file position = 0 := by
  rw [PerCoreWalReader.finishes_iff, and_iff_left (WalReader.finishes logFormat _)]

/-- A single byte is an error without end. -/
theorem iteration_not_finishes :
    ¬Finishes (PerCoreWalReader.next markedFormat 0) PerCoreWalReader.position ⟨[1], 0⟩ := by
  rw [PerCoreWalReader.finishes_iff, unread]
  decide

/-- The records from a position on, up to the first bytes that are not one. -/
def recordsFrom (format : WalFormat) (file : Bytes) (start : Nat) : List Bytes :=
  (scan format.framing (file.drop start)).1

/-- A position just behind the last of the entries that were returned from a start on. A writer
that is opened there keeps what stands before the start and the records of these entries. -/
structure Resumable (format : WalFormat) (file : Bytes) (start : Nat)
    (entries : List PerCoreWalEntry) (position : Nat) : Prop where
  returned : collect format.decode (recordsFrom format file start) = .ok entries
  behind : position = start + (frames format.framing (recordsFrom format file start)).length
  kept : ∀ coreId, (openAt coreId file position).contents =
    file.take start ++ frames format.framing (recordsFrom format file start)

variable {format : WalFormat} {numCores start core : Nat} {segments : Nat → Option Bytes}
  {startingPositions : List Nat} {file : Bytes} {entries : List PerCoreWalEntry}

theorem Resumable.of_returned (within : start ≤ file.length)
    (returned : collect format.decode (recordsFrom format file start) = .ok entries) :
    Resumable format file start entries
      (start + (frames format.framing (recordsFrom format file start)).length) := by
  refine ⟨returned, rfl, fun coreId => ?_⟩
  have whole : file.drop start = frames format.framing (recordsFrom format file start) ++ _ :=
    (scan_spec (file.drop start)).1
  have lengths := congrArg length whole
  rw [length_drop, length_append] at lengths
  rw [show (openAt coreId file _).contents = setLen _ file from append_nil _,
    setLen_of_le (by omega), take_add, whole]
  exact congrArg (file.take start ++ ·) (take_left' rfl)

theorem Resumable.start_le {position : Nat}
    (resumable : Resumable format file start entries position) : start ≤ file.length := by
  have lengths := congrArg length (resumable.kept 0)
  rw [show (openAt 0 file _).contents = setLen _ file from append_nil _, length_setLen,
    resumable.behind, length_append, length_take] at lengths
  omega

theorem readSegment_eq (isFile : segments core = some file)
    (isStart : startingPositions[core]?.getD 0 = start) :
    readSegment format segments startingPositions core =
      (collect format.decode (recordsFrom format file start)).map fun entries =>
        (entries, (read format.framing file
          (start + (frames format.framing (recordsFrom format file start)).length)).2) := by
  obtain ⟨whole, accepted, stops⟩ := @scan_spec format.framing (file.drop start)
  rw [readSegment, isFile, isStart]
  simp only [PerCoreWalReader.readAll_frames whole accepted stops]
  rw [recordsFrom]
  cases collect format.decode (scan format.framing (file.drop start)).1 with
  | error | ok => rfl

/-- The positions of all segments are resumable just if no start is behind the end of its segment
and nowhere as much as a header is left behind the last entry. -/
theorem positions_resumable_iff (format : WalFormat) (numCores : Nat)
    (segments : Nat → Option Bytes) (startingPositions : List Nat)
    (entries : List PerCoreWalEntry) (positions : List Nat)
    (isRead : readAllSegments format numCores segments startingPositions =
      .ok (entries, positions)) :
    (∀ core < numCores, ∀ file, segments core = some file → ∃ returned position,
        readSegment format segments startingPositions core = .ok (returned, position) ∧
          positions[core]? = some position ∧
            Resumable format file (startingPositions[core]?.getD 0) returned position) ↔
      ∀ core < numCores, ∀ file, segments core = some file →
        startingPositions[core]?.getD 0 ≤ file.length ∧
          (scan format.framing (file.drop (startingPositions[core]?.getD 0))).2.length < 8 := by
  obtain ⟨reads, areReads, same⟩ := map_eq_ok isRead
  obtain ⟨-, rfl⟩ := Prod.mk.inj same
  obtain ⟨sized, each⟩ := forall₂_iff_get.mp (collect_eq_ok_iff.mp areReads)
  refine forall₄_congr fun core isCore file isFile => ?_
  generalize isStart : startingPositions[core]?.getD 0 = start
  have isRange : core < (range numCores).length := length_range.symm ▸ isCore
  have isSegment := each core isRange (sized ▸ isRange)
  rw [get_eq_getElem, getElem_range, get_eq_getElem] at isSegment
  have lengths := congrArg length (@scan_spec format.framing (file.drop start)).1
  rw [length_drop, length_append, ← recordsFrom] at lengths
  have isPosition := readSegment_eq isFile isStart ▸ isSegment
  obtain ⟨returned, decoded, isReturned⟩ := map_eq_ok isPosition
  rw [← isReturned] at isSegment
  constructor
  · rintro ⟨_, _, isRead, _, resumable⟩
    cases isSegment.symm.trans isRead
    refine ⟨resumable.start_le, ?_⟩
    by_contra long
    have moved := @read_header format.framing file
      (start + (frames format.framing (recordsFrom format file start)).length) (by omega)
    exact absurd (resumable.behind ▸ moved) (by omega)
  · rintro ⟨within, short⟩
    have stays := @read_short format.framing file
      (start + (frames format.framing (recordsFrom format file start)).length) (by omega)
    rw [stays] at isSegment isReturned
    refine ⟨_, _, isSegment, ?_, .of_returned within decoded⟩
    rw [getElem?_map, getElem?_eq_getElem (sized ▸ isRange), ← isReturned]
    rfl

theorem readAllSegments_of_stop {tail : Bytes} (isStart : startingPositions[0]?.getD 0 = start)
    (isRest : file.drop start = format.records entries ++ tail)
    (accepted : ∀ entry ∈ entries, format.Accepts entry)
    (stops : ∀ data next, read format.framing tail 0 ≠ (.record data, next)) :
    scan format.framing (file.drop start) = (entries.map format.serialize, tail) ∧
      readAllSegments format 1 (fun _ => some file) startingPositions =
        .ok (entries.insertionSort PerCoreWalEntry.Precedes,
          [(read format.framing file (start + (format.records entries).length)).2]) := by
  have scanned : scan format.framing (file.drop start) = (entries.map format.serialize, tail) := by
    rw [isRest, scan_records accepted, scan_of_stop stops, append_nil]
  have isSegment := @readSegment_eq format start 0 (fun _ => some file) _ file rfl isStart
  rw [recordsFrom, scanned, format.collect_decode_serialize] at isSegment
  refine ⟨scanned, ?_⟩
  rw [readAllSegments, range_one, collect, isSegment]
  simp only [Except.map, collect, flatMap_cons, flatMap_nil, append_nil, map_cons, map_nil]
  rfl

def deletion (sequence : Nat) : PerCoreWalEntry := ⟨0, sequence, 0, 5, .delete []⟩

/-- Two whole records and the start of a header. -/
def tornSegment : Bytes :=
  markedFormat.records [deletion 0] ++ (markedFormat.records [deletion 1] ++ [9, 0, 0])

theorem positions_resumable_iff_torn :
    ∃ position, readSegment markedFormat (fun _ => some tornSegment)
        [(markedFormat.records [deletion 0]).length] 0 = .ok ([deletion 1], position) ∧
      Resumable markedFormat tornSegment (markedFormat.records [deletion 0]).length
        [deletion 1] position := by
  have isRest : tornSegment.drop (markedFormat.records [deletion 0]).length =
      markedFormat.records [deletion 1] ++ [9, 0, 0] := drop_left' rfl
  have stops : ∀ data next, read markedFormat.framing [9, 0, 0] 0 ≠ (.record data, next) :=
    fun _ _ found => nomatch congrArg Prod.fst found
  obtain ⟨scanned, isRead⟩ := @readAllSegments_of_stop markedFormat
    (markedFormat.records [deletion 0]).length [(markedFormat.records [deletion 0]).length]
    tornSegment [deletion 1] _ rfl isRest (forall_mem_singleton.mpr (by decide +kernel)) stops
  have short : ∀ core < 1, ∀ file, some tornSegment = some file →
      [(markedFormat.records [deletion 0]).length][core]?.getD 0 ≤ file.length ∧
        (scan markedFormat.framing (file.drop
          ([(markedFormat.records [deletion 0]).length][core]?.getD 0))).2.length < 8 := by
    rintro core isCore _ ⟨⟩
    rw [Nat.lt_one_iff.mp isCore, getElem?_cons_zero, Option.getD_some, scanned]
    refine ⟨?_, by decide⟩
    rw [tornSegment, length_append]
    exact Nat.le_add_right _ _
  obtain ⟨returned, position, isSegment, -, resumable⟩ :=
    (positions_resumable_iff _ _ _ _ _ _ isRead).mpr short 0 Nat.one_pos _ rfl
  rw [getElem?_cons_zero, Option.getD_some] at resumable
  have isReturned := resumable.returned
  rw [recordsFrom, scanned, markedFormat.collect_decode_serialize] at isReturned
  cases isReturned
  exact ⟨position, isSegment, resumable⟩

/-- A header without its data is reported as read. -/
theorem positions_not_resumable :
    readAllSegments markedFormat 1 (fun _ => some (9 :: replicate 7 0)) [] = .ok ([], [8]) ∧
      ¬Resumable markedFormat (9 :: replicate 7 0) 0 [] 8 := by
  have stops : ∀ data next,
      read markedFormat.framing (9 :: replicate 7 0) 0 ≠ (.record data, next) :=
    fun _ _ found => nomatch congrArg Prod.fst found
  obtain ⟨scanned, isRead⟩ := @readAllSegments_of_stop markedFormat 0 [] (9 :: replicate 7 0) []
    _ rfl rfl (forall_mem_nil _) stops
  refine ⟨isRead, fun resumable => ?_⟩
  have behind := resumable.behind
  rw [recordsFrom, scanned] at behind
  cases behind

end LaminarDB.Storage
