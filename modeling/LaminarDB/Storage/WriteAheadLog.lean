import LaminarDB.Storage.Wal

/-!
# The write-ahead log of one file

`WriteAheadLog` and `WalReader`. `repair` validates the records of the file and cuts it behind
the last valid one. File operations succeed, and positions are natural numbers.
-/

namespace LaminarDB.Storage

open Library List FramedLog CoreWalWriter
open Library.FramedLog

inductive WalEntry where
  | put (key value : Bytes)
  | delete (key : Bytes)
  | checkpoint (id : Nat)
  | commit (offsets : List (String × Nat)) (watermark : Option Int)
deriving DecidableEq, Encodable

/-- How entries are written: `rkyv` and `crc32c`. -/
structure WalEntryFormat where
  serialize : WalEntry → Bytes
  deserialize : Bytes → Except String WalEntry
  crc32c : Bytes → UInt32
  roundTrip : ∀ entry, deserialize (serialize entry) = .ok entry

theorem maxEntrySize_fits : 256 * 1024 * 1024 < 2 ^ 32 := by decide

/-- `MAX_WAL_ENTRY_SIZE` is 256 MiB. -/
def WalEntryFormat.framing (format : WalEntryFormat) : Framing where
  checksum := format.crc32c
  limit := 256 * 1024 * 1024
  limitFits := maxEntrySize_fits

/-- `WalError`, of which `unexpectedEof` is the only kind of `Io` that arises. -/
inductive WalError where
  | unexpectedEof
  | serialization (message : String)
  | deserialization (message : String)
  | corrupted (position : Nat) (reason : String)
  | checksumMismatch (position : Nat) (expected actual : UInt32)
  | tornWrite (position : Nat) (reason : String)
deriving DecidableEq

open WalError

namespace WalError

def headerReason (remaining : Nat) : String :=
  "incomplete header: only " ++ toString remaining ++ " bytes remaining, need 8"

def dataReason (remaining length : Nat) : String :=
  "incomplete data: only " ++ toString remaining ++ " bytes remaining, need " ++ toString length

def lengthReason (length : Nat) : String :=
  "[LDB-6006] WAL entry length " ++ toString length ++
    " exceeds maximum 268435456 bytes — likely corrupted"

end WalError

structure WalReader where
  file : Bytes
  position : Nat
deriving DecidableEq

open WalReader

namespace WalReader

inductive WalReadResult where
  | entry (entry : WalEntry)
  | eof
  | tornWrite (position : Nat) (reason : String)
  | checksumMismatch (position : Nat) (expected actual : UInt32)
  | corrupted (position : Nat) (reason : String)
deriving DecidableEq

/-- `read_next`: what is found, and the reader after it. -/
def readNext (format : WalEntryFormat) (reader : WalReader) :
    Except WalError (WalReadResult × WalReader) :=
  match read format.framing reader.file reader.position with
  | (.record data, next) =>
    match format.deserialize data with
    | .ok entry => .ok (.entry entry, { reader with position := next })
    | .error message => .error (.deserialization message)
  | (.ended, next) => .ok (.eof, { reader with position := next })
  | (.tornHeader remaining, next) =>
    .ok (.tornWrite reader.position (headerReason remaining), { reader with position := next })
  | (.tooLong length, next) =>
    .ok (.corrupted reader.position (lengthReason length), { reader with position := next })
  | (.tornData remaining length, next) =>
    .ok (.tornWrite reader.position (dataReason remaining length), { reader with position := next })
  | (.mismatch expected actual, next) =>
    .ok (.checksumMismatch reader.position expected actual, { reader with position := next })

/-- A reader finds the entries, one after the other, and then the end. -/
def ReadsAs (format : WalEntryFormat) (reader : WalReader) : List WalEntry → Prop
  | [] => ∃ next, reader.readNext format = .ok (.eof, next)
  | entry :: entries =>
    ∃ next, reader.readNext format = .ok (.entry entry, next) ∧ ReadsAs format next entries

end WalReader

/-- The position counts the bytes of the file and of the buffer. -/
structure WriteAheadLog where
  file : Bytes
  buffered : Bytes
  position : Nat
  positioned : position = file.length + buffered.length

open WriteAheadLog

variable {position : Nat} {format : WalEntryFormat} {file : Bytes}

namespace WriteAheadLog

theorem length_unbuffered (file : Bytes) : file.length = file.length + ([] : Bytes).length := rfl

def new (file : Bytes) : WriteAheadLog where
  file := file
  buffered := []
  position := file.length
  positioned := length_unbuffered file

def contents (log : WriteAheadLog) : Bytes := log.file ++ log.buffered

def sync (log : WriteAheadLog) : WriteAheadLog where
  file := log.contents
  buffered := []
  position := log.position
  positioned := by rw [log.positioned, contents, length_append]; rfl

/-- `append`: the log, and the position of the record. It is synced if that is due. -/
def append (format : WalEntryFormat) (due : Bool) (entry : WalEntry) (log : WriteAheadLog) :
    Except WalError (WriteAheadLog × Nat) :=
  let bytes := format.serialize entry
  if 2 ^ 32 ≤ bytes.length then
    .error (.serialization
      ("Entry too large: " ++ toString bytes.length ++ " bytes (max 4294967295)"))
  else
    let written : WriteAheadLog := {
      file := log.file
      buffered := log.buffered ++ frame format.framing bytes
      position := log.position + (8 + bytes.length)
      positioned := by rw [log.positioned, length_append, length_frame, Nat.add_assoc] }
    .ok (if due then written.sync else written, log.position)

def readFrom (position : Nat) (log : WriteAheadLog) : WalReader := ⟨log.file, position⟩

def truncate (position : Nat) (log : WriteAheadLog) : WriteAheadLog where
  file := setLen position log.sync.file
  buffered := []
  position := position
  positioned := length_setLen.symm

/-- `validate_record`: the size of the record at a position. -/
def validateRecord (format : WalEntryFormat) (file : Bytes) (position : Nat) :
    Except WalError Nat :=
  match (read format.framing file position).1 with
  | .record data => .ok (8 + data.length)
  | .ended => .error .unexpectedEof
  | .tornHeader remaining => .error (.tornWrite position (headerReason remaining))
  | .tooLong length => .error (.corrupted position (lengthReason length))
  | .tornData remaining length => .error (.tornWrite position (dataReason remaining length))
  | .mismatch expected actual => .error (.checksumMismatch position expected actual)

theorem validateRecord_ok {size : Nat} (valid : validateRecord format file position = .ok size) :
    ∃ data, read format.framing file position = (.record data, position + size) := by
  rw [validateRecord, read_drop] at valid
  rw [read_drop]
  rcases isRead : read format.framing (file.drop position) 0 with ⟨reading, next⟩
  rw [isRead] at valid
  cases reading with cases valid
  | record data =>
    obtain ⟨whole, accepted⟩ := read_record isRead
    have again := @read_frame format.framing _ data _ 0 (drop_zero.trans whole) accepted
    rw [length_frame, Nat.zero_add] at again
    cases again.symm.trans isRead
    exact ⟨data, rfl⟩

/-- The loop of `repair`: the end of the valid records. -/
def validPosition (format : WalEntryFormat) (file : Bytes) (position : Nat) : Except WalError Nat :=
  match _valid : validateRecord format file position with
  | .ok size => validPosition format file (position + size)
  | .error (.tornWrite _ _) => .ok position
  | .error (.checksumMismatch _ _ _) => .ok position
  | .error .unexpectedEof => .ok position
  | .error error => .error error
termination_by file.length - position
decreasing_by
  obtain ⟨data, isRead⟩ := validateRecord_ok _valid
  have advanced := read_record_advances isRead
  omega

/-- `repair`: the log, and the end of its last valid record. -/
def repair (format : WalEntryFormat) (log : WriteAheadLog) :
    Except WalError (WriteAheadLog × Nat) :=
  (validPosition format log.sync.file 0).map fun position =>
    (if position < log.sync.file.length then log.sync.truncate position else log.sync, position)

/-- Entries are appended, each with whether a sync is due after it. -/
def appendAll (format : WalEntryFormat) :
    List (WalEntry × Bool) → WriteAheadLog → Except WalError WriteAheadLog
  | [], log => .ok log
  | (entry, due) :: entries, log =>
    match log.append format due entry with
    | .error error => .error error
    | .ok (next, _) => next.appendAll format entries

end WriteAheadLog

theorem WalReader.readNext_frame {data rest : Bytes}
    (found : file.drop position = frame format.framing data ++ rest)
    (accepted : data.length ≤ format.framing.limit) :
    readNext format ⟨file, position⟩ = match format.deserialize data with
      | .ok entry =>
        .ok (.entry entry, ⟨file, position + (frame format.framing data).length⟩)
      | .error message => .error (.deserialization message) := by
  rw [readNext, read_frame found accepted]

theorem WalReader.of_readNext {reader next : WalReader} {result : WalReadResult}
    (isRead : reader.readNext format = .ok (result, next)) :
    (result = .eof → reader.file.length ≤ reader.position) ∧
      ∀ entry, result = .entry entry → ∃ data,
        read format.framing reader.file reader.position = (.record data, next.position) ∧
          format.deserialize data = .ok entry ∧ next.file = reader.file := by
  rw [readNext] at isRead
  split at isRead
  · rename_i data after found
    split at isRead <;> cases isRead
    rename_i entry decoded
    refine ⟨nofun, fun other same => ?_⟩
    cases same
    exact ⟨data, found, decoded, rfl⟩
  · next after found => exact ⟨fun _ => ended_of_read found, by cases isRead; nofun⟩
  all_goals
    cases isRead
    exact ⟨nofun, nofun⟩

variable {entries : List WalEntry}

theorem WalReader.readsAs_iff :
    ReadsAs format ⟨file, position⟩ entries ↔ ∃ records,
      file.drop position = frames format.framing records ∧
        (∀ data ∈ records, data.length ≤ format.framing.limit) ∧
          Forall₂ (fun data entry => format.deserialize data = .ok entry) records entries := by
  induction entries generalizing position with
  | nil =>
    constructor
    · rintro ⟨next, isRead⟩
      have ended := (of_readNext isRead).1 rfl
      exact ⟨[], drop_eq_nil_iff.mpr ended, forall_mem_nil _, .nil⟩
    · rintro ⟨records, found, _, decoded⟩
      cases decoded
      exact ⟨_, by rw [readNext, read_ended (drop_eq_nil_iff.mp found)]⟩
  | cons entry entries ih =>
    constructor
    · rintro ⟨⟨sameFile, after⟩, isRead, later⟩
      obtain ⟨data, found, decoded, isFile⟩ := (of_readNext isRead).2 entry rfl
      change sameFile = file at isFile
      subst isFile
      rw [read_drop] at found
      obtain ⟨isRecord, isAfter⟩ := Prod.mk.inj found
      subst isAfter
      obtain ⟨whole, accepted⟩ := read_record (Prod.ext isRecord rfl)
      obtain ⟨records, rest, othersAccepted, areEntries⟩ := ih.mp later
      refine ⟨data :: records, ?_, forall_mem_cons.mpr ⟨accepted, othersAccepted⟩,
        .cons decoded areEntries⟩
      rw [frames_cons, ← rest, ← drop_drop]
      exact whole
    · rintro ⟨_, found, accepted, decoded⟩
      cases decoded with
      | @cons data _ records _ isEntry areEntries =>
        obtain ⟨firstAccepted, othersAccepted⟩ := forall_mem_cons.mp accepted
        refine ⟨⟨file, position + (frame format.framing data).length⟩, ?_, ih.mpr
          ⟨records, ?_, othersAccepted, areEntries⟩⟩
        · rw [readNext_frame found firstAccepted, isEntry]
        · rw [← drop_drop, found, frames_cons]
          exact drop_left' rfl

variable (format entries) in
def WalEntryFormat.records : Bytes :=
  frames format.framing (entries.map format.serialize)

variable {records : List Bytes} {writes : List (WalEntry × Bool)}

namespace WriteAheadLog

theorem validPosition_frames {rest : Bytes}
    (found : file.drop position = frames format.framing records ++ rest)
    (accepted : ∀ data ∈ records, data.length ≤ format.framing.limit)
    (stops : ∀ data next, read format.framing rest 0 ≠ (.record data, next)) :
    validPosition format file position = match (read format.framing rest 0).1 with
      | .tooLong length =>
        .error (.corrupted (position + (frames format.framing records).length)
          (lengthReason length))
      | _ => .ok (position + (frames format.framing records).length) := by
  induction records generalizing position with
  | nil =>
    rw [frames_nil, nil_append] at found
    rw [validPosition, validateRecord, read_drop, found]
    rcases isRead : read format.framing rest 0 with ⟨reading, next⟩
    cases reading with
    | record data => exact absurd isRead (stops data next)
    | ended | tornHeader | tooLong | tornData | mismatch => rfl
  | cons data records ih =>
    obtain ⟨firstAccepted, othersAccepted⟩ := forall_mem_cons.mp accepted
    rw [frames_cons, append_assoc] at found
    have later : file.drop (position + (8 + data.length)) =
        frames format.framing records ++ rest := by
      rw [← length_frame format.framing, ← drop_drop, found]
      exact drop_left' rfl
    rw [validPosition, validateRecord, read_frame found firstAccepted]
    change validPosition format file (position + (8 + data.length)) = _
    rw [ih later othersAccepted, frames_cons, length_append, length_frame, Nat.add_assoc]

def StartsTooLong (format : WalEntryFormat) (bytes : Bytes) : Prop :=
  ∃ length next, read format.framing bytes 0 = (.tooLong length, next)

theorem validPosition_eq :
    (∀ position, validPosition format file 0 = .ok position →
      ¬StartsTooLong format (scan format.framing file).2) ∧
      (¬StartsTooLong format (scan format.framing file).2 →
        validPosition format file 0 =
          .ok (frames format.framing (scan format.framing file).1).length) := by
  obtain ⟨whole, accepted, stops⟩ := @scan_spec format.framing file
  rw [validPosition_frames (drop_zero.trans whole) accepted stops, Nat.zero_add]
  rcases isRead : read format.framing (scan format.framing file).2 0 with ⟨reading, next⟩
  cases reading with
  | tooLong length => exact ⟨nofun, fun notLong => absurd ⟨length, next, isRead⟩ notLong⟩
  | record | ended | tornHeader | tornData | mismatch =>
    exact ⟨fun _ _ ⟨_, _, tooLong⟩ => (nomatch isRead.symm.trans tooLong), fun _ => rfl⟩

theorem repair_new (notLong : ¬StartsTooLong format (scan format.framing file).2) :
    ∃ repaired position, (new file).repair format = .ok (repaired, position) ∧
      repaired.file = frames format.framing (scan format.framing file).1 ∧
        repaired.buffered = [] := by
  have isPrefix := @scan_isPrefix format.framing file
  have isFile : (new file).sync.file = file := append_nil file
  refine ⟨_, _, by rw [repair, isFile, validPosition_eq.2 notLong]; rfl, ?_⟩
  split_ifs with shorter
  · refine ⟨?_, rfl⟩
    change setLen _ (file ++ [] ++ []) = _
    rw [append_nil, append_nil, setLen_of_isPrefix isPrefix]
  · exact ⟨isFile.trans (isPrefix.eq_of_length_le (Nat.not_lt.mp shorter)).symm, rfl⟩

theorem notLong_of_repair {result : WriteAheadLog × Nat}
    (repaired : (new file).repair format = .ok result) :
    ¬StartsTooLong format (scan format.framing file).2 := by
  obtain ⟨position, isPosition, _⟩ := Result.map_eq_ok repaired
  have isFile : (new file).sync.file = file := append_nil file
  exact validPosition_eq.1 position (isFile ▸ isPosition)

theorem contents_of_flushed (log : WriteAheadLog) (flushed : log.buffered = []) :
    log.contents = log.file := by
  rw [contents, flushed, append_nil]

theorem readFrom_sync {log : WriteAheadLog} : log.sync.readFrom 0 = ⟨log.contents, 0⟩ := rfl

theorem appendAll_ok (accepted : ∀ write ∈ writes, (format.serialize write.1).length < 2 ^ 32)
    (log : WriteAheadLog) :
    ∃ after, log.appendAll format writes = .ok after ∧
      after.contents = log.contents ++ format.records (writes.map Prod.fst) := by
  induction writes generalizing log with
  | nil => exact ⟨log, rfl, (append_nil _).symm⟩
  | cons write writes ih =>
    obtain ⟨firstAccepted, othersAccepted⟩ := forall_mem_cons.mp accepted
    obtain ⟨next, isNext, contents⟩ : ∃ next, log.append format write.2 write.1 =
        .ok (next, log.position) ∧
          next.contents = log.contents ++ frame format.framing (format.serialize write.1) := by
      refine ⟨_, if_neg (Nat.not_le.mpr firstAccepted), ?_⟩
      cases write.2 with
      | false => exact (append_assoc _ _ _).symm
      | true => exact (append_nil _).trans (append_assoc _ _ _).symm
    obtain ⟨after, isAfter, whole⟩ := ih othersAccepted next
    refine ⟨after, by rw [appendAll, isNext]; exact isAfter, ?_⟩
    rw [whole, contents, append_assoc]
    rfl

end WriteAheadLog

/-- Entries are appended and synced, a crash leaves a tail, and the log is repaired: it reads as
the entries and those of the tail, and entries that are appended then are read behind them. -/
def Repairs (format : WalEntryFormat) (writes more : List (WalEntry × Bool)) (tail : Bytes) :
    Prop :=
  ∃ log repaired position later after,
    (new []).appendAll format writes = .ok log ∧
    (new (log.sync.file ++ tail)).repair format = .ok (repaired, position) ∧
    Forall₂ (fun data entry => format.deserialize data = .ok entry)
      (scan format.framing tail).1 later ∧
    ReadsAs format (repaired.readFrom 0) (writes.map Prod.fst ++ later) ∧
    repaired.appendAll format more = .ok after ∧
    ReadsAs format (after.sync.readFrom 0) (writes.map Prod.fst ++ later ++ more.map Prod.fst)

/-- Every entry is small enough to be read, every valid record of the tail is one of an entry, and
no length behind these records is too great. -/
structure Repairable (format : WalEntryFormat) (writes more : List (WalEntry × Bool))
    (tail : Bytes) : Prop where
  short : ∀ write ∈ writes ++ more, (format.serialize write.1).length ≤ 256 * 1024 * 1024
  decodes : ∀ data ∈ (scan format.framing tail).1, ∃ entry, format.deserialize data = .ok entry
  notLong : ¬StartsTooLong format (scan format.framing tail).2

theorem forall₂_serialize (entries : List WalEntry) :
    Forall₂ (fun data entry => format.deserialize data = .ok entry)
      (entries.map format.serialize) entries :=
  forall₂_map_left_iff.mpr (forall₂_same.mpr fun entry _ => format.roundTrip entry)

theorem scan_records_append
    (short : ∀ entry ∈ entries, (format.serialize entry).length ≤ 256 * 1024 * 1024)
    (rest : Bytes) :
    scan format.framing (format.records entries ++ rest) =
      (entries.map format.serialize ++ (scan format.framing rest).1,
        (scan format.framing rest).2) := by
  apply scan_frames
  simp only [forall_mem_map]
  exact short

section

variable (accepted : ∀ write ∈ writes, (format.serialize write.1).length < 2 ^ 32)

include accepted

theorem short_or_startsTooLong (rest : Bytes) :
    (∀ write ∈ writes, (format.serialize write.1).length ≤ 256 * 1024 * 1024) ∨
      StartsTooLong format
        (scan format.framing (format.records (writes.map Prod.fst) ++ rest)).2 := by
  have either := @accepted_or_tooLong format.framing ((writes.map Prod.fst).map format.serialize)
    rest
  simp only [forall_mem_map] at either
  exact either accepted

theorem short_of_readsAs (recordsShort : ∀ data ∈ records, data.length ≤ format.framing.limit)
    (reads : ReadsAs format
      ⟨frames format.framing records ++ format.records (writes.map Prod.fst), 0⟩ entries) :
    ∀ write ∈ writes, (format.serialize write.1).length ≤ 256 * 1024 * 1024 := by
  obtain ⟨found, isFound, foundShort, _⟩ := readsAs_iff.mp reads
  rw [drop_zero] at isFound
  have scanned := @scan_frames format.framing found foundShort []
  rw [append_nil, ← isFound, scan_frames recordsShort, scan_nil] at scanned
  have ended := (Prod.mk.inj scanned).2
  refine (short_or_startsTooLong accepted []).resolve_right ?_
  rw [append_nil, ended]
  rintro ⟨length, next, isRead⟩
  cases isRead.symm.trans (read_ended (Nat.zero_le 0))

end

/-- What the log accepts is repaired just if the reader accepts it as well and the tail has
neither another record nor too great a length. -/
theorem repairs_iff (writes more : List (WalEntry × Bool)) (tail : Bytes)
    (accepted : ∀ write ∈ writes ++ more, (format.serialize write.1).length < 2 ^ 32) :
    Repairs format writes more tail ↔ Repairable format writes more tail := by
  obtain ⟨writesAccepted, moreAccepted⟩ := forall_mem_append.mp accepted
  obtain ⟨log, isLog, contents⟩ := appendAll_ok writesAccepted (new [])
  have isFile : log.sync.file = format.records (writes.map Prod.fst) := contents
  constructor
  · rintro ⟨log', repaired, position, later, after, isLog', isRepaired, decoded, _, isAfter, reads⟩
    cases isLog.symm.trans isLog'
    rw [isFile] at isRepaired
    have notLong := notLong_of_repair isRepaired
    have writesShort := (short_or_startsTooLong writesAccepted tail).resolve_right notLong
    have scanned := scan_records_append (forall_mem_map.mpr writesShort) tail
    rw [scanned] at notLong
    obtain ⟨repaired', position', isRepaired', file, buffered⟩ :=
      @repair_new format (format.records (writes.map Prod.fst) ++ tail)
        (by rw [scanned]; exact notLong)
    cases isRepaired.symm.trans isRepaired'
    obtain ⟨after', isAfter', appended⟩ := appendAll_ok moreAccepted repaired
    cases isAfter.symm.trans isAfter'
    rw [readFrom_sync, appended, repaired.contents_of_flushed buffered, file] at reads
    have moreShort := short_of_readsAs moreAccepted (@scan_spec format.framing _).2.1 reads
    refine ⟨forall_mem_append.mpr ⟨writesShort, moreShort⟩, ?_, notLong⟩
    exact Result.collect_isOk_iff.mp ⟨later, Result.collect_eq_ok_iff.mpr decoded⟩
  · intro repairable
    obtain ⟨writesShort, moreShort⟩ := forall_mem_append.mp repairable.short
    have scanned := scan_records_append (forall_mem_map.mpr writesShort) tail
    obtain ⟨repaired, position, isRepaired, file, buffered⟩ :=
      @repair_new format (format.records (writes.map Prod.fst) ++ tail)
        (by rw [scanned]; exact repairable.notLong)
    obtain ⟨after, isAfter, appended⟩ := appendAll_ok moreAccepted repaired
    obtain ⟨later, collected⟩ := Result.collect_isOk_iff.mpr repairable.decodes
    have decoded := Result.collect_eq_ok_iff.mp collected
    have recordsShort := (@scan_spec format.framing
      (format.records (writes.map Prod.fst) ++ tail)).2.1
    rw [scanned] at file recordsShort
    have areEntries := rel_append (forall₂_serialize (writes.map Prod.fst)) decoded
    refine ⟨log, repaired, position, later, after, isLog, isFile ▸ isRepaired, decoded,
      readsAs_iff.mpr ⟨_, file, recordsShort, areEntries⟩, isAfter,
      readsAs_iff.mpr ⟨_, ?_, forall_mem_append.mpr ⟨recordsShort, ?_⟩,
        rel_append areEntries (forall₂_serialize _)⟩⟩
    · rw [frames_append, drop_zero, ← file, ← repaired.contents_of_flushed buffered]
      exact appended
    · simp only [forall_mem_map]
      exact moreShort

def markedEntryFormat : WalEntryFormat where
  serialize := NumberedCode.write
  deserialize := NumberedCode.read
  crc32c := NumberedCode.checksum
  roundTrip := NumberedCode.read_write

theorem repairs_iff_cut :
    Repairs markedEntryFormat [(.delete [], true)] [(.checkpoint 3, false)] [9, 0, 0] := by
  have stops : ∀ data next, read markedEntryFormat.framing [9, 0, 0] 0 ≠
      (.record data, next) := fun _ _ found => nomatch congrArg Prod.fst found
  have short : ∀ write ∈ [(.delete [], true)] ++ [(.checkpoint 3, false)],
      (markedEntryFormat.serialize write.1).length ≤ 256 * 1024 * 1024 :=
    forall_mem_cons.mpr ⟨by decide +kernel, forall_mem_singleton.mpr (by decide +kernel)⟩
  refine (repairs_iff _ _ _ fun write among => (short write among).trans_lt (by decide)).mpr
    ⟨short, ?_, ?_⟩
  · rw [scan_of_stop stops]
    exact forall_mem_nil _
  · rw [scan_of_stop stops]
    exact fun ⟨_, _, tooLong⟩ => nomatch congrArg Prod.fst tooLong

/-- A repair fails at a length field that is over the limit. -/
theorem not_repairs_length :
    ¬Repairs markedEntryFormat [] [] (replicate 8 255) := by
  rintro ⟨log, repaired, position, later, after, isLog, isRepaired, _⟩
  cases isLog
  have isRead : read markedEntryFormat.framing (replicate 8 255) 0 = (.tooLong 4294967295, 8) := rfl
  refine notLong_of_repair isRepaired ⟨4294967295, 8, ?_⟩
  rw [show (new []).sync.file ++ replicate 8 255 = replicate 8 255 from rfl,
    scan_of_stop fun _ _ found => nomatch isRead.symm.trans found]
  exact isRead

end LaminarDB.Storage
