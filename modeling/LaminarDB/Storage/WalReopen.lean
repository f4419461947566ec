import LaminarDB.Storage.Wal

/-!
# Segments that are opened again

`PerCoreWalReader::find_valid_end` and `PerCoreWalManager::open` read a segment up to the first
bytes that are not a record, and the writer goes on there.
-/

namespace LaminarDB.Storage

open Library Result List PerCoreWalReader CoreWalWriter
open FramedLog NumberedCode

namespace PerCoreWalReader

/-- The loop of `find_valid_end` and of `open`: the entries are folded, and the reader is left
before the first bytes that are not an entry. -/
def foldEntries {State : Type} (format : WalFormat) (change : State → PerCoreWalEntry → State)
    (state : State) (reader : PerCoreWalReader) :
    Except PerCoreWalError (State × PerCoreWalReader) :=
  match _found : reader.readNext format with
  | .error error => .error error
  | .ok (.entry entry, next) => foldEntries format change (change state entry) next
  | .ok (_, _) => .ok (state, reader)
termination_by reader.file.length - reader.position
decreasing_by
  obtain ⟨sameFile, advanced, within⟩ := readNext_entry _found
  rw [sameFile]
  omega

def findValidEnd (format : WalFormat) (reader : PerCoreWalReader) : Except PerCoreWalError Nat :=
  (reader.foldEntries format (fun _ _ => ()) ()).map (·.2.position)

end PerCoreWalReader

def CoreWalWriter.openAt (coreId : Nat) (file : Bytes) (position : Nat) : CoreWalWriter where
  coreId := coreId
  file := setLen position file
  buffered := []
  position := position
  syncedPosition := position
  epoch := 0
  sequence := 0
  positioned := length_setLen.symm

variable (format : WalFormat) {entries : List PerCoreWalEntry}

def CoreWalWriter.appendAll (entries : List PerCoreWalEntry)
    (writer : CoreWalWriter) : CoreWalWriter :=
  entries.foldl (fun writer entry => (writer.append format entry).1) writer

/-- The segment of a core is read up to its valid end, for its greatest epoch. -/
def scanSegment (segment : Nat → Bytes) (core : Nat) :
    Except PerCoreWalError (Nat × PerCoreWalReader) :=
  foldEntries format (fun epoch entry => max epoch entry.epoch) 0 ⟨segment core, 0⟩

/-- `PerCoreWalManager::open`, where the segment files of all cores exist. -/
def PerCoreWalManager.open (numCores : Nat) (segment : Nat → Bytes) :
    Except PerCoreWalError PerCoreWalManager :=
  match scanned : collect (scanSegment format segment) (range numCores) with
  | .error error => .error error
  | .ok scans => .ok {
      numCores := numCores
      writers := scans.mapIdx fun core scan => .openAt core scan.2.file scan.2.position
      globalEpoch := scans.foldl (fun epoch scan => max epoch scan.1) 0
      sized := by
        rw [length_mapIdx, ← (collect_eq_ok_iff.mp scanned).length_eq, length_range] }

namespace WalFormat

variable (format : WalFormat)

def decode (data : Bytes) : Except PerCoreWalError PerCoreWalEntry :=
  (format.deserialize data).mapError .deserialization

theorem collect_decode_serialize :
    collect format.decode (entries.map format.serialize) = .ok entries := by
  induction entries with
  | nil => rfl
  | cons entry entries ih =>
    have isEntry : format.decode (format.serialize entry) = .ok entry := by
      rw [decode, format.roundTrip]
      rfl
    rw [map_cons, collect, isEntry, ih]
    rfl

end WalFormat

variable {rest data tail file : Bytes}

namespace PerCoreWalReader

variable {format : WalFormat} {State : Type} {change : State → PerCoreWalEntry → State}
  {file : Bytes} {position : Nat}

theorem readNext_frame (found : file.drop position = frame format.framing data ++ rest)
    (accepted : data.length ≤ format.framing.limit) :
    readNext format ⟨file, position⟩ = (format.decode data).map fun entry =>
      (.entry entry, ⟨file, position + (frame format.framing data).length⟩) := by
  rw [readNext, read_frame found accepted, WalFormat.decode]
  cases decoded : format.deserialize data with
  | error | ok => simp only [decoded, Except.mapError, Except.map]

theorem readNext_stop
    (stops : ∀ data next, read format.framing (file.drop position) 0 ≠ (.record data, next)) :
    ∃ result, readNext format ⟨file, position⟩ =
        .ok (result, ⟨file, (read format.framing file position).2⟩) ∧
      ∀ entry, result ≠ .entry entry := by
  rw [readNext, read_drop]
  rcases found : read format.framing (file.drop position) 0 with ⟨reading, next⟩
  cases reading with
  | record data => exact absurd found (stops data next)
  | ended | tornHeader | tooLong | tornData | mismatch =>
    refine ⟨_, rfl, ?_⟩
    rintro entry ⟨⟩

variable (state : State)

theorem foldEntries_step (reader : PerCoreWalReader) :
    reader.foldEntries format change state =
      match reader.readNext format with
      | .error error => .error error
      | .ok (.entry entry, next) => next.foldEntries format change (change state entry)
      | .ok (_, _) => .ok (state, reader) := by
  rw [foldEntries]
  split <;> simp only [*]

variable {records : List Bytes}

section Frames

variable (found : file.drop position = frames format.framing records ++ rest)
  (accepted : ∀ data ∈ records, data.length ≤ format.framing.limit)
  (stops : ∀ data next, read format.framing rest 0 ≠ (.record data, next))

include found accepted stops

theorem foldEntries_frames :
    foldEntries format change state ⟨file, position⟩ =
      (collect format.decode records).map fun entries =>
        (entries.foldl change state,
          ⟨file, position + (frames format.framing records).length⟩) := by
  induction records generalizing position state with
  | nil =>
    obtain ⟨result, isRead, notEntry⟩ := @readNext_stop format file position (found ▸ stops)
    rw [foldEntries_step, isRead]
    cases result with
    | entry entry => exact absurd rfl (notEntry entry)
    | _ => rfl
  | cons data records ih =>
    rw [frames_cons, append_assoc] at found
    have later := drop_frame found
    rw [foldEntries_step, readNext_frame found (accepted data mem_cons_self), collect]
    cases format.decode data with
    | error error => rfl
    | ok entry =>
      simp only [Except.map, ih _ later (forall_mem_cons.mp accepted).2]
      cases collect format.decode records with
      | error error => rfl
      | ok entries =>
        rw [frames_cons, length_append, ← Nat.add_assoc]
        rfl

theorem readAll_frames :
    readAll format ⟨file, position⟩ = (collect format.decode records).map fun entries =>
      (entries, ⟨file, (read format.framing file
        (position + (frames format.framing records).length)).2⟩) := by
  induction records generalizing position with
  | nil =>
    obtain ⟨result, isRead, notEntry⟩ := @readNext_stop format file position (found ▸ stops)
    rw [readAll_step, isRead]
    cases result with
    | entry entry => exact absurd rfl (notEntry entry)
    | _ => rfl
  | cons data records ih =>
    rw [frames_cons, append_assoc] at found
    have rests := ih (drop_frame found) (forall_mem_cons.mp accepted).2
    rw [Nat.add_assoc, ← length_append, ← frames_cons] at rests
    rw [readAll_step, readNext_frame found (accepted data mem_cons_self), collect]
    cases format.decode data with
    | error error => rfl
    | ok entry =>
      simp only [Except.map, rests]
      cases collect format.decode records with
      | error | ok => rfl

end Frames

theorem readAll_eq (file : Bytes) :
    (readAll format ⟨file, 0⟩).map Prod.fst =
      collect format.decode (scan format.framing file).1 := by
  obtain ⟨whole, accepted, stops⟩ := @scan_spec format.framing file
  rw [readAll_frames (drop_zero.trans whole) accepted stops]
  cases collect format.decode (scan format.framing file).1 with
  | error | ok => rfl

theorem foldEntries_eq :
    foldEntries format change state ⟨file, 0⟩ =
      (collect format.decode (scan format.framing file).1).map fun entries =>
        (entries.foldl change state,
          ⟨file, (frames format.framing (scan format.framing file).1).length⟩) := by
  obtain ⟨whole, accepted, stops⟩ := @scan_spec format.framing file
  rw [foldEntries_frames state (drop_zero.trans whole) accepted stops, Nat.zero_add]

end PerCoreWalReader

variable (format : WalFormat)

/-- The synced entries are read back with what follows them; the valid end is that of the last
record; and entries that are appended to the opened segment are read back behind them. -/
structure Survives (manager : PerCoreWalManager) (core : Nat) (file : Bytes)
    (entries later more : List PerCoreWalEntry) : Prop where
  read : (readAll format ⟨file, 0⟩).map Prod.fst = .ok (entries ++ later)
  validEnd : ∃ records, findValidEnd format ⟨file, 0⟩ =
      .ok (frames format.framing records).length ∧ frames format.framing records <+: file ∧
    collect format.decode records = .ok (entries ++ later)
  appended : ∃ writer, manager.writers[core]? = some writer ∧
    (readAll format
      ⟨(writer.appendAll format more).sync.file, 0⟩).map Prod.fst = .ok (entries ++ later ++ more)

/-- The segment of a core after entries were appended and synced and a crash left a tail. -/
def crashed (core : Nat) (entries : List PerCoreWalEntry) (tail : Bytes) : Bytes :=
  ((new core []).appendAll format entries).sync.file ++ tail

/-- The manager opens the segments that a crash left, and each of them survives. -/
def CrashSafe (numCores : Nat) (entries more : Nat → List PerCoreWalEntry)
    (tail : Nat → Bytes) : Prop :=
  ∃ manager, PerCoreWalManager.open format numCores
      (fun core => crashed format core (entries core) (tail core)) = .ok manager ∧
    ∀ core < numCores, ∃ later, Survives format manager core
      (crashed format core (entries core) (tail core)) (entries core) later (more core)

/-- Every entry is small enough to be read, and every record of the tail, its checksum being
valid, is one of an entry. -/
def Readable (entries more : List PerCoreWalEntry) (tail : Bytes) : Prop :=
  (∀ entry ∈ entries ++ more, format.Accepts entry) ∧
    ∀ data ∈ (scan format.framing tail).1, ∃ entry, format.deserialize data = .ok entry

/-- The checksum rejects a payload whose length was cut to four bytes. -/
def WalFormat.RejectsCut : Prop :=
  ∀ entry, 2 ^ 32 ≤ (format.serialize entry).length →
    format.crc32c ((format.serialize entry).take ((format.serialize entry).length % 2 ^ 32)) ≠
      format.crc32c (format.serialize entry)

section

variable {format : WalFormat} {entry : PerCoreWalEntry}

theorem decode_eq_ok : format.decode data = .ok entry ↔ format.deserialize data = .ok entry :=
  mapError_eq_ok

variable {manager : PerCoreWalManager} {segment : Nat → Bytes} {more : List PerCoreWalEntry}
  {numCores core : Nat}

theorem scan_records (accepted : ∀ entry ∈ entries, format.Accepts entry) (rest : Bytes) :
    scan format.framing (format.records entries ++ rest) =
      (entries.map format.serialize ++ (scan format.framing rest).1,
        (scan format.framing rest).2) := by
  apply scan_frames
  intro data isData
  obtain ⟨entry, among, rfl⟩ := mem_map.mp isData
  exact accepted entry among

theorem scan_too_long (rejects : format.RejectsCut) (long : ¬format.Accepts entry) :
    (scan format.framing (format.record entry ++ rest)).1 = [] := by
  have stops := @read_frame_long format.framing (format.serialize entry) rest
    (Nat.not_le.mp long) (rejects entry)
  exact congrArg Prod.fst (scan_of_stop stops)

theorem accepts_of_read (rejects : format.RejectsCut) {list : List PerCoreWalEntry}
    (read : collect format.decode (scan format.framing (format.records entries ++ rest)).1 =
      .ok list) (whole : entries.length ≤ list.length) :
    ∀ entry ∈ entries, format.Accepts entry := by
  induction entries generalizing list with
  | nil => exact forall_mem_nil _
  | cons entry entries ih =>
    rw [format.records_cons, append_assoc] at read
    by_cases accepted : format.Accepts entry
    · have first := scan_records (forall_mem_singleton.mpr accepted)
        (format.records entries ++ rest)
      rw [format.records_cons, format.records_nil, append_nil] at first
      rw [first] at read
      obtain ⟨rests, isRests, rfl⟩ : ∃ rests, collect format.decode
          (scan format.framing (format.records entries ++ rest)).1 = .ok rests ∧
            list = entry :: rests := by
        rw [collect_eq_ok_iff] at read
        cases read with
        | cons isFirst areRests =>
          rw [decode_eq_ok, format.roundTrip] at isFirst
          cases isFirst
          exact ⟨_, collect_eq_ok_iff.mpr areRests, rfl⟩
      exact forall_mem_cons.mpr ⟨accepted, ih isRests (Nat.le_of_succ_le_succ whole)⟩
    · rw [scan_too_long rejects accepted] at read
      cases read
      exact absurd whole (Nat.not_succ_le_zero _)

theorem contents_appendAll (writer : CoreWalWriter) :
    (writer.appendAll format more).sync.file = writer.contents ++ format.records more := by
  induction more generalizing writer with
  | nil => exact (append_nil _).symm
  | cons entry more ih =>
    refine (ih (writer.append format entry).1).trans ?_
    rw [contents_append, format.records_cons, append_assoc]

theorem crashed_eq : crashed format core entries tail = format.records entries ++ tail := by
  rw [crashed, contents_appendAll]
  rfl

theorem contents_openAt {coreId : Nat} :
    (openAt coreId file
      (frames format.framing (scan format.framing file).1).length).contents =
        frames format.framing (scan format.framing file).1 :=
  (append_nil _).trans (setLen_of_isPrefix (scan_isPrefix file))

theorem le_foldl_max {Item : Type} (size : Item → Nat) {items : List Item} (start : Nat) :
    start ≤ items.foldl (fun most item => max most (size item)) start ∧
      ∀ item ∈ items, size item ≤ items.foldl (fun most item => max most (size item)) start := by
  induction items generalizing start with
  | nil => exact ⟨le_rfl, forall_mem_nil _⟩
  | cons first items ih =>
    obtain ⟨atLeast, each⟩ := ih (max start (size first))
    exact ⟨le_of_max_le_left atLeast, forall_mem_cons.mpr ⟨le_of_max_le_right atLeast, each⟩⟩

section

variable (opened : PerCoreWalManager.open format numCores segment = .ok manager)

include opened

theorem open_spec (isCore : core < numCores) :
    (∃ entries, collect format.decode (scan format.framing (segment core)).1 = .ok entries ∧
      ∀ entry ∈ entries, entry.epoch ≤ manager.globalEpoch) ∧
    manager.writers[core]? = some (.openAt core (segment core)
      (frames format.framing (scan format.framing (segment core)).1).length) := by
  rw [PerCoreWalManager.open] at opened
  split at opened <;> cases opened
  rename_i scans scanned
  obtain ⟨sized, each⟩ := forall₂_iff_get.mp (collect_eq_ok_iff.mp scanned)
  have isRange : core < (range numCores).length := length_range.symm ▸ isCore
  have isScanned := each core isRange (sized ▸ isRange)
  rw [get_eq_getElem, getElem_range, get_eq_getElem, scanSegment, foldEntries_eq] at isScanned
  obtain ⟨entries, decoded, isScan⟩ := map_eq_ok isScanned
  have most := (le_foldl_max Prod.fst 0).2 _ (getElem_mem (sized ▸ isRange))
  rw [← isScan] at most
  refine ⟨⟨entries, decoded, fun entry among =>
    ((le_foldl_max PerCoreWalEntry.epoch 0).2 entry among).trans most⟩, ?_⟩
  rw [getElem?_mapIdx, getElem?_eq_getElem (sized ▸ isRange), ← isScan]
  rfl

theorem writer_of_open (isCore : core < numCores) :
    ∃ writer, manager.writers[core]? = some writer ∧
      writer.contents = frames format.framing (scan format.framing (segment core)).1 :=
  ⟨_, (open_spec opened isCore).2, contents_openAt⟩

end

theorem open_of_decoded (decoded : ∀ core < numCores, ∃ entries,
      collect format.decode (scan format.framing (segment core)).1 = .ok entries) :
    ∃ manager, PerCoreWalManager.open format numCores segment = .ok manager := by
  have scanned : ∀ core ∈ range numCores, ∃ scan, scanSegment format segment core = .ok scan := by
    intro core isCore
    obtain ⟨_, isDecoded⟩ := decoded core (mem_range.mp isCore)
    rw [scanSegment, foldEntries_eq, isDecoded]
    exact ⟨_, rfl⟩
  obtain ⟨scans, areScans⟩ := collect_isOk_iff.mpr scanned
  rw [PerCoreWalManager.open]
  split
  · next error failed => cases failed.symm.trans areScans
  · exact ⟨_, rfl⟩

theorem collect_records (accepted : ∀ entry ∈ entries, format.Accepts entry) :
    collect format.decode (scan format.framing (format.records entries ++ rest)).1 =
      (collect format.decode (scan format.framing rest).1).map (entries ++ ·) := by
  rw [scan_records accepted]
  exact collect_append (format.collect_decode_serialize)

theorem readAll_appended {writer : CoreWalWriter}
    (opened : writer.contents = frames format.framing (scan format.framing file).1)
    (decoded : collect format.decode (scan format.framing file).1 = .ok entries) :
    (readAll format
      ⟨(writer.appendAll format more).sync.file, 0⟩).map Prod.fst =
      (collect format.decode (scan format.framing (format.records more)).1).map (entries ++ ·) := by
  rw [readAll_eq, contents_appendAll, opened, scan_frames (@scan_spec format.framing file).2.1]
  exact collect_append decoded

variable {later : List PerCoreWalEntry}

theorem decoded_of_readable (readable : Readable format entries more tail) :
    ∃ later, collect format.decode
      (scan format.framing (format.records entries ++ tail)).1 = .ok (entries ++ later) := by
  obtain ⟨later, areLater⟩ := collect_isOk_iff.mpr fun data isData =>
    (readable.2 data isData).imp fun _ isEntry => decode_eq_ok.mpr isEntry
  rw [collect_records (forall_mem_append.mp readable.1).1, areLater]
  exact ⟨later, rfl⟩

variable (opened : ∃ writer, manager.writers[core]? = some writer ∧ writer.contents =
  frames format.framing (scan format.framing (format.records entries ++ tail)).1)

include opened in
theorem readable_of_survives (rejects : format.RejectsCut)
    (survives : Survives format manager core (format.records entries ++ tail) entries later more) :
    Readable format entries more tail := by
  have decoded := survives.read
  rw [readAll_eq] at decoded
  have accepted := accepts_of_read rejects decoded (length_append ▸ Nat.le_add_right _ _)
  obtain ⟨writer, isWriter, contents⟩ := opened
  obtain ⟨writer', isWriter', appended⟩ := survives.appended
  cases isWriter.symm.trans isWriter'
  rw [readAll_appended contents decoded] at appended
  obtain ⟨found, isFound, sameEntries⟩ := map_eq_ok appended
  cases append_cancel_left sameEntries
  rw [← append_nil (format.records more)] at isFound
  have alsoAccepted := accepts_of_read rejects isFound le_rfl
  refine ⟨fun entry among => (mem_append.mp among).elim (accepted entry) (alsoAccepted entry), ?_⟩
  rw [collect_records accepted] at decoded
  obtain ⟨records, areRecords, _⟩ := map_eq_ok decoded
  intro data isData
  obtain ⟨entry, isEntry⟩ := collect_isOk_iff.mp ⟨records, areRecords⟩ data isData
  exact ⟨entry, decode_eq_ok.mp isEntry⟩

include opened in
theorem survives_of_readable
    (readable : Readable format entries more tail) (decoded : collect format.decode
      (scan format.framing (format.records entries ++ tail)).1 = .ok (entries ++ later)) :
    Survives format manager core (format.records entries ++ tail) entries later more where
  read := (readAll_eq _).trans decoded
  validEnd := by
    refine ⟨(scan format.framing (format.records entries ++ tail)).1, ?_, scan_isPrefix _, decoded⟩
    rw [findValidEnd, foldEntries_eq, decoded]
    rfl
  appended := by
    obtain ⟨writer, isWriter, contents⟩ := opened
    refine ⟨writer, isWriter, ?_⟩
    have accepted := (forall_mem_append.mp readable.1).2
    rw [readAll_appended contents decoded, ← append_nil (format.records more),
      collect_records accepted, scan_nil]
    simp only [collect, Except.map, append_nil]

/-- A crash is survived just if every entry can be read and every record of the tail is one of an
entry. -/
theorem crashSafe_iff (rejects : format.RejectsCut) (numCores : Nat)
    (entries more : Nat → List PerCoreWalEntry) (tail : Nat → Bytes) :
    CrashSafe format numCores entries more tail ↔
      ∀ core < numCores, Readable format (entries core) (more core) (tail core) := by
  simp only [CrashSafe, crashed_eq]
  constructor
  · rintro ⟨manager, opened, each⟩ core isCore
    obtain ⟨later, survives⟩ := each core isCore
    exact readable_of_survives (writer_of_open opened isCore) rejects survives
  · intro readable
    obtain ⟨manager, opened⟩ := open_of_decoded fun core isCore =>
      (decoded_of_readable (readable core isCore)).imp' _ fun _ decoded => decoded
    refine ⟨manager, opened, fun core isCore => ?_⟩
    obtain ⟨later, decoded⟩ := decoded_of_readable (readable core isCore)
    exact ⟨later, survives_of_readable (writer_of_open opened isCore) (readable core isCore)
      decoded⟩

end

def markedFormat : WalFormat where
  serialize := write
  deserialize := read
  crc32c := checksum
  roundTrip := read_write

theorem markedFormat_rejectsCut : markedFormat.RejectsCut := by
  simp only [WalFormat.RejectsCut, markedFormat]
  intro entry long
  exact checksum_take ((Nat.mod_lt _ (Nat.two_pow_pos 32)).trans_le long)

theorem crashSafe_iff_cut :
    CrashSafe markedFormat 1 (fun _ => [⟨0, 0, 0, 5, .delete []⟩])
      (fun _ => [⟨0, 1, 0, 7, .delete []⟩]) fun _ => [9, 0, 0] := by
  refine (crashSafe_iff markedFormat_rejectsCut 1 _ _ _).mpr fun core isCore => ⟨?_, ?_⟩
  · exact forall_mem_cons.mpr ⟨by decide +kernel, forall_mem_singleton.mpr (by decide +kernel)⟩
  · have stops : ∀ data next, read markedFormat.framing [9, 0, 0] 0 ≠ (.record data, next) :=
      fun _ _ found => nomatch congrArg Prod.fst found
    intro data isData
    rw [scan_of_stop stops] at isData
    exact absurd isData not_mem_nil

/-- Zeros are a record of no bytes, with the checksum of no bytes, but not an entry. -/
theorem not_crashSafe_zeros :
    ¬CrashSafe markedFormat 1 (fun _ => [⟨0, 0, 0, 5, .delete []⟩]) (fun _ => [])
      fun _ => replicate 8 0 := by
  simp only [CrashSafe, crashed_eq]
  rintro ⟨manager, opened, each⟩
  obtain ⟨later, survives⟩ := each 0 Nat.one_pos
  have readable := readable_of_survives (writer_of_open opened Nat.one_pos)
    markedFormat_rejectsCut survives
  have isRecord : read markedFormat.framing (replicate 8 0) 0 = (.record [], 8) := rfl
  obtain ⟨entry, isEntry⟩ := readable.2 [] (by
    rw [scan_of_record isRecord]
    exact mem_cons_self)
  cases isEntry

end LaminarDB.Storage
