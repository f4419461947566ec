import Mathlib

/-!
# Logs of framed records

A record is the length of its data and a checksum of the data, four bytes each with the lowest
byte first, and the data. A reader at a byte position finds a record, the end of the log, or
one of the ways in which the bytes there are not a record.
-/

namespace LaminarDB.Library.FramedLog

open List

variable (number : Nat)

/-- The four bytes of a number, the lowest first. Higher bytes are dropped. -/
def wordBytes : List UInt8 :=
  [.ofNat number, .ofNat (number / 256), .ofNat (number / 65536), .ofNat (number / 16777216)]

def wordAt : List UInt8 → Nat
  | first :: second :: third :: fourth :: _ =>
    first.toNat + 256 * second.toNat + 65536 * third.toNat + 16777216 * fourth.toNat
  | _ => 0

@[simp]
theorem length_wordBytes : (wordBytes number).length = 4 := rfl

theorem wordAt_wordBytes {rest : List UInt8} :
    wordAt (wordBytes number ++ rest) = number % 2 ^ 32 := by
  simp only [wordBytes, cons_append, wordAt, UInt8.toNat_ofNat']
  omega

structure Framing where
  checksum : List UInt8 → UInt32
  limit : Nat
  /-- A length that is accepted has not been cut to four bytes. -/
  limitFits : limit < 2 ^ 32

variable (framing : Framing)

def frame (data : List UInt8) : List UInt8 :=
  wordBytes data.length ++ (wordBytes (framing.checksum data).toNat ++ data)

variable (records : List (List UInt8))

def frames : List UInt8 :=
  records.flatMap (frame framing)

variable (records : List (List UInt8))

section

variable (data : List UInt8)

@[simp]
theorem length_frame : (frame framing data).length = 8 + data.length := by
  simp only [frame, length_append, length_wordBytes]
  omega

@[simp]
theorem frames_nil : frames framing [] = [] := rfl

@[simp]
theorem frames_cons :
    frames framing (data :: records) = frame framing data ++ frames framing records := rfl

theorem frames_append (records others : List (List UInt8)) :
    frames framing (records ++ others) = frames framing records ++ frames framing others :=
  flatMap_append

theorem frames_concat :
    frames framing (records ++ [data]) = frames framing records ++ frame framing data := by
  simp only [frames, flatMap_append, flatMap_singleton]

end

variable {records : List (List UInt8)}

theorem frames_eq_nil (empty : frames framing records = []) : records = [] := by
  cases records with
  | nil => rfl
  | cons data records =>
    have lengths := congrArg length empty
    simp only [frames_cons, length_append, length_frame, length_nil] at lengths
    omega

inductive Reading where
  | record (data : List UInt8)
  | ended
  | tornHeader (remaining : Nat)
  | tooLong (length : Nat)
  | tornData (remaining length : Nat)
  | mismatch (expected actual : UInt32)

/-- Read the bytes at a position. The result has the position after what was read. -/
def read (log : List UInt8) (position : Nat) : Reading × Nat :=
  let remaining := log.length - position
  if remaining = 0 then (.ended, position)
  else if remaining < 8 then (.tornHeader remaining, position)
  else
    let length := wordAt (log.drop position)
    let expected := UInt32.ofNat (wordAt (log.drop (position + 4)))
    let available := log.length - (position + 8)
    if framing.limit < length then (.tooLong length, position + 8)
    else if available < length then (.tornData available length, position + 8)
    else
      let data := (log.drop (position + 8)).take length
      if framing.checksum data = expected then (.record data, position + 8 + length)
      else (.mismatch expected (framing.checksum data), position + 8 + length)

variable {framing} {position next : Nat} {log data rest bytes : List UInt8}

theorem read_ended (atEnd : log.length ≤ position) :
    read framing log position = (.ended, position) := by
  rw [read, if_pos (by omega)]

theorem ended_of_read
    (isRead : read framing log position = (.ended, next)) : log.length ≤ position := by
  simp only [read] at isRead
  split_ifs at isRead with noneLeft
  · exact Nat.sub_eq_zero_iff_le.mp noneLeft
  all_goals cases isRead

variable {position after : Nat}

section

variable (found : log.drop position = frame framing data ++ rest)

include found

theorem read_frame (accepted : data.length ≤ framing.limit) :
    read framing log position = (.record data, position + (frame framing data).length) := by
  have fits := framing.limitFits
  have lengths := congrArg length found
  simp only [length_drop, length_append, length_frame] at lengths
  have lengthWord : wordAt (log.drop position) = data.length := by
    rw [found, frame, append_assoc, wordAt_wordBytes, Nat.mod_eq_of_lt (by omega)]
  have afterLength : log.drop (position + 4) =
      wordBytes (framing.checksum data).toNat ++ (data ++ rest) := by
    rw [← drop_drop, found, frame, append_assoc, append_assoc]
    exact drop_left' rfl
  have checksumWord : UInt32.ofNat (wordAt (log.drop (position + 4))) = framing.checksum data := by
    rw [afterLength, wordAt_wordBytes, Nat.mod_eq_of_lt (framing.checksum data).toNat_lt]
    exact UInt32.ofNat_toNat
  have dataRead : (log.drop (position + 8)).take data.length = data := by
    have split : position + 8 = position + 4 + 4 := rfl
    rw [split, ← drop_drop, afterLength, drop_left' (length_wordBytes _)]
    exact take_left' rfl
  simp only [read, lengthWord, checksumWord, dataRead]
  rw [if_neg (by omega), if_neg (by omega), if_neg (by omega), if_neg (by omega), if_pos trivial]
  rw [length_frame, Nat.add_assoc]

theorem drop_frame : log.drop (position + (frame framing data).length) = rest := by
  rw [← drop_drop, found]
  exact drop_left' rfl

end

theorem read_frame_long (long : framing.limit < data.length) (rejects : 2 ^ 32 ≤ data.length →
      framing.checksum (data.take (data.length % 2 ^ 32)) ≠ framing.checksum data)
    (found : List UInt8) (next : Nat) :
    read framing (frame framing data ++ rest) 0 ≠ (.record found, next) := by
  have lengthWord : wordAt (frame framing data ++ rest) = data.length % 2 ^ 32 := by
    rw [frame, append_assoc, wordAt_wordBytes]
  have checksumWord : UInt32.ofNat (wordAt ((frame framing data ++ rest).drop 4)) =
      framing.checksum data := by
    rw [frame, append_assoc, drop_left' (length_wordBytes _), append_assoc,
      wordAt_wordBytes, Nat.mod_eq_of_lt (framing.checksum data).toNat_lt]
    exact UInt32.ofNat_toNat
  have dataRead : (frame framing data ++ rest).drop 8 = data ++ rest := by
    rw [frame, append_assoc, show 8 = 4 + 4 from rfl, ← drop_drop, drop_left' (length_wordBytes _),
      append_assoc, drop_left' (length_wordBytes _)]
  have cut : data.length % 2 ^ 32 ≤ data.length := Nat.mod_le _ _
  intro isRead
  simp only [read, Nat.zero_add, drop_zero, lengthWord, checksumWord, dataRead,
    take_append_of_le_length cut] at isRead
  split_ifs at isRead with noneLeft noHeader tooLong torn checked
  · cases isRead
  · cases isRead
  · cases isRead
  · cases isRead
  · refine rejects ?_ checked
    by_contra short
    rw [Nat.mod_eq_of_lt (Nat.not_le.mp short)] at tooLong
    exact tooLong long
  · cases isRead

theorem read_record_advances (isRead : read framing log position = (.record data, after)) :
    position < after ∧ after ≤ log.length := by
  simp only [read] at isRead
  split_ifs at isRead with noneLeft noHeader tooLong torn checked <;> cases isRead
  omega

theorem read_short (short : log.length - position < 8) :
    (read framing log position).2 = position := by
  simp only [read]
  split_ifs <;> rfl

theorem read_header (header : 8 ≤ log.length - position) :
    position + 8 ≤ (read framing log position).2 := by
  simp only [read]
  split_ifs <;> omega

variable (framing log) in
/-- How many bytes are left when, reading on over everything, no header is left. -/
def unread (position : Nat) : Nat :=
  if _header : 8 ≤ log.length - position then unread (read framing log position).2
  else log.length - position
termination_by log.length - position
decreasing_by
  have advanced := @read_header framing log position _header
  omega

theorem unread_read : unread framing log (read framing log position).2 =
    unread framing log position := by
  by_cases header : 8 ≤ log.length - position
  · conv_rhs => rw [unread, dif_pos header]
  · rw [read_short (Nat.lt_of_not_le header)]

theorem read_drop :
    read framing log position = ((read framing (log.drop position) 0).1,
      position + (read framing (log.drop position) 0).2) := by
  have less : log.length - position - 8 = log.length - (position + 8) := by omega
  simp only [read, length_drop, drop_drop, Nat.zero_add, Nat.sub_zero, Nat.add_zero, less]
  split_ifs <;> simp only [Nat.add_assoc, Nat.add_zero]

theorem wordAt_lt : wordAt bytes < 2 ^ 32 := by
  unfold wordAt
  split
  · rename_i first second third fourth rest
    have firstLt := first.toNat_lt
    have secondLt := second.toNat_lt
    have thirdLt := third.toNat_lt
    have fourthLt := fourth.toNat_lt
    omega
  · decide

theorem wordBytes_wordAt (long : 4 ≤ bytes.length) : wordBytes (wordAt bytes) = bytes.take 4 := by
  unfold wordAt
  split
  · rename_i first second third fourth rest
    have firstLt := first.toNat_lt
    have secondLt := second.toNat_lt
    have thirdLt := third.toNat_lt
    have fourthLt := fourth.toNat_lt
    simp only [wordBytes, take_succ_cons, take_zero, cons.injEq, and_true,
      ← UInt8.toNat_inj, UInt8.toNat_ofNat']
    omega
  · rename_i short
    match bytes, long with
    | first :: second :: third :: fourth :: rest, _ =>
      exact absurd rfl (short first second third fourth rest)

theorem read_record (isRead : read framing log 0 = (.record data, after)) :
    log = frame framing data ++ log.drop after ∧ data.length ≤ framing.limit := by
  simp only [read, Nat.zero_add, Nat.sub_zero, drop_zero] at isRead
  split_ifs at isRead with noneLeft noHeader tooLong torn checked <;> cases isRead
  have sized : ((log.drop 8).take (wordAt log)).length = wordAt log := by
    rw [length_take, length_drop]
    omega
  have checksum : wordBytes (framing.checksum ((log.drop 8).take (wordAt log))).toNat =
      (log.drop 4).take 4 := by
    rw [checked, UInt32.toNat_ofNat', Nat.mod_eq_of_lt wordAt_lt, wordBytes_wordAt]
    rw [length_drop]
    omega
  refine ⟨?_, by omega⟩
  calc log = log.take 4 ++ ((log.drop 4).take 4 ++ ((log.drop 8).take (wordAt log) ++
        log.drop (8 + wordAt log))) := by
          rw [← drop_drop, take_append_drop, show 8 = 4 + 4 from rfl,
            ← drop_drop, take_append_drop, take_append_drop]
    _ = frame framing ((log.drop 8).take (wordAt log)) ++ log.drop (8 + wordAt log) := by
          rw [frame, sized, checksum, wordBytes_wordAt (by omega), append_assoc, append_assoc]

variable (framing) in
/-- The data of the records at the start of a log, and what stands behind them. -/
def scan (log : List UInt8) : List (List UInt8) × List UInt8 :=
  match _found : read framing log 0 with
  | (.record data, next) => ((scan (log.drop next)).1.cons data, (scan (log.drop next)).2)
  | _ => ([], log)
termination_by log.length
decreasing_by
  all_goals
    have advanced := read_record_advances _found
    rw [length_drop]
    omega

theorem scan_of_record (found : read framing log 0 = (.record data, next)) :
    scan framing log =
      ((scan framing (log.drop next)).1.cons data, (scan framing (log.drop next)).2) := by
  rw [scan]
  split
  · rename_i data' next' found'
    cases found'.symm.trans found
    rfl
  · next notRecord => exact absurd found (notRecord data next)

theorem scan_of_stop (stops : ∀ data next, read framing log 0 ≠ (.record data, next)) :
    scan framing log = ([], log) := by
  rw [scan]
  split
  · next data next found => exact absurd found (stops data next)
  · rfl

theorem scan_nil : scan framing [] = ([], []) :=
  scan_of_stop fun _ _ found => nomatch congrArg Prod.fst found

/-- Records of accepted lengths are scanned, and then what stands behind them. -/
theorem scan_frames (accepted : ∀ data ∈ records, data.length ≤ framing.limit) (rest : List UInt8) :
    scan framing (frames framing records ++ rest) =
      (records ++ (scan framing rest).1, (scan framing rest).2) := by
  induction records with
  | nil => rfl
  | cons data records ih =>
    have whole : frames framing (data :: records) ++ rest =
        frame framing data ++ (frames framing records ++ rest) := by
      rw [frames_cons, append_assoc]
    have found := @read_frame framing _ data _ 0 (drop_zero.trans whole)
      (accepted data mem_cons_self)
    rw [scan_of_record found, whole, Nat.zero_add, drop_left' rfl,
      ih (forall_mem_cons.mp accepted).2]
    rfl

theorem read_frame_tooLong (long : framing.limit < data.length) (fits : data.length < 2 ^ 32) :
    read framing (frame framing data ++ rest) 0 = (.tooLong data.length, 8) := by
  have lengthWord : wordAt (frame framing data ++ rest) = data.length := by
    rw [frame, append_assoc, wordAt_wordBytes, Nat.mod_eq_of_lt fits]
  simp only [read, Nat.zero_add, drop_zero, Nat.sub_zero, length_append, length_frame, lengthWord]
  rw [if_neg (by omega), if_neg (by omega), if_pos long]

theorem accepted_or_tooLong (rest : List UInt8) (fits : ∀ data ∈ records, data.length < 2 ^ 32) :
    (∀ data ∈ records, data.length ≤ framing.limit) ∨ ∃ length next,
      read framing (scan framing (frames framing records ++ rest)).2 0 =
        (.tooLong length, next) := by
  induction records with
  | nil => exact .inl (forall_mem_nil _)
  | cons data records ih =>
    obtain ⟨firstFits, othersFit⟩ := forall_mem_cons.mp fits
    rw [frames_cons, append_assoc]
    rcases Nat.lt_or_ge framing.limit data.length with long | short
    · have isRead := @read_frame_tooLong framing data
          (frames framing records ++ rest) long firstFits
      rw [scan_of_stop fun _ _ found => nomatch isRead.symm.trans found]
      exact .inr ⟨_, _, isRead⟩
    · have first := scan_frames (forall_mem_singleton.mpr short) (frames framing records ++ rest)
      rw [frames_cons, frames_nil, append_nil] at first
      rw [first]
      exact (ih othersFit).imp_left fun others => forall_mem_cons.mpr ⟨short, others⟩

/-- A log is the records that are scanned, and behind them bytes that are not a record. -/
theorem scan_spec (log : List UInt8) :
    log = frames framing (scan framing log).1 ++ (scan framing log).2 ∧
      (∀ data ∈ (scan framing log).1, data.length ≤ framing.limit) ∧
      ∀ data next, read framing (scan framing log).2 0 ≠ (.record data, next) := by
  induction log using (measure length).wf.induction with
  | _ log ih =>
    by_cases found : ∃ data next, read framing log 0 = (.record data, next)
    · obtain ⟨data, next, found⟩ := found
      obtain ⟨whole, accepted⟩ := read_record found
      have advanced := read_record_advances found
      obtain ⟨rest, allAccepted, stops⟩ := ih (log.drop next)
        (by change (log.drop next).length < _; rw [length_drop]; omega)
      rw [scan_of_record found]
      refine ⟨?_, forall_mem_cons.mpr ⟨accepted, allAccepted⟩, stops⟩
      rw [frames_cons, append_assoc, ← rest]
      exact whole
    · have stops : ∀ data next, read framing log 0 ≠ (.record data, next) :=
        fun data next isRead => found ⟨data, next, isRead⟩
      rw [scan_of_stop stops]
      exact ⟨rfl, forall_mem_nil _, stops⟩

theorem scan_isPrefix (log : List UInt8) : frames framing (scan framing log).1 <+: log :=
  ⟨_, (scan_spec log).1.symm⟩

variable (framing) in
/-- How many records stand whole in the first bytes of a log. -/
def wholeIn : Nat → List (List UInt8) → Nat
  | _, [] => 0
  | length, data :: records =>
    if (frame framing data).length ≤ length
    then wholeIn (length - (frame framing data).length) records + 1
    else 0

theorem wholeIn_frames :
    wholeIn framing (frames framing records).length records = records.length := by
  induction records with
  | nil => rfl
  | cons data records ih =>
    rw [frames_cons, length_append, wholeIn, if_pos (Nat.le_add_right _ _),
      Nat.add_sub_cancel_left, ih]
    rfl

theorem read_frame_take {length : Nat} (accepted : data.length ≤ framing.limit)
    (cut : length < (frame framing data).length) (found : List UInt8) (next : Nat) :
    read framing ((frame framing data ++ rest).take length) 0 ≠ (.record found, next) := by
  intro isRead
  have fits := framing.limitFits
  obtain ⟨whole, short⟩ := read_record isRead
  have lengths := congrArg List.length whole
  rw [length_take, length_append, length_append, length_frame, length_frame] at lengths
  rw [length_frame] at cut
  have split : length = (wordBytes data.length).length + (length - 4) := by
    rw [length_wordBytes]
    omega
  have word : wordAt ((frame framing data ++ rest).take length) = data.length % 2 ^ 32 := by
    rw [frame, append_assoc, split, take_length_add_append, wordAt_wordBytes]
  rw [whole, frame, append_assoc, wordAt_wordBytes] at word
  omega

theorem scan_take (accepted : ∀ data ∈ records, data.length ≤ framing.limit) (length : Nat) :
    (scan framing ((frames framing records).take length)).1 =
      records.take (wholeIn framing length records) := by
  induction records generalizing length with
  | nil => rw [frames_nil, take_nil, scan_nil, take_nil]
  | cons data records ih =>
    obtain ⟨first, others⟩ := forall_mem_cons.mp accepted
    rw [frames_cons, wholeIn]
    split
    · rename_i fits
      obtain ⟨more, rfl⟩ := Nat.exists_eq_add_of_le fits
      have scanned := scan_frames (forall_mem_singleton.mpr first)
        ((frames framing records).take more)
      rw [frames_cons, frames_nil, append_nil] at scanned
      rw [take_length_add_append, scanned, ih others, Nat.add_sub_cancel_left]
      rfl
    · next cut => rw [scan_of_stop (read_frame_take first (Nat.not_le.mp cut)), take_zero]

end LaminarDB.Library.FramedLog
