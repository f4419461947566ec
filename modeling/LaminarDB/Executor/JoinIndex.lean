import LaminarDB.Library.NestedLoop
import LaminarDB.Executor.IntervalJoin

/-!
# The live rows of a side of the interval join

What the index of a side says about its rows: adding a batch adds its rows with a key,
eviction removes the rows before the cutoff, compaction keeps the live rows, and a probe
finds the live rows with the same key in the interval, whatever the hash.
-/

namespace LaminarDB.Executor.IntervalJoin

open Library State List SideIndex

variable {Row Other : Type} {position : Position} {cutoff timestamp : I64}

abbrev IndexEntry := UInt64 × I64 × Position

def entryOf (hash : JoinKey → UInt64) (batchIdx : Nat) (row : JoinRow Row × Nat) :
    Option IndexEntry :=
  row.1.key.map fun key => (hash key, row.1.timestamp, (batchIdx, row.2))

theorem flatMap_filter {Item Part : Type} {keep : Item → Bool} {test : Part → Bool}
    {parts : Item → List Part} {items : List Item}
    (agree : ∀ item ∈ items, ∀ part ∈ parts item, test part = keep item) :
    (items.filter keep).flatMap parts = (items.flatMap parts).filter test := by
  induction items with
  | nil => rfl
  | cons item items ih =>
    have rest := ih (forall_mem_cons.mp agree).2
    have first := agree item mem_cons_self
    rw [flatMap_cons, filter_append, ← rest, filter_cons]
    cases kept : keep item with
    | true =>
      rw [if_pos rfl, flatMap_cons, filter_eq_self.mpr fun part mem => (first part mem).trans kept]
    | false =>
      rw [if_neg Bool.false_ne_true, filter_eq_nil_iff.mpr fun part mem holds =>
        Bool.false_ne_true (kept.symm.trans ((first part mem).symm.trans holds)),
        nil_append]

namespace SideIndex

def timeEntries (hash : UInt64) (times : SortedMap I64 (List Position)) : List IndexEntry :=
  times.entries.flatMap fun entry => entry.2.map fun position => (hash, entry.1, position)

variable (index : SideIndex)

def flat : List IndexEntry :=
  index.entries.flatMap fun times => timeEntries times.1 times.2

theorem positions_eq : index.positions = index.flat.map fun entry => entry.2.2 := by
  simp [positions, flat, timeEntries, map_flatMap, Function.comp_def]

variable (hash : UInt64) {times : SortedMap I64 (List Position)}

theorem timeEntries_insert :
    (timeEntries hash (times.insert timestamp
      ((times.find? timestamp).getD [] ++ [position]))).Perm
        ((hash, timestamp, position) :: timeEntries hash times) := by
  have inserted := (times.insert_perm timestamp
    ((times.find? timestamp).getD [] ++ [position])).flatMap_right
      fun entry => entry.2.map fun position => (hash, entry.1, position)
  have before := (times.erase_perm timestamp).flatMap_right
    fun entry => entry.2.map fun position => (hash, entry.1, position)
  refine inserted.trans (.trans ?_ (before.symm.cons _))
  rw [flatMap_cons, flatMap_append, map_append]
  cases times.find? timestamp with
  | none => exact .refl _
  | some positions =>
    simp only [Option.getD_some, Option.elim_some, flatMap_singleton, map_singleton,
      append_assoc, singleton_append]
    exact perm_middle

theorem flat_push :
    (index.push hash timestamp position).flat.Perm ((hash, timestamp, position) :: index.flat) := by
  have inserted := (index.insert_perm hash (((index.find? hash).getD .empty).insert timestamp
    ((((index.find? hash).getD .empty).find? timestamp).getD [] ++ [position]))).flatMap_right
      fun times => timeEntries times.1 times.2
  have before := (index.erase_perm hash).flatMap_right fun times => timeEntries times.1 times.2
  refine inserted.trans (.trans ?_ (before.symm.cons _))
  rw [flatMap_cons, flatMap_append, ← cons_append]
  refine ((timeEntries_insert hash).trans (.cons _ (.of_eq ?_))).append_right _
  cases index.find? hash with
  | none => rfl
  | some times => simp

theorem flat_pushRows (hash : JoinKey → UInt64) (batchIdx : Nat) (index : SideIndex) (rowIdx : Nat)
    (rows : JoinBatch Row) :
    (index.pushRows hash batchIdx rowIdx rows).flat.Perm
      (index.flat ++ (rows.zipIdx rowIdx).filterMap (entryOf hash batchIdx)) := by
  induction rows generalizing index rowIdx with
  | nil => simp [pushRows]
  | cons row rows ih =>
    rw [pushRows, zipIdx_cons, filterMap_cons]
    cases isKey : row.key with
    | none =>
      simp only [entryOf, isKey, Option.map_none]
      exact ih index (rowIdx + 1)
    | some key =>
      simp only [entryOf, isKey, Option.map_some]
      refine (ih _ (rowIdx + 1)).trans ?_
      refine ((flat_push index _).append_right _).trans ?_
      exact perm_middle.symm

theorem timeEntries_keepFrom :
    timeEntries hash (keepFrom cutoff times) =
      (timeEntries hash times).filter fun entry => cutoff ≤ entry.2.1 := by
  refine flatMap_filter fun entry _ part mem => ?_
  obtain ⟨position, -, rfl⟩ := mem_map.mp mem
  rfl

theorem flat_evict :
    (index.evict cutoff).flat = index.flat.filter fun entry => cutoff ≤ entry.2.1 := by
  have notEmpty : (index.evict cutoff).flat =
      (index.mapValues (keepFrom cutoff)).entries.flatMap fun times =>
        timeEntries times.1 times.2 := by
    have kept : ((index.mapValues (keepFrom cutoff)).entries.flatMap fun times =>
        timeEntries times.1 times.2).filter (fun _ => true) = _ := filter_true _
    refine .trans (flatMap_filter fun times _ part mem => ?_) kept
    obtain ⟨entry, isEntry, -⟩ := mem_flatMap.mp mem
    simp [ne_nil_of_mem isEntry]
  rw [notEmpty, KeyedMap.mapValues, flatMap_map, flat, filter_flatMap]
  simp only [timeEntries_keepFrom]

theorem probe_perm (timestamp boundMs : I64) :
    let probed (entry : IndexEntry) : Bool := entry.1 = hash &&
      (timestamp.saturatingSub boundMs ≤ entry.2.1 && entry.2.1 ≤ timestamp.saturatingAdd boundMs)
    (index.probe hash timestamp boundMs).Perm
      ((index.flat.filter probed).map fun entry => entry.2.2) := by
  intro probed
  have parts := (index.erase_perm hash).flatMap_right fun times => timeEntries times.1 times.2
  refine .trans (.of_eq ?_) ((parts.filter probed).map fun entry => entry.2.2).symm
  have others : ((index.erase hash).entries.flatMap fun times =>
      timeEntries times.1 times.2).filter probed = [] := by
    refine filter_eq_nil_iff.mpr fun entry mem holds => ?_
    obtain ⟨times, isOther, inTimes⟩ := mem_flatMap.mp mem
    obtain ⟨time, -, isEntry⟩ := mem_flatMap.mp inTimes
    obtain ⟨position, -, rfl⟩ := mem_map.mp isEntry
    have same : times.1 = hash := of_decide_eq_true (Bool.and_eq_true_iff.mp holds).1
    exact of_decide_eq_true (mem_filter.mp isOther).2 same
  rw [flatMap_append, filter_append, others, append_nil, probe]
  cases index.find? hash with
  | none => rfl
  | some times =>
    simp only [Option.elim_some, flatMap_singleton]
    have inside : timeEntries hash ⟨times.entries.filter fun entry =>
        timestamp.saturatingSub boundMs ≤ entry.1 && entry.1 ≤ timestamp.saturatingAdd boundMs,
        times.sorted.sublist (filter_sublist.map _)⟩ =
        (timeEntries hash times).filter probed := by
      refine flatMap_filter fun entry _ part mem => ?_
      obtain ⟨position, -, rfl⟩ := mem_map.mp mem
      simp [probed]
    rw [← inside, timeEntries, map_flatMap]
    refine flatMap_congr fun entry _ => ?_
    rw [map_map]
    exact (map_id _).symm

end SideIndex

namespace SideState

variable {hash : JoinKey → UInt64} {columns : SideColumns} {side : SideState Row}

/-- The row of an entry is there, with the hash and the time of the entry. -/
def Points (hash : JoinKey → UInt64) (batches : List (JoinBatch Row)) (entry : IndexEntry) : Prop :=
  ∃ row key, rowAt batches entry.2.2 = some row ∧ row.key = some key ∧ hash key = entry.1 ∧
    row.timestamp = entry.2.1

variable (hash side) in
def Indexed : Prop :=
  ∀ entry ∈ side.index.flat, Points hash side.batches entry

def live (side : SideState Row) : List (JoinRow Row) :=
  side.index.flat.filterMap fun entry => rowAt side.batches entry.2.2

def keyed (row : JoinRow Row) : Bool := row.key.isSome

variable {batches : List (JoinBatch Row)} {row : JoinRow Row} {batch : JoinBatch Row}

theorem rowAt_append_old (found : rowAt batches position = some row) :
    rowAt (batches ++ [batch]) position = some row := by
  unfold rowAt at found ⊢
  obtain ⟨rows, isBatch, isRow⟩ := Option.bind_eq_some_iff.mp found
  rw [List.getElem?_append_left (List.getElem?_eq_some_iff.mp isBatch).1, isBatch]
  exact isRow

theorem rowAt_append_new {rowIdx : Nat} :
    rowAt (batches ++ [batch]) (batches.length, rowIdx) = batch[rowIdx]? := by
  simp [rowAt]

theorem filterMap_entryOf (batches : List (JoinBatch Row)) :
    ((batch.zipIdx.filterMap (entryOf hash batches.length)).filterMap fun entry =>
      rowAt (batches ++ [batch]) entry.2.2) = batch.filter keyed := by
  have general : ∀ (before rows : JoinBatch Row), batch = before ++ rows →
      ((rows.zipIdx before.length).filterMap (entryOf hash batches.length)).filterMap
        (fun entry => rowAt (batches ++ [batch]) entry.2.2) = rows.filter keyed := by
    intro before rows
    induction rows generalizing before with
    | nil => exact fun _ => rfl
    | cons row rows ih =>
      intro isBatch
      have rest := ih (before ++ [row]) (by simp [isBatch])
      rw [length_append, length_singleton] at rest
      rw [zipIdx_cons, filterMap_cons, filter_cons]
      cases isKey : row.key with
      | none => simpa [entryOf, isKey, keyed] using rest
      | some key =>
        simp only [entryOf, isKey, Option.map_some, keyed, Option.isSome_some, if_true]
        rw [filterMap_cons, rowAt_append_new]
        simp only [isBatch, getElem?_append_right (Nat.le_refl _), Nat.sub_self, getElem?_cons_zero]
        rw [← isBatch]
        exact congrArg (row :: ·) rest
  exact general [] batch rfl

theorem points_entryOf {entry : IndexEntry}
    (mem : entry ∈ batch.zipIdx.filterMap (entryOf hash batches.length)) :
    Points hash (batches ++ [batch]) entry := by
  obtain ⟨⟨row, rowIdx⟩, isRow, isEntry⟩ := mem_filterMap.mp mem
  obtain ⟨key, isKey, rfl⟩ := Option.map_eq_some_iff.mp isEntry
  refine ⟨row, key, ?_, isKey, rfl, rfl⟩
  rw [rowAt_append_new]
  exact mem_zipIdx_iff_getElem?.mp isRow

variable (indexed : Indexed hash side)

include indexed in
theorem addBatch_spec (supported : columns.error = none) :
    let added := side.addBatch hash columns batch
    added.2 = none ∧ Indexed hash added.1 ∧ added.1.live.Perm (side.live ++ batch.filter keyed) ∧
      (∀ position row, rowAt side.batches position = some row →
        rowAt added.1.batches position = some row) ∧
      ∀ rowIdx row, batch[rowIdx]? = some row →
        rowAt added.1.batches (side.batches.length, rowIdx) = some row := by
  unfold addBatch
  split
  · rename_i noRows
    rw [isEmpty_iff.mp noRows]
    refine ⟨rfl, indexed, ?_, fun _ _ found => found, fun rowIdx row found => nomatch found⟩
    rw [filter_nil, append_nil]
  · rw [supported]
    have entries := side.index.flat_pushRows hash side.batches.length 0 batch
    refine ⟨rfl, fun entry mem => ?_, ?_, fun _ _ found => rowAt_append_old found, ?_⟩
    · rcases mem_append.mp (entries.mem_iff.mp mem) with before | isNew
      · obtain ⟨row, key, found, facts⟩ := indexed entry before
        exact ⟨row, key, rowAt_append_old found, facts⟩
      · exact points_entryOf isNew
    · refine (entries.filterMap _).trans ?_
      rw [filterMap_append, filterMap_entryOf]
      refine .of_eq (congrArg (· ++ batch.filter keyed) (filterMap_congr fun entry before => ?_))
      obtain ⟨row, key, found, -⟩ := indexed entry before
      rw [found, rowAt_append_old found]
    · intro rowIdx row found
      rw [rowAt_append_new, found]

include indexed in
theorem keyed_of_mem_live (mem : row ∈ side.live) : keyed row = true := by
  obtain ⟨entry, isEntry, isRow⟩ := mem_filterMap.mp mem
  obtain ⟨found, key, isFound, isKey, -⟩ := indexed entry isEntry
  cases isFound.symm.trans isRow
  rw [keyed, isKey]
  rfl

theorem sortPositions_perm {positions : List Position} : (sortPositions positions).Perm positions :=
  mergeSort_perm _ _

include indexed in
theorem compact_spec (supported : columns.error = none) :
    let after := side.compact hash columns
    after.2 = none ∧ Indexed hash after.1 ∧ after.1.live.Perm side.live ∧
      after.1.batches.flatten.Perm side.live := by
  unfold compact
  split
  · rename_i noPositions
    have noEntries : side.index.flat = [] := by
      have none := isEmpty_iff.mp noPositions
      rwa [positions_eq, map_eq_nil_iff] at none
    refine ⟨rfl, fun entry mem => ?_, ?_, ?_⟩
    · rw [noEntries] at mem
      cases mem
    all_goals
      unfold live
      simp only [noEntries]
      exact .refl _
  · rw [supported]
    have compacted : ((sortPositions side.index.positions).filterMap (rowAt side.batches)).Perm
        side.live := by
      refine (sortPositions_perm.filterMap _).trans (.of_eq ?_)
      rw [positions_eq, filterMap_map]
      rfl
    have allKeyed : ∀ row ∈ (sortPositions side.index.positions).filterMap (rowAt side.batches),
        keyed row = true := fun row mem =>
      keyed_of_mem_live indexed (compacted.mem_iff.mp mem)
    generalize (sortPositions side.index.positions).filterMap (rowAt side.batches) = rows
      at compacted allKeyed
    have entries := flat_pushRows hash 0 .empty 0 rows
    refine ⟨rfl, fun entry mem => ?_, ?_, ?_⟩
    · have isNew := entries.mem_iff.mp mem
      exact @points_entryOf Row hash [] rows entry isNew
    · refine (entries.filterMap _).trans ?_
      refine .trans (.of_eq (filterMap_entryOf [])) ?_
      rw [filter_eq_self.mpr allKeyed]
      exact compacted
    · rw [flatten_singleton]
      exact compacted

include indexed in
theorem evict_spec {rowCount : Nat} :
    Indexed hash ⟨side.batches, side.index.evict cutoff, rowCount⟩ ∧
      live ⟨side.batches, side.index.evict cutoff, rowCount⟩ =
        side.live.filter fun row => cutoff ≤ row.timestamp := by
  constructor
  · intro entry mem
    simp only [flat_evict] at mem
    exact indexed entry (mem_filter.mp mem).1
  · unfold live
    simp only [flat_evict]
    rw [filter_filterMap, filterMap_filter]
    refine filterMap_congr fun entry mem => ?_
    obtain ⟨row, key, found, -, -, isTime⟩ := indexed entry mem
    rw [found]
    by_cases late : cutoff ≤ entry.2.1 <;> simp [late, isTime, Option.filter_some]

variable (columns side) in
def Readable : Prop :=
  columns.error = none ∨ side.batches = []

include indexed in
theorem evictBefore_spec (readable : Readable columns side) (cutoff : I64) :
    let after := side.evictBefore hash columns cutoff
    after.2 = none ∧ Indexed hash after.1 ∧ Readable columns after.1 ∧
      after.1.live.Perm (side.live.filter fun row => cutoff ≤ row.timestamp) := by
  obtain ⟨kept, lives⟩ := evict_spec indexed
  simp only [evictBefore]
  split
  · rename_i crowded
    rcases readable with supported | noBatches
    · obtain ⟨noError, compacted, perm, -⟩ := compact_spec kept supported
      exact ⟨noError, compacted, .inl supported, perm.trans (.of_eq lives)⟩
    · rw [noBatches] at crowded
      cases crowded
  · exact ⟨rfl, kept, readable, .of_eq lives⟩

variable (boundMs : I64) {other : JoinRow Other}

def near (row : JoinRow Row) (other : JoinRow Other) : Bool :=
  |row.timestamp.toInt - other.timestamp.toInt| ≤ boundMs.toInt

def matching (row : JoinRow Row) (other : JoinRow Other) : Bool :=
  keysEqual row other && near boundMs row other

theorem keysEqual_iff :
    keysEqual row other = true ↔ ∃ key, row.key = some key ∧ other.key = some key := by
  unfold keysEqual
  cases row.key with
  | none => simp
  | some key =>
    cases other.key with
    | none => simp
    | some otherKey => simp [eq_comm]

theorem keysEqual_comm : keysEqual row other = keysEqual other row := by
  rw [Bool.eq_iff_iff, keysEqual_iff, keysEqual_iff]
  exact exists_congr fun key => and_comm

theorem matching_comm : matching boundMs row other = matching boundMs other row := by
  unfold matching near
  rw [keysEqual_comm, abs_sub_comm]

theorem interval_iff {boundMs other : I64} (nonneg : 0 ≤ boundMs.toInt) :
    (timestamp.saturatingSub boundMs ≤ other ∧ other ≤ timestamp.saturatingAdd boundMs) ↔
      |timestamp.toInt - other.toInt| ≤ boundMs.toInt := by
  rw [I64.le_iff, I64.le_iff, abs_le]
  simp only [I64.saturatingSub, I64.saturatingAdd, I64.clamp]
  have lower := other.lower
  have upper := other.upper
  have timeLower := timestamp.lower
  have timeUpper := timestamp.upper
  omega

include indexed in
theorem probe_rows {boundMs : I64} (nonneg : 0 ≤ boundMs.toInt)
    {row : JoinRow Other} {key : JoinKey} (isKey : row.key = some key) {admits : Position → Bool}
    (all : ∀ entry ∈ side.index.flat, admits entry.2.2 = true) :
    (((side.index.probe (hash key) row.timestamp boundMs).filter fun candidate =>
      admits candidate && (rowAt side.batches candidate).any (keysEqual row)).filterMap
        (rowAt side.batches)).Perm (side.live.filter (matching boundMs row)) := by
  have found := ((side.index.probe_perm (hash key) row.timestamp boundMs).filter fun candidate =>
    admits candidate && (rowAt side.batches candidate).any (keysEqual row)).filterMap
      (rowAt side.batches)
  refine found.trans (.of_eq ?_)
  unfold live
  rw [filter_map, filterMap_map, filter_filter, filterMap_filter, filter_filterMap]
  refine filterMap_congr fun entry mem => ?_
  obtain ⟨other, otherKey, isRow, isOtherKey, isHash, isTime⟩ := indexed entry mem
  simp only [Function.comp_apply, isRow, all entry mem, Bool.true_and, Option.any_some,
    Option.filter_some]
  have agree : (keysEqual row other && (decide (entry.1 = hash key) &&
      (decide (row.timestamp.saturatingSub boundMs ≤ entry.2.1) &&
        decide (entry.2.1 ≤ row.timestamp.saturatingAdd boundMs)))) =
      matching boundMs row other := by
    unfold matching near
    cases equal : keysEqual row other with
    | false => rfl
    | true =>
      obtain ⟨common, isCommon, alsoCommon⟩ := keysEqual_iff.mp equal
      have sameHash : entry.1 = hash key := by
        rw [← isHash]
        rw [isCommon] at isKey
        rw [alsoCommon] at isOtherKey
        cases isKey
        cases isOtherKey
        rfl
      rw [Bool.true_and, Bool.true_and, decide_eq_true sameHash, Bool.true_and,
        ← Bool.decide_and, isTime]
      exact decide_eq_decide.mpr (interval_iff nonneg)
  rw [agree]

end SideState

end LaminarDB.Executor.IntervalJoin
