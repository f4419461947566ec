import LaminarDB.Sql.LookupExec

/-!
# Indexes of lookup tables

What the two indexes find. A hash index finds the rows with the key, in their order. A
versioned index finds the row of the key in the table as of a time, which is what is left
when the versions up to that time replace each other in the order of their timestamps.
-/

namespace LaminarDB.Sql.Lookup

open Library List VersionedIndex KeyedMap

theorem filter_eq_find? {Element Key : Type} [BEq Key] [LawfulBEq Key] {key : Element → Key}
    {elements : List Element} (unique : (elements.map key).Nodup) {wanted : Key} :
    (elements.filter fun element => key element == wanted) =
      (elements.find? fun element => key element == wanted).toList := by
  induction elements with
  | nil => rfl
  | cons element elements ih =>
    obtain ⟨isNew, restUnique⟩ := nodup_cons.mp unique
    by_cases isWanted : key element = wanted
    · have noneLeft : (elements.filter fun other => key other == wanted) = [] := by
        apply filter_eq_nil_iff.mpr
        intro other mem isOther
        apply isNew
        rw [isWanted, ← beq_iff_eq.mp isOther]
        exact mem_map_of_mem mem
      simp [isWanted, noneLeft]
    · simp [isWanted, ih restUnique]

variable (columns : List String) {key : List (Option Int)} {index : HashIndex} {row : Row}
  {rows : List Row}

theorem HashIndex.probe_add :
    (index.add columns row).probe key =
      index.probe key ++ if keyOf columns row == key then [row] else [] := by
  unfold probe add
  rw [find?_insert]
  by_cases isKey : keyOf columns row = key
  · simp [isKey]
  · simp [isKey, Ne.symm isKey]

theorem HashIndex.probe_foldl :
    (rows.foldl (HashIndex.add columns) index).probe key =
      index.probe key ++ rows.filter fun row => keyOf columns row == key := by
  induction rows generalizing index with
  | nil => simp
  | cons row rows ih =>
    rw [foldl_cons, ih, probe_add, append_assoc, filter_cons]
    split <;> rfl

theorem HashIndex.probe_build {columns : List String} :
    (HashIndex.build rows columns).probe key = rows.filter fun row => keyOf columns row == key :=
  probe_foldl columns

abbrev Current := KeyedMap (List (Option Int)) (Int × Row)

variable (time : Int)

def Current.apply (table : Current) (version : Version) : Current :=
  match version.timestamp with
  | none => table
  | some timestamp =>
    if hasNull (keyOf columns version.row) || decide (time < timestamp) ||
        (table.find? (keyOf columns version.row)).any (fun current => timestamp < current.1)
    then table
    else table.insert (keyOf columns version.row) (timestamp, version.row)

variable (versions : List Version)

def asOf : Current :=
  versions.foldl (Current.apply columns time) .empty

def visible : List Row :=
  (asOf columns time versions).entries.map fun entry => entry.2.2

def Current.Keyed (table : Current) : Prop :=
  ∀ entry ∈ table.entries, entry.1 = keyOf columns entry.2.2

variable {columns : List String} {time timestamp : Int} {table : Current}

theorem Current.Keyed.apply (keyed : table.Keyed columns) (version : Version) :
    (table.apply columns time version).Keyed columns := by
  unfold Current.apply
  split
  · exact keyed
  · split
    · exact keyed
    · intro entry mem
      rcases mem_insert mem with rfl | old
      · rfl
      · exact keyed entry old

section

variable (columns : List String) (time : Int) (versions : List Version)

theorem keyed_asOf : (asOf columns time versions).Keyed columns := by
  have fromTable : ∀ table : Current, table.Keyed columns →
      (versions.foldl (Current.apply columns time) table).Keyed columns := by
    induction versions with
    | nil => exact fun _ keyed => keyed
    | cons version versions ih =>
      exact fun table keyed => ih _ (keyed.apply version)
  exact fromTable .empty (by simp [Current.Keyed, empty])

theorem keys_visible :
    (visible columns time versions).map (keyOf columns) = (asOf columns time versions).keys := by
  rw [visible, map_map]
  exact map_congr_left fun entry mem => (keyed_asOf columns time versions entry mem).symm

theorem filter_visible :
    ((visible columns time versions).filter fun row => keyOf columns row == key) =
      (((asOf columns time versions).find? key).map Prod.snd).toList := by
  have unique : ((visible columns time versions).map (keyOf columns)).Nodup := by
    rw [keys_visible]
    exact (asOf columns time versions).unique
  rw [filter_eq_find? unique]
  congr 1
  apply Option.ext
  intro row
  constructor
  · intro found
    obtain ⟨entry, mem, rfl⟩ := mem_map.mp (mem_of_find?_eq_some found)
    have isKey : keyOf columns entry.2.2 = key := by simpa using find?_some found
    have sameKey := keyed_asOf columns time versions entry mem
    apply Option.map_eq_some_iff.mpr
    refine ⟨entry.2, find?_of_mem ?_, rfl⟩
    rw [← isKey, ← sameKey]
    exact mem
  · intro found
    obtain ⟨current, isCurrent, rfl⟩ := Option.map_eq_some_iff.mp found
    have mem := mem_of_find? isCurrent
    have isKey : key = keyOf columns current.2 := keyed_asOf columns time versions _ mem
    have inVisible : current.2 ∈ visible columns time versions := mem_map.mpr ⟨_, mem, rfl⟩
    have inFilter : current.2 ∈
        (visible columns time versions).filter fun row => keyOf columns row == key :=
      mem_filter.mpr ⟨inVisible, by simp [isKey]⟩
    rw [filter_eq_find? unique] at inFilter
    exact Option.mem_toList.mp inFilter

end

def latest (versions : SortedMap Int (List Row)) (time : Int) : Option (Int × List Row) :=
  (versions.entries.filter fun entry => entry.1 ≤ time).getLast?

variable {versions : SortedMap Int (List Row)} {entry : Int × List Row}

theorem latest_eq_some_iff :
    latest versions time = some entry ↔
      entry ∈ versions.entries ∧ entry.1 ≤ time ∧
        ∀ other ∈ versions.entries, other.1 ≤ time → other.1 ≤ entry.1 := by
  have sorted : (versions.entries.filter fun entry => entry.1 ≤ time).Pairwise
      fun first second => first.1 < second.1 :=
    (pairwise_map.mp versions.sorted).filter _
  constructor
  · intro isLast
    obtain ⟨before, isSplit⟩ := getLast?_eq_some_iff.mp isLast
    have mem : entry ∈ versions.entries.filter fun entry => entry.1 ≤ time := by
      rw [isSplit]
      exact mem_append_right _ (mem_singleton_self entry)
    obtain ⟨inEntries, inTime⟩ := mem_filter.mp mem
    refine ⟨inEntries, by simpa using inTime, fun other otherIn otherTime => ?_⟩
    have otherFiltered : other ∈ versions.entries.filter fun entry => entry.1 ≤ time :=
      mem_filter.mpr ⟨otherIn, by simpa using otherTime⟩
    rw [isSplit] at otherFiltered sorted
    rcases mem_append.mp otherFiltered with inBefore | isEntry
    · exact ((pairwise_append.mp sorted).2.2 other inBefore entry (mem_singleton_self entry)).le
    · rw [mem_singleton.mp isEntry]
  · rintro ⟨inEntries, inTime, greatest⟩
    have mem : entry ∈ versions.entries.filter fun entry => entry.1 ≤ time :=
      mem_filter.mpr ⟨inEntries, by simpa using inTime⟩
    obtain ⟨before, after, isSplit⟩ := append_of_mem mem
    have noneAfter : after = [] := by
      apply eq_nil_iff_forall_not_mem.mpr
      intro other inAfter
      have otherFiltered : other ∈ versions.entries.filter fun entry => entry.1 ≤ time := by
        rw [isSplit]
        exact mem_append_right _ (mem_cons_of_mem _ inAfter)
      obtain ⟨otherIn, otherTime⟩ := mem_filter.mp otherFiltered
      rw [isSplit] at sorted
      have isLater : entry.1 < other.1 :=
        (pairwise_cons.mp (pairwise_append.mp sorted).2.1).1 other inAfter
      have notLater := greatest other otherIn (by simpa using otherTime)
      omega
    rw [latest, isSplit, noneAfter]
    simp

section Insert

variable {time timestamp : Int} {rows : List Row}

theorem latest_insert_after (isAfter : time < timestamp) :
    latest (versions.insert timestamp rows) time = latest versions time := by
  apply Option.ext
  intro entry
  simp only [latest_eq_some_iff, SortedMap.mem_insert_iff]
  constructor
  · rintro ⟨rfl | ⟨inEntries, -⟩, inTime, greatest⟩
    · exact absurd inTime (by simpa using isAfter)
    · refine ⟨inEntries, inTime, fun other otherIn otherTime =>
        greatest other (.inr ⟨otherIn, ?_⟩) otherTime⟩
      omega
  · rintro ⟨inEntries, inTime, greatest⟩
    refine ⟨.inr ⟨inEntries, by omega⟩, inTime, ?_⟩
    rintro other (rfl | ⟨otherIn, -⟩) otherTime
    · exact absurd otherTime (by simpa using isAfter)
    · exact greatest other otherIn otherTime

theorem latest_insert_before (isLatest : latest versions time = some entry)
    (isBefore : timestamp < entry.1) :
    latest (versions.insert timestamp rows) time = some entry := by
  obtain ⟨inEntries, inTime, greatest⟩ := latest_eq_some_iff.mp isLatest
  apply latest_eq_some_iff.mpr
  refine ⟨SortedMap.mem_insert_iff.mpr (.inr ⟨inEntries, by omega⟩), inTime, ?_⟩
  intro other otherIn otherTime
  rcases SortedMap.mem_insert_iff.mp otherIn with rfl | ⟨old, -⟩
  · exact isBefore.le
  · exact greatest other old otherTime

theorem latest_insert_new (inTime : timestamp ≤ time)
    (isNew : ∀ entry, latest versions time = some entry → entry.1 ≤ timestamp) :
    latest (versions.insert timestamp rows) time = some (timestamp, rows) := by
  apply latest_eq_some_iff.mpr
  refine ⟨SortedMap.mem_insert_iff.mpr (.inl rfl), inTime, ?_⟩
  intro other otherIn otherTime
  rcases SortedMap.mem_insert_iff.mp otherIn with rfl | ⟨old, -⟩
  · exact le_rfl
  · cases isLatest : latest versions time with
    | some entry =>
      have notLater := (latest_eq_some_iff.mp isLatest).2.2 other old otherTime
      exact notLater.trans (isNew entry isLatest)
    | none =>
      have isNil := getLast?_eq_none_iff.mp isLatest
      have inFilter : other ∈ versions.entries.filter fun entry => entry.1 ≤ time :=
        mem_filter.mpr ⟨old, by simpa using otherTime⟩
      rw [isNil] at inFilter
      cases inFilter

end Insert

def lastOf (versions : SortedMap Int (List Row)) (time : Int) : Option (Int × Row) :=
  (latest versions time).bind fun entry => entry.2.getLast?.map fun row => (entry.1, row)

def Filled (versions : SortedMap Int (List Row)) : Prop :=
  ∀ entry ∈ versions.entries, entry.2 ≠ []

theorem lastOf_of_latest (filled : Filled versions) (isLatest : latest versions time = some entry) :
    ∃ row, lastOf versions time = some (entry.1, row) := by
  have nonempty := filled entry (latest_eq_some_iff.mp isLatest).1
  refine ⟨entry.2.getLast nonempty, ?_⟩
  simp [lastOf, isLatest, getLast?_eq_getLast_of_ne_nil nonempty]

theorem lastOf_insert (filled : Filled versions) (old : List Row) :
    lastOf (versions.insert timestamp (old ++ [row])) time =
      if decide (time < timestamp) ||
          (lastOf versions time).any (fun current => timestamp < current.1)
      then lastOf versions time
      else some (timestamp, row) := by
  by_cases isAfter : time < timestamp
  · simp [lastOf, latest_insert_after isAfter, isAfter]
  · have inTime : timestamp ≤ time := by omega
    cases isLatest : latest versions time with
    | none =>
      have isNone : lastOf versions time = none := by simp [lastOf, isLatest]
      have isNew := @latest_insert_new versions time timestamp (old ++ [row]) inTime
        fun entry found => by
          cases isLatest.symm.trans found
      have replaced : lastOf (versions.insert timestamp (old ++ [row])) time =
          some (timestamp, row) := by simp [lastOf, isNew]
      simp [replaced, isNone, isAfter]
    | some entry =>
      obtain ⟨current, isCurrent⟩ := lastOf_of_latest filled isLatest
      by_cases isBefore : timestamp < entry.1
      · have stays : lastOf (versions.insert timestamp (old ++ [row])) time =
            lastOf versions time := by
          rw [lastOf, latest_insert_before isLatest isBefore, lastOf, isLatest]
        simp [stays, isCurrent, isBefore]
      · have isNew := @latest_insert_new versions time timestamp (old ++ [row]) inTime
          fun other found => by
            cases isLatest.symm.trans found
            omega
        have replaced : lastOf (versions.insert timestamp (old ++ [row])) time =
            some (timestamp, row) := by simp [lastOf, isNew]
        simp [replaced, isCurrent, isBefore, isAfter]

structure Agrees (time : Int) (index : VersionedIndex) (table : Current) : Prop where
  filled : ∀ key versions, index.find? key = some versions → Filled versions
  same : ∀ key, (index.find? key).bind (fun versions => lastOf versions time) = table.find? key

variable {index : VersionedIndex} {versions : List Version}

section

variable {version : Version} (isSome : version.timestamp = some timestamp)
  (notNull : hasNull (keyOf columns version.row) = false)

include isSome notNull

theorem VersionedIndex.add_of_some :
    index.add columns version = index.insert (keyOf columns version.row)
      (((index.find? (keyOf columns version.row)).getD .empty).insert timestamp
        ((((index.find? (keyOf columns version.row)).getD .empty).find? timestamp).getD [] ++
          [version.row])) := by
  simp [add, isSome, notNull]

theorem Current.find?_apply :
    (table.apply columns time version).find? key =
      if key = keyOf columns version.row then
        if decide (time < timestamp) || (table.find? key).any (fun current => timestamp < current.1)
        then table.find? key
        else some (timestamp, version.row)
      else table.find? key := by
  simp only [apply, isSome, notNull, Bool.false_or]
  by_cases isKey : key = keyOf columns version.row
  · subst isKey
    rw [if_pos rfl]
    split
    · rfl
    · rw [find?_insert, if_pos rfl]
  · split
    · rfl
    · rw [find?_insert, if_neg isKey]

end

theorem Agrees.add (agrees : Agrees time index table) (version : Version) :
    Agrees time (index.add columns version) (table.apply columns time version) := by
  cases isSome : version.timestamp with
  | none => simpa [VersionedIndex.add, Current.apply, isSome] using agrees
  | some timestamp =>
    cases isNull : hasNull (keyOf columns version.row) with
    | true => simpa [VersionedIndex.add, Current.apply, isSome, isNull] using agrees
    | false =>
      have filledOld : Filled ((index.find? (keyOf columns version.row)).getD .empty) := by
        cases found : index.find? (keyOf columns version.row) with
        | none => simp [Filled, SortedMap.empty]
        | some versions => exact agrees.filled _ versions found
      have sameOld : lastOf ((index.find? (keyOf columns version.row)).getD .empty) time =
          table.find? (keyOf columns version.row) := by
        rw [← agrees.same]
        cases index.find? (keyOf columns version.row) with
        | none | some => rfl
      refine ⟨fun key versions found => ?_, fun key => ?_⟩
      · rw [add_of_some isSome isNull, find?_insert] at found
        split at found
        · obtain rfl := Option.some.inj found
          intro entry mem
          rcases SortedMap.mem_insert_iff.mp mem with rfl | ⟨old, -⟩
          · simp
          · exact filledOld entry old
        · exact agrees.filled key versions found
      · rw [add_of_some isSome isNull, find?_insert, Current.find?_apply isSome isNull]
        by_cases isKey : key = keyOf columns version.row
        · rw [if_pos isKey, if_pos isKey, Option.bind_some, lastOf_insert filledOld, sameOld, isKey]
        · rw [if_neg isKey, if_neg isKey, agrees.same]

theorem agrees_build : Agrees time (.build versions columns) (asOf columns time versions) := by
  have fromIndex : ∀ index table, Agrees time index table →
      Agrees time (versions.foldl (add columns) index)
        (versions.foldl (Current.apply columns time) table) := by
    induction versions with
    | nil => exact fun _ _ agrees => agrees
    | cons version versions ih =>
      exact fun index table agrees => ih _ _ (agrees.add version)
  apply fromIndex
  exact ⟨fun key versions found => by simp at found, fun key => by simp⟩

theorem probeAtTime_eq :
    index.probeAtTime key time =
      ((index.find? key).bind fun versions => lastOf versions time).map Prod.snd := by
  unfold probeAtTime lastOf latest
  cases index.find? key with
  | none => rfl
  | some versions =>
    simp only [Option.bind_some]
    cases ((versions.entries.filter fun entry => entry.1 ≤ time).getLast?) with
    | none => rfl
    | some entry => simp [Function.comp_def]

theorem probeAtTime_build :
    ((build versions columns).probeAtTime key time).toList =
      (visible columns time versions).filter fun row => keyOf columns row == key := by
  rw [probeAtTime_eq, agrees_build.same, filter_visible]

end LaminarDB.Sql.Lookup
