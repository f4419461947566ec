import LaminarDB.Connectors.Changelog

/-!
# Changelog sinks and the order of changes

A flush splits the rows by their kind and applies each kind at once. When that leaves the table
as the rows do that are applied one after the other.
-/

namespace LaminarDB.Connectors.Changelog

open Library List
open Library.Change
open Library.KeyedMap

variable {columns : KeyedColumns} {Value : Type}

variable (rows : List (ChangelogRow columns Value))

theorem insertions_changesOf :
    insertions (changesOf rows) =
      (rows.filter fun row => isUpsert row.op).map ChangelogRow.entry := by
  rw [insertions, changesOf, filterMap_filterMap, ← filterMap_eq_map, filterMap_filter]
  congr 1
  funext row
  by_cases upsert : isUpsert row.op = true
  · simp [ChangelogRow.change, ChangelogRow.entry, upsert]
  · by_cases delete : isDelete row.op = true <;> simp [ChangelogRow.change, upsert, delete]

theorem deletions_changesOf :
    deletions (changesOf rows) = (rows.filter fun row => isDelete row.op).map ChangelogRow.key := by
  rw [deletions, changesOf, filterMap_filterMap, ← filterMap_eq_map, filterMap_filter]
  congr 1
  funext row
  by_cases upsert : isUpsert row.op = true
  · simp [ChangelogRow.change, upsert, isDelete_of_isUpsert upsert]
  · by_cases delete : isDelete row.op = true <;> simp [ChangelogRow.change, upsert, delete]

theorem changesOf_of_upserts {rows : List (ChangelogRow columns Value)}
    (upserts : ∀ row ∈ rows, isUpsert row.op = true) :
    changesOf rows = (rows.map ChangelogRow.entry).map insertion := by
  rw [changesOf, map_map, ← filterMap_eq_map]
  apply filterMap_congr
  intro row among
  exact if_pos (upserts row among)

variable {key : Key columns Value} {rest : Rest columns Value} {deleted : List (Key columns Value)}

theorem mem_changesOf_some {rows : List (ChangelogRow columns Value)}
    (among : (key, some rest) ∈ changesOf rows) :
    ∃ row ∈ rows, isUpsert row.op = true ∧ row.key = key := by
  rw [← mem_insertions, insertions_changesOf] at among
  obtain ⟨row, isRow, same⟩ := mem_map.mp among
  obtain ⟨isAmong, upsert⟩ := mem_filter.mp isRow
  exact ⟨row, isAmong, upsert, congrArg Prod.fst same⟩

theorem crossed_of_mem (among : key ∈ deleted) : Crossed deleted key :=
  fun _ => mem_map_of_mem among

theorem not_crossed_nil : ¬ Crossed [] key := by
  intro crossed
  have someColumn := length_pos_iff.mpr columns.hasKey
  exact absurd (crossed ⟨0, someColumn⟩) not_mem_nil

theorem subsingleton_rest (Value : Type) (keyOnly : columns.nonKeyColumns = []) :
    Subsingleton (Rest columns Value) := by
  have noColumn : IsEmpty (Fin columns.nonKeyColumns.length) := by
    rw [keyOnly]
    exact Fin.isEmpty'
  infer_instance

variable [DecidableEq Value] {table : Table columns Value}

/-- A flush succeeds and leaves what the rows leave that are applied one after the other. -/
def AppliesInOrder (flushed : Except String (Table columns Value)) (table : Table columns Value)
    (rows : List (ChangelogRow columns Value)) : Prop :=
  ∃ after, flushed = .ok after ∧
    ∀ key, after.find? key = (table.applyChanges (changesOf rows)).find? key

/-- A merge succeeds and leaves the rows that the changes leave when they are applied one after
the other, each once. -/
def MergesInOrder (merged : Except String (List (Key columns Value × Rest columns Value)))
    (table : Table columns Value) (rows : List (ChangelogRow columns Value)) : Prop :=
  ∃ after, merged = .ok after ∧ after.Perm (table.applyChanges (changesOf rows)).entries

variable (table : Table columns Value)

/-- The conditions of a flush in upsert mode: no key is inserted twice, unless the table has no
other columns, and no key that the changes leave in the table has each of its values in a
deleted row. -/
structure BulkKeeps (changes : List (Change (Key columns Value) (Rest columns Value))) : Prop where
  once : columns.nonKeyColumns = [] ∨ ((insertions changes).map Prod.fst).Nodup
  uncrossed : ∀ key, Crossed (deletions changes) key →
    key ∈ table.keys ∨ key ∈ (insertions changes).map Prod.fst → last changes key = some none

/-- The conditions of a flush in append mode: every row is inserted, under a key that neither
the table nor another row has. -/
structure CopyKeeps (rows : List (ChangelogRow columns Value)) : Prop where
  upserts : ∀ row ∈ rows, isUpsert row.op = true
  fresh : ((table.entries ++ rows.map ChangelogRow.entry).map Prod.fst).Nodup

def PostgresKeeps (config : PostgresSinkConfig) (table : Table columns Value)
    (rows : List (ChangelogRow columns Value)) : Prop :=
  match config.writeMode with
  | .append => CopyKeeps table rows
  | .upsert => BulkKeeps table (changesOf rows)

theorem executeUnnest_of_once {rows : List (Key columns Value × Rest columns Value)}
    (once : columns.nonKeyColumns = [] ∨ (rows.map Prod.fst).Nodup) {table : Table columns Value} :
    ∃ after, executeUnnest (buildUpsertSql columns) rows table = .ok after ∧
      ∀ key, after.find? key = (insertAll rows table).find? key := by
  by_cases keyOnly : columns.nonKeyColumns = []
  · have single := subsingleton_rest Value keyOnly
    refine ⟨insertMissing rows table, ?_, find?_insertMissing fun _ => rfl⟩
    simp only [executeUnnest, buildUpsertSql, keyOnly, isEmpty_nil, if_true]
  · refine ⟨insertAll rows table, ?_, fun _ => rfl⟩
    simp only [executeUnnest, buildUpsertSql, List.isEmpty_iff, if_neg keyOnly,
      if_pos (once.resolve_left keyOnly)]

theorem executeDeletes_eq : executeDeletes (buildDeleteSql columns) deleted table =
    table.filterKeys fun key => !decide (Crossed deleted key) := by
  simp [executeDeletes, buildDeleteSql, Crossed]

theorem find?_executeDeletes :
    (executeDeletes (buildDeleteSql columns) deleted table).find? key =
      if Crossed deleted key then none else table.find? key := by
  rw [executeDeletes_eq, find?_filterKeys]
  by_cases crossed : Crossed deleted key <;> simp [crossed]

variable (buffer : List (List (ChangelogRow columns Value)))

theorem flushChangelog_eq :
    flushChangelog buffer table =
      (executeUnnest (buildUpsertSql columns) (insertions (changesOf buffer.flatten)) table).map
        (executeDeletes (buildDeleteSql columns) (deletions (changesOf buffer.flatten))) := by
  have inserts : (buffer.flatMap fun batch => (splitChangelogBatch batch).1).map
      ChangelogRow.entry = insertions (changesOf buffer.flatten) := by
    rw [insertions_changesOf, filter_flatten, ← flatMap_def]
    rfl
  have deletes : (buffer.flatMap fun batch => (splitChangelogBatch batch).2).map
      ChangelogRow.key = deletions (changesOf buffer.flatten) := by
    rw [deletions_changesOf, filter_flatten, ← flatMap_def]
    rfl
  have upserted : (if (buffer.flatMap fun batch => (splitChangelogBatch batch).1).isEmpty = true
      then .ok table
      else executeUnnest (buildUpsertSql columns)
        ((buffer.flatMap fun batch => (splitChangelogBatch batch).1).map ChangelogRow.entry)
        table) =
      executeUnnest (buildUpsertSql columns) (insertions (changesOf buffer.flatten)) table := by
    split
    · rename_i empty
      rw [← inserts, isEmpty_iff.mp empty]
      simp only [executeUnnest, buildUpsertSql]
      split <;> rfl
    · rw [inserts]
  have deleted : (fun table : Table columns Value =>
      if (buffer.flatMap fun batch => (splitChangelogBatch batch).2).isEmpty = true then table
      else executeDeletes (buildDeleteSql columns)
        ((buffer.flatMap fun batch => (splitChangelogBatch batch).2).map ChangelogRow.key) table) =
      executeDeletes (buildDeleteSql columns) (deletions (changesOf buffer.flatten)) := by
    funext table
    split
    · rename_i empty
      rw [← deletes, isEmpty_iff.mp empty, executeDeletes_eq]
      apply ext
      refine (filter_eq_self.mpr fun entry _ => ?_).symm
      simp only [map_nil, not_crossed_nil, decide_false, Bool.not_false]
    · rw [deletes]
  rw [flushChangelog]
  simp only [upserted, deleted]

variable {table : Table columns Value}
  {changes : List (Change (Key columns Value) (Rest columns Value))}

theorem bulk_eq_iff :
    (if Crossed (deletions changes) key then none
      else (insertAll (insertions changes) table).find? key) =
        (table.applyChanges changes).find? key ↔
      (Crossed (deletions changes) key →
        key ∈ table.keys ∨ key ∈ (insertions changes).map Prod.fst →
        last changes key = some none) := by
  rw [find?_insertAll, find?_applyChanges]
  by_cases crossed : Crossed (deletions changes) key
  · rw [if_pos crossed]
    cases isLast : last changes key with
    | none =>
      have notInserted : key ∉ (insertions changes).map Prod.fst := by
        intro inserted
        obtain ⟨⟨_, value⟩, among, rfl⟩ := mem_map.mp inserted
        exact notMem_of_last_eq_none isLast (mem_insertions.mp among)
      rw [Option.getD_none, eq_comm, find?_eq_none_iff]
      constructor
      · rintro absent - (known | inserted)
        · exact absurd known absent
        · exact absurd inserted notInserted
      · intro deleted known
        cases deleted crossed (.inl known)
    | some value =>
      cases value with
      | none => simp
      | some rest =>
        have inserted : key ∈ (insertions changes).map Prod.fst :=
          mem_map_of_mem (mem_insertions.mpr (mem_of_last isLast))
        constructor
        · intro same
          cases same
        · intro deleted
          cases deleted crossed (.inr inserted)
  · have kept : key ∉ deletions changes := fun deleted => crossed (crossed_of_mem deleted)
    rw [if_neg crossed, last_insertions kept]
    exact iff_of_true rfl fun isCrossed => absurd isCrossed crossed

section

variable (table : Table columns Value)

theorem flushChangelog_iff :
    AppliesInOrder (flushChangelog buffer table) table buffer.flatten ↔
      BulkKeeps table (changesOf buffer.flatten) := by
  rw [AppliesInOrder, flushChangelog_eq]
  by_cases once : columns.nonKeyColumns = [] ∨
      ((insertions (changesOf buffer.flatten)).map Prod.fst).Nodup
  · obtain ⟨upserted, isUpserted, found⟩ := executeUnnest_of_once once
    rw [isUpserted]
    have lookups : ∀ key, (executeDeletes (buildDeleteSql columns)
        (deletions (changesOf buffer.flatten)) upserted).find? key =
          if Crossed (deletions (changesOf buffer.flatten)) key then none
          else (insertAll (insertions (changesOf buffer.flatten)) table).find? key := by
      intro key
      rw [find?_executeDeletes, found]
    constructor
    · rintro ⟨after, isAfter, same⟩
      cases isAfter
      refine ⟨once, fun key => ?_⟩
      apply bulk_eq_iff.mp
      rw [← lookups, same]
    · intro keeps
      refine ⟨_, rfl, fun key => ?_⟩
      rw [lookups]
      exact bulk_eq_iff.mpr (keeps.uncrossed key)
  · obtain ⟨noKeyOnly, repeated⟩ := not_or.mp once
    simp only [executeUnnest, buildUpsertSql, List.isEmpty_iff, if_neg noKeyOnly, if_neg repeated]
    constructor
    · rintro ⟨after, isAfter, _⟩
      cases isAfter
    · intro keeps
      exact absurd keeps.once once

theorem copyIn_iff :
    AppliesInOrder (copyIn (rows.map ChangelogRow.entry) table) table rows ↔
      CopyKeeps table rows := by
  by_cases fresh : ((table.entries ++ rows.map ChangelogRow.entry).map Prod.fst).Nodup
  · rw [AppliesInOrder, copyIn, dif_pos fresh]
    constructor
    · rintro ⟨after, isAfter, same⟩
      cases isAfter
      refine ⟨fun row among => ?_, fresh⟩
      have copied : row.entry ∈ table.entries ++ rows.map ChangelogRow.entry :=
        mem_append_right _ (mem_map_of_mem among)
      have found : (⟨_, fresh⟩ : Table columns Value).find? row.key = some row.rest :=
        find?_of_mem copied
      rw [map_append, nodup_append] at fresh
      obtain ⟨-, once, disjoint⟩ := fresh
      have absent : table.find? row.key = none := by
        rw [find?_eq_none_iff]
        intro known
        exact disjoint _ known _ (mem_map_of_mem (mem_map_of_mem among)) rfl
      rw [same, find?_applyChanges, absent] at found
      have isLast : last (changesOf rows) row.key = some (some row.rest) := by
        cases last : last (changesOf rows) row.key with
        | none =>
          rw [last] at found
          cases found
        | some value =>
          rw [last, Option.getD_some] at found
          rw [found]
      obtain ⟨other, isOther, upsert, sameKey⟩ := mem_changesOf_some (mem_of_last isLast)
      rw [map_map] at once
      have isRow := inj_on_of_nodup_map once isOther among sameKey
      rwa [← isRow]
    · rintro ⟨upserts, -⟩
      refine ⟨_, rfl, fun key => ?_⟩
      rw [changesOf_of_upserts upserts, ← insertAll_eq_applyChanges]
      congr 1
      apply ext
      exact (entries_foldl_insert table _ fresh).symm
  · rw [AppliesInOrder, copyIn, dif_neg fresh]
    constructor
    · rintro ⟨after, isAfter, _⟩
      cases isAfter
    · intro keeps
      exact absurd keeps.fresh fresh

theorem flushAppend_iff :
    AppliesInOrder (flushAppend buffer table) table buffer.flatten ↔
      CopyKeeps table buffer.flatten := by
  rw [flushAppend]
  split
  · rename_i empty
    rw [isEmpty_iff.mp empty]
    refine iff_of_true ⟨table, rfl, fun _ => rfl⟩ ⟨?_, ?_⟩
    · exact fun row among => absurd among not_mem_nil
    · rw [map_nil, append_nil]
      exact table.unique
  · exact copyIn_iff buffer.flatten table

end

theorem flushToClient_iff {config : PostgresSinkConfig} (changelog : config.changelogMode = true)
    {buffer : List (List (ChangelogRow columns Value))} :
    AppliesInOrder (flushToClient config buffer table) table buffer.flatten ↔
      PostgresKeeps config table buffer.flatten := by
  rw [flushToClient, PostgresKeeps]
  cases config.writeMode with
  | append => exact flushAppend_iff buffer table
  | upsert =>
    simp only [flushUpsert, changelog, if_true]
    exact flushChangelog_iff buffer table

variable (table changes) in
/-- The conditions of a merge: a key of the table has at most one change, and any other key has at
most one insertion, after which it is not deleted. -/
structure MergeKeeps : Prop where
  known : ∀ key ∈ table.keys, (ofKey key changes).length ≤ 1
  fresh : (((insertions changes).filter fun entry => entry.1 ∉ table.keys).map Prod.fst).Nodup
  kept : ∀ key ∉ table.keys, key ∈ (insertions changes).map Prod.fst → last changes key ≠ some none

variable (table changes) in
def mergedRows : List (Key columns Value × Rest columns Value) :=
  table.entries.filterMap (fun entry =>
    match ofKey entry.1 changes with
    | [] => some entry
    | change :: _ => change.2.map (entry.1, ·)) ++
  (insertions changes).filter fun entry => entry.1 ∉ table.keys

theorem mergedRows_nil : mergedRows table [] = table.entries :=
  (append_nil _).trans (filterMap_some)

section

variable (source : List (ChangelogRow columns Value))

theorem actionsOn_eq :
    actionsOn ChangelogRow.key
      (fun row =>
        if isUpsert row.op then some (.update row.rest)
        else if isDelete row.op then some .delete
        else none) source key =
      (ofKey key (changesOf source)).map fun change =>
        change.2.elim .delete MatchedAction.update := by
  rw [actionsOn, ofKey, changesOf, filter_filterMap, map_filterMap]
  congr 1
  funext row
  by_cases upsert : isUpsert row.op = true
  · by_cases same : row.key = key <;> simp [ChangelogRow.change, same, upsert, Option.filter]
  · by_cases delete : isDelete row.op = true
    · by_cases same : row.key = key <;>
        simp [ChangelogRow.change, same, upsert, delete, Option.filter]
    · simp [ChangelogRow.change, upsert, delete]

theorem notMatched_eq {keys : List (Key columns Value)} :
    (source.filterMap fun row => if row.key ∈ keys then none
      else (if isUpsert row.op then some row.rest else none).map (row.key, ·)) =
      (insertions (changesOf source)).filter fun entry => entry.1 ∉ keys := by
  rw [insertions_changesOf, ← filterMap_eq_map, filterMap_filter, filter_filterMap]
  congr 1
  funext row
  by_cases upsert : isUpsert row.op = true
  · by_cases known : row.key ∈ keys <;> simp [ChangelogRow.entry, known, upsert, Option.filter]
  · simp [upsert]

end

variable {staged : List (List (ChangelogRow columns Value))}

theorem attemptDeltaWrite_of_known
    (known : ∀ key ∈ table.keys, (ofKey key (changesOf staged.flatten)).length ≤ 1) :
    attemptDeltaWrite staged table.entries = .ok (mergedRows table (changesOf staged.flatten)) := by
  rw [attemptDeltaWrite, mergeChangelog]
  split
  · rename_i empty
    rw [isEmpty_iff.mp empty]
    exact congrArg Except.ok mergedRows_nil.symm
  · simp only [merge, actionsOn_eq, length_map]
    rw [if_neg]
    · congr 1
      refine congrArg₂ (· ++ ·) ?_ (notMatched_eq staged.flatten)
      apply filterMap_congr
      intro entry _
      cases ofKey entry.1 (changesOf staged.flatten) with
      | nil => rfl
      | cons change changes =>
        rcases change with ⟨key, value⟩
        cases value with
        | none | some => rfl
    · intro several
      obtain ⟨entry, among, more⟩ := any_eq_true.mp several
      have single := known entry.1 (mem_map_of_mem among)
      rw [decide_eq_true_eq] at more
      omega

theorem attemptDeltaWrite_of_several
    (several : ¬ ∀ key ∈ table.keys, (ofKey key (changesOf staged.flatten)).length ≤ 1) :
    attemptDeltaWrite staged table.entries =
      .error "multiple source rows match one target row" := by
  push Not at several
  obtain ⟨key, isKey, more⟩ := several
  have notEmpty : staged.flatten.isEmpty = false := by
    rw [isEmpty_eq_false_iff]
    intro empty
    rw [empty] at more
    simp [changesOf, ofKey] at more
  rw [attemptDeltaWrite, mergeChangelog, notEmpty]
  simp only [merge, actionsOn_eq, length_map, Bool.false_eq_true, if_false]
  rw [if_pos]
  obtain ⟨entry, among, rfl⟩ := mem_map.mp isKey
  exact any_eq_true.mpr ⟨entry, among, decide_eq_true more⟩

variable (known : ∀ key ∈ table.keys, (ofKey key changes).length ≤ 1)

include known in
theorem mem_matched_iff :
    (key, rest) ∈ table.entries.filterMap (fun entry =>
        match ofKey entry.1 changes with
        | [] => some entry
        | change :: _ => change.2.map (entry.1, ·)) ↔
      key ∈ table.keys ∧ (table.applyChanges changes).find? key = some rest := by
  rw [find?_applyChanges, last_eq_getLast?, mem_filterMap]
  constructor
  · rintro ⟨⟨other, value⟩, among, left⟩
    have isKnown : other ∈ table.keys := mem_map_of_mem among
    have single := known other isKnown
    cases isOfKey : ofKey other changes with
    | nil =>
      simp only [isOfKey] at left
      cases left
      refine ⟨isKnown, ?_⟩
      rw [isOfKey]
      exact find?_of_mem among
    | cons change others =>
      simp only [isOfKey, Option.map_eq_some_iff] at left
      obtain ⟨given, isGiven, same⟩ := left
      cases same
      have alone : others = [] := by
        rw [isOfKey, length_cons] at single
        exact eq_nil_of_length_eq_zero (by omega)
      refine ⟨isKnown, ?_⟩
      rw [isOfKey, alone, ← isGiven]
      rfl
  · rintro ⟨isKnown, found⟩
    have single := known key isKnown
    obtain ⟨⟨other, value⟩, among, same⟩ := mem_map.mp isKnown
    cases same
    refine ⟨(other, value), among, ?_⟩
    cases isOfKey : ofKey other changes with
    | nil =>
      rw [isOfKey] at found
      rw [find?_of_mem among] at found
      cases found
      rfl
    | cons change others =>
      have alone : others = [] := by
        rw [isOfKey, length_cons] at single
        exact eq_nil_of_length_eq_zero (by omega)
      rw [isOfKey, alone] at found
      exact Option.map_eq_some_iff.mpr ⟨rest, found, rfl⟩

include known in
theorem mem_mergedRows_iff :
    (key, rest) ∈ mergedRows table changes ↔
      (key ∈ table.keys ∧ (table.applyChanges changes).find? key = some rest) ∨
        ((key, some rest) ∈ changes ∧ key ∉ table.keys) := by
  rw [mergedRows, mem_append, mem_matched_iff known, mem_filter, mem_insertions, decide_eq_true_eq]

variable (table changes) in
theorem nodup_matched :
    ((table.entries.filterMap fun entry =>
        match ofKey entry.1 changes with
        | [] => some entry
        | change :: _ => change.2.map (entry.1, ·)).map Prod.fst).Nodup := by
  refine table.unique.sublist ?_
  induction table.entries with
  | nil => exact .slnil
  | cons entry entries ih =>
    rw [filterMap_cons]
    split
    · exact ih.trans (sublist_cons_self _ _)
    · rename_i result isResult
      have sameKey : result.1 = entry.1 := by
        split at isResult
        · cases isResult
          rfl
        · obtain ⟨rest, _, isRest⟩ := Option.map_eq_some_iff.mp isResult
          rw [← isRest]
      rw [map_cons, map_cons, sameKey]
      exact ih.cons_cons _

include known in
theorem nodup_mergedRows_iff :
    ((mergedRows table changes).map Prod.fst).Nodup ↔
      (((insertions changes).filter fun entry => entry.1 ∉ table.keys).map Prod.fst).Nodup := by
  rw [mergedRows, map_append, nodup_append]
  constructor
  · exact fun nodup => nodup.2.1
  · intro fresh
    refine ⟨nodup_matched table changes, fresh, ?_⟩
    intro key isMatched other isInserted same
    obtain ⟨⟨_, rest⟩, among, rfl⟩ := mem_map.mp isMatched
    obtain ⟨⟨_, rest'⟩, added, rfl⟩ := mem_map.mp isInserted
    have isKnown := ((mem_matched_iff known).mp among).1
    rw [mem_filter, decide_eq_true_eq] at added
    exact added.2 (same ▸ isKnown)

theorem MergeKeeps.find?_eq_some (keeps : MergeKeeps table changes)
    (inserted : (key, some rest) ∈ changes) (unknown : key ∉ table.keys) :
    (table.applyChanges changes).find? key = some rest := by
  obtain ⟨value, isLast⟩ := exists_last_of_mem inserted
  have notDeleted := keeps.kept key unknown (mem_map_of_mem (mem_insertions.mpr inserted))
  rw [find?_applyChanges, isLast, Option.getD_some]
  cases value with
  | none => exact absurd isLast notDeleted
  | some other =>
    have added : ∀ value, (key, some value) ∈ changes →
        (key, value) ∈ (insertions changes).filter fun entry => entry.1 ∉ table.keys := by
      intro value isAmong
      exact mem_filter.mpr ⟨mem_insertions.mpr isAmong, decide_eq_true unknown⟩
    have same := inj_on_of_nodup_map keeps.fresh (added other (mem_of_last isLast))
      (added rest inserted) rfl
    rw [(Prod.mk.inj same).2]

theorem attemptDeltaWrite_iff :
    MergesInOrder (attemptDeltaWrite staged table.entries) table staged.flatten ↔
      MergeKeeps table (changesOf staged.flatten) := by
  by_cases known : ∀ key ∈ table.keys, (ofKey key (changesOf staged.flatten)).length ≤ 1
  · rw [MergesInOrder, attemptDeltaWrite_of_known known]
    constructor
    · rintro ⟨after, isAfter, same⟩
      cases isAfter
      have nodup := (same.map Prod.fst).nodup_iff.mpr (table.applyChanges _).unique
      refine ⟨known, (nodup_mergedRows_iff known).mp nodup, ?_⟩
      intro key unknown inserted isLast
      obtain ⟨⟨_, rest⟩, among, rfl⟩ := mem_map.mp inserted
      have merged := (mem_mergedRows_iff known).mpr (.inr ⟨mem_insertions.mp among, unknown⟩)
      have found := mem_iff_find?.mp (same.mem_iff.mp merged)
      rw [find?_applyChanges, isLast] at found
      cases found
    · intro keeps
      refine ⟨_, rfl, (perm_ext_iff_of_nodup ?_ ?_).mpr ?_⟩
      · exact .of_map Prod.fst ((nodup_mergedRows_iff known).mpr keeps.fresh)
      · exact .of_map Prod.fst (table.applyChanges _).unique
      · rintro ⟨key, rest⟩
        rw [mem_mergedRows_iff known, mem_iff_find?]
        constructor
        · rintro (⟨_, found⟩ | ⟨inserted, unknown⟩)
          · exact found
          · exact keeps.find?_eq_some inserted unknown
        · intro found
          by_cases isKnown : key ∈ table.keys
          · exact .inl ⟨isKnown, found⟩
          · refine .inr ⟨?_, isKnown⟩
            rw [find?_applyChanges, find?_eq_none_iff.mpr isKnown] at found
            cases isLast : last (changesOf staged.flatten) key with
            | none =>
              rw [isLast] at found
              cases found
            | some value =>
              rw [isLast, Option.getD_some] at found
              rw [← found]
              exact mem_of_last isLast
  · rw [MergesInOrder, attemptDeltaWrite_of_several known]
    constructor
    · rintro ⟨after, isAfter, _⟩
      cases isAfter
    · intro keeps
      exact absurd keeps.known known

/-- The flush of a Postgres sink in changelog mode and the merge of a Delta Lake sink in upsert
mode apply the rows in their order exactly if the bulk statements do not depend on it. -/
theorem changelog_inOrder_iff (columns : KeyedColumns) (Value : Type) [DecidableEq Value]
    (table : Table columns Value) (batches : List (List (ChangelogRow columns Value))) :
    (∀ mode, AppliesInOrder (flushToClient ⟨mode, true⟩ batches table) table batches.flatten ↔
      PostgresKeeps ⟨mode, true⟩ table batches.flatten) ∧
    (MergesInOrder (attemptDeltaWrite batches table.entries) table batches.flatten ↔
      MergeKeeps table (changesOf batches.flatten)) := by
  constructor
  · intro mode
    exact flushToClient_iff rfl
  · exact attemptDeltaWrite_iff

def accounts : KeyedColumns where
  columns := ["id", "value"]
  keyColumns := ["id"]
  hasKey := by decide
  keysAmong := by decide

def account (op : String) (value : Nat) : ChangelogRow accounts Nat :=
  ⟨some op, fun _ => 1, fun _ => some value⟩

/-- A key that is deleted and inserted again in one flush is missing after it, and a key of the
table that is updated twice lets the merge fail. -/
theorem changelog_not_inOrder :
    ¬ AppliesInOrder (flushToClient ⟨.upsert, true⟩ [[account "D" 5, account "I" 6]]
        ⟨[(fun _ => 1, fun _ => some 5)], by decide⟩)
      ⟨[(fun _ => 1, fun _ => some 5)], by decide⟩ [account "D" 5, account "I" 6] ∧
    ¬ MergesInOrder (attemptDeltaWrite [[account "U" 6, account "U" 7]]
        [(fun _ => 1, fun _ => some 5)])
      ⟨[(fun _ => 1, fun _ => some 5)], by decide⟩ [account "U" 6, account "U" 7] := by
  constructor
  · rintro ⟨after, flushed, same⟩
    cases flushed
    exact absurd (same fun _ => 1) (by decide)
  · rintro ⟨after, merged, _⟩
    cases merged

end LaminarDB.Connectors.Changelog
