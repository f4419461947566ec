import LaminarDB.Library.Maps

/-!
# Changes of a keyed map

A change gives a key a value or deletes it. Changes that are applied one after the other leave
each key with its last change.
-/

namespace LaminarDB.Library

open List

variable {Key Value : Type}

abbrev Change (Key Value : Type) := Key × Option Value

namespace Change

def insertion (entry : Key × Value) : Change Key Value := (entry.1, some entry.2)

variable (changes : List (Change Key Value))

def insertions : List (Key × Value) :=
  changes.filterMap fun change => change.2.map (change.1, ·)

def deletions : List Key :=
  changes.filterMap fun change => if change.2.isNone then some change.1 else none

variable {changes : List (Change Key Value)} {key : Key}

theorem mem_insertions {value : Value} :
    (key, value) ∈ insertions changes ↔ (key, some value) ∈ changes := by
  simp only [insertions, mem_filterMap, Option.map_eq_some_iff]
  constructor
  · rintro ⟨⟨key', value'⟩, among, value'', rfl, same⟩
    cases same
    exact among
  · intro among
    exact ⟨_, among, value, rfl, rfl⟩

variable [DecidableEq Key]

variable (changes key) in
def last : Option (Option Value) :=
  changes.reverse.lookup key

def ofKey (key : Key) (changes : List (Change Key Value)) : List (Change Key Value) :=
  changes.filter fun change => change.1 = key

theorem last_concat {change : Change Key Value} :
    last (changes ++ [change]) key =
      if key = change.1 then some change.2 else last changes key := by
  rw [last, reverse_append, reverse_singleton, singleton_append, lookup_cons]
  by_cases same : key = change.1
  · simp [same]
  · simp [beq_eq_false_iff_ne.mpr same, same, last]

variable {value : Option Value}

theorem mem_of_last (isLast : last changes key = some value) : (key, value) ∈ changes := by
  obtain ⟨front, back, split, -⟩ := lookup_eq_some_iff.mp isLast
  rw [← mem_reverse, split]
  simp

theorem notMem_of_last_eq_none (isLast : last changes key = none) : (key, value) ∉ changes := by
  intro among
  simpa using lookup_eq_none_iff.mp isLast _ (mem_reverse.mpr among)

theorem exists_last_of_mem (among : (key, value) ∈ changes) :
    ∃ value', last changes key = some value' := by
  cases isLast : last changes key with
  | none => exact absurd among (notMem_of_last_eq_none isLast)
  | some value' => exact ⟨value', rfl⟩

variable (changes key) in
theorem last_eq_getLast? : last changes key = (ofKey key changes).getLast?.map Prod.snd := by
  induction changes using List.reverseRecOn with
  | nil => rfl
  | append_singleton changes change ih =>
    rw [last_concat, ofKey, filter_append]
    by_cases same : key = change.1
    · simp [same]
    · have other : ([change].filter fun change => change.1 = key) = [] := by
        simp [Ne.symm same]
      rw [if_neg same, other, append_nil, ih]
      rfl

theorem last_insertions (kept : key ∉ deletions changes) :
    last ((insertions changes).map insertion) key = last changes key := by
  induction changes using List.reverseRecOn with
  | nil => rfl
  | append_singleton changes change ih =>
    rcases change with ⟨changed, value⟩
    have keptBefore : key ∉ deletions changes := by
      intro deleted
      apply kept
      rw [deletions, filterMap_append]
      exact mem_append_left _ deleted
    rw [last_concat]
    cases value with
    | none =>
      have differs : key ≠ changed := by
        rintro rfl
        exact kept (mem_filterMap.mpr ⟨_, mem_concat_self, rfl⟩)
      have same : insertions (changes ++ [(changed, none)]) = insertions changes := by
        rw [insertions, filterMap_append]
        exact append_nil _
      rw [if_neg differs, same]
      exact ih keptBefore
    | some value =>
      have more : insertions (changes ++ [(changed, some value)]) =
          insertions changes ++ [(changed, value)] := by
        rw [insertions, filterMap_append]
        rfl
      rw [more, map_append, map_singleton, last_concat, ih keptBefore]
      rfl

end Change

namespace KeyedMap

open Change

variable [DecidableEq Key]

def change (map : KeyedMap Key Value) (change : Change Key Value) : KeyedMap Key Value :=
  match change.2 with
  | some value => map.insert change.1 value
  | none => map.erase change.1

variable (map : KeyedMap Key Value) (changes : List (Change Key Value))

def applyChanges : KeyedMap Key Value :=
  changes.foldl change map

theorem find?_change {change : Change Key Value} {key : Key} :
    (map.change change).find? key = if key = change.1 then change.2 else map.find? key := by
  rcases change with ⟨changed, value⟩
  cases value with
  | none => exact map.find?_erase changed
  | some value => exact map.find?_insert changed key value

theorem find?_applyChanges (key : Key) :
    (map.applyChanges changes).find? key = (last changes key).getD (map.find? key) := by
  induction changes using List.reverseRecOn with
  | nil => rfl
  | append_singleton changes change ih =>
    rw [applyChanges, foldl_concat, find?_change, last_concat]
    by_cases same : key = change.1
    · rw [if_pos same, if_pos same, Option.getD_some]
    · rw [if_neg same, if_neg same]
      exact ih

theorem mem_keys_iff {map : KeyedMap Key Value} {key : Key} :
    key ∈ map.keys ↔ ∃ value, map.find? key = some value := by
  simp only [keys, mem_map, ← mem_iff_find?]
  constructor
  · rintro ⟨⟨key', value⟩, among, rfl⟩
    exact ⟨value, among⟩
  · rintro ⟨value, among⟩
    exact ⟨(key, value), among, rfl⟩

theorem find?_eq_none_iff {map : KeyedMap Key Value} {key : Key} :
    map.find? key = none ↔ key ∉ map.keys := by
  rw [mem_keys_iff, Option.eq_none_iff_forall_ne_some, not_exists]

variable (entries : List (Key × Value))

section

variable (map : KeyedMap Key Value)

def insertAll : KeyedMap Key Value :=
  entries.foldl (fun map entry => map.insert entry.1 entry.2) map

theorem insertAll_eq_applyChanges :
    insertAll entries map = map.applyChanges (entries.map insertion) := by
  rw [insertAll, applyChanges, foldl_map]
  rfl

theorem find?_insertAll (key : Key) :
    (insertAll entries map).find? key =
      (last (entries.map insertion) key).getD (map.find? key) := by
  rw [insertAll_eq_applyChanges, find?_applyChanges]

end

def insertNew (entry : Key × Value) : KeyedMap Key Value :=
  if (map.find? entry.1).isNone then map.insert entry.1 entry.2 else map

def insertMissing (map : KeyedMap Key Value) : KeyedMap Key Value :=
  entries.foldl insertNew map

variable {left right : KeyedMap Key Value}

theorem find?_insertNew [Subsingleton Value]
    (same : ∀ key, left.find? key = right.find? key) {entry : Key × Value} (key : Key) :
    (left.insertNew entry).find? key = (right.insert entry.1 entry.2).find? key := by
  rw [insertNew, find?_insert]
  split
  · rw [find?_insert, same]
  · rename_i present
    by_cases isEntry : key = entry.1
    · rw [if_pos isEntry, isEntry]
      cases found : left.find? entry.1 with
      | none => exact absurd (by rw [found]; rfl) present
      | some value => rw [Subsingleton.elim value entry.2]
    · rw [if_neg isEntry, same]

theorem find?_insertMissing [Subsingleton Value] {entries : List (Key × Value)}
    (same : ∀ key, left.find? key = right.find? key)
    (key : Key) : (insertMissing entries left).find? key = (insertAll entries right).find? key := by
  induction entries generalizing left right with
  | nil => exact same key
  | cons entry entries ih =>
    apply ih
    exact find?_insertNew same

def filterKeys (selects : Key → Bool) (map : KeyedMap Key Value) : KeyedMap Key Value where
  entries := map.entries.filter fun entry => selects entry.1
  unique := map.unique.sublist (List.filter_sublist.map _)

theorem find?_filterKeys (selects : Key → Bool) (map : KeyedMap Key Value) (key : Key) :
    (map.filterKeys selects).find? key = if selects key then map.find? key else none := by
  apply Option.ext
  intro value
  rw [← mem_iff_find?, filterKeys, mem_filter]
  by_cases selected : selects key = true
  · rw [if_pos selected, mem_iff_find?]
    exact and_iff_left selected
  · rw [if_neg selected]
    constructor
    · exact fun among => absurd among.2 selected
    · exact nofun

end KeyedMap

end LaminarDB.Library
