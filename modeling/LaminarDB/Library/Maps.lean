import Mathlib

/-!
# Finite maps with an order of iteration

`KeyedMap` keeps its entries in the order of first insertion, `SortedMap` in the order
of the keys. Neither can hold two entries of one key. A map is rebuilt by inserting
its entries one after the other.
-/

namespace LaminarDB.Library

open List

variable {Key Value : Type} {entry : Key × Value}

structure KeyedMap (Key Value : Type) where
  entries : List (Key × Value)
  unique : (entries.map Prod.fst).Nodup

namespace KeyedMap

@[ext]
theorem ext {left right : KeyedMap Key Value} (same : left.entries = right.entries) :
    left = right := by
  cases right
  cases same
  rfl

def empty : KeyedMap Key Value := ⟨[], nodup_nil⟩

variable (map : KeyedMap Key Value)

def size : Nat := map.entries.length

def keys : List Key := map.entries.map Prod.fst

def mapValues {Other : Type} (change : Value → Other) (map : KeyedMap Key Value) :
    KeyedMap Key Other where
  entries := map.entries.map fun entry => (entry.1, change entry.2)
  unique := by simpa [Function.comp_def] using map.unique

section Lookup

variable [DecidableEq Key]

def find? (map : KeyedMap Key Value) (key : Key) : Option Value :=
  map.entries.lookup key

def upsert (key : Key) (value : Value) : List (Key × Value) → List (Key × Value)
  | [] => [(key, value)]
  | entry :: rest =>
    if entry.1 = key then (key, value) :: rest else entry :: upsert key value rest

variable {value : Value} {entries : List (Key × Value)} {key other : Key}

theorem mem_keys_upsert :
    other ∈ (upsert key value entries).map Prod.fst ↔
      other = key ∨ other ∈ entries.map Prod.fst := by
  induction entries with
  | nil => simp [upsert]
  | cons entry rest ih =>
    by_cases found : entry.1 = key
    · simp [upsert, found]
    · rw [upsert, if_neg found, map_cons, mem_cons, ih, map_cons, mem_cons, or_left_comm]

theorem upsert_perm (unique : (entries.map Prod.fst).Nodup) :
    (upsert key value entries).Perm
      ((key, value) :: entries.filter fun entry => entry.1 ≠ key) := by
  induction entries with
  | nil => exact .refl _
  | cons entry rest ih =>
    rw [map_cons, nodup_cons] at unique
    rw [upsert]
    split
    · rename_i found
      have others : rest.filter (fun other => decide (other.1 ≠ key)) = rest := by
        refine filter_eq_self.mpr fun other mem => decide_eq_true fun same => ?_
        exact unique.1 (found ▸ same ▸ mem_map_of_mem mem)
      rw [filter_cons_of_neg (by simpa using found), others]
    · rename_i differs
      rw [filter_cons_of_pos (by simpa using differs)]
      exact ((ih unique.2).cons entry).trans (.swap _ _ _)

theorem nodup_upsert (unique : (entries.map Prod.fst).Nodup) :
    ((upsert key value entries).map Prod.fst).Nodup := by
  rw [((upsert_perm unique).map Prod.fst).nodup_iff, map_cons, nodup_cons]
  refine ⟨fun mem => ?_, unique.sublist (filter_sublist.map _)⟩
  obtain ⟨entry, kept, same⟩ := mem_map.mp mem
  exact of_decide_eq_true (mem_filter.mp kept).2 same

theorem upsert_of_notMem (fresh : key ∉ entries.map Prod.fst) :
    upsert key value entries = entries ++ [(key, value)] := by
  induction entries with
  | nil => rfl
  | cons entry rest ih =>
    rw [map_cons, mem_cons, not_or] at fresh
    rw [upsert, if_neg fun same => fresh.1 same.symm, ih fresh.2, cons_append]

theorem length_upsert_of_mem
    (known : key ∈ entries.map Prod.fst) : (upsert key value entries).length = entries.length := by
  induction entries with
  | nil => cases known
  | cons entry rest ih =>
    rw [upsert]
    split
    · rfl
    · rename_i differs
      rw [map_cons, mem_cons] at known
      rw [length_cons, length_cons, ih (known.resolve_left (Ne.symm differs))]

def insert (map : KeyedMap Key Value) (key : Key) (value : Value) : KeyedMap Key Value where
  entries := upsert key value map.entries
  unique := nodup_upsert map.unique

variable {map : KeyedMap Key Value}

theorem mem_insert (mem : entry ∈ (map.insert key value).entries) :
    entry = (key, value) ∨ entry ∈ map.entries :=
  (mem_cons.mp ((upsert_perm map.unique).mem_iff.mp mem)).imp_right mem_of_mem_filter

theorem mem_of_find? (found : map.find? key = some value) : (key, value) ∈ map.entries := by
  obtain ⟨front, back, split, -⟩ := lookup_eq_some_iff.mp found
  simp [split]

omit [DecidableEq Key] in
theorem eq_of_mem {left right : Key × Value}
    (inLeft : left ∈ map.entries) (inRight : right ∈ map.entries) (same : left.1 = right.1) :
    left = right :=
  inj_on_of_nodup_map map.unique inLeft inRight same

theorem find?_of_mem (mem : (key, value) ∈ map.entries) : map.find? key = some value := by
  cases found : map.find? key with
  | none =>
    have missing := lookup_eq_none_iff.mp found _ mem
    simp at missing
  | some other => rw [(Prod.mk.inj (eq_of_mem (mem_of_find? found) mem rfl)).2]

theorem mem_iff_find? : (key, value) ∈ map.entries ↔ map.find? key = some value :=
  ⟨find?_of_mem, mem_of_find?⟩

theorem notMem_of_find? (missing : map.find? key = none) : key ∉ map.entries.map Prod.fst := by
  intro known
  obtain ⟨entry, mem, rfl⟩ := mem_map.mp known
  cases missing.symm.trans (find?_of_mem mem)

@[simp]
theorem find?_empty : (empty : KeyedMap Key Value).find? key = none := rfl

theorem lookup_upsert :
    (upsert key value entries).lookup other =
      if other = key then some value else entries.lookup other := by
  induction entries with
  | nil =>
    by_cases same : other = key
    · simp [upsert, same]
    · simp [upsert, lookup, beq_eq_false_iff_ne.mpr same, same]
  | cons entry rest ih =>
    by_cases found : entry.1 = key
    · rw [upsert, if_pos found, lookup_cons, lookup_cons, found]
      by_cases same : other = key
      · simp [same]
      · simp [beq_eq_false_iff_ne.mpr same, same]
    · rw [upsert, if_neg found, lookup_cons, lookup_cons, ih]
      by_cases same : other = key
      · subst same
        simp [beq_eq_false_iff_ne.mpr (Ne.symm found)]
      · simp [same]

section

variable (map : KeyedMap Key Value)

theorem find?_insert (key other : Key) (value : Value) :
    (map.insert key value).find? other = if other = key then some value else map.find? other :=
  lookup_upsert

variable (key : Key)

theorem insert_ne_nil : (map.insert key value).entries ≠ [] := by
  intro isEmpty
  have known : key ∈ ((map.insert key value).entries.map Prod.fst) := mem_keys_upsert.mpr (.inl rfl)
  rw [isEmpty] at known
  cases known

def erase : KeyedMap Key Value where
  entries := map.entries.filter fun entry => entry.1 ≠ key
  unique := map.unique.sublist (filter_sublist.map _)

theorem find?_erase (key : Key) :
    (map.erase key).find? other = if other = key then none else map.find? other := by
  apply Option.ext
  intro value
  rw [← mem_iff_find?]
  by_cases same : other = key
  · simp [erase, same]
  · rw [if_neg same, ← mem_iff_find?]
    simp [erase, same]

def eraseAll {Element : Type} (keyOf : Element → Key) (selects : Element → Bool)
    (elements : List Element) (map : KeyedMap Key Value) : KeyedMap Key Value :=
  elements.foldl (fun map element => if selects element then map.erase (keyOf element) else map) map

theorem find?_eraseAll {Element : Type} [DecidableEq Element] {keyOf : Element → Key}
    (injective : Function.Injective keyOf) {selects : Element → Bool} {elements : List Element}
    (map : KeyedMap Key Value) {element : Element} :
    (eraseAll keyOf selects elements map).find? (keyOf element) =
      if element ∈ elements ∧ selects element = true then none
      else map.find? (keyOf element) := by
  induction elements generalizing map with
  | nil => simp [eraseAll]
  | cons first elements ih =>
    refine (ih _).trans ?_
    by_cases isFirst : element = first
    · subst isFirst
      by_cases selected : selects element = true
      · simp [selected, find?_erase]
      · simp [selected]
    · have differs : keyOf element ≠ keyOf first := fun same => isFirst (injective same)
      have kept : (if selects first = true then map.erase (keyOf first) else map).find?
          (keyOf element) = map.find? (keyOf element) := by
        split
        · rw [find?_erase, if_neg differs]
        · rfl
      rw [kept]
      simp [isFirst]

theorem insert_perm (value : Value) :
    (map.insert key value).entries.Perm ((key, value) :: (map.erase key).entries) :=
  upsert_perm map.unique

theorem erase_perm :
    map.entries.Perm (((map.find? key).elim [] fun value => [(key, value)]) ++
      (map.erase key).entries) := by
  cases found : map.find? key with
  | none =>
    refine .of_eq (filter_eq_self.mpr fun entry mem => decide_eq_true ?_).symm
    exact fun same => notMem_of_find? found (same ▸ mem_map_of_mem mem)
  | some value =>
    refine (perm_ext_iff_of_nodup ?_ ?_).mpr fun entry => ?_
    · exact Nodup.of_map Prod.fst map.unique
    · refine nodup_cons.mpr ⟨fun mem => ?_, ?_⟩
      · simp [erase] at mem
      · exact Nodup.of_map Prod.fst (map.erase key).unique
    · change _ ↔ entry ∈ (key, value) :: (map.erase key).entries
      have present := mem_of_find? found
      simp only [erase, mem_cons, mem_filter, decide_eq_true_eq]
      constructor
      · intro mem
        by_cases same : entry.1 = key
        · exact .inl (eq_of_mem mem present same)
        · exact .inr ⟨mem, same⟩
      · rintro (rfl | ⟨mem, -⟩)
        · exact present
        · exact mem

end

variable (map : KeyedMap Key Value)

theorem entries_foldl_insert (added : List (Key × Value))
    (unique : ((map.entries ++ added).map Prod.fst).Nodup) :
    (added.foldl (fun map entry => map.insert entry.1 entry.2) map).entries =
      map.entries ++ added := by
  induction added generalizing map with
  | nil => simp
  | cons entry added ih =>
    have fresh : entry.1 ∉ map.entries.map Prod.fst := by
      intro mem
      rw [map_append, nodup_append] at unique
      exact unique.2.2 _ mem _ (by simp) rfl
    have inserted : (map.insert entry.1 entry.2).entries = map.entries ++ [entry] :=
      upsert_of_notMem fresh
    rw [foldl_cons, ih _ (by simpa [inserted] using unique), inserted,
      append_assoc, singleton_append]

end Lookup

end KeyedMap

structure SortedMap (Key Value : Type) [LinearOrder Key] where
  entries : List (Key × Value)
  sorted : (entries.map Prod.fst).Pairwise (· < ·)

namespace SortedMap

variable [LinearOrder Key]

@[ext]
theorem ext {left right : SortedMap Key Value} (same : left.entries = right.entries) :
    left = right := by
  cases right
  cases same
  rfl

def empty : SortedMap Key Value := ⟨[], Pairwise.nil⟩

variable (map : SortedMap Key Value)

def size : Nat := map.entries.length

def find? (key : Key) : Option Value :=
  map.entries.lookup key

def place (key : Key) (value : Value) : List (Key × Value) → List (Key × Value)
  | [] => [(key, value)]
  | entry :: rest =>
    if key < entry.1 then (key, value) :: entry :: rest
    else if key = entry.1 then (key, value) :: rest
    else entry :: place key value rest

variable {value : Value} {entries : List (Key × Value)} {key : Key}

theorem place_perm (sorted : (entries.map Prod.fst).Pairwise (· < ·)) :
    (place key value entries).Perm ((key, value) :: entries.filter fun entry => entry.1 ≠ key) := by
  induction entries with
  | nil => exact .refl _
  | cons entry rest ih =>
    rw [map_cons, pairwise_cons] at sorted
    have later : ∀ other ∈ rest, entry.1 < other.1 := fun other mem =>
      sorted.1 _ (mem_map_of_mem mem)
    rw [place]
    split
    · rename_i less
      rw [filter_cons_of_pos (by simpa using ne_of_gt less),
        filter_eq_self.mpr fun other mem =>
          decide_eq_true (ne_of_gt (lt_trans less (later other mem)))]
    · split
      · rename_i same
        rw [filter_cons_of_neg (by simp [same]), filter_eq_self.mpr
          fun other mem => decide_eq_true (same ▸ ne_of_gt (later other mem))]
      · rename_i differs
        rw [filter_cons_of_pos (by simpa using Ne.symm differs)]
        exact ((ih sorted.2).cons entry).trans (.swap _ _ _)

theorem sorted_place (sorted : (entries.map Prod.fst).Pairwise (· < ·)) :
    ((place key value entries).map Prod.fst).Pairwise (· < ·) := by
  induction entries with
  | nil => simp [place]
  | cons entry rest ih =>
    rw [map_cons, pairwise_cons] at sorted
    have placed := (@place_perm _ _ _ value _ key sorted.2).map Prod.fst
    rw [place]
    by_cases less : key < entry.1
    · rw [if_pos less, map_cons, map_cons, pairwise_cons, pairwise_cons]
      refine ⟨fun other mem => ?_, sorted⟩
      rcases mem_cons.mp mem with isHead | inRest
      · exact isHead ▸ less
      · exact lt_trans less (sorted.1 other inRest)
    · rw [if_neg less]
      by_cases same : key = entry.1
      · rw [if_pos same, map_cons, pairwise_cons]
        exact ⟨same ▸ sorted.1, sorted.2⟩
      · rw [if_neg same, map_cons, pairwise_cons]
        refine ⟨fun other mem => ?_, ih sorted.2⟩
        rcases mem_cons.mp (placed.mem_iff.mp mem) with isKey | inRest
        · exact isKey ▸ lt_of_le_of_ne (not_lt.mp less) (Ne.symm same)
        · exact sorted.1 other (map_subset _ (filter_subset_self _) inRest)

theorem place_of_greatest (greatest : ∀ other ∈ entries.map Prod.fst, other < key) :
    place key value entries = entries ++ [(key, value)] := by
  induction entries with
  | nil => rfl
  | cons entry rest ih =>
    have less := greatest entry.1 (by simp)
    rw [place, if_neg (not_lt_of_gt less), if_neg (ne_of_gt less), cons_append, ih]
    exact (forall_mem_cons.mp greatest).2

def insert (map : SortedMap Key Value) (key : Key) (value : Value) : SortedMap Key Value where
  entries := place key value map.entries
  sorted := sorted_place map.sorted

variable {map : SortedMap Key Value}

theorem mem_insert_iff : entry ∈ (map.insert key value).entries ↔
      entry = (key, value) ∨ entry ∈ map.entries ∧ entry.1 ≠ key := by
  rw [insert, (place_perm map.sorted).mem_iff, mem_cons, mem_filter, decide_eq_true_eq]

theorem mem_insert (mem : entry ∈ (map.insert key value).entries) :
    entry = (key, value) ∨ entry ∈ map.entries :=
  (mem_insert_iff.mp mem).imp_right And.left

/-- The same entries, whose order is forgotten. -/
def toKeyed (map : SortedMap Key Value) : KeyedMap Key Value :=
  ⟨map.entries, map.sorted.imp ne_of_lt⟩

theorem mem_iff_find? : (key, value) ∈ map.entries ↔ map.find? key = some value :=
  @KeyedMap.mem_iff_find? _ _ _ value key map.toKeyed

theorem mem_of_find? (found : map.find? key = some value) : (key, value) ∈ map.entries :=
  mem_iff_find?.mpr found

theorem find?_of_mem (mem : (key, value) ∈ map.entries) : map.find? key = some value :=
  mem_iff_find?.mp mem

def erase (map : SortedMap Key Value) (key : Key) : SortedMap Key Value where
  entries := map.entries.filter fun entry => entry.1 ≠ key
  sorted := map.sorted.sublist (filter_sublist.map _)

theorem mem_erase_iff : entry ∈ (map.erase key).entries ↔ entry ∈ map.entries ∧ entry.1 ≠ key := by
  simp [erase]

theorem insert_perm (map : SortedMap Key Value) (key : Key) (value : Value) :
    (map.insert key value).entries.Perm ((key, value) :: (map.erase key).entries) :=
  place_perm map.sorted

theorem eq_of_mem {left right : Key × Value}
    (inLeft : left ∈ map.entries) (inRight : right ∈ map.entries) (same : left.1 = right.1) :
    left = right :=
  @KeyedMap.eq_of_mem _ _ map.toKeyed _ _ inLeft inRight same

theorem erase_perm (map : SortedMap Key Value) (key : Key) :
    map.entries.Perm (((map.find? key).elim [] fun value => [(key, value)]) ++
      (map.erase key).entries) :=
  map.toKeyed.erase_perm key

theorem find?_insert (map : SortedMap Key Value) (key other : Key) (value : Value) :
    (map.insert key value).find? other = if other = key then some value else map.find? other := by
  apply Option.ext
  intro found
  rw [← mem_iff_find?, mem_insert_iff]
  by_cases same : other = key
  · simp [same, eq_comm]
  · rw [if_neg same, ← mem_iff_find?]
    simp [same]

theorem mem_of_mem_erase (mem : entry ∈ (map.erase key).entries) : entry ∈ map.entries :=
  mem_of_mem_filter mem

def ofEntries (entries : List (Key × Value)) : SortedMap Key Value :=
  entries.foldl (fun map entry => map.insert entry.1 entry.2) empty

variable (map : SortedMap Key Value)

theorem entries_foldl_insert (added : List (Key × Value))
    (sorted : ((map.entries ++ added).map Prod.fst).Pairwise (· < ·)) :
    (added.foldl (fun map entry => map.insert entry.1 entry.2) map).entries =
      map.entries ++ added := by
  induction added generalizing map with
  | nil => simp
  | cons entry added ih =>
    have greatest : ∀ other ∈ map.entries.map Prod.fst, other < entry.1 := by
      intro other mem
      rw [map_append, pairwise_append] at sorted
      exact sorted.2.2 other mem _ (by simp)
    have inserted : (map.insert entry.1 entry.2).entries = map.entries ++ [entry] :=
      place_of_greatest greatest
    rw [foldl_cons, ih _ (by simpa [inserted] using sorted), inserted,
      append_assoc, singleton_append]

theorem ofEntries_entries : ofEntries map.entries = map := by
  apply ext
  exact entries_foldl_insert empty map.entries map.sorted

end SortedMap

end LaminarDB.Library
